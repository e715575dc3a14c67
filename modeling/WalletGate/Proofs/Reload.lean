import WalletGate.Settings.Live

/-!
# What is in force after any number of reloads

Settings are put in force by a load and replaced by reloads.  In between the files change in
any way: they are written one at a time or several at once, they are broken, removed and
repaired, the whole directory goes away and comes back.  Some of these changes are followed
by a reload at once, since the directory is watched; a reload can also come at any later
time, on request or because a change was noticed late.

A run is a list of events, the latest first.  Of every directory that was loaded in the
course of it, the run counts the last one that held valid settings.  Those are the settings
in force: a reload that finds such settings publishes them, and everything else leaves the
settings alone.

* `SettingsDirectory.loadValid_eq_ok_iff` — what a directory has to hold for a load of it to
  succeed;
* `LiveSettings.Reloads` — what a reload tells and does, compared with a fresh load;
* `LiveSettings.perform_publishes_or_keeps` — the same for an event, whether it asks for a
  reload or is noticed;
* `LiveSettings.inForce_after` — the settings in force are those of the last good directory,
  whatever happened.
-/

namespace WalletGate

namespace SettingsDirectory

/-- A directory holds settings: they can be loaded from it, and they are valid. -/
def Holds (d : SettingsDirectory) (s : Settings) : Prop :=
  d.load = .ok s ∧ s.validate = .ok ()

/-- **A load succeeds exactly with the settings the directory holds.** -/
theorem loadValid_eq_ok_iff {d : SettingsDirectory} {s : Settings} :
    d.loadValid = .ok s ↔ d.Holds s := by
  unfold Holds loadValid
  cases hload : d.load with
  | error fault =>
    constructor
    · intro h
      exact nomatch h
    · rintro ⟨h, -⟩
      exact nomatch h
  | ok t =>
    change (t.validate.bind fun _ => .ok t) = .ok s ↔ _
    cases hvalid : t.validate with
    | error fault =>
      constructor
      · intro h
        exact nomatch h
      · rintro ⟨h, hs⟩
        cases h
        rw [hvalid] at hs
        exact nomatch hs
    | ok u =>
      constructor
      · intro h
        cases h
        exact ⟨rfl, hvalid⟩
      · rintro ⟨h, -⟩
        exact h

/-- A directory holds at most one record of settings. -/
theorem Holds.unique {d : SettingsDirectory} {s t : Settings} (hs : d.Holds s)
    (ht : d.Holds t) : s = t :=
  Except.ok.inj (hs.1.symm.trans ht.1)

/-- Whether settings are held can be told from a load. -/
theorem isOk_loadValid_iff {d : SettingsDirectory} : d.loadValid.isOk = true ↔ ∃ s, d.Holds s := by
  cases h : d.loadValid with
  | error fault =>
    constructor
    · intro hok
      exact nomatch hok
    · rintro ⟨s, hs⟩
      rw [← loadValid_eq_ok_iff, h] at hs
      exact nomatch hs
  | ok s => exact ⟨fun _ => ⟨s, loadValid_eq_ok_iff.1 h⟩, fun _ => rfl⟩

/-- Makes the directory where there is none, with no file in it. -/
def create (d : SettingsDirectory) : SettingsDirectory :=
  if d.isThere then d else { d with isThere := true, queue := .absent, networks := .absent }

end SettingsDirectory

namespace LiveSettings

/-- What can happen to settings in force and to their directory. -/
inductive Event where
  /-- Files are written, replaced or removed; nobody notices yet. -/
  | write (files : List (SettingsPart × SettingsFile))
  /-- Files are written, replaced or removed; if the directory is watched, that is noticed
  at once. -/
  | put (files : List (SettingsPart × SettingsFile))
  /-- The directory goes away with all it holds. -/
  | removeDirectory
  /-- The directory is made again. -/
  | createDirectory
  /-- The directory is watched from now on. -/
  | watch
  /-- A reload, on request or because something was noticed. -/
  | reload

/-- What an event does. -/
def Event.perform : Event → LiveSettings → LiveSettings
  | write files, l => l.write files
  | put files, l => l.put files
  | removeDirectory, l => l.removeDirectory
  | createDirectory, l => { l with directory := l.directory.create }
  | watch, l => l.watch.2
  | reload, l => l.reload.2

/-- The directory an event loads anew, if it loads any. -/
def Event.loads? : Event → LiveSettings → Option SettingsDirectory
  | put files, l => if l.isWatched then some (l.write files).directory else none
  | reload, l => some l.directory
  | _, _ => none

/-- The state after a run. -/
def after (first : LiveSettings) : List Event → LiveSettings
  | [] => first
  | e :: past => e.perform (first.after past)

/-- The last directory that was loaded and held valid settings, as it was then. -/
def lastGood (first : LiveSettings) : List Event → SettingsDirectory
  | [] => first.directory
  | e :: past =>
    match e.loads? (first.after past) with
    | some d => if d.loadValid.isOk then d else first.lastGood past
    | none => first.lastGood past

/-- A start puts in force what the directory holds. -/
theorem start_eq_ok_iff {d : SettingsDirectory} {l : LiveSettings} :
    start d = .ok l ↔ d.Holds l.current ∧ l = ⟨d, l.current, 0, false⟩ := by
  unfold start
  constructor
  · intro h
    cases hload : d.loadValid with
    | error fault =>
      rw [hload] at h
      exact nomatch h
    | ok s =>
      rw [hload] at h
      cases h
      exact ⟨SettingsDirectory.loadValid_eq_ok_iff.1 hload, rfl⟩
  · rintro ⟨hholds, hl⟩
    rw [SettingsDirectory.loadValid_eq_ok_iff.2 hholds, hl]
    rfl

/-- A reload publishes the settings the directory holds. -/
theorem reload_of_holds {l : LiveSettings} {s : Settings} (h : l.directory.Holds s) :
    l.reload = ((true, .reloaded), l.publish s) := by
  obtain ⟨hload, hvalid⟩ := h
  simp only [reload, hload, hvalid]

/-- A reload of a directory that holds no valid settings tells so and changes nothing. -/
theorem reload_of_not_holds {l : LiveSettings} (h : ∀ s, ¬ l.directory.Holds s) :
    l.reload.1.1 = false ∧ l.reload.2 = l := by
  unfold reload
  split
  · exact ⟨rfl, rfl⟩
  · next s hload =>
    split
    · exact ⟨rfl, rfl⟩
    · next hvalid => exact absurd ⟨hload, hvalid⟩ (h s)

/-- What a reload tells and does. -/
structure Reloads (l : LiveSettings) : Prop where
  /-- It tells of a success exactly if settings can be loaded and are valid. -/
  told : l.reload.1.1 = true ↔ ∃ s, l.directory.load = .ok s ∧ s.validate = .ok ()
  /-- It publishes exactly if it tells of a success. -/
  counted : l.reload.2.publications = l.publications + 1 ↔ l.reload.1.1 = true
  /-- A fresh start from the directory succeeds under the same condition, and with the
  settings that are published. -/
  fresh : ∀ s, l.reload.1.1 = true ∧ l.reload.2.current = s ↔ ∃ k, start l.directory = .ok k ∧
    k.current = s
  /-- Otherwise nothing changes. -/
  kept : l.reload.1.1 = false → l.reload.2 = l

/-- **A reload publishes what a fresh start would put in force**, and changes nothing where
no start would succeed. -/
theorem reload_reloads (l : LiveSettings) : l.Reloads := by
  by_cases hholds : ∃ s, l.directory.Holds s
  · obtain ⟨s, hs⟩ := hholds
    have hreload := reload_of_holds hs
    refine ⟨?_, ?_, ?_, ?_⟩ <;> rw [hreload]
    · exact ⟨fun _ => ⟨s, hs⟩, fun _ => rfl⟩
    · exact ⟨fun _ => rfl, fun _ => rfl⟩
    · intro t
      constructor
      · rintro ⟨-, rfl⟩
        exact ⟨⟨l.directory, s, 0, false⟩, start_eq_ok_iff.2 ⟨hs, rfl⟩, rfl⟩
      · rintro ⟨k, hk, rfl⟩
        exact ⟨rfl, hs.unique (start_eq_ok_iff.1 hk).1⟩
    · intro h
      exact nomatch h
  · rw [not_exists] at hholds
    obtain ⟨hfalse, hkept⟩ := reload_of_not_holds hholds
    refine ⟨?_, ?_, ?_, fun _ => hkept⟩ <;> rw [hfalse]
    · constructor
      · intro h
        exact nomatch h
      · rintro ⟨s, hs⟩
        exact absurd hs (hholds s)
    · rw [hkept]
      constructor
      · intro h
        omega
      · intro h
        exact nomatch h
    · intro s
      constructor
      · rintro ⟨h, -⟩
        exact nomatch h
      · rintro ⟨k, hk, rfl⟩
        exact absurd (start_eq_ok_iff.1 hk).1 (hholds k.current)

/-- An event replaces the settings by others. -/
def Event.Publishes (e : Event) (l : LiveSettings) (s : Settings) : Prop :=
  (e.perform l).current = s ∧ (e.perform l).publications = l.publications + 1

/-- An event leaves the settings alone. -/
def Event.Keeps (e : Event) (l : LiveSettings) : Prop :=
  (e.perform l).current = l.current ∧ (e.perform l).publications = l.publications

/-- To have the directory watched does not touch the settings. -/
theorem watch_settings (l : LiveSettings) :
    l.watch.2.current = l.current ∧ l.watch.2.publications = l.publications := by
  unfold LiveSettings.watch
  split <;> exact ⟨rfl, rfl⟩

/-- Files that are written into a watched directory are loaded; into another they are only
written. -/
theorem Event.put_cases (files : List (SettingsPart × SettingsFile)) (l : LiveSettings) :
    (put files).loads? l = some (l.write files).directory ∧ (put files).perform l
      = (l.write files).reload.2 ∨
      (put files).loads? l = none ∧ (put files).perform l = l.write files := by
  cases hwatched : l.isWatched with
  | true => exact .inl ⟨if_pos hwatched, if_pos hwatched⟩
  | false =>
    rw [← Bool.not_eq_true] at hwatched
    exact .inr ⟨if_neg hwatched, if_neg hwatched⟩

/-- An event that loads a directory does to the settings what a reload of that directory
does. -/
theorem Event.perform_of_loads {e : Event} {l : LiveSettings} {d : SettingsDirectory}
    (h : e.loads? l = some d) :
    e.perform l = (LiveSettings.reload { l with directory := d }).2 := by
  cases e with
  | put files =>
    rcases Event.put_cases files l with ⟨hloads, hperform⟩ | ⟨hloads, -⟩
    · cases hloads.symm.trans h
      exact hperform
    · exact nomatch hloads.symm.trans h
  | reload =>
    cases h
    rfl
  | write | removeDirectory | createDirectory | watch => exact nomatch h

/-- An event that loads nothing leaves the settings alone. -/
theorem Event.keeps_of_loads_none {e : Event} {l : LiveSettings} (h : e.loads? l = none) :
    e.Keeps l := by
  cases e with
  | put files =>
    rcases Event.put_cases files l with ⟨hloads, -⟩ | ⟨-, hperform⟩
    · exact nomatch hloads.symm.trans h
    · unfold Keeps
      rw [hperform]
      exact ⟨rfl, rfl⟩
  | watch => exact watch_settings l
  | reload => exact nomatch h
  | write | removeDirectory | createDirectory => exact ⟨rfl, rfl⟩

/-- **An event publishes what the directory it loads holds, or leaves the settings alone.**
It does the latter if it loads nothing, and also if the directory it loads holds no valid
settings. -/
theorem perform_publishes_or_keeps (e : Event) (l : LiveSettings) :
    (∃ d s, e.loads? l = some d ∧ d.Holds s ∧ e.Publishes l s) ∨
      (∀ d s, e.loads? l = some d → ¬ d.Holds s) ∧ e.Keeps l := by
  cases hloads : e.loads? l with
  | none => exact .inr ⟨by simp, e.keeps_of_loads_none hloads⟩
  | some d =>
    have hperform := e.perform_of_loads hloads
    by_cases hholds : ∃ s, d.Holds s
    · obtain ⟨s, hs⟩ := hholds
      refine .inl ⟨d, s, rfl, hs, ?_⟩
      unfold Event.Publishes
      rw [hperform, reload_of_holds (l := { l with directory := d }) hs]
      exact ⟨rfl, rfl⟩
    · rw [not_exists] at hholds
      refine .inr ⟨?_, ?_⟩
      · rintro _ s ⟨⟩
        exact hholds s
      · unfold Event.Keeps
        rw [hperform, (reload_of_not_holds (l := { l with directory := d }) hholds).2]
        exact ⟨rfl, rfl⟩

/-- A directory that was loaded and held valid settings is the last good one from then on. -/
theorem lastGood_of_holds {first : LiveSettings} {e : Event} {past : List Event}
    {d : SettingsDirectory} {s : Settings}
    (hloads : e.loads? (first.after past) = some d) (hs : d.Holds s) :
    first.lastGood (e :: past) = d := by
  have hok : d.loadValid.isOk = true := SettingsDirectory.isOk_loadValid_iff.2 ⟨s, hs⟩
  simp only [lastGood, hloads, hok, if_true]

/-- An event that loads no valid settings leaves the last good directory as it was. -/
theorem lastGood_of_not_holds {first : LiveSettings} {e : Event} {past : List Event}
    (h : ∀ d s, e.loads? (first.after past) = some d → ¬ d.Holds s) :
    first.lastGood (e :: past) = first.lastGood past := by
  rw [lastGood]
  split
  · next d hloads =>
    refine if_neg ?_
    rw [SettingsDirectory.isOk_loadValid_iff]
    rintro ⟨s, hs⟩
    exact h d s hloads hs
  · rfl

/-- After any run the settings in force are the ones the last good directory held. -/
theorem lastGood_holds {d : SettingsDirectory} {first : LiveSettings} (hstart : start d = .ok first)
    (past : List Event) : (first.lastGood past).Holds (first.after past).current := by
  induction past with
  | nil =>
    obtain ⟨hholds, hfirst⟩ := start_eq_ok_iff.1 hstart
    have hdirectory : first.directory = d := by rw [hfirst]
    rw [lastGood, hdirectory]
    exact hholds
  | cons e past ih =>
    rcases perform_publishes_or_keeps e (first.after past) with ⟨f, s, hloads, hs, hcurrent, -⟩ |
      ⟨hnot, hcurrent, -⟩
    · rw [lastGood_of_holds hloads hs, after, hcurrent]
      exact hs
    · rw [lastGood_of_not_holds hnot, after, hcurrent]
      exact ih

/-- **Reloads never publish bad settings and never lose good ones.**  Settings are put in
force by a start, and any run of events follows.  Then the settings in force are valid, and
they are what was loaded from the last good directory; requests are queued as they say,
which is what that directory's queue file says.  A reload tells of a success and publishes
exactly if the directory holds valid settings now, that is, if a fresh start would succeed,
and with the same settings; otherwise it changes nothing.  And whatever event comes next
publishes the valid settings of a directory it loads, or leaves the settings in force. -/
theorem inForce_after {d : SettingsDirectory} {first : LiveSettings} (hstart : start d = .ok first)
    (past : List Event) :
    (first.after past).current.validate = .ok () ∧
    (first.lastGood past).load = .ok (first.after past).current ∧
    (first.after past).isQueueing = (first.after past).current.queue.queueingEnabled ∧
    (∃ queue, (first.lastGood past).loadQueue = .ok queue ∧
      (first.after past).isQueueing = queue.queueingEnabled) ∧
    (first.after past).Reloads ∧
    ∀ e : Event,
      (∃ f s, e.loads? (first.after past) = some f ∧ f.Holds s ∧ e.Publishes (first.after past) s) ∨
        (∀ f s, e.loads? (first.after past) = some f → ¬ f.Holds s) ∧
        e.Keeps (first.after past) := by
  obtain ⟨hload, hvalid⟩ := lastGood_holds hstart past
  refine ⟨hvalid, hload, rfl, ?_, reload_reloads _, fun e => perform_publishes_or_keeps e _⟩
  unfold SettingsDirectory.load at hload
  cases hqueue : (first.lastGood past).loadQueue with
  | error fault =>
    rw [hqueue] at hload
    exact nomatch hload
  | ok queue =>
    refine ⟨queue, rfl, ?_⟩
    cases hnetworks : (first.lastGood past).loadNetworks with
    | error fault =>
      rw [hqueue, hnetworks] at hload
      exact nomatch hload
    | ok networks =>
      rw [hqueue, hnetworks] at hload
      rw [isQueueing, ← Except.ok.inj hload]

/-- A directory whose queue file turns queueing off. -/
def unqueued : SettingsDirectory :=
  ⟨"config", true, .ofText "queueing_enabled: false\n", .absent⟩

/-- Queueing stays off when that file is broken under watch. -/
theorem inForce_after_broken :
    ∃ first, start unqueued = .ok first ∧
      (first.after [.put [(.queue, .ofText "queueing_enabled: maybe\n")], .watch]).isQueueing
        = false := by
  obtain ⟨s, hs⟩ : ∃ s, unqueued.Holds s :=
    SettingsDirectory.isOk_loadValid_iff.1 (by decide +kernel)
  have hstart : start unqueued = .ok ⟨unqueued, s, 0, false⟩ := start_eq_ok_iff.2 ⟨hs, rfl⟩
  refine ⟨_, hstart, ?_⟩
  obtain ⟨-, -, -, ⟨queue, hqueue, hqueueing⟩, -⟩ :=
    inForce_after hstart [.put [(.queue, .ofText "queueing_enabled: maybe\n")], .watch]
  have hbroken : ∀ t, ¬ SettingsDirectory.Holds
      { unqueued with queue := .ofText "queueing_enabled: maybe\n" } t := by
    rw [← not_exists, ← SettingsDirectory.isOk_loadValid_iff]
    decide +kernel
  rw [lastGood_of_not_holds (by rintro _ t ⟨⟩; exact hbroken t)] at hqueue
  have hoff : (unqueued.loadQueue.toOption.map QueueSettings.queueingEnabled) = some false := by
    decide +kernel
  change unqueued.loadQueue = .ok queue at hqueue
  rw [hqueue] at hoff
  rw [hqueueing]
  exact Option.some.inj hoff

end LiveSettings

end WalletGate
