import WalletGate.Proofs.ReadTexts
import WalletGate.Proofs.SettingsText
import WalletGate.Settings.Directory

/-!
# Settings nobody wrote

The defaults of the settings stand in three places: each field has one for the case that its
member is missing, each part has one as a whole, and the networks' part has one for the case
that its file is missing.  They are the same.

An object with some of a part's members, in any order and among others nobody knows, is read
as the part that has these fields as they are written and the defaults in every other.
Which fields were met is all there is to the draft of such an object (`Drafts`), so reading
it is an induction over its members, and the same one for both parts.

* `Drafts.readMembers_eq` — the draft after any members;
* `QueueSettings.read_some`, `NetworkSettings.read_some` — each part is read from some of
  its members;
* `defaults_agree` — this, and a missing file is one that holds nothing.
-/

namespace WalletGate

open Reading Json

/-! ### Some of the members -/

namespace Json

/-- Members with these names and trees, in this order. -/
def Members.ofList : List (String × Source) → Members
  | [] => .closed
  | (key, value) :: rest => .cons (some key) value (Members.ofList rest)

/-- These are some of the members, in any order and among others that have another name. -/
def SomeOf (full written : List (String × Json)) (members : List (String × Source)) : Prop :=
  written.Sublist full ∧ ∃ unknown : List (String × Source),
    (∀ m ∈ unknown, m.1 ∉ full.map Prod.fst ∧ m.2.isSound = true) ∧
    members.Perm (written.map (fun m => (m.1, Source.ofJson m.2)) ++ unknown)

/-- What a draft is after some members, by which of their names were met. -/
structure Drafts {δ : Type} (shape : Shape Spot δ) (room : Nat) (full : List (String × Json))
    (draft : (String → Bool) → δ) : Prop where
  blank : draft (fun _ => false) = shape.blank
  congr : ∀ met met', (∀ key ∈ full.map Prod.fst, met key = met' key) → draft met = draft met'
  fill : ∀ m ∈ full, ∃ f, shape.field? m.1 = some f ∧ ∀ met, met m.1 = false →
    Shape.meet f (room, Source.ofJson m.2) (draft met) = .ok (draft fun key => key = m.1 || met key)
  unknown : ∀ key ∉ full.map Prod.fst, shape.field? key = none

variable {δ : Type} {shape : Shape Spot δ} {room : Nat} {full written : List (String × Json)}
  {draft : (String → Bool) → δ} {members : List (String × Source)}

/-- **Members are read one by one**, each into its field or into none: what was met is what
the draft shows. -/
theorem Drafts.readMembers_eq (h : Drafts shape room full draft) {met : String → Bool}
    (hknown : ∀ m ∈ members, m.1 ∈ full.map Prod.fst → met m.1 = false ∧ ∃ v, (m.1, v) ∈ full ∧
      m.2 = Source.ofJson v)
    (honce : members.Pairwise fun m m' => m.1 ∈ full.map Prod.fst → m.1 ≠ m'.1)
    (hunknown : ∀ m ∈ members, m.1 ∉ full.map Prod.fst → m.2.isSound = true) :
    readMembers shape room (Members.ofList members) (draft met) =
      shape.complete (draft fun key => met key || members.any (·.1 = key)) := by
  induction members generalizing met with
  | nil =>
    simp only [List.any_nil, Bool.or_false]
    rfl
  | cons m members ih =>
    obtain ⟨name, value⟩ := m
    obtain ⟨hfirst, hlater⟩ := List.pairwise_cons.1 honce
    have hrest := fun m hm => hunknown m (List.mem_cons_of_mem _ hm)
    rw [Members.ofList, readMembers]
    by_cases hname : name ∈ full.map Prod.fst
    · obtain ⟨hmet, v, hv, rfl⟩ := hknown (name, value) List.mem_cons_self hname
      obtain ⟨f, hf, hfill⟩ := h.fill (name, v) hv
      dsimp only at hf hfill
      rw [hf]
      dsimp only
      rw [hfill met hmet, ok_bind]
      rw [ih (fun m hm hin => ?_) hlater hrest]
      · congr 2
        funext key
        simp only [List.any_cons, eq_comm (a := key)]
        cases decide (name = key) <;> simp
      · obtain ⟨hmet', hvalue⟩ := hknown m (List.mem_cons_of_mem _ hm) hin
        refine ⟨?_, hvalue⟩
        have hne : m.1 ≠ name := fun heq => hfirst m hm hname heq.symm
        simp [hne, hmet']
    · rw [h.unknown name hname]
      dsimp only
      rw [if_pos (hunknown (name, value) List.mem_cons_self hname)]
      rw [ih (fun m hm => hknown m (List.mem_cons_of_mem _ hm)) hlater hrest]
      congr 1
      refine h.congr _ _ fun key hkey => ?_
      have hne : name ≠ key := fun heq => hname (heq ▸ hkey)
      simp [hne]

/-- A member is one that was written, or its name is none of the part's. -/
theorem SomeOf.of_mem (h : SomeOf full written members) {m : String × Source} (hm : m ∈ members) :
    (∃ v, (m.1, v) ∈ written ∧ m.2 = Source.ofJson v) ∨
    (m.1 ∉ full.map Prod.fst ∧ m.2.isSound = true) := by
  obtain ⟨_, unknown, hunknown, hperm⟩ := h
  rcases List.mem_append.1 (hperm.mem_iff.1 hm) with hm | hm
  · obtain ⟨w, hw, rfl⟩ := List.mem_map.1 hm
    exact .inl ⟨w.2, hw, rfl⟩
  · exact .inr (hunknown m hm)

/-- A name of the part is among those that are met if it was written. -/
theorem SomeOf.any_name_iff (h : SomeOf full written members) {key : String}
    (hkey : key ∈ full.map Prod.fst) :
    members.any (·.1 = key) = true ↔ key ∈ written.map Prod.fst := by
  simp only [List.any_eq_true, decide_eq_true_eq]
  constructor
  · rintro ⟨m, hm, rfl⟩
    rcases h.of_mem hm with ⟨v, hv, -⟩ | ⟨hnone, -⟩
    · exact List.mem_map.2 ⟨_, hv, rfl⟩
    · exact absurd hkey hnone
  · intro hwritten
    obtain ⟨w, hw, rfl⟩ := List.mem_map.1 hwritten
    obtain ⟨_, unknown, _, hperm⟩ := h
    exact ⟨(w.1, Source.ofJson w.2),
      hperm.mem_iff.2 (List.mem_append_left _ (List.mem_map.2 ⟨w, hw, rfl⟩)), rfl⟩

/-- No name of the part is met twice. -/
theorem SomeOf.once (h : SomeOf full written members) (hnodup : (full.map Prod.fst).Nodup) :
    members.Pairwise fun m m' => m.1 ∈ full.map Prod.fst → m.1 ≠ m'.1 := by
  obtain ⟨hsub, unknown, hunknown, hperm⟩ := h
  have hsymm : ∀ {m m' : String × Source}, (m.1 ∈ full.map Prod.fst → m.1 ≠ m'.1) →
      m'.1 ∈ full.map Prod.fst → m'.1 ≠ m.1 := by
    intro m m' hne hin heq
    exact hne (heq ▸ hin) heq.symm
  refine (hperm.pairwise_iff hsymm).2 (List.pairwise_append.2 ⟨?_, ?_, ?_⟩)
  · have hwritten : (written.map Prod.fst).Nodup := hnodup.sublist (hsub.map Prod.fst)
    rw [List.pairwise_map]
    refine (List.pairwise_map.1 hwritten).imp ?_
    intro a b hne _
    exact hne
  · exact List.pairwise_of_forall_mem_list fun m hm m' _ hin => absurd hin (hunknown m hm).1
  · intro m _ m' hm' hin heq
    exact (hunknown m' hm').1 (heq ▸ hin)

/-- **Some of the members are read as the draft that they leave**, with what was not met
filled in. -/
theorem Drafts.readMembers_someOf (h : Drafts shape room full draft)
    (hnodup : (full.map Prod.fst).Nodup) (hsome : SomeOf full written members) :
    readMembers shape room (Members.ofList members) shape.blank =
      shape.complete (draft fun key => decide (key ∈ written.map Prod.fst)) := by
  rw [← h.blank,
    h.readMembers_eq (fun m hm hin => ⟨rfl, ?_⟩) (hsome.once hnodup) fun m hm hout => ?_]
  · congr 1
    refine h.congr _ _ fun key hkey => ?_
    rw [Bool.false_or, Bool.eq_iff_iff, hsome.any_name_iff hkey, decide_eq_true_eq]
  · rcases hsome.of_mem hm with ⟨v, hv, heq⟩ | ⟨hnone, -⟩
    · exact ⟨v, hsome.1.subset hv, heq⟩
    · exact absurd hin hnone
  · rcases hsome.of_mem hm with ⟨v, hv, -⟩ | ⟨-, hsound⟩
    · exact absurd (List.mem_map.2 ⟨_, hsome.1.subset hv, rfl⟩) hout
    · exact hsound

end Json

/-! ### The queue's part -/

namespace QueueSettings

/-- The settings with the fields of these names, and the defaults in all others. -/
def only (q : QueueSettings) (names : List String) : QueueSettings where
  queueingEnabled :=
    if "queueing_enabled" ∈ names then q.queueingEnabled else default.queueingEnabled
  confirmationMethods := if "confirmation_methods" ∈ names then q.confirmationMethods
    else default.confirmationMethods
  switchMethods :=
    if "network_switch_methods" ∈ names then q.switchMethods else default.switchMethods
  approvalTimeout :=
    if "approval_timeout_secs" ∈ names then q.approvalTimeout else default.approvalTimeout

/-- The draft of these settings when some of their members were met. -/
def draft (q : QueueSettings) (met : String → Bool) : Draft where
  queueingEnabled := if met "queueing_enabled" then some q.queueingEnabled else none
  confirmationMethods := if met "confirmation_methods" then some q.confirmationMethods else none
  switchMethods := if met "network_switch_methods" then some q.switchMethods else none
  approvalTimeout := if met "approval_timeout_secs" then some q.approvalTimeout else none

/-- Every member of the queue's settings is met in its place. -/
theorem drafts (q : QueueSettings) {full : List (String × Json)} (hfull : q.toJson = .record full)
    (room : Nat) :
    Drafts (shape Json.format) (room + 1) full q.draft := by
  obtain rfl := Json.record.inj hfull
  refine ⟨rfl, fun met met' heq => ?_, fun m hm => ?_, fun key hkey => ?_⟩
  · simp only [draft, heq _ (by simp : "queueing_enabled" ∈ _),
      heq _ (by simp : "confirmation_methods" ∈ _),
      heq _ (by simp : "network_switch_methods" ∈ _),
      heq _ (by simp : "approval_timeout_secs" ∈ _)]
  · simp only [List.mem_cons, List.not_mem_nil, or_false] at hm
    rcases hm with rfl | rfl | rfl | rfl <;> refine ⟨_, rfl, fun met hmet => ?_⟩
    · simp [Shape.meet, Field.over, draft, hmet, Source.ofJson]
    · simp [Shape.meet, Field.over, draft, hmet, Source.ofJson]
    · simp [Shape.meet, Field.over, draft, hmet, Source.ofJson]
    · obtain ⟨enabled, confirmation, switch, timeout⟩ := q
      cases timeout <;> simp [Shape.meet, Field.over, draft, hmet, Source.ofJson, Json.whole]
  · simp only [List.map_cons, List.map_nil, List.mem_cons, List.not_mem_nil, or_false, not_or]
      at hkey
    simp [shape, Shape.field?, Field.over, eq_comm, hkey]

/-- What was not met of the queue's settings has its default. -/
theorem complete_draft (q : QueueSettings) (names : List String) :
    (shape Json.format).complete (q.draft fun key => decide (key ∈ names)) =
      .ok ⟨some (q.only names).queueingEnabled, some (q.only names).confirmationMethods,
        some (q.only names).switchMethods, some (q.only names).approvalTimeout⟩ := by
  by_cases henabled : "queueing_enabled" ∈ names <;> by_cases hconfirmation :
    "confirmation_methods" ∈ names <;>
    by_cases hswitch : "network_switch_methods" ∈ names <;> by_cases htimeout :
      "approval_timeout_secs" ∈ names <;>
    simp [Shape.complete, Shape.completeFields, shape, Field.over, draft, only, default, henabled,
      hconfirmation, hswitch,
      htimeout]

/-- **The queue's settings are read from some of their members**, with the defaults in all
other fields. -/
theorem read_some {q : QueueSettings} {full written : List (String × Json)}
    {members : List (String × Source)}
    (hfull : q.toJson = .record full) (hsome : SomeOf full written members) (room : Nat) :
    QueueSettings.read Json.format (room + 2, .record (Members.ofList members)) =
      .ok (q.only (written.map Prod.fst)) := by
  have hnodup : (full.map Prod.fst).Nodup := by
    obtain rfl := Json.record.inj hfull
    simp
  have hmembers := (q.drafts hfull room).readMembers_someOf hnodup hsome
  rw [QueueSettings.read, format_record, readRecord_record, hmembers, complete_draft, ok_bind]

end QueueSettings

/-! ### The networks' part -/

namespace NetworkSettings

/-- The settings with the fields of these names, and the defaults in all others. -/
def only (n : NetworkSettings) (names : List String) : NetworkSettings where
  selected := if "selected" ∈ names then n.selected else default.selected
  custom := if "custom" ∈ names then n.custom else default.custom

/-- The draft of these settings when some of their members were met. -/
def draft (n : NetworkSettings) (met : String → Bool) : Draft where
  selected := if met "selected" then some n.selected else none
  custom := if met "custom" then some n.custom else none

/-- Every member of the networks' settings is met in its place. -/
theorem drafts (n : NetworkSettings) {full : List (String × Json)} (hfull : n.toJson = .record full)
    (room : Nat) :
    Drafts (shape Json.format) (room + 2) full n.draft := by
  obtain rfl := Json.record.inj hfull
  refine ⟨rfl, fun met met' heq => ?_, fun m hm => ?_, fun key hkey => ?_⟩
  · simp only [draft, heq _ (by simp : "selected" ∈ _), heq _ (by simp : "custom" ∈ _)]
  · simp only [List.mem_cons, List.not_mem_nil, or_false] at hm
    rcases hm with rfl | rfl <;> refine ⟨_, rfl, fun met hmet => ?_⟩
    · simp [Shape.meet, Field.over, draft, hmet, Source.ofJson, ClientId.toJson]
    · have hcustom : readItems (CustomNetwork.read Json.format) (room + 1)
          (Items.ofJson (n.custom.map CustomNetwork.toJson)) = .ok n.custom :=
        readItems_ofJson (room + 1) fun c _ => c.read_toJson room
      simp [Shape.meet, Field.over, draft, hmet, Source.ofJson, hcustom]
  · simp only [List.map_cons, List.map_nil, List.mem_cons, List.not_mem_nil, or_false, not_or]
      at hkey
    simp [shape, Shape.field?, Field.over, eq_comm, hkey]

/-- What was not met of the networks' settings has its default. -/
theorem complete_draft (n : NetworkSettings) (names : List String) :
    (shape Json.format).complete (n.draft fun key => decide (key ∈ names)) =
      .ok ⟨some (n.only names).selected, some (n.only names).custom⟩ := by
  by_cases hselected : "selected" ∈ names <;> by_cases hcustom : "custom" ∈ names <;>
    simp [Shape.complete, Shape.completeFields, shape, Field.over, draft, only, default,
      hselected, hcustom]

/-- **The networks' settings are read from some of their members**, with the defaults in all
other fields. -/
theorem read_some {n : NetworkSettings} {full written : List (String × Json)}
    {members : List (String × Source)}
    (hfull : n.toJson = .record full) (hsome : SomeOf full written members) (room : Nat) :
    NetworkSettings.read Json.format (room + 3, .record (Members.ofList members)) =
      .ok (n.only (written.map Prod.fst)) := by
  have hnodup : (full.map Prod.fst).Nodup := by
    obtain rfl := Json.record.inj hfull
    simp
  have hmembers := (n.drafts hfull room).readMembers_someOf hnodup hsome
  rw [NetworkSettings.read, format_record, readRecord_record, hmembers, complete_draft, ok_bind]

end NetworkSettings

/-! ### The file that is missing -/

namespace SettingsDirectory

/-- A file with a text has this text. -/
theorem text_ofText (text : String) : (SettingsFile.ofText text).text = .ok text := by
  have hread : String.fromUTF8? text.toUTF8 = some text := dif_pos text.isValidUTF8
  rw [SettingsFile.ofText, SettingsFile.text, hread]

/-- An empty mapping holds the defaults of the networks' part. -/
theorem readText_emptyMapping {text : String} (h : Yaml.Node.parse? text = some (.mapping [])) :
    Yaml.readText (NetworkSettings.read Yaml.format) text = .ok .default := by
  rw [Yaml.readText, h]
  rfl

/-- **Without the networks' file a directory holds what it holds with an empty one.** -/
theorem load_absent_eq (d : SettingsDirectory) {file : SettingsFile} {text : String}
    (hfile : file.text = .ok text) (htext : Yaml.Node.parse? text = some (.mapping [])) :
    (d.put .networks .absent).load = (d.put .networks file).load := by
  cases hthere : d.isThere with
  | false => rw [put, put, hthere]; rfl
  | true =>
    have hqueue : (d.put .networks .absent).loadQueue = (d.put .networks file).loadQueue := by
      simp [loadQueue, loadPart, SettingsDirectory.file, put, hthere, filePath]
    have hnetworks : (d.put .networks file).loadNetworks = .ok .default := by
      have hput : (d.put .networks file).file .networks = file := by
        simp [put, SettingsDirectory.file, hthere]
      unfold loadNetworks
      rw [hput]
      split
      · rfl
      · rw [loadPart, hput, hfile]
        dsimp only
        rw [readText_emptyMapping htext]
    have habsent : (d.put .networks .absent).loadNetworks = .ok .default := by
      simp [loadNetworks, put, SettingsDirectory.file, hthere]
    rw [load, load, hqueue, hnetworks, habsent]

end SettingsDirectory

/-- **The defaults agree.**  An object with some of the members that a part of the settings
is written with, in any order and among others nobody knows, is read as that part with the
defaults in all other fields.  A directory without the networks' file holds the same as with
a file that is an empty mapping, whatever the queue's file holds. -/
theorem defaults_agree :
    (∀ (q : QueueSettings) full written members text, q.toJson = .record full →
      SomeOf full written members →
      Holds text (.record (Members.ofList members)) →
      readText (QueueSettings.read Json.format) text = .ok (q.only (written.map Prod.fst))) ∧
    (∀ (n : NetworkSettings) full written members text, n.toJson = .record full →
      SomeOf full written members →
      Holds text (.record (Members.ofList members)) →
      readText (NetworkSettings.read Json.format) text = .ok (n.only (written.map Prod.fst))) ∧
    ∀ (d : SettingsDirectory) file text, file.text = .ok text →
      Yaml.Node.parse? text = some (.mapping []) →
      (d.put .networks .absent).load = (d.put .networks file).load := by
  refine ⟨fun q full written members text hfull hsome htext => ?_,
    fun n full written members text hfull hsome htext => ?_,
    fun d file text => d.load_absent_eq⟩
  · exact readText_eq_ok_iff.2 ⟨_, htext, QueueSettings.read_some hfull hsome 125⟩
  · exact readText_eq_ok_iff.2 ⟨_, htext, NetworkSettings.read_some hfull hsome 124⟩

/-- Two fields of the queue's part behind a member nobody knows, one of the networks' part,
and an empty file. -/
theorem defaults_agree_twoFields :
    let queue :=
      (Json.record [("colour", .bool true), ("network_switch_methods", .list [.text "eth_sign"]),
      ("queueing_enabled", .bool false)]).render
    let networks := (Json.record [("selected", .text "devnet")]).render
    let empty := SettingsFile.ofText (String.ofList ['\x7b', '\x7d'])
    readText (QueueSettings.read Json.format) queue =
        .ok ⟨false, QueueSettings.defaultConfirmationMethods, ["eth_sign"], none⟩ ∧
      readText (NetworkSettings.read Json.format) networks = .ok ⟨⟨"devnet"⟩, []⟩ ∧
      ∀ d : SettingsDirectory, (d.put .networks .absent).load = (d.put .networks empty).load := by
  obtain ⟨hqueue, hnetworks, hfile⟩ := defaults_agree
  refine ⟨?_, ?_, fun d => ?_⟩
  · refine hqueue ⟨false, [], ["eth_sign"], some 5⟩ _
      [("queueing_enabled", .bool false), ("network_switch_methods", .list [.text "eth_sign"])]
      [("colour", .bool true), ("network_switch_methods", Source.ofJson (.list [.text "eth_sign"])),
        ("queueing_enabled", .bool false)] _ rfl ⟨?_, [("colour", .bool true)], ?_, ?_⟩
        (holds_render ?_)
    · exact .cons_cons _ (.cons _ (.cons_cons _ (.cons _ .slnil)))
    · simp [Source.isSound]
    · exact (List.reverse_perm _).symm
    · simp [AllNumbers, AllNumbersAmong, AllNumbersIn]
  · refine hnetworks ⟨⟨"devnet"⟩, []⟩ _ [("selected", .text "devnet")]
      [("selected", .text "devnet")] _ rfl
      ⟨?_, [], by simp, .refl _⟩ (holds_render ?_)
    · exact .cons_cons _ (.cons _ .slnil)
    · simp [AllNumbers, AllNumbersAmong]
  · refine hfile d _ _ (SettingsDirectory.text_ofText _) ?_
    have htokens : Yaml.Scanner.tokens? ['\x7b', '\x7d']
      = some [.flowMappingStart, .flowMappingEnd] := by decide
    rw [Yaml.Node.parse?, String.toList_ofList, htokens]
    rfl

end WalletGate
