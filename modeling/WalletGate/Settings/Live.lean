import WalletGate.Coordination.Notice
import WalletGate.Settings.Directory

/-!
# Settings in force

Settings are **in force** from the moment a directory with valid settings was loaded.  They
are replaced as a whole, by a reload that finds valid settings; one that does not leaves
them as they are.  A watched directory is reloaded whenever something was written into it.

* `LiveSettings.start` — puts the settings of a directory in force;
* `LiveSettings.reload` — replaces them, if the directory holds valid ones.
-/

namespace WalletGate

/-- The settings in force and the directory they come from. -/
structure LiveSettings where
  directory : SettingsDirectory
  current : Settings
  /-- How often the settings were replaced. -/
  publications : Nat
  /-- The directory is reloaded whenever something was written into it. -/
  isWatched : Bool

namespace LiveSettings

/-- Puts the settings of a directory in force. -/
def start (d : SettingsDirectory) : Except Fault LiveSettings :=
  d.loadValid.map fun settings => ⟨d, settings, 0, false⟩

/-- Whether requests are to be queued. -/
def isQueueing (l : LiveSettings) : Bool := l.current.queue.queueingEnabled

/-- Replaces the settings. -/
def publish (settings : Settings) (l : LiveSettings) : LiveSettings :=
  { l with current := settings, publications := l.publications + 1 }

/-- Loads the directory anew.  Tells whether the settings were replaced, and what is to be
said about it. -/
def reload (l : LiveSettings) : (Bool × Notice) × LiveSettings :=
  match l.directory.load with
  | .error fault => ((false, .reloadFailed fault), l)
  | .ok settings =>
    match settings.validate with
    | .error fault => ((false, .reloadInvalid fault), l)
    | .ok () => ((true, .reloaded), l.publish settings)

/-- Writes, replaces or removes files, one after another. -/
def write (files : List (SettingsPart × SettingsFile)) (l : LiveSettings) : LiveSettings :=
  { l with directory := files.foldl (fun d (part, file) => d.put part file) l.directory }

/-- Writes files; a watched directory is reloaded afterwards. -/
def put (files : List (SettingsPart × SettingsFile)) (l : LiveSettings) : LiveSettings :=
  if l.isWatched then (l.write files).reload.2 else l.write files

/-- Takes the directory away. -/
def removeDirectory (l : LiveSettings) : LiveSettings :=
  { l with directory := l.directory.remove }

/-- Has the directory watched from now on. -/
def watch (l : LiveSettings) : Except Fault Notice × LiveSettings :=
  if l.directory.isThere then (.ok (.watching l.directory.path), { l with isWatched := true })
  else (.error (.config ("failed to watch config directory: " ++ Unreadable.absent.message)), l)

end LiveSettings

end WalletGate
