import WalletGate.Fault
import WalletGate.Settings.Codec
import WalletGate.Settings.Validation
import WalletGate.Yaml.Reader

/-!
# The directory the settings are kept in

The settings lie in a **directory** of two YAML files, one for each part.  The queue's file
has to be there; without the networks' file the networks have their defaults.  The queue's
part is loaded first, so that of two faults the queue's is told.

A file is what its bytes say: they are read as UTF-8, and the text as one record of settings.

* `SettingsDirectory.load` — the settings a directory holds, valid or not;
* `SettingsDirectory.loadValid` — the same, and they are consistent.
-/

namespace WalletGate

open Reading

/-- What lies under the name of a file. -/
inductive SettingsFile where
  | absent
  | bytes (content : ByteArray)
  | directory

/-- The file of this text. -/
def SettingsFile.ofText (text : String) : SettingsFile := .bytes text.toUTF8

/-- Why a file could not be read as a text. -/
inductive Unreadable where
  | absent
  | directory
  | notText
  deriving DecidableEq, Repr

/-- The wording of a file that could not be read. -/
def Unreadable.message : Unreadable → String
  | absent => "No such file or directory (os error 2)"
  | directory => "Is a directory (os error 21)"
  | notText => "stream did not contain valid UTF-8"

/-- The text of a file. -/
def SettingsFile.text : SettingsFile → Except Unreadable String
  | absent => .error .absent
  | directory => .error .directory
  | bytes content =>
    match String.fromUTF8? content with
    | some text => .ok text
    | none => .error .notText

/-- The two files of a settings directory. -/
inductive SettingsPart where
  | queue
  | networks
  deriving DecidableEq, Repr

/-- The name of a part's file. -/
def SettingsPart.fileName : SettingsPart → String
  | queue => "queue.yaml"
  | networks => "networks.yaml"

/-- A directory of settings. -/
structure SettingsDirectory where
  /-- How the directory is named in messages. -/
  path : String
  isThere : Bool
  queue : SettingsFile
  networks : SettingsFile

namespace SettingsDirectory

/-- What lies under the name of a part's file. -/
def file (d : SettingsDirectory) (part : SettingsPart) : SettingsFile :=
  if d.isThere then
    match part with
    | .queue => d.queue
    | .networks => d.networks
  else .absent

/-- Writes, replaces or removes a part's file.  In a directory that is not there nothing can
be written. -/
def put (part : SettingsPart) (file : SettingsFile) (d : SettingsDirectory) : SettingsDirectory :=
  if d.isThere then
    match part with
    | .queue => { d with queue := file }
    | .networks => { d with networks := file }
  else d

/-- Takes the directory away with all it holds. -/
def remove (d : SettingsDirectory) : SettingsDirectory :=
  { d with isThere := false, queue := .absent, networks := .absent }

/-- A part's file in messages. -/
def filePath (d : SettingsDirectory) (part : SettingsPart) : String :=
  d.path ++ "/" ++ part.fileName

/-- Loads one part. -/
def loadPart {α : Type} (read : Yaml.Spot → Result α) (part : SettingsPart)
    (d : SettingsDirectory) :
    Except Fault α :=
  match (d.file part).text with
  | .error cause => .error (.config ("failed to read " ++ d.filePath part ++ ": " ++ cause.message))
  | .ok text =>
    match Yaml.readText read text with
    | .error failure =>
      .error (.config ("failed to parse " ++ d.filePath part ++ ": " ++ failure.message))
    | .ok a => .ok a

/-- Loads the queue's settings. -/
def loadQueue (d : SettingsDirectory) : Except Fault QueueSettings :=
  d.loadPart (QueueSettings.read Yaml.format) .queue

/-- Loads the networks' settings; without a file they have their defaults. -/
def loadNetworks (d : SettingsDirectory) : Except Fault NetworkSettings :=
  match d.file .networks with
  | .absent => .ok .default
  | _ => d.loadPart (NetworkSettings.read Yaml.format) .networks

/-- Loads all settings. -/
def load (d : SettingsDirectory) : Except Fault Settings := do
  let queue ← d.loadQueue
  let networks ← d.loadNetworks
  pure ⟨queue, networks⟩

/-- Loads all settings, which have to be consistent. -/
def loadValid (d : SettingsDirectory) : Except Fault Settings := do
  let settings ← d.load
  settings.validate
  pure settings

end SettingsDirectory

end WalletGate
