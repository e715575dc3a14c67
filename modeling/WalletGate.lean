import WalletGate.Approval.Id
import WalletGate.Approval.Instant
import WalletGate.Approval.Request
import WalletGate.ChainId
import WalletGate.Classifier
import WalletGate.Coordination.Crew
import WalletGate.Coordination.Desk
import WalletGate.Coordination.Notice
import WalletGate.Coordination.Program
import WalletGate.Coordination.Progress
import WalletGate.Coordination.Queue
import WalletGate.Coordination.Registry
import WalletGate.Coordination.Thread
import WalletGate.Coordination.World
import WalletGate.Decimal.Binary64
import WalletGate.Decimal.Layout
import WalletGate.Decimal.Shortest
import WalletGate.Fault
import WalletGate.Gate
import WalletGate.Json.Numeral
import WalletGate.Json.Printer
import WalletGate.Json.Reader
import WalletGate.Json.Source
import WalletGate.Json.SourceText
import WalletGate.Json.Value
import WalletGate.Message.Request
import WalletGate.Message.Response
import WalletGate.Network.BuiltIn
import WalletGate.Network.Client
import WalletGate.Network.Codec
import WalletGate.Pipeline
import WalletGate.Proofs.Accounts
import WalletGate.Proofs.Admission
import WalletGate.Proofs.AllOrNothing
import WalletGate.Proofs.Alone
import WalletGate.Proofs.ApprovedChain
import WalletGate.Proofs.Beside
import WalletGate.Proofs.ChainText
import WalletGate.Proofs.Check
import WalletGate.Proofs.Classes
import WalletGate.Proofs.Conduct
import WalletGate.Proofs.Consent
import WalletGate.Proofs.Contract
import WalletGate.Proofs.Course
import WalletGate.Proofs.Decision
import WalletGate.Proofs.Declared
import WalletGate.Proofs.Defaults
import WalletGate.Proofs.Ensured
import WalletGate.Proofs.Fate
import WalletGate.Proofs.Fields
import WalletGate.Proofs.Flaws
import WalletGate.Proofs.FreeValue
import WalletGate.Proofs.Isolation
import WalletGate.Proofs.Ledger
import WalletGate.Proofs.Legible
import WalletGate.Proofs.Lengths
import WalletGate.Proofs.Line
import WalletGate.Proofs.Messages
import WalletGate.Proofs.Move
import WalletGate.Proofs.Networks
import WalletGate.Proofs.Order
import WalletGate.Proofs.Places
import WalletGate.Proofs.Polls
import WalletGate.Proofs.Prompt
import WalletGate.Proofs.ReadTexts
import WalletGate.Proofs.Receivers
import WalletGate.Proofs.References
import WalletGate.Proofs.Reload
import WalletGate.Proofs.RightNetwork
import WalletGate.Proofs.Roll
import WalletGate.Proofs.Rule
import WalletGate.Proofs.Schedule
import WalletGate.Proofs.Serial
import WalletGate.Proofs.SettingsText
import WalletGate.Proofs.Settlement
import WalletGate.Proofs.Sight
import WalletGate.Proofs.Slot
import WalletGate.Proofs.Story
import WalletGate.Proofs.Subscribers
import WalletGate.Proofs.Track
import WalletGate.Proofs.Turns
import WalletGate.Proofs.Unnoticed
import WalletGate.Proofs.Way
import WalletGate.Proofs.Writes
import WalletGate.Reading.Mismatch
import WalletGate.Reading.Shape
import WalletGate.Script.Handler
import WalletGate.Script.Job
import WalletGate.Script.Stage
import WalletGate.Script.StandIns
import WalletGate.Settings.Basic
import WalletGate.Settings.Codec
import WalletGate.Settings.Directory
import WalletGate.Settings.Live
import WalletGate.Settings.Validation
import WalletGate.Text.Blank
import WalletGate.Text.Hidden
import WalletGate.Text.Quoted
import WalletGate.Yaml.Cursor
import WalletGate.Yaml.Node
import WalletGate.Yaml.Plain
import WalletGate.Yaml.Reader
import WalletGate.Yaml.Scalar
import WalletGate.Yaml.Token
