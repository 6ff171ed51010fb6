import CallGate.Main
import CallGate.Host.Basic
import CallGate.Proofs.Message.Layout
import CallGate.Proofs.Message.Answer
import CallGate.Proofs.Host.Crossing
import CallGate.Proofs.Host.NestedCall
import CallGate.Proofs.Host.Echo
import CallGate.Proofs.Host.Traffic
import CallGate.Proofs.Storage.History
import CallGate.Proofs.Storage.Visible
import CallGate.Proofs.Wire.Taken
import CallGate.Proofs.Message.WireForm
import CallGate.Proofs.Message.AnswerForm
import CallGate.Proofs.Wire.Grammar
import CallGate.Proofs.Message.Grammar
import CallGate.Proofs.Host.Separation
import CallGate.Proofs.Host.ZeroSlot
import CallGate.Proofs.Storage.Resume
import CallGate.Proofs.Host.Lifecycle
import CallGate.Proofs.Host.Aftermath
import CallGate.Proofs.Host.Failure
import CallGate.Proofs.Wire.Sequence
import CallGate.Proofs.Message.LogGrammar
import CallGate.Proofs.Storage.Reorder
import CallGate.Proofs.Decimal
import CallGate.Proofs.Hex
import CallGate.Proofs.Operand
import CallGate.Proofs.Command.CallRequest
import CallGate.Proofs.Message.Acceptance
import CallGate.Proofs.Storage.Tally
import CallGate.Proofs.Message.Capacity
import CallGate.Proofs.Wire.Requests
import CallGate.Proofs.Wire.Position
import CallGate.Proofs.Gate.Traffic
import CallGate.Proofs.Storage.Slots
import CallGate.Proofs.Host.Usable
import CallGate.Proofs.Hex.Message
import CallGate.Proofs.Hex.Grammar
import CallGate.Proofs.Operand.Agreement
import CallGate.Proofs.Account.Book
import CallGate.Proofs.Host.Accounts
import CallGate.Proofs.Account.Window
import CallGate.Proofs.FixedBytes
import CallGate.Proofs.Storage.Order
import CallGate.Proofs.Toml.Document
import CallGate.Proofs.Settings.Document
import CallGate.Proofs.Command.Settings
