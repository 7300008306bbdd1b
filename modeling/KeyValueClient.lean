import KeyValueClient.Binary64
import KeyValueClient.Bytes
import KeyValueClient.Command.Basic
import KeyValueClient.Command.Line
import KeyValueClient.Command.Name
import KeyValueClient.Command.Wire
import KeyValueClient.CommandLine.Options
import KeyValueClient.CommandLine.Shell
import KeyValueClient.Config
import KeyValueClient.Connection
import KeyValueClient.Decimal.Shortest
import KeyValueClient.Fault
import KeyValueClient.Link.Basic
import KeyValueClient.Link.Script
import KeyValueClient.Main
import KeyValueClient.MessagePack.Decoding
import KeyValueClient.MessagePack.Display
import KeyValueClient.MessagePack.Encoding
import KeyValueClient.MessagePack.Marker
import KeyValueClient.MessagePack.Value
import KeyValueClient.Payload
import KeyValueClient.Proofs.BlankLines
import KeyValueClient.Proofs.Buffering
import KeyValueClient.Proofs.Canonical
import KeyValueClient.Proofs.Classification
import KeyValueClient.Proofs.Delivery
import KeyValueClient.Proofs.Expiry
import KeyValueClient.Proofs.FirstStatus
import KeyValueClient.Proofs.Footprint
import KeyValueClient.Proofs.Grammar
import KeyValueClient.Proofs.InStep
import KeyValueClient.Proofs.Layout
import KeyValueClient.Proofs.LetterCase
import KeyValueClient.Proofs.Lines
import KeyValueClient.Proofs.LongerLines
import KeyValueClient.Proofs.Numerals
import KeyValueClient.Proofs.Outgoing
import KeyValueClient.Proofs.OwnReply
import KeyValueClient.Proofs.Parsing
import KeyValueClient.Proofs.PartialSends
import KeyValueClient.Proofs.ReaderLaws
import KeyValueClient.Proofs.Reading
import KeyValueClient.Proofs.Requests
import KeyValueClient.Proofs.RequestsAndReplies
import KeyValueClient.Proofs.ScriptEvents
import KeyValueClient.Proofs.Segments
import KeyValueClient.Proofs.ShortestForm
import KeyValueClient.Proofs.Shown
import KeyValueClient.Proofs.Spelling
import KeyValueClient.Proofs.Tokens
import KeyValueClient.Proofs.Transcript
import KeyValueClient.Proofs.Truncation
import KeyValueClient.Proofs.TypedLines
import KeyValueClient.Proofs.ValueTree
import KeyValueClient.Proofs.Widening
import KeyValueClient.Proofs.Writing
import KeyValueClient.Response.Basic
import KeyValueClient.Response.Outcome
import KeyValueClient.Session
import KeyValueClient.Text.Blank
import KeyValueClient.Text.CaseTable
import KeyValueClient.Text.Integer
import KeyValueClient.Text.Uppercase
import KeyValueClient.Text.Utf8
