import GuestBridge.Bridge.Basic
import GuestBridge.Bridge.GuestFunction
import GuestBridge.Bridge.GuestModule
import GuestBridge.Bridge.Interpreter
import GuestBridge.Bridge.Session
import GuestBridge.Channel.Link
import GuestBridge.Channel.Puppet
import GuestBridge.Channel.ServerScript
import GuestBridge.Definition.Header
import GuestBridge.Definition.Synthesis
import GuestBridge.Expansion.Plan
import GuestBridge.Expansion.Written
import GuestBridge.Failure
import GuestBridge.Host.Cursor
import GuestBridge.Host.Extraction
import GuestBridge.Host.Grammar.Basic
import GuestBridge.Host.Grammar.Generics
import GuestBridge.Host.Grammar.Item
import GuestBridge.Host.Grammar.Operand
import GuestBridge.Host.Grammar.Operator
import GuestBridge.Host.Grammar.Path
import GuestBridge.Host.Grammar.Pattern
import GuestBridge.Host.Grammar.Statement
import GuestBridge.Host.Grammar.Type
import GuestBridge.Host.NumberLiteral
import GuestBridge.Host.Parse
import GuestBridge.Host.Scan
import GuestBridge.Host.StringLiteral
import GuestBridge.Host.Token
import GuestBridge.Host.Tree
import GuestBridge.Names
import GuestBridge.Number.Binary64
import GuestBridge.Number.Layout
import GuestBridge.Number.Shortest
import GuestBridge.Options
import GuestBridge.Recency
import GuestBridge.Rehearsal.Basic
import GuestBridge.Rehearsal.Forms
import GuestBridge.Rehearsal.Interpreter
import GuestBridge.Rehearsal.Native
import GuestBridge.Rehearsal.Script
import GuestBridge.Slots
import GuestBridge.Text.Blank
import GuestBridge.Text.Identifier
import GuestBridge.Text.Margin
import GuestBridge.Text.Pieces
import GuestBridge.Text.Printable
import GuestBridge.Text.Quoted
import GuestBridge.Text.RangeTable
import GuestBridge.Text.Uppercase
import GuestBridge.Value.Basic
import GuestBridge.Value.HostType
import GuestBridge.Value.HostTypeSyntax
import GuestBridge.Value.Ledger
import GuestBridge.Value.Shelf
import GuestBridge.Wire.Json
import GuestBridge.Wire.JsonNumber
import GuestBridge.Wire.JsonText
import GuestBridge.Wire.Literal
import GuestBridge.Wire.Reply
import GuestBridge.Wire.ReplyText
import GuestBridge.Wire.Request
import GuestBridge.Proofs.Value.Accounts
import GuestBridge.Proofs.Value.Conservation
import GuestBridge.Proofs.Value.HostTypeHandles
import GuestBridge.Proofs.Bridge.Custody
import GuestBridge.Proofs.Bridge.SessionCustody
import GuestBridge.Proofs.Bridge.Projection
import GuestBridge.Proofs.Rehearsal.Books
import GuestBridge.Proofs.Rehearsal.Table
import GuestBridge.Proofs.Rehearsal.Sound
import GuestBridge.Proofs.Rehearsal.HandOut
import GuestBridge.Proofs.Rehearsal.Requests
import GuestBridge.Proofs.Rehearsal.Chronicle
import GuestBridge.Proofs.Rehearsal.Lifetime
import GuestBridge.Proofs.Wire.Unwinding
import GuestBridge.Proofs.Wire.Rejection
import GuestBridge.Proofs.Number.Digits
import GuestBridge.Proofs.Wire.NumberText
import GuestBridge.Proofs.Wire.DriverText
import GuestBridge.Proofs.Wire.DriverRoundTrip
import GuestBridge.Proofs.Number.Rounding
import GuestBridge.Proofs.Number.Shortest
import GuestBridge.Proofs.Number.DecimalText
import GuestBridge.Proofs.Wire.LiteralReader
import GuestBridge.Proofs.Wire.LiteralRoundTrip
import GuestBridge.Proofs.Bridge.Recording
import GuestBridge.Proofs.Bridge.Compilation
import GuestBridge.Proofs.Bridge.Readiness
import GuestBridge.Proofs.Text.Margin
import GuestBridge.Proofs.Definition.ReadBack
import GuestBridge.Proofs.Rehearsal.Names
import GuestBridge.Proofs.Rehearsal.Definitions
import GuestBridge.Proofs.Rehearsal.Copies
import GuestBridge.Proofs.Rehearsal.Agreement
import GuestBridge.Proofs.Host.Grammar.Expressions
import GuestBridge.Proofs.Host.Grammar.Items
import GuestBridge.Proofs.Host.Scan.Trees
import GuestBridge.Proofs.Value.Releases
import GuestBridge.Proofs.Wire.FrameReader
import GuestBridge.Proofs.Wire.RequestText
import GuestBridge.Proofs.Channel.Announcements
import GuestBridge.Proofs.Text.Stripped
import GuestBridge.Proofs.Host.Grammar.Provenance
import GuestBridge.Proofs.Host.LiteralLines
import GuestBridge.Proofs.Host.GuestLiteral
import GuestBridge.Proofs.Expansion.Agreement
import GuestBridge.Proofs.Recency.History
import GuestBridge.Proofs.Names.Search
import GuestBridge.Proofs.Names.Issued
import GuestBridge.Proofs.Bridge.Memos
import GuestBridge.Proofs.Bridge.Demand
import GuestBridge.Proofs.Bridge.SessionDemand
import GuestBridge.Proofs.Bridge.LazyStart
import GuestBridge.Proofs.Definition.Recognition
import GuestBridge.Proofs.Definition.Comparisons
import GuestBridge.Proofs.Host.Styles
import GuestBridge.Proofs.Host.ForeignReturns
import GuestBridge.Proofs.Expansion.Annotation
import GuestBridge.Proofs.Expansion.Record
import GuestBridge.Proofs.Expansion.Emission
import GuestBridge.Proofs.Expansion.Rereading
import GuestBridge.Proofs.Text.Dedenting
import GuestBridge.Proofs.Host.Placement
import GuestBridge.Proofs.Definition.ShortForm
import GuestBridge.Proofs.Host.Reread.Alike
import GuestBridge.Proofs.Host.Reread.Basic
import GuestBridge.Proofs.Host.Reread.Paths
import GuestBridge.Proofs.Host.Reread.Depth
import GuestBridge.Proofs.Definition.Rebuilding
import GuestBridge.Proofs.Names.Counters
import GuestBridge.Proofs.Recency.Inclusion
import GuestBridge.Proofs.Value.RoundTrip
import GuestBridge.Proofs.Bridge.ModuleNames
import GuestBridge.Proofs.Bridge.Members
import GuestBridge.Proofs.Number.Whole
import GuestBridge.Proofs.Rehearsal.Conversion
