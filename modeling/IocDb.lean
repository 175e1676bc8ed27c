import IocDb.CommandLine
import IocDb.Database.Basic
import IocDb.Database.Build
import IocDb.Database.Declare
import IocDb.Database.Edit
import IocDb.Database.Scope
import IocDb.Demo
import IocDb.Event
import IocDb.Fanout
import IocDb.Fault
import IocDb.Handle
import IocDb.Link.Basic
import IocDb.Link.Decorate
import IocDb.Link.Option
import IocDb.Main
import IocDb.Naming
import IocDb.Naming.Flaw
import IocDb.Number.Binary
import IocDb.Number.Decimal
import IocDb.Number.FloatText
import IocDb.Number.Integer
import IocDb.Number.Shortest
import IocDb.Output.Document
import IocDb.Output.Rendered
import IocDb.Output.Sink
import IocDb.Proofs.Chain
import IocDb.Proofs.Change
import IocDb.Proofs.Consistent
import IocDb.Proofs.Declare
import IocDb.Proofs.Document
import IocDb.Proofs.Fanout
import IocDb.Proofs.Groups
import IocDb.Proofs.History
import IocDb.Proofs.Items
import IocDb.Proofs.Links
import IocDb.Proofs.Naming
import IocDb.Proofs.Numeral
import IocDb.Proofs.Quoted
import IocDb.Proofs.ReadBack
import IocDb.Proofs.Run
import IocDb.Proofs.Tokens
import IocDb.Proofs.Traversal
import IocDb.Script.Answer
import IocDb.Script.Expression
import IocDb.Script.Session
import IocDb.Script.Step
import IocDb.Source.Array
import IocDb.Source.Basic
import IocDb.Source.Blank
import IocDb.Source.Quoted
import IocDb.Source.Record
import IocDb.Source.Run
import IocDb.Source.Text
import IocDb.Source.Unreadable
import IocDb.Table
import IocDb.Text.Blank
import IocDb.Text.Extending
import IocDb.Text.Lines
import IocDb.Text.Literal
import IocDb.Text.Printable
import IocDb.Text.Quoted
import IocDb.Text.Ranges
import IocDb.Text.Utf8
import IocDb.Value
import IocDb.Value.ConstantArray
import IocDb.Value.Kind
import IocDb.Value.Parameter
import IocDb.Value.Scalar
import IocDb.Word
import IocDb.Proofs.Comments
import IocDb.Proofs.Descriptions
import IocDb.Proofs.InfoNames
import IocDb.Proofs.Refusal
import IocDb.Proofs.Handles
import IocDb.Proofs.UsableNames
import IocDb.Proofs.LinkText
import IocDb.Proofs.HeaderComments
import IocDb.Proofs.Named
import IocDb.Proofs.Scopes
import IocDb.Proofs.Lockstep
import IocDb.Proofs.Mentions
import IocDb.Proofs.Blocks
import IocDb.Proofs.DeclarationOrder
import IocDb.Proofs.Composition
import IocDb.Proofs.Collisions
import IocDb.Proofs.ArrayBuilding
import IocDb.Proofs.ArrayText
import IocDb.Proofs.Writing
import IocDb.Proofs.Listing
import IocDb.Proofs.Decorations
import IocDb.Proofs.Blame
import IocDb.Proofs.Edits
