import ProfileConnector.Address
import ProfileConnector.Catalog.Basic
import ProfileConnector.Catalog.Declared
import ProfileConnector.Catalog.Document
import ProfileConnector.Catalog.Label
import ProfileConnector.Catalog.Packaged
import ProfileConnector.Catalog.Reach
import ProfileConnector.Declaration.CSharp
import ProfileConnector.Declaration.Literal
import ProfileConnector.Declaration.Python
import ProfileConnector.Declaration.TypeScript
import ProfileConnector.Format
import ProfileConnector.Generation
import ProfileConnector.Identifier
import ProfileConnector.KeyedList
import ProfileConnector.Moment
import ProfileConnector.Number.Binary64
import ProfileConnector.Number.Numeral
import ProfileConnector.Number.Shortest
import ProfileConnector.Path.Normal
import ProfileConnector.Path.Step
import ProfileConnector.PathTree
import ProfileConnector.Pattern.Basic
import ProfileConnector.Pattern.Reader
import ProfileConnector.Plan.Basic
import ProfileConnector.Plan.Entity
import ProfileConnector.Plan.Principal
import ProfileConnector.Plan.Property
import ProfileConnector.Proofs.Catalog.Chain
import ProfileConnector.Proofs.Catalog.Inherited
import ProfileConnector.Proofs.Catalog.Loading
import ProfileConnector.Proofs.Catalog.Reach
import ProfileConnector.Proofs.Declaration.CSharp
import ProfileConnector.Proofs.Declaration.Embedded
import ProfileConnector.Proofs.Declaration.Literal
import ProfileConnector.Proofs.Declaration.Members
import ProfileConnector.Proofs.Declaration.Names
import ProfileConnector.Proofs.Declaration.Validator
import ProfileConnector.Proofs.Generation
import ProfileConnector.Proofs.Identifier
import ProfileConnector.Proofs.Identifier.Search
import ProfileConnector.Proofs.Number.Integral
import ProfileConnector.Proofs.Number.Written
import ProfileConnector.Proofs.Outcome
import ProfileConnector.Proofs.Path.ArrayRoot
import ProfileConnector.Proofs.Path.Cut
import ProfileConnector.Proofs.Path.Reached
import ProfileConnector.Proofs.Path.Readable
import ProfileConnector.Proofs.Path.Renormalized
import ProfileConnector.Proofs.Path.Scan
import ProfileConnector.Proofs.Path.Segments
import ProfileConnector.Proofs.Path.Written
import ProfileConnector.Proofs.PathTree
import ProfileConnector.Proofs.PathTree.Collision
import ProfileConnector.Proofs.Plan.Custom
import ProfileConnector.Proofs.Plan.Dropped
import ProfileConnector.Proofs.Plan.Entity
import ProfileConnector.Proofs.Plan.Entry
import ProfileConnector.Proofs.Plan.Initializers
import ProfileConnector.Proofs.Plan.Listed
import ProfileConnector.Proofs.Plan.Rerooted
import ProfileConnector.Proofs.Plan.Slots
import ProfileConnector.Proofs.Plan.Subtree
import ProfileConnector.Proofs.Plan.Worded
import ProfileConnector.Proofs.Row.Aligned
import ProfileConnector.Proofs.Row.Appended
import ProfileConnector.Proofs.Row.Broadcast
import ProfileConnector.Proofs.Row.Integers
import ProfileConnector.Proofs.Row.Texts
import ProfileConnector.Proofs.Script.Collection
import ProfileConnector.Proofs.Script.Evaluation
import ProfileConnector.Proofs.Script.Literal
import ProfileConnector.Proofs.Script.Writing
import ProfileConnector.Proofs.Target.Block
import ProfileConnector.Proofs.Target.Expression
import ProfileConnector.Proofs.Target.Length
import ProfileConnector.Proofs.Target.Limit
import ProfileConnector.Proofs.Target.Principal
import ProfileConnector.Proofs.Target.Python
import ProfileConnector.Proofs.Target.Read
import ProfileConnector.Proofs.Target.TypeScript
import ProfileConnector.Proofs.Text.Apart
import ProfileConnector.Proofs.Text.Inner
import ProfileConnector.Proofs.Text.Scan
import ProfileConnector.Proofs.Text.Small
import ProfileConnector.Proofs.Text.Trimmed
import ProfileConnector.Proofs.Types.Allocation
import ProfileConnector.Proofs.Types.Bundle
import ProfileConnector.Proofs.Types.Closedness
import ProfileConnector.Proofs.Types.Derived
import ProfileConnector.Proofs.Types.Descriptor
import ProfileConnector.Proofs.Types.Draft
import ProfileConnector.Proofs.Types.Faithful
import ProfileConnector.Proofs.Types.Grouped
import ProfileConnector.Proofs.Types.Nested
import ProfileConnector.Proofs.Types.Repeated
import ProfileConnector.Proofs.Types.Requests
import ProfileConnector.Proofs.Types.Resolution
import ProfileConnector.Proofs.Types.Shape
import ProfileConnector.Proofs.Types.Synthesis
import ProfileConnector.Proofs.Types.Visited
import ProfileConnector.Proofs.Types.Words
import ProfileConnector.Proofs.Value.Pruned
import ProfileConnector.Proofs.Value.Reader
import ProfileConnector.Proofs.Value.Written
import ProfileConnector.Row.Broadcast
import ProfileConnector.Row.Fault
import ProfileConnector.Row.Limit
import ProfileConnector.Row.Read
import ProfileConnector.Schema.Basic
import ProfileConnector.Schema.Reader
import ProfileConnector.Script.Call
import ProfileConnector.Script.Evaluation
import ProfileConnector.Script.Literal
import ProfileConnector.Script.Term
import ProfileConnector.Settings
import ProfileConnector.Target.CSharp
import ProfileConnector.Target.Python
import ProfileConnector.Target.TypeScript
import ProfileConnector.Text.Blank
import ProfileConnector.Text.Capital
import ProfileConnector.Text.CodePoint
import ProfileConnector.Text.Digit
import ProfileConnector.Text.Letter
import ProfileConnector.Text.Printable
import ProfileConnector.Text.Quoted
import ProfileConnector.Text.Small
import ProfileConnector.Text.Spelled
import ProfileConnector.Types.Bundle
import ProfileConnector.Types.Derived
import ProfileConnector.Types.Descriptor
import ProfileConnector.Types.Draft
import ProfileConnector.Value.Basic
import ProfileConnector.Value.Printer
import ProfileConnector.Value.Reader
