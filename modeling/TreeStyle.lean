import TreeStyle.Application
import TreeStyle.Element.Listed
import TreeStyle.Logging
import TreeStyle.Proofs.Matching
import TreeStyle.Proofs.Alike
import TreeStyle.Proofs.Cascade.Accounting
import TreeStyle.Proofs.Cascade.Erasure
import TreeStyle.Proofs.Cascade.Idempotence
import TreeStyle.Proofs.Cascade.Separation
import TreeStyle.Proofs.Cascade.Siblings
import TreeStyle.Proofs.Forest.Numbering
import TreeStyle.Proofs.Forest.Styling
import TreeStyle.Proofs.Session.Restyling
import TreeStyle.Proofs.Sheet
import TreeStyle.Proofs.Sheet.Composition
import TreeStyle.Proofs.Style
import TreeStyle.Proofs.Twin
import TreeStyle.Widget.Links
import TreeStyle.Proofs.Links.Cells
import TreeStyle.Proofs.Links.Representation
import TreeStyle.Proofs.Links.Edit
import TreeStyle.Proofs.Links.Content
import TreeStyle.Proofs.Links.Walk
import TreeStyle.Proofs.World
import TreeStyle.Proofs.Cascade.Bare
import TreeStyle.Proofs.Cascade.Generic
import TreeStyle.Proofs.Cascade.Limit
import TreeStyle.Proofs.Literal
import TreeStyle.Proofs.Lexing.Boundary
import TreeStyle.Proofs.Lexing.Sequence
import TreeStyle.Proofs.Lexing.Whitespace
import TreeStyle.Proofs.ValueText.Splitting
import TreeStyle.Proofs.ValueText.Tokens
import TreeStyle.Proofs.Value.Integer
import TreeStyle.Proofs.Vendor.Resolution
import TreeStyle.Proofs.Session.Conformity
import TreeStyle.Proofs.Sheet.Word
import TreeStyle.Proofs.Vendor.Usability
import TreeStyle.Proofs.Session.Attachment
import TreeStyle.Proofs.Color.Alpha
import TreeStyle.Proofs.Cascade.Rewriting
import TreeStyle.Proofs.Links.Order
import TreeStyle.Proofs.Store.History
import TreeStyle.Proofs.World.Walks
import TreeStyle.Proofs.Color.Hex
import TreeStyle.Proofs.Reader
import TreeStyle.Proofs.Lexing.Slice
import TreeStyle.Proofs.ValueText.NormalForm
import TreeStyle.Proofs.Color.Keyword
import TreeStyle.Proofs.Vendor.Spelling
