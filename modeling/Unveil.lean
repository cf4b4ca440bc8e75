import Unveil.Image.FileTree
import Unveil.Markup.Sink
import Unveil.Presentation
import Unveil.Proofs.Body.Built
import Unveil.Proofs.Body.Cut
import Unveil.Proofs.ColumnSpec.Grammar
import Unveil.Proofs.ColumnSpec.Read
import Unveil.Proofs.Content.Asks
import Unveil.Proofs.Content.Pauses
import Unveil.Proofs.Content.Script
import Unveil.Proofs.Content.Stack
import Unveil.Proofs.Content.Trace
import Unveil.Proofs.Digest.Encoding
import Unveil.Proofs.Digest.Shapes
import Unveil.Proofs.Document.Traversal
import Unveil.Proofs.Except
import Unveil.Proofs.Flattened.Description
import Unveil.Proofs.Flow.Calls
import Unveil.Proofs.Flow.Order
import Unveil.Proofs.Image
import Unveil.Proofs.Inline.Asks
import Unveil.Proofs.Inline.Bullets
import Unveil.Proofs.Inline.Script
import Unveil.Proofs.Markup.Atomic
import Unveil.Proofs.Markup.Borders
import Unveil.Proofs.Markup.Depiction
import Unveil.Proofs.Markup.Drawing
import Unveil.Proofs.Markup.Emitted
import Unveil.Proofs.Markup.Escape
import Unveil.Proofs.Markup.Faithful
import Unveil.Proofs.Markup.Finished
import Unveil.Proofs.Markup.Handles
import Unveil.Proofs.Markup.Reader
import Unveil.Proofs.Nested.Blocks
import Unveil.Proofs.Nested.Ignored
import Unveil.Proofs.Nested.Marks
import Unveil.Proofs.Nested.Places
import Unveil.Proofs.Nested.Rounds
import Unveil.Proofs.Nested.Unpaused
import Unveil.Proofs.Nested.Walks
import Unveil.Proofs.Nested.Without
import Unveil.Proofs.Numeral
import Unveil.Proofs.Omitted.Blocks
import Unveil.Proofs.Omitted.Content
import Unveil.Proofs.Omitted.Husk
import Unveil.Proofs.Omitted.Replaced
import Unveil.Proofs.Omitted.Run
import Unveil.Proofs.Omitted.Text
import Unveil.Proofs.Output.Gives
import Unveil.Proofs.Output.Logged
import Unveil.Proofs.Output.Refused
import Unveil.Proofs.Output.Strokes
import Unveil.Proofs.Overlay.Bound
import Unveil.Proofs.Overlay.Canonical
import Unveil.Proofs.Overlay.Cover
import Unveil.Proofs.Overlay.Item
import Unveil.Proofs.Overlay.Meaning
import Unveil.Proofs.Presentation.Converted
import Unveil.Proofs.Reveal.Blocks
import Unveil.Proofs.Reveal.Chars
import Unveil.Proofs.Reveal.Content
import Unveil.Proofs.Reveal.Grid
import Unveil.Proofs.Reveal.Inline
import Unveil.Proofs.Reveal.Table
import Unveil.Proofs.Slide.Accepted
import Unveil.Proofs.Slide.Aligned
import Unveil.Proofs.Slide.Failure
import Unveil.Proofs.Slide.PassCount
import Unveil.Proofs.Slide.Run
import Unveil.Proofs.Slide.Shown
import Unveil.Proofs.Slide.Tables
import Unveil.Proofs.Slot.Agree
import Unveil.Proofs.Slot.Blocks
import Unveil.Proofs.Slot.Content
import Unveil.Proofs.Slot.Flow
import Unveil.Proofs.Slot.Grid
import Unveil.Proofs.Slot.Inline
import Unveil.Proofs.Slot.Layout
import Unveil.Proofs.Slot.Outline
import Unveil.Proofs.Slot.Size
import Unveil.Proofs.Slot.Slide
import Unveil.Proofs.Slot.Table
import Unveil.Proofs.Table.Asks
import Unveil.Proofs.Table.Covered
import Unveil.Proofs.Table.Differences
import Unveil.Proofs.Table.Intact
import Unveil.Proofs.Table.Paused
import Unveil.Proofs.Table.Places
import Unveil.Proofs.Table.Sound
import Unveil.Proofs.Text
