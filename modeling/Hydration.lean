import Hydration.Calendar.Reading
import Hydration.Environment.Profile
import Hydration.Json.Reader
import Hydration.Session
import Hydration.Proofs.Tag.Machine
import Hydration.Proofs.Tag.Refusals
import Hydration.Proofs.Literal.Derivation
import Hydration.Proofs.Tag.Segments
import Hydration.Proofs.Literal.Grammar
import Hydration.Proofs.Text.Quoted
import Hydration.Proofs.Text.Joined
import Hydration.Proofs.Text.Parts
import Hydration.Proofs.Literal.Lexemes
import Hydration.Proofs.Literal.Depth
import Hydration.Proofs.Tag.Words
import Hydration.Proofs.Tag.Extent
import Hydration.Proofs.Number.Numeral
import Hydration.Proofs.Number.Canonical
import Hydration.Proofs.Number.Shown
import Hydration.Proofs.Literal.Writer
import Hydration.Proofs.Markup.Container
import Hydration.Proofs.Markup.StartTag
import Hydration.Proofs.Markup.Element
import Hydration.Proofs.Markup.Reserved
import Hydration.Proofs.Json.Written
import Hydration.Proofs.Text.Reference
import Hydration.Proofs.Json.Texts
import Hydration.Proofs.Json.Spelled
import Hydration.Proofs.Json.Values
import Hydration.Proofs.Markup.Props
import Hydration.Proofs.Value.Text
import Hydration.Proofs.Value.Near
import Hydration.Proofs.Markup.Near
import Hydration.Proofs.Path.Absolute
import Hydration.Proofs.Site.Pages
import Hydration.Proofs.Site.Registration
import Hydration.Proofs.Fragment.Literal
import Hydration.Proofs.Fragment.Checks
import Hydration.Proofs.Template.Members
import Hydration.Proofs.Template.Faults
import Hydration.Proofs.Fragment.Evaluated
import Hydration.Proofs.Site.Configuration
import Hydration.Proofs.Fragment.Faults
import Hydration.Proofs.Fragment.Compiled
import Hydration.Proofs.Fragment.Checked
import Hydration.Proofs.Site.Frame
import Hydration.Proofs.Site.Engines
import Hydration.Proofs.Site.Templates
import Hydration.Proofs.Site.Renderers
import Hydration.Proofs.Site.Tags
import Hydration.Proofs.Literal.Balance
import Hydration.Proofs.Tag.Wording
import Hydration.Proofs.Literal.Inlining
import Hydration.Proofs.Template.Word
import Hydration.Proofs.Fragment.Steady
import Hydration.Proofs.Fragment.Contexts
import Hydration.Proofs.Fragment.Inlining
import Hydration.Proofs.Fragment.Equality
import Hydration.Proofs.Tag.Inlining
import Hydration.Proofs.Site.Inlining
import Hydration.Proofs.Site.ClauseOrder
import Hydration.Proofs.Site.Events
import Hydration.Proofs.Site.Readings
import Hydration.Proofs.Component.Recency
import Hydration.Proofs.Component.Answers
import Hydration.Proofs.Site.Modules
import Hydration.Proofs.Site.Views
import Hydration.Proofs.Site.Caches
import Hydration.Proofs.Site.Resolution
import Hydration.Proofs.Site.Calls
import Hydration.Proofs.Site.Logged
import Hydration.Proofs.Path.Candidates
import Hydration.Proofs.Path.Walk
import Hydration.Proofs.Markup.Descriptor
import Hydration.Proofs.Value.Keys
import Hydration.Proofs.Site.Validation
import Hydration.Proofs.Fragment.Defaults
import Hydration.Proofs.Site.Defaults
import Hydration.Proofs.Site.Selection
import Hydration.Proofs.Site.Twins
import Hydration.Proofs.Site.Atomic
import Hydration.Proofs.Site.Equality
import Hydration.Proofs.Tag.Consistency
import Hydration.Proofs.Literal.Spacing
import Hydration.Proofs.Literal.Boundary
import Hydration.Proofs.Literal.Parts
import Hydration.Proofs.Fragment.Objects
import Hydration.Proofs.Environment.Precedence
import Hydration.Proofs.Number.Digits
import Hydration.Proofs.Json.Grammar
import Hydration.Proofs.Json.Grammatical
import Hydration.Proofs.Markup.Serialized
