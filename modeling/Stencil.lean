import Stencil.Calendar.Iso
import Stencil.Calendar.Moment
import Stencil.Failure
import Stencil.Files.Tree
import Stencil.Helper.Builtin
import Stencil.Helper.Catalog
import Stencil.Markup.Tag
import Stencil.Number.Binary64
import Stencil.Number.Numeral
import Stencil.Render.Engine
import Stencil.Site.Basic
import Stencil.Site.Settings
import Stencil.Text.Basic
import Stencil.Text.Case
import Stencil.Text.Quoted
import Stencil.Value.Basic
import Stencil.Value.Path
import Stencil.Value.Written
import Stencil.Proofs.Calendar.Days
import Stencil.Proofs.Calendar.Iso
import Stencil.Proofs.Files.Below
import Stencil.Proofs.Files.Normal
import Stencil.Proofs.Helper.Builtin
import Stencil.Proofs.Helper.Calls
import Stencil.Proofs.Helper.History
import Stencil.Proofs.Helper.Independence
import Stencil.Proofs.Helper.Literals
import Stencil.Proofs.Helper.NulFree
import Stencil.Proofs.Helper.Splitting
import Stencil.Proofs.Lockstep
import Stencil.Proofs.Markup.Entities
import Stencil.Proofs.Markup.Fenced
import Stencil.Proofs.Markup.Grammar
import Stencil.Proofs.Markup.Pattern
import Stencil.Proofs.Markup.Plain
import Stencil.Proofs.Markup.Rewriting
import Stencil.Proofs.Markup.Scanning
import Stencil.Proofs.Markup.Shape
import Stencil.Proofs.Markup.Spans
import Stencil.Proofs.Markup.Stray
import Stencil.Proofs.Number.Numerals
import Stencil.Proofs.Outcome
import Stencil.Proofs.Render.Appending
import Stencil.Proofs.Render.Depth
import Stencil.Proofs.Render.Escaping
import Stencil.Proofs.Render.Expansion
import Stencil.Proofs.Render.Failures
import Stencil.Proofs.Render.Files
import Stencil.Proofs.Render.HeldOutput
import Stencil.Proofs.Render.Keeping
import Stencil.Proofs.Render.Loop
import Stencil.Proofs.Render.OnlyHelpers
import Stencil.Proofs.Render.Plain
import Stencil.Proofs.Render.Private
import Stencil.Proofs.Render.Separated
import Stencil.Proofs.Render.Stray
import Stencil.Proofs.Render.Unrolling
import Stencil.Proofs.Render.Unspoken
import Stencil.Proofs.Render.Woven
import Stencil.Proofs.Script.Basic
import Stencil.Proofs.Script.Coupling
import Stencil.Proofs.Script.Reading
import Stencil.Proofs.Script.Rewriting
import Stencil.Proofs.Script.Spelling
import Stencil.Proofs.Script.Stages
import Stencil.Proofs.Site.CacheHits
import Stencil.Proofs.Site.Loads
import Stencil.Proofs.Site.Page
import Stencil.Proofs.Site.Settings
import Stencil.Proofs.Template.Meaning
import Stencil.Proofs.Template.Order
import Stencil.Proofs.Template.Parts
import Stencil.Proofs.Template.Stages
import Stencil.Proofs.Template.Tags
import Stencil.Proofs.Template.Tree
import Stencil.Proofs.Text.NulFree
import Stencil.Proofs.Text.Parts
import Stencil.Proofs.Value.Agreement
import Stencil.Proofs.Value.Every
import Stencil.Proofs.Value.NulFree
import Stencil.Proofs.Value.Reaching
