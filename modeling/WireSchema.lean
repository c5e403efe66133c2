import WireSchema.Generation
import WireSchema.Wire.Model
import WireSchema.Proofs.Go.Faithful
import WireSchema.Proofs.Go.Recursion
import WireSchema.Proofs.LineStructure
import WireSchema.Proofs.TypeScript.Faithful
import WireSchema.Proofs.Wire.RoundTrip
import WireSchema.Proofs.Schema.WellFormed
import WireSchema.Proofs.Refusal
import WireSchema.Proofs.Symbol.Locality
import WireSchema.Proofs.Symbol.Reordering
import WireSchema.Proofs.Symbol.Appending
import WireSchema.Proofs.Go.Tag
import WireSchema.Proofs.BlockOrder
import WireSchema.Proofs.TypeScript.Scope
import WireSchema.Proofs.Wire.Respelling
import WireSchema.Proofs.Schema.Faults
import WireSchema.Proofs.Symbol.FirstClash
import WireSchema.Proofs.Schema.Editing
import WireSchema.Proofs.Go.Foreign
import WireSchema.Proofs.TypeScript.Numbers
import WireSchema.Proofs.Go.FieldShape
import WireSchema.Proofs.Go.Literal
import WireSchema.Proofs.TypeScript.NormalForm
import WireSchema.Proofs.Text.Alignment
import WireSchema.Proofs.References
import WireSchema.Proofs.Go.Overlay
import WireSchema.Proofs.Go.Export
import WireSchema.Proofs.Schema.Lookup
import WireSchema.Proofs.Number.Canonical
import WireSchema.Proofs.TypeScript.NumericName
import WireSchema.Proofs.Json.Numeral
import WireSchema.Proofs.Number.Scaled
import WireSchema.Proofs.Wire.CaseNumber
import WireSchema.Proofs.Schema.Search
import WireSchema.Proofs.Text.Marks
import WireSchema.Proofs.Go.Capitalized
