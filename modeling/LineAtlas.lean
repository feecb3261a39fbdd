import LineAtlas.CursorFamily
import LineAtlas.Main
import LineAtlas.Proofs.Locality
import LineAtlas.Proofs.Writing.Text
import LineAtlas.Proofs.LineProgram.InstructionList
import LineAtlas.Proofs.LineProgram.InstructionLocality
import LineAtlas.Proofs.LineProgram.Assembly
import LineAtlas.Proofs.LineProgram.History
import LineAtlas.Proofs.LineSection.Isolation
import LineAtlas.Proofs.LineSection.Tiling
import LineAtlas.Proofs.LineSection.WrittenUnit
import LineAtlas.Proofs.LineSection.WrittenSection
import LineAtlas.Proofs.LineSection.PrologueLocality
import LineAtlas.Proofs.LineSection.Accounting
import LineAtlas.Proofs.Extension
import LineAtlas.Proofs.Failures
import LineAtlas.Proofs.LineProgram.InstructionFailures
import LineAtlas.Proofs.LineSection.PrologueFailures
import LineAtlas.Proofs.LineSection.Truncation
import LineAtlas.Proofs.LineSection.CutSection
import LineAtlas.Proofs.LineSection.FailureKinds
import LineAtlas.Proofs.LineProgram.ConstAdvance
import LineAtlas.Proofs.LineSection.BothPolicies
import LineAtlas.Proofs.LineProgram.OnwardMotion
import LineAtlas.Proofs.Lookup.OrderedRows
import LineAtlas.Proofs.Lookup.ListedAddresses
import LineAtlas.Proofs.Findings
import LineAtlas.Proofs.Lookup.SplitPath
import LineAtlas.Proofs.LossyText
import LineAtlas.Proofs.LineSection.DecodedTables
import LineAtlas.Proofs.Offsets
import LineAtlas.Proofs.RangeSection.WrittenSet
import LineAtlas.Proofs.RangeSection.Behind
import LineAtlas.Proofs.RangeSection.Continuation
import LineAtlas.Proofs.RangeSection.Boundaries
import LineAtlas.Proofs.Consumption
import LineAtlas.Proofs.LineProgram.Progress
import LineAtlas.Proofs.LineSection.OutputBound
import LineAtlas.Proofs.Checked.Operations
import LineAtlas.Proofs.Checked.Base128
import LineAtlas.Proofs.Checked.Reading
import LineAtlas.Proofs.Checked.Prologue
import LineAtlas.Proofs.Checked.LineProgram
import LineAtlas.Proofs.Checked.LineSection
import LineAtlas.Proofs.Checked.RangeSection
import LineAtlas.Proofs.Checked.ObjectFile
import LineAtlas.Proofs.LineSection.PathSize
import LineAtlas.Proofs.Checked.Atlas
import LineAtlas.Proofs.RangeSection.Layout
import LineAtlas.Proofs.ObjectFile.Fields
import LineAtlas.Proofs.ObjectFile.Acceptance
import LineAtlas.Proofs.ObjectFile.WrittenImage
import LineAtlas.Proofs.ObjectFile.RoundTrip
import LineAtlas.Proofs.ObjectFile.Views
import LineAtlas.Proofs.Base128.Totals
import LineAtlas.Proofs.Base128.Unsigned
import LineAtlas.Proofs.Base128.Signed
import LineAtlas.Proofs.Cursors.Families
import LineAtlas.Proofs.Lookup.Sessions
import LineAtlas.Proofs.Base128.SignedReduction
import LineAtlas.Proofs.LineProgram.Abbreviation
import LineAtlas.Proofs.LineProgram.InstructionPersistence
import LineAtlas.Proofs.LineProgram.EncodingParameters
import LineAtlas.Proofs.StoppingPlaces
import LineAtlas.Proofs.LineProgram.FailedInstruction
import LineAtlas.Proofs.LineProgram.Tracing
import LineAtlas.Proofs.Lookup.StoreGrowth
import LineAtlas.Proofs.FieldLayout
import LineAtlas.Proofs.LineProgram.HeaderGrammar
import LineAtlas.Proofs.Lookup.LookupCommand
