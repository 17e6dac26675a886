import EventQuery.Config.Load
import EventQuery.Processor
import EventQuery.Proofs.Pattern.Absence
import EventQuery.Proofs.Pattern.Conjunction
import EventQuery.Proofs.Pattern.Ending
import EventQuery.Proofs.Pattern.LeafLimit
import EventQuery.Proofs.Pattern.Numbering
import EventQuery.Proofs.Pattern.Pairing
import EventQuery.Proofs.Pattern.Precedence
import EventQuery.Proofs.Pattern.Repetition
import EventQuery.Proofs.Pattern.TagValues
import EventQuery.Proofs.Pattern.WordPool
import EventQuery.Proofs.Aggregate.Recount
import EventQuery.Proofs.Store.Lifetimes
import EventQuery.Proofs.Binding.Preservation
import EventQuery.Proofs.Binding.Signatures
import EventQuery.Proofs.Binding.Meaning
import EventQuery.Proofs.Statement.Pairs
import EventQuery.Proofs.Statement.Calls
import EventQuery.Proofs.Processor.Agreement
import EventQuery.Proofs.Processor.Windows
import EventQuery.Proofs.Processor.Coverage
import EventQuery.Proofs.Processor.Groups
import EventQuery.Proofs.Processor.Cycles
import EventQuery.Proofs.Aggregate.Extremes
import EventQuery.Proofs.Aggregate.Sums
import EventQuery.Proofs.Aggregate.ValueOrder
import EventQuery.Proofs.Aggregate.GuardedSearch
import EventQuery.Proofs.Aggregate.EdgeHistory
import EventQuery.Proofs.Binding.Sequences
import EventQuery.Proofs.Binding.DeclarationOrder
import EventQuery.Proofs.Statement.Grouping
import EventQuery.Proofs.Time.Shifting
import EventQuery.Proofs.Value.RoundedExtremes
import EventQuery.Proofs.Text.EditDistance
