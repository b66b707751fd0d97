import Gll.CommandLine.Arguments
import Gll.CommandLine.Outcome
import Gll.CommandLine.Run
import Gll.Decimal.Binary
import Gll.Decimal.Shortest
import Gll.Fault
import Gll.Forest.Basic
import Gll.Forest.Outline
import Gll.Grammar.Basic
import Gll.Grammar.Reading
import Gll.Interpreter
import Gll.Json.Basic
import Gll.Json.Number
import Gll.Json.Reader
import Gll.Label
import Gll.Main
import Gll.NameTable
import Gll.Pattern
import Gll.Plan
import Gll.Position
import Gll.Program.Basic
import Gll.Program.Listing
import Gll.Program.Lowering
import Gll.Proofs.Acceptance
import Gll.Proofs.Ambiguity
import Gll.Proofs.Auditing
import Gll.Proofs.Blocks
import Gll.Proofs.Brackets
import Gll.Proofs.Budget
import Gll.Proofs.Callees
import Gll.Proofs.Calls
import Gll.Proofs.Canonicity
import Gll.Proofs.Change
import Gll.Proofs.Checked
import Gll.Proofs.Chronicle
import Gll.Proofs.Commands
import Gll.Proofs.Compilation
import Gll.Proofs.Completeness
import Gll.Proofs.Contexts
import Gll.Proofs.Counting
import Gll.Proofs.Course
import Gll.Proofs.Decoding
import Gll.Proofs.Decoration
import Gll.Proofs.Deeds
import Gll.Proofs.Deliveries
import Gll.Proofs.Delivery
import Gll.Proofs.Derivation
import Gll.Proofs.Documents
import Gll.Proofs.DotReader
import Gll.Proofs.DotReading
import Gll.Proofs.Driving
import Gll.Proofs.Enclosing
import Gll.Proofs.Escapes
import Gll.Proofs.ExitCodes
import Gll.Proofs.Fact
import Gll.Proofs.Fates
import Gll.Proofs.Faultless
import Gll.Proofs.Faults
import Gll.Proofs.FirstChoice
import Gll.Proofs.Flattening
import Gll.Proofs.Founded
import Gll.Proofs.Frontier
import Gll.Proofs.Frozen
import Gll.Proofs.Fuel
import Gll.Proofs.Generation
import Gll.Proofs.Grounding
import Gll.Proofs.Groups
import Gll.Proofs.Growth
import Gll.Proofs.Handing
import Gll.Proofs.Identity
import Gll.Proofs.Interning
import Gll.Proofs.Knowledge
import Gll.Proofs.Laws
import Gll.Proofs.Layout
import Gll.Proofs.Linking
import Gll.Proofs.Liveness
import Gll.Proofs.Lookups
import Gll.Proofs.Marks
import Gll.Proofs.Meaning
import Gll.Proofs.Metering
import Gll.Proofs.Multiplicity
import Gll.Proofs.Naming
import Gll.Proofs.Opening
import Gll.Proofs.Outlines
import Gll.Proofs.Overflow
import Gll.Proofs.Packing
import Gll.Proofs.Painting
import Gll.Proofs.Parse
import Gll.Proofs.PartNames
import Gll.Proofs.Prefixes
import Gll.Proofs.Progress
import Gll.Proofs.Readers
import Gll.Proofs.ReadingBack
import Gll.Proofs.References
import Gll.Proofs.Remains
import Gll.Proofs.Rendering
import Gll.Proofs.Requests
import Gll.Proofs.Runs
import Gll.Proofs.Sentential
import Gll.Proofs.Sets
import Gll.Proofs.Sharing
import Gll.Proofs.Showing
import Gll.Proofs.Size
import Gll.Proofs.Sound
import Gll.Proofs.Spelling
import Gll.Proofs.Spending
import Gll.Proofs.Tally
import Gll.Proofs.Telling
import Gll.Proofs.Terminals
import Gll.Proofs.Timeline
import Gll.Proofs.Tracking
import Gll.Proofs.Transcripts
import Gll.Proofs.Trees
import Gll.Proofs.Unfolding
import Gll.Proofs.Unlimited
import Gll.Proofs.Watching
import Gll.Proofs.WellFormed
import Gll.Proofs.Work
import Gll.Proofs.Wrapping
import Gll.Regex.Basic
import Gll.Regex.Expr
import Gll.Regex.Meaning
import Gll.Regex.Property
import Gll.Regex.Reader
import Gll.Routine
import Gll.Scheduler.Basic
import Gll.Scheduler.Operation
import Gll.Scheduler.Queue
import Gll.Session
import Gll.Stack.Basic
import Gll.Stack.Dot
import Gll.Text.Quoted
import Gll.Text.Styled
import Gll.Trace.Event
import Gll.Trace.Transcript
import Gll.Unicode.Age
import Gll.Unicode.CaseFolding
import Gll.Unicode.GeneralCategory
import Gll.Unicode.Property
import Gll.Unicode.RangeTable
import Gll.Unicode.Script
import Gll.Unicode.Segmentation
