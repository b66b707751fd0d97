import Gll.CommandLine.Arguments
import Gll.Forest.Outline
import Gll.Grammar.Reading
import Gll.Program.Lowering
import Gll.Stack.Dot

/-!
What the commands write, as functions of what was read. An `Outcome` is everything that a command
leaves behind: what it writes, and an exit code that is 0 for success, 1 for a refusal and 2 if the
fuel did not suffice.
-/

set_option autoImplicit false

namespace Gll.CommandLine

open Text

/-- What a command writes to its output and to its errors, and its exit code. -/
structure Outcome where
  output : String
  errors : String
  exitCode : Nat
deriving DecidableEq, Repr

/-- Why a command cannot do its work. -/
inductive LoadError where
  | noSource
  /-- Both the grammar and the text would have to be read from the standard input. -/
  | sharedInput
  | unreadable (path reason : String)
  | grammar (error : GrammarError)
  | lowering (error : LowerError)
  | unwritable (path reason : String)

namespace LoadError

/-- What the user is told. -/
def message : LoadError → String
  | noSource => "input is required: use positional argument or -s/--source"
  | sharedInput => "grammar and input cannot both be from stdin"
  | unreadable path reason => "failed to read '" ++ path ++ "': " ++ reason
  | grammar error => error.message
  | lowering error => error.message
  | unwritable path reason => "failed to write '" ++ path ++ "': " ++ reason

end LoadError

namespace Outcome

/-- Success. -/
def success (output : String) : Outcome := ⟨output, "", 0⟩

/-- Refusal of what was read. -/
def ofLoadError (error : LoadError) : Outcome := ⟨"", "error: " ++ error.message ++ "\n", 1⟩

/-- A parse that stopped early, after something was written. -/
def ofRunError (output : String) (error : RunError) : Outcome :=
  ⟨output, "runtime error: " ++ error.message ++ "\n", 2⟩

/-- A fault, after something was written. What else is said of it is left out. -/
def ofFault (output : String) : Outcome := ⟨output, "", 101⟩

end Outcome

/-- Painted lines as a text. -/
def page (palette : Palette) (lines : List Styled) : String :=
  unlines (lines.map (Styled.render palette))

/-- Whether a text was accepted, as it is shown. -/
def verdict (isAccepted : Bool) : Styled :=
  if isAccepted then paint .terminal "accepted" else paint .alarm "rejected"

/-- The exit code that goes with a verdict. -/
def exitCode (isAccepted : Bool) : Nat := if isAccepted then 0 else 1

/-- The program of a grammar. -/
def compile (text : String) : Except LoadError Program := do
  let grammar ← (Grammar.ofText text).mapError LoadError.grammar
  (Program.compile grammar).mapError LoadError.lowering

/-- What the dump of a program writes. -/
def dump (palette : Palette) (program : Program) : Outcome :=
  match program.listing? with
  | some lines => .success (page palette lines)
  | none => .ofFault ""

/-- The outline of the forest of a parse, if there is one. -/
def forestOf {σ μ : Type} (program : Program) (session : Session σ μ) :
    Except Fault (List Styled) :=
  match session.scheduler.root with
  | some root => session.scheduler.forest.outline program root
  | none => .ok []

/-- Parses a text and tells the verdict. The forest follows if it is wanted and there is one, unless
it has too many references to be shown. -/
def parse (palette : Palette) (isForestWanted : Bool) (fuel : Nat) (program : Program)
    (text : String) : Outcome :=
  match program.parse .silent () fuel text with
  | .error (.fault _) _ => .ofFault ""
  | .error (.error error) _ => .ofRunError "" error
  | .ok isAccepted session =>
    match if isAccepted && isForestWanted then forestOf program session else .ok [] with
    | .ok forest => ⟨page palette (verdict isAccepted :: forest), "", exitCode isAccepted⟩
    | .error _ => .ofFault (page palette [verdict isAccepted])

/-- Parses a text and shows how, then tells the verdict. -/
def trace (palette : Palette) (verbosity : Verbosity) (fuel : Nat) (program : Program)
    (text : String) : Outcome :=
  match program.parse (Transcript.tracer program verbosity) #[] fuel text with
  | .error (.fault _) _ => .ofFault ""
  | .error (.error error) session => .ofRunError (page palette session.trace.toList) error
  | .ok isAccepted session =>
    let ending := [paint .faint "---", verdict isAccepted]
    ⟨page palette (session.trace.toList ++ ending), "", exitCode isAccepted⟩

/-- Parses a text and writes the stack graph, whatever the verdict. -/
def gss (fuel : Nat) (program : Program) (text : String) : Except Outcome String :=
  match program.parse .silent () fuel text with
  | .error (.fault _) _ => .error (.ofFault "")
  | .error (.error error) _ => .error (.ofRunError "" error)
  | .ok _ session =>
    match session.scheduler.graph.dot program (some session.scheduler.forest) with
    | .ok lines => .ok (unlines lines)
    | .error _ => .error (.ofFault "")

end Gll.CommandLine
