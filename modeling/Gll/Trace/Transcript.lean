import Gll.Program.Listing
import Gll.Trace.Event

/-!
Transcripts: traces to be read. Every event of interest is one line, and a blank line stands before
each new generation but the first.

```text
0:'a'
  L1  S ::= · 'a'  g1 i0
    match 'a'
    push g2 L2@0 <- g1

1:$
  shift g2 0:'a'
  pop g1 S [0,1)
  accept [0,1)
```

How much is of interest is the *verbosity*. Labels and nonterminals are named after a program; an
event about others cannot be shown, which matters only if it is of interest.
-/

set_option autoImplicit false

namespace Gll

open Text

/-- How much of a parse is shown. -/
inductive Verbosity where
  /-- New generations, shifts, new derivations and acceptance. -/
  | normal
  /-- Also descriptors, tests, new links and new terminals. -/
  | verbose
  /-- Also what was found to be done already, and what is delivered again. -/
  | veryVerbose
deriving DecidableEq, Repr

namespace Verbosity

/-- The verbosity of so many requests for more. -/
def ofCount : Nat → Verbosity
  | 0 => normal
  | 1 => verbose
  | _ => veryVerbose

/-- The place in the order from little to much. -/
def rank : Verbosity → Nat
  | normal => 0
  | verbose => 1
  | veryVerbose => 2

/-- Whether what is shown from a level on is shown. -/
def shows (verbosity level : Verbosity) : Bool := level.rank ≤ verbosity.rank

end Verbosity

namespace Event

/-- The least verbosity at which an event is shown. -/
def level : Event → Verbosity
  | advance _ | shift _ _ | accept _ => .normal
  | descriptor _ _ _ | terminal _ _ _ => .verbose
  | push _ _ _ _ isNew => if isNew then .verbose else .veryVerbose
  | pop _ _ nonterminal _ isNew =>
    if isNew then (if nonterminal.isSome then .normal else .verbose) else .veryVerbose
  | redeliver _ _ _ | skipNow _ _ | skipLater _ => .veryVerbose

/-- Whether an event opens a generation. -/
def isAdvance : Event → Bool
  | advance _ => true
  | _ => false

end Event

namespace Program

/-- The dotted item of a label. -/
def item (program : Program) (label : Label) : Except Fault Styled :=
  (Fault.unknownLabel label).unlessSome (program.item? label)

/-- The name of a nonterminal. -/
def name (program : Program) (nonterminal : Nonterminal) : Except Fault String :=
  (Fault.unknownNonterminal nonterminal).unlessSome (program.name? nonterminal)

/-- What is tested at a label; a question mark if there is no test. -/
def testText (program : Program) (label : Label) : Except Fault String := do
  match (← (Fault.unknownLabel label).unlessSome (program.slot? label)).instruction with
  | .terminal matcher => return matcher.text
  | _ => return "?"

end Program

namespace Transcript

/-- A remark, if it applies. -/
def remark (applies : Bool) (text : String) : Styled :=
  if applies then plain (" (" ++ text ++ ")") else []

/-- The name of a derived nonterminal; a terminal has none. -/
def derived (program : Program) : Option Nonterminal → Except Fault Styled
  | none => .ok []
  | some nonterminal => do return paint .name (← program.name nonterminal) ++ plain " "

/-- The line of an event. -/
def line (program : Program) : Event → Except Fault Styled
  | .advance position => .ok (paint .name position.text)
  | .descriptor label caller stem => do
    return plain "  " ++ paint .faint label.text ++ plain "  " ++ (← program.item label)
      ++ plain "  " ++ paint .faint (caller.text ++ " " ++ stem.text)
  | .push frame label origin caller isNew =>
    .ok (plain ("    push " ++ frame.text ++ " " ++ label.text ++ "@" ++ toString origin ++ " <- "
      ++ caller.text) ++ remark (!isNew) "known")
  | .terminal label _ isMatch => do
    let verdict := if isMatch then paint .terminal "match" else paint .alarm "mismatch"
    return plain "    " ++ verdict ++ plain (" " ++ (← program.testText label))
  | .shift frame position =>
    .ok (plain ("  shift " ++ frame.text ++ " ") ++ paint .terminal position.text)
  | .pop frame _ nonterminal span isNew => do
    return plain ("  pop " ++ frame.text ++ " ") ++ (← derived program nonterminal)
      ++ paint .faint span.text ++ remark (!isNew) "again"
  | .redeliver _ result caller =>
    .ok (plain ("    redeliver " ++ result.text ++ " -> " ++ caller.text))
  | .skipNow label caller => .ok (plain ("    skip " ++ label.text ++ " " ++ caller.text))
  | .skipLater frame => .ok (plain ("    skip shift " ++ frame.text))
  | .accept span => .ok (plain "  " ++ paint .terminal "accept" ++ plain (" " ++ span.text))

/-- Adds the line of an event, after a blank one where a further generation begins. -/
def addLine (event : Event) (line : Styled) (lines : Array Styled) : Array Styled :=
  (if event.isAdvance && !lines.isEmpty then lines.push [] else lines).push line

/-- Keeps the lines of the events that are of interest. -/
def tracer (program : Program) (verbosity : Verbosity) : Tracer (Array Styled) where
  record event :=
    if verbosity.shows event.level then (line program event).map (addLine event) else .ok id

end Transcript

end Gll
