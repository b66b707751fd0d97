import Gll.Session
import Gll.Trace.Transcript

/-!
The command line. A command is followed by its arguments, in any order: the path of a grammar, then
that of the text to parse, and options. All commands have the same options, and each uses those that
it needs.

| option | |
|---|---|
| `-s TEXT`, `--source TEXT` | the text to parse |
| `-o FILE`, `--output FILE` | where to write |
| `--fuel N` | how much work may be done |
| `--color WHEN` | `auto`, `always` or `never` |
| `--forest` | write the forest of an accepted text |
| `-v` | show more; it may be given more than once |

The value of a long option is the next argument, or follows an equals sign. Short options may be
joined, and the value of the last one is the rest of its argument, with or without an equals sign,
or the next argument. An argument that begins with a hyphen and goes on is no value. After `--` all
arguments are paths.
-/

set_option autoImplicit false

namespace Gll.CommandLine

/-- What is to be done. -/
inductive Command where
  /-- List the program of a grammar. -/
  | dump
  /-- Tell whether a text is accepted. -/
  | parse
  /-- Show how a text is parsed. -/
  | trace
  /-- Write the stack graph of a parse. -/
  | gss
deriving DecidableEq, Repr

/-- The command of a name. -/
def Command.ofName? : String → Option Command
  | "dump" => some dump
  | "parse" => some parse
  | "trace" => some trace
  | "gss" => some gss
  | _ => none

/-- When output is coloured. -/
inductive ColorChoice where
  /-- If it goes to a terminal. -/
  | auto
  | always
  | never
deriving DecidableEq, Repr

/-- The choice of a name. -/
def ColorChoice.ofName? : String → Option ColorChoice
  | "auto" => some auto
  | "always" => some always
  | "never" => some never
  | _ => none

/-- A command with its arguments. -/
structure Options where
  command : Command
  grammarPath : String
  sourcePath : Option String
  sourceText : Option String
  output : Option String
  fuel : Nat
  color : ColorChoice
  isForestWanted : Bool
  verbosity : Verbosity
deriving DecidableEq, Repr

/-- An option that takes a value. -/
inductive Key where
  | source
  | output
  | fuel
  | color
deriving DecidableEq, Repr

/-- Why arguments are refused. -/
inductive UsageError where
  | missingCommand
  | unknownCommand (name : String)
  | unknownOption (name : String)
  | missingValue (key : Key)
  | unexpectedValue (option : String)
  | repeatedOption (option : String)
  | invalidValue (key : Key) (value : String)
  | emptyPath
  | missingGrammar
  | surplusArgument (argument : String)
deriving DecidableEq, Repr

/-- Options as they are written, each at most once. -/
structure Draft where
  /-- The arguments that are not options, the last one first. -/
  paths : List String
  source : Option String
  output : Option String
  fuel : Option String
  color : Option String
  isForestWanted : Bool
  verboseCount : Nat

namespace Key

/-- The long name of an option. -/
def name : Key → String
  | source => "source"
  | output => "output"
  | fuel => "fuel"
  | color => "color"

/-- The option of a long name. -/
def ofName? : String → Option Key
  | "source" => some source
  | "output" => some output
  | "fuel" => some fuel
  | "color" => some color
  | _ => none

/-- The option of a letter. -/
def ofLetter? : Char → Option Key
  | 's' => some source
  | 'o' => some output
  | _ => none

/-- The value that an option has so far. -/
def value? (draft : Draft) : Key → Option String
  | source => draft.source
  | output => draft.output
  | fuel => draft.fuel
  | color => draft.color

/-- Gives an option a value. -/
def put (value : String) (draft : Draft) : Key → Draft
  | source => { draft with source := some value }
  | output => { draft with output := some value }
  | fuel => { draft with fuel := some value }
  | color => { draft with color := some value }

end Key

namespace Draft

/-- Nothing written. -/
def empty : Draft := ⟨[], none, none, none, none, false, 0⟩

/-- Gives an option its only value. -/
def set (key : Key) (value : String) (draft : Draft) : Except UsageError Draft :=
  match key.value? draft with
  | none => .ok (key.put value draft)
  | some _ => .error (.repeatedOption key.name)

/-- Adds a path, of which there are at most two. -/
def addPath (path : String) (draft : Draft) : Except UsageError Draft :=
  match draft.paths with
  | [_, _] => .error (.surplusArgument path)
  | paths => .ok { draft with paths := path :: paths }

/-- Asks for the forest. -/
def wantForest (draft : Draft) : Except UsageError Draft :=
  if draft.isForestWanted then .error (.repeatedOption "forest")
  else .ok { draft with isForestWanted := true }

end Draft

/-! ## Arguments -/

/-- Splits a text at its first equals sign. -/
def splitAtEquals : List Char → List Char × Option (List Char)
  | [] => ([], none)
  | '=' :: rest => ([], some rest)
  | c :: rest =>
    let (name, value) := splitAtEquals rest
    (c :: name, value)

/-- Reads joined short options. The last one may want a value that is not in its argument. -/
def readLetters : List Char → Draft → Except UsageError (Option Key × Draft)
  | [], draft => .ok (none, draft)
  | 'v' :: rest, draft =>
    readLetters rest { draft with verboseCount := draft.verboseCount + 1 }
  | letter :: rest, draft =>
    match Key.ofLetter? letter with
    | none => .error (.unknownOption (String.singleton letter))
    | some key =>
      match rest with
      | [] => .ok (some key, draft)
      | '=' :: value => return (none, ← draft.set key (String.ofList value))
      | value => return (none, ← draft.set key (String.ofList value))

/-- Reads a long option, which may want a value that is not in its argument. -/
def readLong (text : List Char) (draft : Draft) : Except UsageError (Option Key × Draft) :=
  let (name, value) := splitAtEquals text
  let name := String.ofList name
  match Key.ofName? name, value with
  | some key, some value => return (none, ← draft.set key (String.ofList value))
  | some key, none => .ok (some key, draft)
  | none, some _ =>
    .error (if name = "forest" then .unexpectedValue name else .unknownOption name)
  | none, none =>
    if name = "forest" then return (none, ← draft.wantForest) else .error (.unknownOption name)

/-- Whether an argument can be a value or a path: a lone hyphen can. -/
def isPlain (argument : String) : Bool :=
  match argument.toList with
  | '-' :: _ :: _ => false
  | _ => true

/-- Reads an argument, of which it is known that it is not `--`. -/
def readArgument (argument : String) (draft : Draft) :
    Except UsageError (Option Key × Draft) :=
  match argument.toList with
  | '-' :: '-' :: text => readLong text draft
  | '-' :: letter :: letters => readLetters (letter :: letters) draft
  | _ => return (none, ← draft.addPath argument)

/-- Reads paths only. -/
def readPaths : List String → Draft → Except UsageError Draft
  | [], draft => .ok draft
  | path :: rest, draft => do readPaths rest (← draft.addPath path)

/-- Reads arguments. If an option waits for its value, that comes first. -/
def readArguments : Option Key → List String → Draft → Except UsageError Draft
  | none, [], draft => .ok draft
  | some key, [], _ => .error (.missingValue key)
  | some key, argument :: rest, draft => do
    if isPlain argument then readArguments none rest (← draft.set key argument)
    else throw (.missingValue key)
  | none, argument :: rest, draft => do
    if argument = "--" then readPaths rest draft
    else
      let (waiting, draft) ← readArgument argument draft
      readArguments waiting rest draft

/-! ## Values -/

/-- The number that digits spell. -/
def readDigits? (digits : List Char) : Option Nat :=
  if !digits.isEmpty && digits.all Char.isDigit then
    some (digits.foldl (fun number digit => 10 * number + (digit.toNat - '0'.toNat)) 0)
  else none

/-- An amount of fuel: a number below `2 ^ 32` in decimal, maybe with a sign. -/
def readFuel? (text : String) : Option Nat := do
  let number ←
    match text.toList with
    | '+' :: digits => readDigits? digits
    | '-' :: digits => (readDigits? digits).filter (· == 0)
    | digits => readDigits? digits
  if number < Nat.pow 2 32 then return number else failure

/-- An option that was not given has its default; one that was given is read. -/
def valueOr {α : Type} (key : Key) (default : α) (read : String → Option α) :
    Option String → Except UsageError α
  | none => .ok default
  | some text =>
    match read text with
    | some value => .ok value
    | none => .error (.invalidValue key text)

/-- A path, which cannot be empty. -/
def checkPath : Option String → Except UsageError (Option String)
  | some "" => .error .emptyPath
  | path => .ok path

/-- The paths of the grammar and of the text to parse. -/
def Draft.readPaths (draft : Draft) : Except UsageError (String × Option String) :=
  match draft.paths.reverse with
  | [] => .error .missingGrammar
  | "" :: _ => .error .emptyPath
  | grammar :: rest => return (grammar, ← checkPath rest.head?)

/-- The options of a command line, the name of the program left out. -/
def Options.ofArguments : List String → Except UsageError Options
  | [] => .error .missingCommand
  | name :: arguments => do
    let command ←
      match Command.ofName? name with
      | some command => pure command
      | none => throw (.unknownCommand name)
    let draft ← readArguments none arguments .empty
    let (grammarPath, sourcePath) ← draft.readPaths
    return {
      command, grammarPath, sourcePath
      sourceText := draft.source
      output := ← checkPath draft.output
      fuel := ← valueOr .fuel Session.defaultFuel readFuel? draft.fuel
      color := ← valueOr .color .auto ColorChoice.ofName? draft.color
      isForestWanted := draft.isForestWanted
      verbosity := .ofCount draft.verboseCount }

end Gll.CommandLine
