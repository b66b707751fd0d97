import Gll.CommandLine.Outcome

/-!
Running commands. What a command needs from outside comes through a `Host`: files, the standard
input and whether there is a terminal. The text to parse is read before the grammar.
-/

set_option autoImplicit false

namespace Gll.CommandLine

/-- The outside of a command, in a monad `m`. What fails gives its reason. -/
structure Host (m : Type → Type) where
  fetch : String → m (Except String ByteArray)
  input : m (Except String ByteArray)
  put : String → String → m (Except String Unit)
  /-- Whether both the output and the errors go to a terminal. -/
  isTerminal : m Bool

section

variable {m : Type → Type} [Monad m] (host : Host m)

/-- The path that stands for the standard input. -/
def inputPath : String := "-"

/-- The text of a file; a hyphen is the standard input. -/
def readText (path : String) : ExceptT LoadError m String := do
  let result ← (if path = inputPath then host.input else host.fetch path : m _)
  match result with
  | .error reason => throw (.unreadable path reason)
  | .ok bytes =>
    match String.fromUTF8? bytes with
    | some text => return text
    | none => throw (.unreadable path "stream did not contain valid UTF-8")

/-- The text to parse. A text among the options comes before a path. -/
def loadSource (options : Options) : ExceptT LoadError m String := do
  match options.sourceText, options.sourcePath with
  | some text, _ => return text
  | none, none => throw .noSource
  | none, some path =>
    if path = inputPath && options.grammarPath = inputPath then throw .sharedInput
    readText host path

/-- The program of the grammar. -/
def loadProgram (options : Options) : ExceptT LoadError m Program := do
  let text ← readText host options.grammarPath
  match compile text with
  | .ok program => return program
  | .error error => throw error

/-- The colours of the output. -/
def choosePalette : ColorChoice → m Text.Palette
  | .always => return .on
  | .never => return .off
  | .auto => return .ofBool (← host.isTerminal)

/-- Writes to the file that is asked for, or else to the output. -/
def deliverText (output : Option String) (text : String) : ExceptT LoadError m Outcome := do
  match output with
  | none => return .success text
  | some path =>
    match ← (host.put path text : m _) with
    | .ok () => return .success ""
    | .error reason => throw (.unwritable path reason)

/-- What a command does. -/
def perform (options : Options) : ExceptT LoadError m Outcome := do
  let palette ← (choosePalette host options.color : m _)
  match options.command with
  | .dump => return dump palette (← loadProgram host options)
  | .parse =>
    let text ← loadSource host options
    let program ← loadProgram host options
    return parse palette options.isForestWanted options.fuel program text
  | .trace =>
    let text ← loadSource host options
    let program ← loadProgram host options
    return trace palette options.verbosity options.fuel program text
  | .gss =>
    let text ← loadSource host options
    let program ← loadProgram host options
    match gss options.fuel program text with
    | .ok dot => deliverText host options.output dot
    | .error outcome => return outcome

/-- Runs a command. -/
def run (options : Options) : m Outcome := do
  match ← (perform host options).run with
  | .ok outcome => return outcome
  | .error error => return .ofLoadError error

end

end Gll.CommandLine
