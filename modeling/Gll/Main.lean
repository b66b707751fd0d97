import Gll.CommandLine.Run

/-!
The program on the operating system: its files and streams are the host of a command.
-/

set_option autoImplicit false

namespace Gll.CommandLine

/-- What the operating system says with the number of an error; some numbers come negated. -/
def withNumber (text : String) (code : UInt32) : String :=
  let number := if code.toNat < Nat.pow 2 31 then code.toNat else Nat.pow 2 32 - code.toNat
  text ++ " (os error " ++ toString number ++ ")"

/-- Why an operation of the operating system failed, in words. -/
def reason : IO.Error → String
  | .noFileOrDirectory _ code _ => withNumber "No such file or directory" code
  | .inappropriateType _ code details => withNumber details code
  | .permissionDenied _ code _ => withNumber "Permission denied" code
  | error => toString error

/-- The result of an action, or why it failed. -/
def attempt {α : Type} (action : IO α) : IO (Except String α) := do
  try
    return .ok (← action)
  catch error => return .error (reason error)

/-- The files and streams of the operating system. -/
def system : Host IO where
  fetch path := attempt (IO.FS.readBinFile path)
  input := attempt do (← IO.getStdin).readBinToEnd
  put path text := attempt (IO.FS.writeFile path text)
  isTerminal := do return (← (← IO.getStdout).isTty) && (← (← IO.getStderr).isTty)

end Gll.CommandLine

open Gll.CommandLine in
/-- Runs the command that the arguments ask for. -/
def main (arguments : List String) : IO UInt32 := do
  match Options.ofArguments arguments with
  | .error _ =>
    IO.eprintln "usage: (dump | parse | trace | gss) GRAMMAR [SOURCE] [OPTIONS]"
    return 2
  | .ok options =>
    let outcome ← run system options
    IO.print outcome.output
    IO.eprint outcome.errors
    return outcome.exitCode.toUInt32
