/-!
Sets of code points as sorted tables. A table is a sorted array of runs that do not overlap; a run
is an arithmetic progression (`step = 1` is an interval, `step = 2` every other code point, as
where capital and small letters alternate). Membership is a binary search for the last run that
starts at or before the code point.

A table is written as lines of text: runs in hexadecimal, separated by spaces, each `low`,
`low-high` or `low-high/step`.
-/

set_option autoImplicit false

namespace Gll.Unicode

/-- The code points `low`, `low + step`, …, up to `high`. -/
structure Run where
  low : Nat
  high : Nat
  step : Nat
deriving Inhabited, Repr

/-- A set of code points. -/
structure RangeTable where
  runs : Array Run
deriving Inhabited, Repr

namespace Run

/-- Whether a code point belongs to the run. -/
def contains (run : Run) (code : Nat) : Bool :=
  run.low ≤ code && code ≤ run.high && (code - run.low) % run.step == 0

end Run

namespace RangeTable

/-! ## Membership -/

/-- Searches `runs[first:last]` for the last run whose `low` is at most `code`, given that all runs
before `first` start at or before `code` and all from `last` on start after it. -/
def search (runs : Array Run) (code first last : Nat) : Bool :=
  if first < last then
    let middle := (first + last) / 2
    match runs[middle]? with
    | none => false
    | some run =>
      if run.low ≤ code then search runs code (middle + 1) last
      else search runs code first middle
  else
    match runs[first - 1]? with
    | some run => first != 0 && run.contains code
    | none => false
termination_by last - first

/-- Whether a code point belongs to the table. -/
def contains (table : RangeTable) (code : Nat) : Bool :=
  search table.runs code 0 table.runs.size

/-! ## Reading a table -/

/-- What has been read of a table: the finished runs, the finished numbers of the current run and
the number being read. -/
structure Reading where
  runs : Array Run
  fields : List Nat
  number : Nat

/-- The value of a hexadecimal digit, zero for any other character. -/
def hexValue (c : Char) : Nat :=
  if '0' ≤ c && c ≤ '9' then c.toNat - '0'.toNat
  else if 'A' ≤ c && c ≤ 'F' then c.toNat - 'A'.toNat + 10
  else 0

/-- Ends the current run. -/
def Reading.close (reading : Reading) : Reading :=
  let run : Run :=
    match reading.fields with
    | [] => ⟨reading.number, reading.number, 1⟩
    | [low] => ⟨low, reading.number, 1⟩
    | high :: low :: _ => ⟨low, high, reading.number⟩
  ⟨reading.runs.push run, [], 0⟩

/-- Reads one character of a table. -/
def Reading.next (reading : Reading) (c : Char) : Reading :=
  if c == ' ' then reading.close
  else if c == '-' || c == '/' then
    { reading with fields := reading.number :: reading.fields, number := 0 }
  else { reading with number := reading.number * 16 + hexValue c }

/-- Reads one line of a table. -/
def Reading.line (reading : Reading) (text : String) : Reading :=
  if text.isEmpty then reading else (text.foldl Reading.next reading).close

/-- The table that some lines of text write down. -/
def ofLines (lines : List String) : RangeTable :=
  ⟨(lines.foldl Reading.line ⟨#[], [], 0⟩).runs⟩

end RangeTable

end Gll.Unicode
