import Gll.Regex.Basic
import Gll.Unicode.Age
import Gll.Unicode.CaseFolding
import Gll.Unicode.Property
import Gll.Unicode.Script

/-!
The sets of code points that classes and properties stand for. Names of properties are compared
loosely: without regard to case, spaces, underscores, hyphens, characters outside ASCII and a
leading `is`.
-/

set_option autoImplicit false

namespace Gll.Regex

open Gll.Unicode

/-- A set of code points, or of bytes. -/
abbrev CodeSet := Nat → Bool

namespace CodeSet

/-- The set without elements. -/
def empty : CodeSet := fun _ => false

/-- The set with one element. -/
def single (code : Nat) : CodeSet := fun other => other == code

/-- The elements between two bounds, both included. -/
def between (first last : Nat) : CodeSet := fun code => first ≤ code && code ≤ last

/-- The elements of either set. -/
def union (left right : CodeSet) : CodeSet := fun code => left code || right code

/-- The elements of the one set, the other, or both, as the operator says. -/
def combine (operator : SetOperator) (left right : CodeSet) : CodeSet :=
  match operator with
  | .intersection => fun code => left code && right code
  | .difference => fun code => left code && !right code
  | .symmetricDifference => fun code => left code != right code

/-- The set together with everything that folds like one of its elements. -/
def foldCase (set : CodeSet) : CodeSet := fun code =>
  set code || (CaseFolding.mates code).any set

/-- The ASCII letter of the other case. -/
def otherCase (code : Nat) : Nat :=
  if 0x41 ≤ code && code ≤ 0x5A then code + 0x20
  else if 0x61 ≤ code && code ≤ 0x7A then code - 0x20
  else code

/-- The set together with the ASCII letters of which it holds the other case. -/
def foldAscii (set : CodeSet) : CodeSet := fun code => set code || set (otherCase code)

end CodeSet

/-! ## Classes -/

/-- The characters of a named class. -/
def AsciiClass.codes : AsciiClass → CodeSet
  | alnum => fun c => CodeSet.between 0x30 0x39 c || alphaCodes c
  | alpha => alphaCodes
  | ascii => CodeSet.between 0 0x7F
  | blank => fun c => c == 0x09 || c == 0x20
  | cntrl => fun c => c < 0x20 || c == 0x7F
  | digit => CodeSet.between 0x30 0x39
  | graph => CodeSet.between 0x21 0x7E
  | lower => CodeSet.between 0x61 0x7A
  | print => CodeSet.between 0x20 0x7E
  | punct => fun c =>
    CodeSet.between 0x21 0x2F c || CodeSet.between 0x3A 0x40 c || CodeSet.between 0x5B 0x60 c
      || CodeSet.between 0x7B 0x7E c
  | space => fun c => CodeSet.between 0x09 0x0D c || c == 0x20
  | upper => CodeSet.between 0x41 0x5A
  | word => fun c => CodeSet.between 0x30 0x39 c || alphaCodes c || c == 0x5F
  | xdigit => fun c =>
    CodeSet.between 0x30 0x39 c || CodeSet.between 0x41 0x46 c || CodeSet.between 0x61 0x66 c
where
  /-- The ASCII letters. -/
  alphaCodes : CodeSet := fun c => CodeSet.between 0x41 0x5A c || CodeSet.between 0x61 0x7A c

namespace PerlClass

/-- The code points of a class. -/
def codes : PerlClass → CodeSet
  | digit => GeneralCategory.decimalNumber.table.contains
  | space => Property.whiteSpace.contains
  | word => Property.wordCharacter

/-- The bytes of a class. -/
def bytes : PerlClass → CodeSet
  | digit => AsciiClass.digit.codes
  | space => AsciiClass.space.codes
  | word => AsciiClass.word.codes

end PerlClass

/-! ## Properties -/

/-- A name as it is compared. What is left of `isc`, the short name of a comment field, is not the
`c` of a general category. -/
def looseName (name : String) : String :=
  let letters := name.toList
  let is : List Char := ['i', 's']
  let hasIs := (letters.take 2).map Char.toLower == is
  let kept := ((if hasIs then letters.drop 2 else letters).filter fun c =>
    c.toNat < 0x80 && c != ' ' && c != '_' && c != '-').map Char.toLower
  String.ofList (if hasIs && kept == ['c'] then is ++ kept else kept)

/-- The value that goes with one of the names in a list. -/
def lookupName {α : Type} (name : String) : List (List String × α) → Option α
  | [] => none
  | (names, value) :: rest => if names.contains name then some value else lookupName name rest

/-- The general categories of a name, and the sets that are named like categories. -/
def category? (name : String) : Option CodeSet :=
  if name = "any" then some fun _ => true
  else if name = "assigned" then some fun code => !GeneralCategory.unassigned.table.contains code
  else if name = "ascii" then some (CodeSet.between 0 0x7F)
  else (lookupName name GeneralCategory.names).map GeneralCategory.anyContains

/-- The script of a name. -/
def script? (name : String) : Option CodeSet :=
  (Script.find? name).map fun script => script.table.contains

/-- The names of properties that have values. -/
inductive ValuedProperty where
  | generalCategory
  | script
  | scriptExtensions
  | age
  | graphemeCluster
  | word
  | sentence
deriving DecidableEq, Repr

/-- The property with values that has a name. -/
def valuedProperty? (name : String) : Option ValuedProperty :=
  lookupName name
    [(["gc", "generalcategory", "category"], .generalCategory),
      (["sc", "script"], .script),
      (["scx", "scriptextensions"], .scriptExtensions),
      (["age"], .age),
      (["gcb", "graphemeclusterbreak"], .graphemeCluster),
      (["wb", "wordbreak"], .word),
      (["sb", "sentencebreak"], .sentence)]

/-- The class of a segmentation. -/
def breakClass? (classes : List BreakClass) (name : String) : Option CodeSet :=
  (BreakClass.find? classes name).map fun cls => cls.table.contains

namespace PropertyQuery

/-- The code points that a query asks for, if there is such a property. A bare name is that of a
property, a general category or a script, in this order; three short names are those of categories
although properties have them too. -/
def codes? : PropertyQuery → Option CodeSet
  | named name =>
    let name := looseName name
    let property :=
      if ["cf", "sc", "lc"].contains name then none else lookupName name Property.names
    property <|> category? name <|> script? name
  | valued name value =>
    let value := looseName value
    match valuedProperty? (looseName name) with
    | none => none
    | some .generalCategory => category? value
    | some .script => script? value
    | some .scriptExtensions => (Script.find? value).map Script.uses
    | some .age =>
      (Version.upTo? value).map fun tables code => tables.any fun table => table.contains code
    | some .graphemeCluster => breakClass? BreakClass.graphemeCluster value
    | some .word => breakClass? BreakClass.word value
    | some .sentence => breakClass? BreakClass.sentence value

end PropertyQuery

end Gll.Regex
