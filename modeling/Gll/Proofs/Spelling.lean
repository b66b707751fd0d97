import Gll.Json.Reader
import Mathlib.Tactic.IntervalCases

/-!
The texts of JSON.

What a JSON text is, is said here by its grammar, as a relation between values and the texts that
spell them (`Json.Spells`). A value has many spellings: blanks may stand between the parts of an
array or an object, a character of a string may be written as it is or in one of several escapes,
and digits of either case make up an escape by number. A string with half of a pair of surrogates is
a string of the grammar too, though it is no text.

The main statement is that the reader understands every spelling (`SpellsText.read`): from any
spelling of a value, with blanks before it and something behind it that does not prolong a number,
it gets the value and stops where the spelling does. It is proved part by part, along the grammar,
and for the values inside values by induction on the fuel of the reader, of which the length of the
spelling is enough.
-/

set_option autoImplicit false

namespace Gll.Json

/-! ## Blanks -/

/-- A text of blanks. -/
def Blanks (text : List Char) : Prop := ∀ c ∈ text, c ∈ [' ', '\t', '\n', '\r']

theorem blanks_nil : Blanks [] := fun _ h => absurd h List.not_mem_nil

theorem isBlank_iff {c : Char} : isBlank c = true ↔ c ∈ [' ', '\t', '\n', '\r'] := by
  simp only [isBlank, Bool.or_eq_true, beq_iff_eq, List.mem_cons, List.not_mem_nil, or_false]
  tauto

theorem skipBlanks_append {blanks : List Char} (h : Blanks blanks) (text : List Char) :
    skipBlanks (blanks ++ text) = skipBlanks text :=
  List.dropWhile_append_of_pos fun c hc => isBlank_iff.mpr (h c hc)

theorem skipBlanks_of_head {c : Char} {text : List Char} (h : isBlank c = false) :
    skipBlanks (c :: text) = c :: text := by
  rw [skipBlanks, List.dropWhile_cons_of_neg (by rw [h]; exact Bool.false_ne_true)]

theorem skipBlanks_blanks {blanks : List Char} (h : Blanks blanks) : skipBlanks blanks = [] := by
  have hskip := skipBlanks_append h []
  rw [List.append_nil] at hskip
  exact hskip

/-- What may stand behind a value: nothing, a blank, or the sign that ends an item or its row. -/
def Ends (rest : List Char) : Prop :=
  ∀ c ∈ rest.head?, isBlank c = true ∨ c = ',' ∨ c = ']' ∨ c = '\x7d'

theorem ends_nil : Ends [] := fun _ h => absurd h (Option.not_mem_none _)

theorem ends_cons {c : Char} {rest : List Char}
    (h : isBlank c = true ∨ c = ',' ∨ c = ']' ∨ c = '\x7d') : Ends (c :: rest) := by
  intro d hd
  obtain rfl : c = d := Option.some.inj hd
  exact h

theorem ends_append {blanks rest : List Char} (hblanks : Blanks blanks) (h : Ends rest) :
    Ends (blanks ++ rest) := by
  cases blanks with
  | nil => exact h
  | cons c blanks => exact ends_cons (.inl (isBlank_iff.mpr (hblanks c List.mem_cons_self)))

/-! ## Numbers -/

/-- The digits of a number, of which there is at least one. -/
structure SpellsDigits (values : List Nat) (text : List Char) : Prop where
  ne_nil : values ≠ []
  lt : ∀ value ∈ values, value < 10
  eq : text = values.map Nat.digitChar

/-- The fraction of a number, if it has one. -/
inductive SpellsFraction : Option (List Nat) → List Char → Prop where
  | none : SpellsFraction none []
  | some {values : List Nat} {text : List Char} (h : SpellsDigits values text) :
      SpellsFraction (some values) ('.' :: text)

/-- The exponent of a number, if it has one. -/
inductive SpellsPower : Option (Bool × List Nat) → List Char → Prop where
  | none : SpellsPower none []
  | some {mark : Char} {down : Bool} {sign : List Char} {values : List Nat} {text : List Char}
      (hmark : mark ∈ ['e', 'E'])
      (hsign : (down, sign) ∈ [(true, ['-']), (false, ['+']), (false, [])])
      (h : SpellsDigits values text) : SpellsPower (some (down, values)) (mark :: (sign ++ text))

/-- A number. Its whole part has no leading zeros. -/
inductive SpellsNumber : Literal → List Char → Prop where
  | mk {negative : Bool} {sign : List Char} {whole : List Nat} {wholeText : List Char}
      {fraction : Option (List Nat)} {fractionText : List Char} {power : Option (Bool × List Nat)}
      {powerText : List Char} (hsign : (negative, sign) ∈ [(true, ['-']), (false, [])])
      (hwhole : SpellsDigits whole wholeText) (hzero : whole = [0] ∨ whole.head? ≠ some 0)
      (hfraction : SpellsFraction fraction fractionText) (hpower : SpellsPower power powerText) :
      SpellsNumber ⟨negative, whole, fraction, power⟩
        (sign ++ (wholeText ++ (fractionText ++ powerText)))

/-- A text that does not go on with a digit. -/
def NoDigit (rest : List Char) : Prop := ∀ c ∈ rest.head?, c.isDigit = false

theorem isDigit_digitChar {value : Nat} (h : value < 10) :
    (Nat.digitChar value).isDigit = true ∧ (Nat.digitChar value).toNat - '0'.toNat = value := by
  interval_cases value <;> exact ⟨rfl, rfl⟩

theorem takeWhile_digits {values : List Nat} (h : ∀ value ∈ values, value < 10)
    {rest : List Char} (hrest : NoDigit rest) :
    (values.map Nat.digitChar ++ rest).takeWhile Char.isDigit = values.map Nat.digitChar ∧
      (values.map Nat.digitChar ++ rest).dropWhile Char.isDigit = rest := by
  induction values with
  | nil =>
    cases rest with
    | nil => exact ⟨rfl, rfl⟩
    | cons c rest =>
      have hc : c.isDigit = false := hrest c rfl
      constructor
      · rw [List.map_nil, List.nil_append, List.takeWhile_cons_of_neg (by simp [hc])]
      · rw [List.map_nil, List.nil_append, List.dropWhile_cons_of_neg (by simp [hc])]
  | cons value values ih =>
    have hdigit := (isDigit_digitChar (h value List.mem_cons_self)).1
    obtain ⟨htake, hdrop⟩ := ih fun other hother => h other (List.mem_cons_of_mem _ hother)
    rw [List.map_cons, List.cons_append, List.takeWhile_cons_of_pos hdigit,
      List.dropWhile_cons_of_pos hdigit, htake, hdrop]
    exact ⟨rfl, rfl⟩

/-- The reader takes all digits and no more. -/
theorem SpellsDigits.digits {values : List Nat} {text rest : List Char}
    (h : SpellsDigits values text) (hrest : NoDigit rest) :
    Json.digits (text ++ rest) = (values, rest) := by
  obtain ⟨htake, hdrop⟩ := takeWhile_digits h.lt hrest
  have hmap : values.map ((fun c : Char => c.toNat - '0'.toNat) ∘ Nat.digitChar) = values := by
    have heach : ∀ value ∈ values,
        ((fun c : Char => c.toNat - '0'.toNat) ∘ Nat.digitChar) value = id value :=
      fun value hvalue => (isDigit_digitChar (h.lt value hvalue)).2
    rw [List.map_congr_left heach, List.map_id]
  rw [Json.digits, h.eq, htake, hdrop, List.map_map, hmap]

theorem SpellsDigits.exists_cons {values : List Nat} {text : List Char}
    (h : SpellsDigits values text) :
    ∃ value values' c text', values = value :: values' ∧ text = c :: text' ∧ c.isDigit = true := by
  obtain ⟨hne, hlt, rfl⟩ := h
  cases values with
  | nil => exact absurd rfl hne
  | cons value values =>
    exact ⟨value, values, _, _, rfl, rfl, (isDigit_digitChar (hlt value List.mem_cons_self)).1⟩

theorem not_isDigit_of_ends {c : Char} (h : isBlank c = true ∨ c = ',' ∨ c = ']' ∨ c = '\x7d') :
    c.isDigit = false ∧ c ≠ '.' ∧ c ≠ 'e' ∧ c ≠ 'E' := by
  rw [isBlank_iff] at h
  simp only [List.mem_cons, List.not_mem_nil, or_false] at h
  rcases h with (rfl | rfl | rfl | rfl) | rfl | rfl | rfl <;> decide

theorem noDigit_of_ends {rest : List Char} (h : Ends rest) : NoDigit rest :=
  fun c hc => (not_isDigit_of_ends (h c hc)).1

theorem ne_of_isDigit {c : Char} (h : c.isDigit = true) (d : Char) (hd : d.isDigit = false) :
    c ≠ d := by
  intro heq
  rw [heq, hd] at h
  exact Bool.false_ne_true h

/-- The reader takes the exponent, if there is one. -/
theorem SpellsPower.readPower {power : Option (Bool × List Nat)} {text rest : List Char}
    (h : SpellsPower power text) (hrest : Ends rest) (literal : Literal)
    (hliteral : literal.power = .none) :
    Json.readPower literal (text ++ rest)
      = (.number { literal with power := power }.value, rest) := by
  cases h with
  | none =>
    have hsame : { literal with power := Option.none } = literal := by rw [← hliteral]
    rw [hsame, List.nil_append]
    cases rest with
    | nil => rfl
    | cons c rest =>
      obtain ⟨-, -, he, hE⟩ := not_isDigit_of_ends (hrest c rfl)
      unfold Json.readPower
      simp [he, hE]
  | @some mark down sign values text hmark hsign hdigits =>
    have hread := hdigits.digits (noDigit_of_ends hrest)
    obtain ⟨value, values, c, text, rfl, rfl, hc⟩ := hdigits.exists_cons
    have hmark : (mark == 'e' || mark == 'E') = true := by
      simp only [List.mem_cons, List.not_mem_nil, or_false] at hmark
      rcases hmark with rfl | rfl <;> rfl
    have hminus := ne_of_isDigit hc '-' rfl
    have hplus := ne_of_isDigit hc '+' rfl
    rw [List.cons_append] at hread
    rw [List.cons_append, List.append_assoc, List.cons_append]
    unfold Json.readPower
    simp only [List.mem_cons, List.not_mem_nil, or_false, Prod.mk.injEq] at hsign
    -- A sign is taken as such, and a digit is no sign.
    rcases hsign with ⟨rfl, rfl⟩ | ⟨rfl, rfl⟩ | ⟨rfl, rfl⟩ <;>
      simp [hmark, hread, hminus, hplus]

/-- What follows the fraction does not go on with a digit or with a point. -/
theorem SpellsPower.head_of_ends {power : Option (Bool × List Nat)} {text rest : List Char}
    (h : SpellsPower power text) (hrest : Ends rest) :
    ∀ c ∈ (text ++ rest).head?, c.isDigit = false ∧ c ≠ '.' := by
  intro c hc
  cases h with
  | none => exact ⟨(not_isDigit_of_ends (hrest c hc)).1, (not_isDigit_of_ends (hrest c hc)).2.1⟩
  | @some mark down sign values text hmark hsign hdigits =>
    obtain rfl : mark = c := Option.some.inj hc
    simp only [List.mem_cons, List.not_mem_nil, or_false] at hmark
    rcases hmark with rfl | rfl <;> decide

/-- The reader takes the fraction, if there is one, and what comes after it. -/
theorem SpellsFraction.readFraction {fraction : Option (List Nat)}
    {power : Option (Bool × List Nat)} {text powerText rest : List Char}
    (h : SpellsFraction fraction text) (hpower : SpellsPower power powerText) (hrest : Ends rest)
    (negative : Bool) (whole : List Nat) :
    Json.readFraction ⟨negative, whole, .none, .none⟩ (text ++ (powerText ++ rest))
      = (.number (Literal.value ⟨negative, whole, fraction, power⟩), rest) := by
  have hread (fraction : Option (List Nat)) :=
    hpower.readPower hrest ⟨negative, whole, fraction, .none⟩ rfl
  -- The next character is of the exponent or of what follows, so it is neither a digit nor a point.
  have hnext := hpower.head_of_ends hrest
  cases h with
  | none =>
    rw [List.nil_append]
    cases hcases : powerText ++ rest with
    | nil => rw [← hread .none, hcases]; rfl
    | cons c text =>
      rw [hcases] at hnext
      rw [← hread .none, hcases, Json.readFraction]
      intro text heq
      exact (hnext c rfl).2 (List.cons.inj heq).1
  | @some values text hdigits =>
    have hnoDigit : NoDigit (powerText ++ rest) := fun c hc => (hnext c hc).1
    have hdone := hdigits.digits hnoDigit
    obtain ⟨value, values, c, text, rfl, rfl, -⟩ := hdigits.exists_cons
    rw [List.cons_append] at hdone
    unfold Json.readFraction
    rw [List.cons_append, List.cons_append]
    simp only [hdone]
    exact hread (.some (value :: values))

/-- What follows the whole part of a number does not go on with a digit. -/
theorem noDigit_fraction {fraction : Option (List Nat)} {power : Option (Bool × List Nat)}
    {text powerText rest : List Char} (h : SpellsFraction fraction text)
    (hpower : SpellsPower power powerText) (hrest : Ends rest) :
    NoDigit (text ++ (powerText ++ rest)) := by
  cases h with
  | none => exact fun c hc => (hpower.head_of_ends hrest c hc).1
  | some h =>
    intro c hc
    obtain rfl : '.' = c := Option.some.inj hc
    rfl

/-- The reader takes the whole number after its sign. -/
theorem SpellsNumber.readNumber {literal : Literal} {text rest : List Char}
    (h : SpellsNumber literal text) (hrest : Ends rest) :
    ∃ sign c digits, (literal.negative, sign) ∈ [(true, ['-']), (false, [])] ∧
      text = sign ++ c :: digits ∧ c.isDigit = true ∧
      Json.readNumber literal.negative (c :: digits ++ rest) = (.number literal.value, rest) := by
  cases h with
  | @mk negative sign whole wholeText fraction fractionText power powerText hsign hwhole hzero
      hfraction hpower =>
    have hread := hfraction.readFraction hpower hrest negative whole
    have hdone := hwhole.digits (noDigit_fraction hfraction hpower hrest)
    obtain ⟨value, values, c, digits, rfl, rfl, hc⟩ := hwhole.exists_cons
    refine ⟨sign, c, digits ++ (fractionText ++ powerText), hsign, rfl, hc, ?_⟩
    rw [List.cons_append] at hdone
    rw [List.cons_append, List.append_assoc, List.append_assoc]
    unfold Json.readNumber
    simp only [hdone]
    -- A zero in front is taken by itself, so no digit may follow it.
    cases value with
    | succ value => exact hread
    | zero =>
      cases values with
      | nil => exact hread
      | cons value values =>
        rcases hzero with hzero | hzero
        · exact absurd (List.cons.inj hzero).2 (List.cons_ne_nil _ _)
        · exact absurd rfl hzero

/-! ## Strings -/

/-- The letters of the short escapes, and the characters that they stand for. -/
def letters : List (Char × Char) :=
  [('"', '"'), ('\\', '\\'), ('/', '/'), ('b', '\x08'), ('f', '\x0c'), ('n', '\n'), ('r', '\r'),
    ('t', '\t')]

/-- A hexadecimal digit: its letters may be small or capital. -/
def IsHexDigit (value : Nat) (c : Char) : Prop :=
  value < 16 ∧ (c = Nat.digitChar value ∨ c = (Nat.digitChar value).toUpper)

/-- A number below `0x10000` in four hexadecimal digits. -/
inductive SpellsCode : Nat → List Char → Prop where
  | mk {value₃ value₂ value₁ value₀ : Nat} {c₃ c₂ c₁ c₀ : Char} (h₃ : IsHexDigit value₃ c₃)
      (h₂ : IsHexDigit value₂ c₂) (h₁ : IsHexDigit value₁ c₁) (h₀ : IsHexDigit value₀ c₀) :
      SpellsCode (((value₃ * 16 + value₂) * 16 + value₁) * 16 + value₀) [c₃, c₂, c₁, c₀]

/-- The first half of a pair of surrogates. -/
def IsHigh (code : Nat) : Prop := 0xD800 ≤ code ∧ code ≤ 0xDBFF

/-- The second half of a pair of surrogates. -/
def IsLow (code : Nat) : Prop := 0xDC00 ≤ code ∧ code ≤ 0xDFFF

/-- A character in a string: as it is, in a short escape, by its number, or by the numbers of the
pair of surrogates that it has in UTF-16. -/
inductive SpellsChar : Char → List Char → Prop where
  | plain {c : Char} (hprintable : 0x20 ≤ c.toNat) (hquote : c ≠ '"') (hslash : c ≠ '\\') :
      SpellsChar c [c]
  | short {letter c : Char} (h : (letter, c) ∈ letters) : SpellsChar c ['\\', letter]
  | code {c : Char} {text : List Char} (h : SpellsCode c.toNat text) :
      SpellsChar c ('\\' :: 'u' :: text)
  | pair {c : Char} {high low : Nat} {highText lowText : List Char} (hhigh : IsHigh high)
      (hlow : IsLow low) (hhighText : SpellsCode high highText) (hlowText : SpellsCode low lowText)
      (h : c.toNat = 0x10000 + (high - 0xD800) * 0x400 + (low - 0xDC00)) :
      SpellsChar c ('\\' :: 'u' :: (highText ++ '\\' :: 'u' :: lowText))

/-- The characters of a string. -/
inductive SpellsChars : List Char → List Char → Prop where
  | nil : SpellsChars [] []
  | cons {c : Char} {cs text rest : List Char} (hc : SpellsChar c text) (h : SpellsChars cs rest) :
      SpellsChars (c :: cs) (text ++ rest)

/-- What may stand in a string by itself: a character or an escape, whatever number it has. -/
inductive IsPart : List Char → Prop where
  | plain {c : Char} (hprintable : 0x20 ≤ c.toNat) (hquote : c ≠ '"') (hslash : c ≠ '\\') :
      IsPart [c]
  | short {letter c : Char} (h : (letter, c) ∈ letters) : IsPart ['\\', letter]
  | code {code : Nat} {text : List Char} (h : SpellsCode code text) : IsPart ('\\' :: 'u' :: text)

/-- What may stand between the quotes of a string. -/
inductive IsInside : List Char → Prop where
  | nil : IsInside []
  | cons {text rest : List Char} (hpart : IsPart text) (h : IsInside rest) : IsInside (text ++ rest)

theorem IsHexDigit.hexDigit? {value : Nat} {c : Char} (h : IsHexDigit value c) :
    Json.hexDigit? c = some value := by
  obtain ⟨hlt, rfl | rfl⟩ := h <;> interval_cases value <;> rfl

theorem SpellsCode.length {code : Nat} {text : List Char} (h : SpellsCode code text) :
    text.length = 4 := by
  cases h
  rfl

theorem SpellsCode.lt {code : Nat} {text : List Char} (h : SpellsCode code text) :
    code < 0x10000 := by
  cases h with
  | mk h₃ h₂ h₁ h₀ =>
    have hlt₃ := h₃.1
    have hlt₂ := h₂.1
    have hlt₁ := h₁.1
    have hlt₀ := h₀.1
    omega

theorem SpellsCode.readHex {code : Nat} {text : List Char} (h : SpellsCode code text)
    (rest : List Char) : Json.readHex (text ++ rest) = .ok (code, rest) := by
  cases h with
  | mk h₃ h₂ h₁ h₀ =>
    simp only [List.cons_append, List.nil_append, Json.readHex, h₃.hexDigit?, h₂.hexDigit?,
      h₁.hexDigit?, h₀.hexDigit?]

theorem shortEscape?_of_mem {letter c : Char} (h : (letter, c) ∈ letters) :
    shortEscape? letter = some c ∧ letter ≠ 'u' := by
  simp only [letters, List.mem_cons, List.not_mem_nil, or_false, Prod.mk.injEq] at h
  rcases h with ⟨rfl, rfl⟩ | ⟨rfl, rfl⟩ | ⟨rfl, rfl⟩ | ⟨rfl, rfl⟩ | ⟨rfl, rfl⟩ | ⟨rfl, rfl⟩ |
    ⟨rfl, rfl⟩ | ⟨rfl, rfl⟩ <;> exact ⟨rfl, by decide⟩

/-- The number of a character is not half of a pair. -/
theorem not_surrogate (c : Char) : ¬ IsHigh c.toNat ∧ ¬ IsLow c.toNat := by
  have hvalid : c.toNat < 0xD800 ∨ 0xDFFF < c.toNat ∧ c.toNat < 0x110000 := c.valid
  unfold IsHigh IsLow
  omega

theorem toNat_ofNat {code : Nat} (h : code.isValidChar) : (Char.ofNat code).toNat = code := by
  rw [Char.ofNat, dif_pos h]
  rfl

/-- A pair of surrogates is a character. -/
theorem pairSurrogates_toNat {high low : Nat} (hhigh : IsHigh high) (hlow : IsLow low) :
    (pairSurrogates high low).toNat = 0x10000 + (high - 0xD800) * 0x400 + (low - 0xDC00) := by
  unfold IsHigh at hhigh
  unfold IsLow at hlow
  exact toNat_ofNat (.inr (by omega))

/-! ### Reading parts of strings -/

section

variable {fuel : Nat} {done text : List Char}

theorem readString_plain {c : Char} (hprintable : 0x20 ≤ c.toNat) (hquote : c ≠ '"')
    (hslash : c ≠ '\\') :
    readString (fuel + 1) done (c :: text) = readString fuel (c :: done) text := by
  rw [readString]
  · rw [if_neg (by omega)]
  all_goals simp [hquote, hslash]

theorem readString_short {letter c : Char} (h : (letter, c) ∈ letters) :
    readString (fuel + 1) done ('\\' :: letter :: text) = readString fuel (c :: done) text := by
  obtain ⟨hletter, hu⟩ := shortEscape?_of_mem h
  rw [readString]
  · rw [hletter]
  · exact hu

theorem readString_code {c : Char} {digits : List Char} (h : SpellsCode c.toNat digits) :
    readString (fuel + 1) done ('\\' :: 'u' :: (digits ++ text))
      = readString fuel (c :: done) text := by
  obtain ⟨hhigh, hlow⟩ := not_surrogate c
  rw [readString, h.readHex]
  unfold IsHigh at hhigh
  unfold IsLow at hlow
  simp [hhigh, hlow]

theorem readString_pair {high low : Nat} {digits digits' : List Char} (hhigh : IsHigh high)
    (hlow : IsLow low) (h : SpellsCode high digits) (h' : SpellsCode low digits') :
    readString (fuel + 1) done ('\\' :: 'u' :: (digits ++ '\\' :: 'u' :: (digits' ++ text)))
      = readString fuel (pairSurrogates high low :: done) text := by
  rw [readString, h.readHex]
  unfold IsHigh at hhigh
  unfold IsLow at hlow
  have hnot : ¬ 0xDC00 ≤ high := by omega
  simp [hhigh, hlow, hnot, h'.readHex]

theorem readString_low {low : Nat} {digits : List Char} (hlow : IsLow low)
    (h : SpellsCode low digits) :
    readString (fuel + 1) done ('\\' :: 'u' :: (digits ++ text))
      = .unpaired (skipString fuel text) := by
  rw [readString, h.readHex]
  unfold IsLow at hlow
  simp [hlow]

/-- The first half of a pair with no second half right behind it. -/
theorem readString_high {high : Nat} {digits inside rest : List Char} (hhigh : IsHigh high)
    (h : SpellsCode high digits) (hinside : IsInside inside)
    (hnone : ∀ low digits' inside', IsLow low → SpellsCode low digits' → IsInside inside' →
      inside ≠ '\\' :: 'u' :: (digits' ++ inside')) :
    readString (fuel + 1) done ('\\' :: 'u' :: (digits ++ (inside ++ '"' :: rest)))
      = .unpaired (skipString fuel (inside ++ '"' :: rest)) := by
  rw [readString, h.readHex]
  unfold IsHigh at hhigh
  have hnot : ¬ 0xDC00 ≤ high := by omega
  cases hinside with
  | nil => simp [hhigh, hnot]
  | @cons part inside hpart hinside =>
    cases hpart with
    | plain hprintable hquote hslash => simp [hhigh, hnot, hslash]
    | short hletter =>
      have hu := (shortEscape?_of_mem hletter).2
      simp [hhigh, hnot, hu]
    | @code code digits' hdigits =>
      have hlow : ¬ (0xDC00 ≤ code ∧ code ≤ 0xDFFF) := fun hlow =>
        hnone code digits' inside hlow hdigits hinside rfl
      simp [hhigh, hnot, hlow, hdigits.readHex]

theorem skipString_part {part : List Char} (h : IsPart part) :
    skipString (fuel + 1) (part ++ text) = skipString fuel text := by
  cases h with
  | plain hprintable hquote hslash =>
    rw [List.cons_append, List.nil_append, skipString]
    · rw [if_neg (by omega)]
    all_goals simp [hquote, hslash]
  | short h =>
    obtain ⟨hletter, hu⟩ := shortEscape?_of_mem h
    rw [List.cons_append, List.cons_append, List.nil_append, skipString]
    · rw [hletter]
      rfl
    · exact hu
  | code h =>
    rw [List.cons_append, List.cons_append, skipString, h.readHex]
    rfl

end

theorem IsPart.length_pos {part : List Char} (h : IsPart part) : 0 < part.length := by
  cases h <;> exact Nat.succ_pos _

theorem SpellsChar.length_pos {c : Char} {text : List Char} (h : SpellsChar c text) :
    0 < text.length := by
  cases h <;> exact Nat.succ_pos _

/-- Skipping a string ends behind it. -/
theorem IsInside.skipString {fuel : Nat} {inside : List Char} (h : IsInside inside)
    (hfuel : inside.length < fuel) (rest : List Char) :
    Json.skipString fuel (inside ++ '"' :: rest) = .ok rest := by
  induction h generalizing fuel with
  | nil =>
    obtain ⟨fuel, rfl⟩ := Nat.exists_eq_succ_of_ne_zero (Nat.ne_of_gt hfuel)
    rfl
  | @cons part inside hpart _ ih =>
    have hpos := hpart.length_pos
    rw [List.length_append] at hfuel
    obtain ⟨fuel, rfl⟩ := Nat.exists_eq_succ_of_ne_zero (n := fuel) (by omega)
    rw [List.append_assoc, skipString_part hpart]
    exact ih (by omega)

theorem readString_char {fuel : Nat} {done text rest : List Char} {c : Char}
    (h : SpellsChar c text) :
    readString (fuel + 1) done (text ++ rest) = readString fuel (c :: done) rest := by
  cases h with
  | plain hprintable hquote hslash => exact readString_plain hprintable hquote hslash
  | short h => exact readString_short h
  | code h => exact readString_code h
  | @pair _ high low highText lowText hhigh hlow hhighText hlowText hc =>
    have hpair : pairSurrogates high low = c := by
      rw [pairSurrogates, ← hc, Char.ofNat_toNat]
    rw [List.cons_append, List.cons_append, List.append_assoc, List.cons_append, List.cons_append,
      readString_pair hhigh hlow hhighText hlowText, hpair]

/-- Reading the inside of a string gives its characters. -/
theorem SpellsChars.readString {fuel : Nat} {done cs text : List Char} (h : SpellsChars cs text)
    (hfuel : text.length < fuel) (rest : List Char) :
    Json.readString fuel done (text ++ '"' :: rest)
      = .text (String.ofList (done.reverse ++ cs)) rest := by
  induction h generalizing fuel done with
  | nil =>
    obtain ⟨fuel, rfl⟩ := Nat.exists_eq_succ_of_ne_zero (Nat.ne_of_gt hfuel)
    rw [List.append_nil]
    rfl
  | @cons c cs text text' hc _ ih =>
    have hpos := hc.length_pos
    rw [List.length_append] at hfuel
    obtain ⟨fuel, rfl⟩ := Nat.exists_eq_succ_of_ne_zero (n := fuel) (by omega)
    rw [List.append_assoc, readString_char hc, ih (by omega), List.reverse_cons, List.append_assoc]
    rfl

/-- What stands between quotes spells characters, or it is no text and is skipped. -/
theorem IsInside.readString {fuel : Nat} {done inside : List Char} (h : IsInside inside)
    (hfuel : inside.length < fuel) (rest : List Char) :
    (∃ cs, SpellsChars cs inside) ∨
      Json.readString fuel done (inside ++ '"' :: rest) = .unpaired (.ok rest) := by
  induction fuel generalizing done inside with
  | zero => exact absurd hfuel (Nat.not_lt_zero _)
  | succ fuel ih =>
    -- A character in front of characters is one more, and reading goes on behind it.
    have hchar {c : Char} {text inside : List Char} (hc : SpellsChar c text) (h : IsInside inside)
        (hfuel : (text ++ inside).length < fuel + 1) :
        (∃ cs, SpellsChars cs (text ++ inside)) ∨
          Json.readString (fuel + 1) done ((text ++ inside) ++ '"' :: rest)
            = .unpaired (.ok rest) := by
      have hpos := hc.length_pos
      rw [List.length_append] at hfuel
      rw [List.append_assoc, readString_char hc]
      rcases @ih (c :: done) inside h (by omega) with ⟨cs, hcs⟩ | hunpaired
      · exact .inl ⟨c :: cs, .cons hc hcs⟩
      · exact .inr hunpaired
    cases h with
    | nil => exact .inl ⟨[], .nil⟩
    | @cons part inside hpart hinside =>
      cases hpart with
      | plain hprintable hquote hslash =>
        exact hchar (.plain hprintable hquote hslash) hinside hfuel
      | short h => exact hchar (.short h) hinside hfuel
      | @code code digits hdigits =>
        have hlength : inside.length < fuel := by
          simp only [List.length_cons, List.length_append, hdigits.length] at hfuel
          omega
        by_cases hlow : IsLow code
        · refine .inr ?_
          rw [List.cons_append, List.cons_append, List.cons_append, List.cons_append,
            List.append_assoc, readString_low hlow hdigits, hinside.skipString hlength]
        by_cases hhigh : IsHigh code
        · by_cases hnext : ∃ low digits' inside', IsLow low ∧ SpellsCode low digits' ∧
              IsInside inside' ∧ inside = '\\' :: 'u' :: (digits' ++ inside')
          · obtain ⟨low, digits', inside', hlow', hdigits', hinside', rfl⟩ := hnext
            have hc := SpellsChar.pair hhigh hlow' hdigits hdigits'
              (pairSurrogates_toNat hhigh hlow')
            have hassoc : '\\' :: 'u' :: digits ++ '\\' :: 'u' :: (digits' ++ inside')
                = '\\' :: 'u' :: (digits ++ '\\' :: 'u' :: digits') ++ inside' := by simp
            rw [hassoc] at hfuel ⊢
            exact hchar hc hinside' hfuel
          · refine .inr ?_
            rw [List.cons_append, List.cons_append, List.cons_append, List.cons_append,
              List.append_assoc, readString_high hhigh hdigits hinside
                fun low digits' inside' hlow hdigits' hinside' heq =>
                  hnext ⟨low, digits', inside', hlow, hdigits', hinside', heq⟩,
              hinside.skipString hlength]
        · have hvalid : code.isValidChar := by
            have hlt := hdigits.lt
            unfold IsLow at hlow
            unfold IsHigh at hhigh
            unfold Nat.isValidChar
            omega
          have hcode : (Char.ofNat code).toNat = code := toNat_ofNat hvalid
          exact hchar (.code (c := Char.ofNat code) (by rw [hcode]; exact hdigits)) hinside hfuel

/-! ## Values -/

mutual

/-- The spellings of a value, without the blanks around it. -/
inductive Spells : Json → List Char → Prop where
  | null : Spells .null ['n', 'u', 'l', 'l']
  | isTrue : Spells (.bool true) ['t', 'r', 'u', 'e']
  | isFalse : Spells (.bool false) ['f', 'a', 'l', 's', 'e']
  | number {literal : Literal} {text : List Char} (h : SpellsNumber literal text) :
      Spells (.number literal.value) text
  | string {cs text : List Char} (h : SpellsChars cs text) :
      Spells (.string (String.ofList cs)) ('"' :: (text ++ ['"']))
  /-- A string in which half of a pair of surrogates has no partner. -/
  | unpaired {text : List Char} (h : IsInside text) (hnone : ¬ ∃ cs, SpellsChars cs text) :
      Spells (.unpaired none) ('"' :: (text ++ ['"']))
  | array {items : List Json} {text : List Char} (h : SpellsItems items text) :
      Spells (.array items none) ('[' :: (text ++ [']']))
  | object {members : List (Option String × Json)} {text : List Char}
      (h : SpellsMembers members text) :
      Spells (.object members none) ('\x7b' :: (text ++ ['\x7d']))

/-- What stands between the brackets of an array. -/
inductive SpellsItems : List Json → List Char → Prop where
  | nil {blanks : List Char} (hblanks : Blanks blanks) : SpellsItems [] blanks
  | cons {item : Json} {items : List Json} {text more before after : List Char}
      (hbefore : Blanks before) (hitem : Spells item text) (hafter : Blanks after)
      (hmore : SpellsMoreItems items more) :
      SpellsItems (item :: items) (before ++ (text ++ (after ++ more)))

/-- The items of an array after the first one, each with the comma before it. -/
inductive SpellsMoreItems : List Json → List Char → Prop where
  | nil : SpellsMoreItems [] []
  | cons {item : Json} {items : List Json} {text more before after : List Char}
      (hbefore : Blanks before) (hitem : Spells item text) (hafter : Blanks after)
      (hmore : SpellsMoreItems items more) :
      SpellsMoreItems (item :: items) (',' :: (before ++ (text ++ (after ++ more))))

/-- What stands between the braces of an object. -/
inductive SpellsMembers : List (Option String × Json) → List Char → Prop where
  | nil {blanks : List Char} (hblanks : Blanks blanks) : SpellsMembers [] blanks
  | cons {member : Option String × Json} {members : List (Option String × Json)}
      {text more before after : List Char} (hbefore : Blanks before)
      (hmember : SpellsMember member text) (hafter : Blanks after)
      (hmore : SpellsMoreMembers members more) :
      SpellsMembers (member :: members) (before ++ (text ++ (after ++ more)))

/-- The members of an object after the first one, each with the comma before it. -/
inductive SpellsMoreMembers : List (Option String × Json) → List Char → Prop where
  | nil : SpellsMoreMembers [] []
  | cons {member : Option String × Json} {members : List (Option String × Json)}
      {text more before after : List Char} (hbefore : Blanks before)
      (hmember : SpellsMember member text) (hafter : Blanks after)
      (hmore : SpellsMoreMembers members more) :
      SpellsMoreMembers (member :: members) (',' :: (before ++ (text ++ (after ++ more))))

/-- A key and its value. A key that is no text has the name `none`. -/
inductive SpellsMember : Option String × Json → List Char → Prop where
  | text {cs keyText text before after : List Char} {value : Json} (hkey : SpellsChars cs keyText)
      (hbefore : Blanks before) (hafter : Blanks after) (hvalue : Spells value text) :
      SpellsMember (some (String.ofList cs), value)
        ('"' :: (keyText ++ '"' :: (before ++ ':' :: (after ++ text))))
  | unpaired {keyText text before after : List Char} {value : Json} (hkey : IsInside keyText)
      (hnone : ¬ ∃ cs, SpellsChars cs keyText) (hbefore : Blanks before) (hafter : Blanks after)
      (hvalue : Spells value text) :
      SpellsMember (none, value)
        ('"' :: (keyText ++ '"' :: (before ++ ':' :: (after ++ text))))

end

/-- A value with blanks around it, as a whole text. -/
inductive SpellsText : Json → String → Prop where
  | mk {value : Json} {before text after : List Char} (hbefore : Blanks before)
      (h : Spells value text) (hafter : Blanks after) :
      SpellsText value (String.ofList (before ++ (text ++ after)))

/-! ## Reading values -/

/-- A spelling begins with no blank and with no sign that ends a row. -/
theorem Spells.exists_head {value : Json} {text : List Char} (h : Spells value text) :
    ∃ c text', text = c :: text' ∧ isBlank c = false ∧ c ≠ ']' := by
  cases h with
  | null | isTrue | isFalse | string | unpaired | array | object =>
    exact ⟨_, _, rfl, rfl, by decide⟩
  | number h =>
    obtain ⟨sign, c, digits, hsign, rfl, hc, -⟩ := h.readNumber ends_nil
    simp only [List.mem_cons, List.not_mem_nil, or_false, Prod.mk.injEq] at hsign
    rcases hsign with ⟨-, rfl⟩ | ⟨-, rfl⟩
    · exact ⟨_, _, rfl, rfl, by decide⟩
    · refine ⟨c, digits, rfl, ?_, ne_of_isDigit hc _ rfl⟩
      have hblank (d : Char) (hd : d.isDigit = false) : (c == d) = false :=
        beq_eq_false_iff_ne.mpr (ne_of_isDigit hc d hd)
      unfold isBlank
      rw [hblank ' ' rfl, hblank '\n' rfl, hblank '\t' rfl, hblank '\r' rfl]
      rfl

theorem Spells.isFlawed {value : Json} {text : List Char} (h : Spells value text) :
    value.isFlawed = false := by
  cases h <;> rfl

theorem SpellsMember.exists_head {member : Option String × Json} {text : List Char}
    (h : SpellsMember member text) : ∃ text', text = '"' :: text' := by
  cases h <;> exact ⟨_, rfl⟩

/-- What the reader makes of all spellings that its fuel is enough for. -/
structure Understands (fuel : Nat) : Prop where
  value : ∀ {value : Json} {text blanks rest : List Char}, Spells value text →
    text.length ≤ fuel → Blanks blanks → Ends rest →
    readValue fuel (blanks ++ (text ++ rest)) = (value, rest)
  items : ∀ {items : List Json} {text : List Char}, SpellsItems items text →
    text.length < fuel → ∀ rest,
    readItems fuel true (text ++ ']' :: rest) = (items, none, rest)
  moreItems : ∀ {items : List Json} {text blanks : List Char}, SpellsMoreItems items text →
    text.length < fuel → Blanks blanks → ∀ rest,
    readItems fuel false (blanks ++ (text ++ ']' :: rest)) = (items, none, rest)
  members : ∀ {members : List (Option String × Json)} {text : List Char},
    SpellsMembers members text → text.length < fuel → ∀ rest,
    readMembers fuel true (text ++ '\x7d' :: rest) = (members, none, rest)
  moreMembers : ∀ {members : List (Option String × Json)} {text blanks : List Char},
    SpellsMoreMembers members text → text.length < fuel → Blanks blanks → ∀ rest,
    readMembers fuel false (blanks ++ (text ++ '\x7d' :: rest)) = (members, none, rest)
  member : ∀ {key : Option String} {value : Json} {members : List (Option String × Json)}
    {text more before after blanks : List Char}, Spells value text →
    SpellsMoreMembers members more → text.length + more.length + 1 < fuel → Blanks before →
    Blanks after → Blanks blanks → ∀ rest,
    readMember fuel key
        (before ++ ':' :: (after ++ (text ++ (blanks ++ (more ++ '\x7d' :: rest)))))
      = ((key, value) :: members, none, rest)

theorem readValue_zero_fuel {text : List Char} {value : Json} (h : Spells value text) :
    ¬ text.length ≤ 0 := by
  obtain ⟨c, text, rfl, -⟩ := h.exists_head
  exact Nat.not_succ_le_zero _

theorem skipBlanks_spelling {value : Json} {text blanks : List Char} (h : Spells value text)
    (hblanks : Blanks blanks) (rest : List Char) :
    skipBlanks (blanks ++ (text ++ rest)) = text ++ rest := by
  obtain ⟨c, text, rfl, hc, -⟩ := h.exists_head
  rw [skipBlanks_append hblanks, List.cons_append, skipBlanks_of_head hc]

/-- Blanks before a value make no difference. -/
theorem readValue_append {fuel : Nat} {blanks : List Char} (hblanks : Blanks blanks)
    (text : List Char) : readValue fuel (blanks ++ text) = readValue fuel text := by
  cases fuel with
  | zero => rfl
  | succ fuel => rw [readValue, readValue, skipBlanks_append hblanks]

theorem readValue_number {literal : Literal} {text rest : List Char} (fuel : Nat)
    (h : SpellsNumber literal text) (hrest : Ends rest) :
    readValue (fuel + 1) (text ++ rest) = (.number literal.value, rest) := by
  obtain ⟨sign, c, digits, hsign, rfl, hc, hread⟩ := h.readNumber hrest
  have hne (d : Char) (hd : d.isDigit = false) : c ≠ d := ne_of_isDigit hc d hd
  have hskip := skipBlanks_spelling (.number h) blanks_nil rest
  rw [List.nil_append] at hskip
  rw [readValue, hskip]
  simp only [List.mem_cons, List.not_mem_nil, or_false, Prod.mk.injEq] at hsign
  rcases hsign with ⟨hnegative, rfl⟩ | ⟨hnegative, rfl⟩
  · rw [hnegative] at hread
    exact hread
  · rw [hnegative] at hread
    simp [hne 'n' rfl, hne 't' rfl, hne 'f' rfl, hne '"' rfl, hne '-' rfl, hne '[' rfl,
      hne '\x7b' rfl, hc]
    exact hread

theorem length_lt_append (text rest : List Char) : text.length < (text ++ rest).length + 1 := by
  rw [List.length_append]
  omega

/-- The reader reads a member and those after it, if it understands what is inside. -/
theorem Understands.readMember {fuel : Nat} (h : Understands fuel)
    {member : Option String × Json} {members : List (Option String × Json)}
    {text more blanks : List Char} (hmember : SpellsMember member text)
    (hmore : SpellsMoreMembers members more) (hfuel : text.length + more.length ≤ fuel)
    (hblanks : Blanks blanks) (rest : List Char) :
    ∃ inside after, text ++ (blanks ++ (more ++ '\x7d' :: rest)) = '"' :: inside ∧
      readString (inside.length + 1) [] inside
        = (match member.1 with
          | some key => .text key after
          | none => .unpaired (.ok after)) ∧
      Json.readMember fuel member.1 after = (member :: members, none, rest) := by
  cases hmember with
  | @text cs keyText text before after value hkey hbefore hafter hvalue =>
    simp only [List.length_cons, List.length_append] at hfuel
    refine ⟨keyText ++ '"' :: (before ++ ':' :: (after ++ (text ++ (blanks ++ (more ++ '\x7d' ::
      rest))))), before ++ ':' :: (after ++ (text ++ (blanks ++ (more ++ '\x7d' :: rest)))),
      by simp, ?_, h.member hvalue hmore (by omega) hbefore hafter hblanks rest⟩
    exact hkey.readString (length_lt_append keyText _) _
  | @unpaired keyText text before after value hkey hnone hbefore hafter hvalue =>
    simp only [List.length_cons, List.length_append] at hfuel
    refine ⟨keyText ++ '"' :: (before ++ ':' :: (after ++ (text ++ (blanks ++ (more ++ '\x7d' ::
      rest))))), before ++ ':' :: (after ++ (text ++ (blanks ++ (more ++ '\x7d' :: rest)))),
      by simp, ?_, h.member hvalue hmore (by omega) hbefore hafter hblanks rest⟩
    rcases hkey.readString (length_lt_append keyText _) _ with htext | hread
    · exact absurd htext hnone
    · exact hread

theorem readStringValue_chars {cs text : List Char} (h : SpellsChars cs text) (rest : List Char) :
    readStringValue (text ++ '"' :: rest) = (.string (String.ofList cs), rest) := by
  unfold readStringValue
  rw [h.readString (length_lt_append text _)]
  rfl

theorem readStringValue_unpaired {text : List Char} (h : IsInside text)
    (hnone : ¬ ∃ cs, SpellsChars cs text) (rest : List Char) :
    readStringValue (text ++ '"' :: rest) = (.unpaired none, rest) := by
  unfold readStringValue
  rcases h.readString (length_lt_append text _) rest with htext | hread
  · exact absurd htext hnone
  · rw [hread]

theorem Understands.value_step {fuel : Nat} (h : Understands fuel) {value : Json}
    {text rest : List Char} (hvalue : Spells value text) (hfuel : text.length ≤ fuel + 1)
    (hrest : Ends rest) : readValue (fuel + 1) (text ++ rest) = (value, rest) := by
  -- What begins a value tells its kind; only arrays and objects have values inside.
  cases hvalue with
  | null | isTrue | isFalse => rfl
  | number hnumber => exact readValue_number fuel hnumber hrest
  | string htext =>
    rw [List.cons_append, List.append_assoc]
    exact readStringValue_chars htext rest
  | unpaired htext hnone =>
    rw [List.cons_append, List.append_assoc]
    exact readStringValue_unpaired htext hnone rest
  | @array items text hitems =>
    rw [List.length_cons, List.length_append, List.length_singleton] at hfuel
    have hread := h.items hitems (by omega) rest
    rw [List.cons_append, List.append_assoc, List.singleton_append]
    show ((Json.array (readItems fuel true (text ++ ']' :: rest)).1 _ : Json), _) = _
    rw [hread]
  | @object members text hmembers =>
    rw [List.length_cons, List.length_append, List.length_singleton] at hfuel
    have hread := h.members hmembers (by omega) rest
    rw [List.cons_append, List.append_assoc, List.singleton_append]
    show ((Json.object (readMembers fuel true (text ++ '\x7d' :: rest)).1 _ : Json), _) = _
    rw [hread]

theorem ends_moreItems {items : List Json} {blanks more : List Char}
    (hmore : SpellsMoreItems items more) (hblanks : Blanks blanks) (rest : List Char) :
    Ends (blanks ++ (more ++ ']' :: rest)) := by
  apply ends_append hblanks
  cases hmore with
  | nil => exact ends_cons (.inr (.inr (.inl rfl)))
  | cons => exact ends_cons (.inr (.inl rfl))

theorem ends_moreMembers {members : List (Option String × Json)} {blanks more : List Char}
    (hmore : SpellsMoreMembers members more) (hblanks : Blanks blanks) (rest : List Char) :
    Ends (blanks ++ (more ++ '\x7d' :: rest)) := by
  apply ends_append hblanks
  cases hmore with
  | nil => exact ends_cons (.inr (.inr (.inr rfl)))
  | cons => exact ends_cons (.inr (.inl rfl))

theorem Understands.items_step {fuel : Nat} (h : Understands fuel) {items : List Json}
    {text : List Char} (hitems : SpellsItems items text) (hfuel : text.length < fuel + 1)
    (rest : List Char) :
    readItems (fuel + 1) true (text ++ ']' :: rest) = (items, none, rest) := by
  cases hitems with
  | nil hblanks =>
    rw [readItems, skipBlanks_append hblanks, skipBlanks_of_head rfl]
    rfl
  | @cons item items text more before after hbefore hitem hafter hmore =>
    simp only [List.length_append] at hfuel
    have hpos := Nat.not_le.mp (readValue_zero_fuel hitem)
    have hvalue := h.value hitem (by omega) blanks_nil (ends_moreItems hmore hafter rest)
    have hnext := h.moreItems hmore (by omega) hafter rest
    have hassoc : before ++ (text ++ (after ++ more)) ++ ']' :: rest
        = before ++ (text ++ (after ++ (more ++ ']' :: rest))) := by simp
    rw [hassoc, readItems, skipBlanks_spelling hitem hbefore]
    obtain ⟨c, text, rfl, -, hbracket⟩ := hitem.exists_head
    rw [List.nil_append, List.cons_append] at hvalue
    rw [List.cons_append]
    simp [hvalue, hitem.isFlawed, hnext]

theorem Understands.moreItems_step {fuel : Nat} (h : Understands fuel) {items : List Json}
    {text blanks : List Char} (hitems : SpellsMoreItems items text)
    (hfuel : text.length < fuel + 1) (hblanks : Blanks blanks) (rest : List Char) :
    readItems (fuel + 1) false (blanks ++ (text ++ ']' :: rest)) = (items, none, rest) := by
  cases hitems with
  | nil =>
    rw [readItems, skipBlanks_append hblanks, List.nil_append, skipBlanks_of_head rfl]
    rfl
  | @cons item items text more before after hbefore hitem hafter hmore =>
    simp only [List.length_cons, List.length_append] at hfuel
    have hvalue := h.value hitem (by omega) hbefore (ends_moreItems hmore hafter rest)
    have hnext := h.moreItems hmore (by omega) hafter rest
    have hassoc : ',' :: (before ++ (text ++ (after ++ more))) ++ ']' :: rest
        = ',' :: (before ++ (text ++ (after ++ (more ++ ']' :: rest)))) := by simp
    rw [hassoc, readItems, skipBlanks_append hblanks, skipBlanks_of_head rfl]
    simp [hvalue, hitem.isFlawed, hnext]

theorem Understands.members_step {fuel : Nat} (h : Understands fuel)
    {members : List (Option String × Json)} {text : List Char}
    (hmembers : SpellsMembers members text) (hfuel : text.length < fuel + 1) (rest : List Char) :
    readMembers (fuel + 1) true (text ++ '\x7d' :: rest) = (members, none, rest) := by
  cases hmembers with
  | nil hblanks =>
    rw [readMembers, skipBlanks_append hblanks, skipBlanks_of_head rfl]
    rfl
  | @cons member members text more before after hbefore hmember hafter hmore =>
    simp only [List.length_append] at hfuel
    obtain ⟨inside, behind, htext, hkey, hread⟩ :=
      h.readMember hmember hmore (by omega) hafter rest
    have hassoc : before ++ (text ++ (after ++ more)) ++ '\x7d' :: rest
        = before ++ (text ++ (after ++ (more ++ '\x7d' :: rest))) := by simp
    rw [hassoc, readMembers, skipBlanks_append hbefore, htext, skipBlanks_of_head rfl]
    obtain ⟨key | key, value⟩ := member <;> simp [skipBlanks_of_head, hkey, hread, isBlank]

theorem Understands.moreMembers_step {fuel : Nat} (h : Understands fuel)
    {members : List (Option String × Json)} {text blanks : List Char}
    (hmembers : SpellsMoreMembers members text) (hfuel : text.length < fuel + 1)
    (hblanks : Blanks blanks) (rest : List Char) :
    readMembers (fuel + 1) false (blanks ++ (text ++ '\x7d' :: rest)) = (members, none, rest) := by
  cases hmembers with
  | nil =>
    rw [readMembers, skipBlanks_append hblanks, List.nil_append, skipBlanks_of_head rfl]
    rfl
  | @cons member members text more before after hbefore hmember hafter hmore =>
    simp only [List.length_cons, List.length_append] at hfuel
    obtain ⟨inside, behind, htext, hkey, hread⟩ :=
      h.readMember hmember hmore (by omega) hafter rest
    have hassoc : ',' :: (before ++ (text ++ (after ++ more))) ++ '\x7d' :: rest
        = ',' :: (before ++ (text ++ (after ++ (more ++ '\x7d' :: rest)))) := by simp
    rw [hassoc, readMembers, skipBlanks_append hblanks, skipBlanks_of_head rfl, htext]
    have hskip : skipBlanks (before ++ '"' :: inside) = '"' :: inside := by
      rw [skipBlanks_append hbefore, skipBlanks_of_head rfl]
    obtain ⟨key | key, value⟩ := member <;> simp [hskip, hkey, hread]

theorem Understands.member_step {fuel : Nat} (h : Understands fuel) {key : Option String}
    {value : Json} {members : List (Option String × Json)}
    {text more before after blanks : List Char} (hvalue : Spells value text)
    (hmore : SpellsMoreMembers members more) (hfuel : text.length + more.length + 1 < fuel + 1)
    (hbefore : Blanks before) (hafter : Blanks after) (hblanks : Blanks blanks)
    (rest : List Char) :
    Json.readMember (fuel + 1) key
        (before ++ ':' :: (after ++ (text ++ (blanks ++ (more ++ '\x7d' :: rest)))))
      = ((key, value) :: members, none, rest) := by
  have hread := h.value hvalue (by omega) hafter (ends_moreMembers hmore hblanks rest)
  have hnext := h.moreMembers hmore (by omega) hblanks rest
  rw [Json.readMember, skipBlanks_append hbefore, skipBlanks_of_head rfl]
  simp [hread, hvalue.isFlawed, hnext]

/-- The reader understands every spelling, given fuel. -/
theorem understands (fuel : Nat) : Understands fuel := by
  induction fuel with
  | zero =>
    constructor
    · exact fun h hfuel => absurd hfuel (readValue_zero_fuel h)
    all_goals intros; omega
  | succ fuel ih =>
    constructor
    · intro value text blanks rest hvalue hfuel hblanks hrest
      rw [readValue_append hblanks]
      exact ih.value_step hvalue hfuel hrest
    · exact ih.items_step
    · exact ih.moreItems_step
    · exact ih.members_step
    · exact ih.moreMembers_step
    · exact ih.member_step

/-- The reader understands every text that spells a value. -/
theorem SpellsText.read {value : Json} {text : String} (h : SpellsText value text) :
    Json.read text = ⟨value, false⟩ := by
  cases h with
  | @mk before text after hbefore h hafter =>
    have hends : Ends after := by
      rw [← List.append_nil after]
      exact ends_append hafter ends_nil
    have hfuel : text.length ≤ 3 * (before ++ (text ++ after)).length + 3 := by
      simp only [List.length_append]
      omega
    have hread := (understands _).value h hfuel hbefore hends
    unfold Json.read
    rw [String.length_ofList, String.toList_ofList, hread]
    simp only [skipBlanks_blanks hafter, List.isEmpty_nil, Bool.not_true]

end Gll.Json
