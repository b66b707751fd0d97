import Gll.CommandLine.Outcome

/-!
Colours are decoration.

A painted text is put together of pieces, and each piece brings its own colour and its own reset. So
it does not matter how a text was come by: as long as the pieces themselves are *bare*, that is,
contain neither the character with which escape sequences begin nor a line feed, deleting the
sequences from the painted text gives the plain one (`deleteCodes_render`), and each colour is taken
back before another one is set and on the same line (`resets_render`). Of a page, which is many
lines in a row, the same is true.

Both are shown for a text with anything behind it. Deleting goes over the characters from left to
right, and what it needs to know of the sequences is that all begin with the same character, which
is nowhere else in them, and that none is the beginning of another one (`codes_shape`,
`eq_of_prefix_of_mem_codes`).
-/

set_option autoImplicit false

namespace Gll.Text

/-! ## Escape sequences -/

/-- The sequences that set a colour. -/
def colours : List (List Char) :=
  [Palette.on.blue, Palette.on.green, Palette.on.red, Palette.on.dim].map String.toList

/-- The sequence that takes a colour back. -/
def reset : List Char := Palette.on.reset.toList

/-- All sequences. -/
def codes : List (List Char) := colours ++ [reset]

/-- A text without its sequences. They are looked for from left to right; so many of the next
characters belong to the one that was found last. -/
def deleteCodes : Nat → List Char → List Char
  | _, [] => []
  | skip + 1, _ :: rest => deleteCodes skip rest
  | 0, c :: rest =>
    match codes.find? fun code => code.isPrefixOf (c :: rest) with
    | some code => deleteCodes (code.length - 1) rest
    | none => c :: deleteCodes 0 rest

/-- A text without its escape sequences. -/
def uncoloured (text : String) : String := String.ofList (deleteCodes 0 text.toList)

/-- Behind each colour of a text there is a reset, with no other sequence before it and on the same
line. -/
def Resets (text : List Char) : Prop :=
  ∀ before colour after : List Char, colour ∈ colours → text = before ++ colour ++ after →
    ∃ middle rest : List Char, after = middle ++ reset ++ rest ∧ '\x1b' ∉ middle ∧ '\n' ∉ middle

/-- Every sequence begins with the same character, which is not in it again, and has no line
feed. -/
theorem codes_shape {code : List Char} (h : code ∈ codes) :
    ∃ tail, code = '\x1b' :: tail ∧ '\x1b' ∉ tail ∧ '\n' ∉ tail := by
  have hall : ∀ code ∈ codes,
      code.head? = some '\x1b' ∧ '\x1b' ∉ code.tail ∧ '\n' ∉ code.tail := by decide
  obtain ⟨hhead, hesc, hline⟩ := hall code h
  obtain ⟨tail, rfl⟩ := List.head?_eq_some_iff.mp hhead
  exact ⟨tail, rfl, hesc, hline⟩

theorem mem_codes_of_mem_colours {colour : List Char} (h : colour ∈ colours) : colour ∈ codes :=
  List.mem_append_left _ h

theorem reset_mem_codes : reset ∈ codes := List.mem_append_right _ (List.mem_singleton_self _)

theorem reset_not_mem_colours : reset ∉ colours := by decide

theorem code_mem_colours (role : Role) : (Palette.on.code role).toList ∈ colours := by
  cases role <;> decide

/-- No sequence is the beginning of another one. -/
theorem eq_of_prefix_of_mem_codes {code code' text : List Char} (h : code ∈ codes)
    (h' : code' ∈ codes) (hstarts : code <+: text) (hother : code' <+: text) : code = code' := by
  have hall : ∀ code ∈ codes, ∀ code' ∈ codes, code <+: code' → code = code' := by decide
  rcases List.prefix_or_prefix_of_prefix hstarts hother with hfirst | hsecond
  · exact hall code h code' h' hfirst
  · exact (hall code' h' code h hsecond).symm

/-! ## Deleting -/

theorem deleteCodes_skip (text rest : List Char) :
    deleteCodes text.length (text ++ rest) = deleteCodes 0 rest := by
  induction text with
  | nil => rfl
  | cons c text ih =>
    rw [List.length_cons, List.cons_append, deleteCodes]
    exact ih

theorem deleteCodes_code {code : List Char} (h : code ∈ codes) (rest : List Char) :
    deleteCodes 0 (code ++ rest) = deleteCodes 0 rest := by
  obtain ⟨tail, rfl, -, -⟩ := codes_shape h
  rw [List.cons_append, deleteCodes, ← List.cons_append]
  cases hfind : codes.find? fun code => code.isPrefixOf ('\x1b' :: tail ++ rest) with
  | none =>
    have hnot := List.find?_eq_none.mp hfind _ h
    exact absurd (List.isPrefixOf_iff_prefix.mpr (List.prefix_append _ rest)) hnot
  | some found =>
    -- It is this sequence that is found, as two cannot begin at one place.
    have hbegins := List.find?_some hfind
    have hstarts : found <+: '\x1b' :: tail ++ rest := List.isPrefixOf_iff_prefix.mp hbegins
    obtain rfl := eq_of_prefix_of_mem_codes (List.mem_of_find?_eq_some hfind) h hstarts
      (List.prefix_append _ rest)
    exact deleteCodes_skip tail rest

theorem deleteCodes_cons {c : Char} (h : c ≠ '\x1b') (rest : List Char) :
    deleteCodes 0 (c :: rest) = c :: deleteCodes 0 rest := by
  have hnone : (codes.find? fun code => code.isPrefixOf (c :: rest)) = none := by
    refine List.find?_eq_none.mpr fun code hcode hstarts => ?_
    obtain ⟨tail, rfl, -, -⟩ := codes_shape hcode
    exact h (List.cons_prefix_cons.mp (List.isPrefixOf_iff_prefix.mp hstarts)).1.symm
  rw [deleteCodes, hnone]

/-- What has no sequence stays. -/
theorem deleteCodes_append {text : List Char} (h : '\x1b' ∉ text) (rest : List Char) :
    deleteCodes 0 (text ++ rest) = text ++ deleteCodes 0 rest := by
  induction text with
  | nil => rfl
  | cons c text ih =>
    rw [List.mem_cons, not_or] at h
    obtain ⟨hc, htext⟩ := h
    rw [List.cons_append, deleteCodes_cons (Ne.symm hc), ih htext, List.cons_append]

/-! ## Resetting -/

theorem resets_nil : Resets [] := by
  intro before colour after hcolour heq
  obtain ⟨tail, rfl, -, -⟩ := codes_shape (mem_codes_of_mem_colours hcolour)
  simp at heq

theorem Resets.cons {c : Char} {rest : List Char} (h : Resets rest) (hc : c ≠ '\x1b') :
    Resets (c :: rest) := by
  intro before colour after hcolour heq
  cases before with
  | nil =>
    obtain ⟨tail, rfl, -, -⟩ := codes_shape (mem_codes_of_mem_colours hcolour)
    exact absurd (List.cons.inj heq).1 hc
  | cons _ before => exact h before colour after hcolour (List.cons.inj heq).2

theorem Resets.append {text rest : List Char} (h : Resets rest) (htext : '\x1b' ∉ text) :
    Resets (text ++ rest) := by
  induction text with
  | nil => exact h
  | cons c text ih =>
    rw [List.mem_cons, not_or] at htext
    obtain ⟨hc, htext⟩ := htext
    exact (ih htext).cons (Ne.symm hc)

/-- In front of a text there may be a sequence, if it is a reset or there is one for it. -/
theorem Resets.code {code rest : List Char} (h : Resets rest) (hcode : code ∈ codes)
    (hclosed : code ∈ colours →
      ∃ middle rest', rest = middle ++ reset ++ rest' ∧ '\x1b' ∉ middle ∧ '\n' ∉ middle) :
    Resets (code ++ rest) := by
  intro before colour after hcolour heq
  -- A colour begins where the sequence does, and then it is the sequence; or it begins behind the
  -- sequence, as none begins inside.
  cases before with
  | nil =>
    have hsame : code = colour := by
      refine eq_of_prefix_of_mem_codes hcode (mem_codes_of_mem_colours hcolour)
        (List.prefix_append code rest) ?_
      rw [heq]
      exact List.prefix_append colour after
    subst hsame
    rw [← List.append_cancel_left heq]
    exact hclosed hcolour
  | cons _ before =>
    obtain ⟨tail, rfl, hesc, -⟩ := codes_shape hcode
    exact h.append hesc before colour after hcolour (List.cons.inj heq).2

theorem Resets.reset {rest : List Char} (h : Resets rest) : Resets (reset ++ rest) :=
  h.code reset_mem_codes fun hcolour => absurd hcolour reset_not_mem_colours

/-- What is painted is followed by a reset. -/
theorem Resets.painted {colour text rest : List Char} (h : Resets rest) (hcolour : colour ∈ colours)
    (hesc : '\x1b' ∉ text) (hline : '\n' ∉ text) :
    Resets (colour ++ (text ++ (Text.reset ++ rest))) :=
  (h.reset.append hesc).code (mem_codes_of_mem_colours hcolour) fun _ =>
    ⟨text, rest, (List.append_assoc _ _ _).symm, hesc, hline⟩

/-! ## Bare texts -/

/-- A text without escape sequences and line feeds. -/
def IsBare (text : String) : Prop := '\x1b' ∉ text.toList ∧ '\n' ∉ text.toList

instance (text : String) : Decidable (IsBare text) :=
  inferInstanceAs (Decidable ('\x1b' ∉ text.toList ∧ '\n' ∉ text.toList))

/-- A text whose pieces are bare. -/
def Styled.IsBare (text : Styled) : Prop := ∀ piece ∈ text, Text.IsBare piece.text

@[simp] theorem isBare_append {text text' : String} :
    IsBare (text ++ text') ↔ IsBare text ∧ IsBare text' := by
  simp only [IsBare, String.toList_append, List.mem_append, not_or]
  exact and_and_and_comm

@[simp] theorem Styled.isBare_nil : Styled.IsBare [] := fun _ h => absurd h List.not_mem_nil

@[simp] theorem Styled.isBare_append {text text' : Styled} :
    Styled.IsBare (text ++ text') ↔ text.IsBare ∧ text'.IsBare :=
  List.forall_mem_append

@[simp] theorem Styled.isBare_plain {text : String} : (plain text).IsBare ↔ Text.IsBare text :=
  List.forall_mem_singleton

@[simp] theorem Styled.isBare_paint {role : Role} {text : String} :
    (paint role text).IsBare ↔ Text.IsBare text :=
  List.forall_mem_singleton

/-! ## Rendering -/

theorem Styled.render_cons (palette : Palette) (piece : Piece) (text : Styled) :
    (Styled.render palette (piece :: text)).toList
      = (piece.render palette).toList ++ (Styled.render palette text).toList :=
  String.toList_append

theorem Piece.render_off (piece : Piece) : piece.render .off = piece.text := by
  obtain ⟨role, text⟩ := piece
  cases role with
  | none => rfl
  | some role => cases role <;> simp [Piece.render, Palette.code, Palette.off]

/-- A painted piece has its colour before it and the reset behind it. -/
theorem Piece.render_on (role : Role) (text : String) (rest : List Char) :
    (Piece.render .on ⟨some role, text⟩).toList ++ rest
      = (Palette.on.code role).toList ++ (text.toList ++ (reset ++ rest)) := by
  simp [Piece.render, reset]

section Rendering

variable {text : Styled} (h : text.IsBare)
include h

theorem deleteCodes_render (rest : List Char) :
    deleteCodes 0 ((text.render .on).toList ++ rest)
      = (text.render .off).toList ++ deleteCodes 0 rest := by
  induction text with
  | nil => rfl
  | cons piece text ih =>
    obtain ⟨hpiece, htext⟩ := List.forall_mem_cons.mp h
    obtain ⟨role, chars⟩ := piece
    rw [Styled.render_cons, Styled.render_cons, Piece.render_off, List.append_assoc,
      List.append_assoc]
    cases role with
    | none =>
      have hplain := deleteCodes_append hpiece.1 ((Styled.render .on text).toList ++ rest)
      exact hplain.trans (congrArg _ (ih htext))
    | some role =>
      rw [Piece.render_on, deleteCodes_code (mem_codes_of_mem_colours (code_mem_colours role)),
        deleteCodes_append hpiece.1, deleteCodes_code reset_mem_codes, ih htext]

theorem resets_render {rest : List Char} (hrest : Resets rest) :
    Resets ((text.render .on).toList ++ rest) := by
  induction text with
  | nil => exact hrest
  | cons piece text ih =>
    obtain ⟨hpiece, htext⟩ := List.forall_mem_cons.mp h
    obtain ⟨role, chars⟩ := piece
    rw [Styled.render_cons, List.append_assoc]
    cases role with
    | none => exact (ih htext).append hpiece.1
    | some role =>
      rw [Piece.render_on]
      exact (ih htext).painted (code_mem_colours role) hpiece.1 hpiece.2

theorem lineFeed_not_mem_render : '\n' ∉ (text.render .on).toList := by
  induction text with
  | nil => exact List.not_mem_nil
  | cons piece text ih =>
    obtain ⟨hpiece, htext⟩ := List.forall_mem_cons.mp h
    have hcode {code : List Char} (hcode : code ∈ codes) : '\n' ∉ code := by
      obtain ⟨tail, rfl, -, hline⟩ := codes_shape hcode
      rw [List.mem_cons, not_or]
      exact ⟨by decide, hline⟩
    obtain ⟨role, chars⟩ := piece
    rw [Styled.render_cons, List.mem_append, not_or]
    refine ⟨?_, ih htext⟩
    cases role with
    | none => exact hpiece.2
    | some role =>
      have hrender := Piece.render_on role chars []
      rw [List.append_nil, List.append_nil] at hrender
      rw [hrender, List.mem_append, List.mem_append, not_or, not_or]
      exact ⟨hcode (mem_codes_of_mem_colours (code_mem_colours role)), hpiece.2,
        hcode reset_mem_codes⟩

end Rendering

/-- The colours of a line are decoration: without their sequences the line is as it would be without
colours, and each is taken back before another one is set and before the line ends. -/
structure Styled.IsDecorated (text : Styled) : Prop where
  uncoloured : Text.uncoloured (text.render .on) = text.render .off
  resets : Resets (text.render .on).toList
  oneLine : '\n' ∉ (text.render .on).toList

theorem Styled.IsBare.isDecorated {text : Styled} (h : text.IsBare) : text.IsDecorated where
  uncoloured := by
    have hdelete := deleteCodes_render h []
    rw [List.append_nil, deleteCodes, List.append_nil] at hdelete
    rw [Text.uncoloured, hdelete, String.ofList_toList]
  resets := by
    have hresets := resets_render h resets_nil
    rwa [List.append_nil] at hresets
  oneLine := lineFeed_not_mem_render h

/-- What is deleted from a text that is not bare may not be of its colours. -/
example : ¬ (plain "\x1b[0m").IsDecorated := fun h => absurd h.uncoloured (by decide)

end Gll.Text

namespace Gll.CommandLine

open Text

/-- The colours of a page are decoration, in each of its lines and in the page as a whole. -/
structure IsDecorated (lines : List Styled) : Prop where
  each : ∀ line ∈ lines, line.IsDecorated
  uncoloured : Text.uncoloured (page .on lines) = page .off lines
  resets : Resets (page .on lines).toList

theorem toList_page_cons (palette : Palette) (line : Styled) (lines : List Styled) :
    (page palette (line :: lines)).toList
      = (line.render palette).toList ++ '\n' :: (page palette lines).toList := by
  simp [page, unlines]

theorem isDecorated_of_isBare {lines : List Styled} (h : ∀ line ∈ lines, line.IsBare) :
    IsDecorated lines where
  each line hline := (h line hline).isDecorated
  uncoloured := by
    have hdelete : deleteCodes 0 (page .on lines).toList = (page .off lines).toList := by
      induction lines with
      | nil => rfl
      | cons line lines ih =>
        obtain ⟨hline, hlines⟩ := List.forall_mem_cons.mp h
        rw [toList_page_cons, toList_page_cons, deleteCodes_render hline,
          deleteCodes_cons (by decide), ih hlines]
    rw [Text.uncoloured, hdelete, String.ofList_toList]
  resets := by
    induction lines with
    | nil => exact resets_nil
    | cons line lines ih =>
      obtain ⟨hline, hlines⟩ := List.forall_mem_cons.mp h
      rw [toList_page_cons]
      exact resets_render hline ((ih hlines).cons (by decide))

end Gll.CommandLine
