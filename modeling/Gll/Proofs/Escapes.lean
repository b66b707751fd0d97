import Gll.Proofs.Tracking

/-!
Escapes that meet a closing parenthesis.

An escape takes the parenthesis or ends before it, with one exception. What follows `\b` in braces
may be the name of a boundary or a repetition; if the text ends there, it is at fault, but with the
parenthesis the reader takes back the brace and leaves the fault to the repetition
(`Reader.Hesitates`).
-/

set_option autoImplicit false

namespace Gll.Regex

namespace Reader

variable {α β : Type} {stops : Prop}

/-! ## Escapes by number -/

theorem Meets.ite {P : List Char → Prop} {condition : Prop} [Decidable condition] {f g : Reader α}
    (hf : Meets stops P f) (hg : Meets stops P g) :
    Meets stops P (if condition then f else g) := by
  split
  · exact hf
  · exact hg

theorem Meets.charOfNumber (digits : List Char) : Meets stops Anywhere (charOfNumber digits) := by
  let result : Option Char := do
    let value ← digits.foldlM (fun value c => do return value * 16 + (← hexValue? c)) 0
    if h : value.isValidChar then some (Char.ofNatAux value h) else none
  refine Meets.still result fun cursor => ?_
  unfold Regex.charOfNumber result
  cases digits.foldlM (fun value c => do return value * 16 + (← hexValue? c)) 0 with
  | none => rfl
  | some value =>
    show (if h : value.isValidChar then some (Char.ofNatAux value h, cursor) else none) =
      (if h : value.isValidChar then some (Char.ofNatAux value h) else none).map
        fun c => (c, cursor)
    by_cases hvalid : value.isValidChar
    · rw [dif_pos hvalid, dif_pos hvalid]
      rfl
    · rw [dif_neg hvalid, dif_neg hvalid]
      rfl

theorem readDigits_false_succ (count : Nat) :
    readDigits false (count + 1) = bumpBoth >>= fun _ => peek >>= fun c =>
      if (hexValue? c).isNone then fault
      else readDigits false count >>= fun digits => pure (c :: digits) := rfl

theorem readDigits_true_succ (count : Nat) :
    readDigits true (count + 1) = peek >>= fun c =>
      if (hexValue? c).isNone then fault
      else readDigits false count >>= fun digits => pure (c :: digits) := rfl

theorem Meets.digitsAfter (count : Nat) : Meets stops Inside (readDigits false count) := by
  induction count with
  | zero => exact (Meets.pure []).on
  | succ count ih =>
    rw [readDigits_false_succ]
    refine Meets.bumpBoth.bind fun _ => Meets.peek (fun c => ?_) ?_
    · exact Meets.fault.on.ite (ih.bind fun digits => Meets.pure _)
    · exact fun more skips => within_none _

theorem Meets.digits (count : Nat) : Meets stops Anywhere (readDigits true count) := by
  cases count with
  | zero => exact Meets.pure []
  | succ count =>
    rw [readDigits_true_succ]
    refine Meets.peek (fun c => ?_) fun more skips => within_none _
    exact Meets.fault.on.ite ((Meets.digitsAfter count).bind fun digits => Meets.pure _)

theorem readDigits_ne_nil {count : Nat} {first : Bool} {cursor next : Cursor}
    {digits : List Char} (h : readDigits first count cursor = some (digits, next))
    (hcount : 0 < count ∨ cursor.rest ≠ []) : next.rest ≠ [] := by
  induction count generalizing first cursor digits with
  | zero =>
    obtain ⟨-, rfl⟩ := Prod.mk.inj (Option.some.inj h)
    exact hcount.resolve_left (Nat.lt_irrefl 0)
  | succ count ih =>
    -- Each digit is looked at before it is taken, and there is nothing to look at in a text that
    -- has ended.
    have hpeek : ∀ between, readDigits true (count + 1) between = some (digits, next) →
        next.rest ≠ [] := by
      rintro ⟨text, skips⟩ h
      cases text with
      | nil => cases h
      | cons d text =>
        rw [readDigits_true_succ, peek_cons] at h
        split at h
        · cases h
        · obtain ⟨more, last, hmore, hlast⟩ := exists_of_bind h
          obtain ⟨-, rfl⟩ := Prod.mk.inj (Option.some.inj hlast)
          exact ih hmore (Or.inr (List.cons_ne_nil _ _))
    cases first with
    | true => exact hpeek cursor h
    | false =>
      obtain ⟨_, between, -, h⟩ := exists_of_bind h
      exact hpeek between h

theorem Meets.readHex : Meets stops Inside readHex := by
  unfold Regex.readHex
  refine Meets.peek_inside fun kind => Meets.bumpBoth.bind fun _ => ?_
  have hcount : 0 < if kind == 'x' then 2 else if kind == 'u' then 4 else 8 := by
    split
    · decide
    · split <;> decide
  generalize (if kind == 'x' then 2 else if kind == 'u' then 4 else 8) = count at hcount
  refine Meets.peek (fun c => Meets.ite ?_ ?_) ?_
  · -- the number stands in braces
    refine Meets.bumpBoth.bind fun _ => Meets.gatherWhile_bind rfl (fun digits => ?_) ?_
    · refine Meets.peek_inside fun _ => Meets.bumpBoth.bind fun _ => Meets.ite Meets.fault ?_
      exact (Meets.charOfNumber digits).bind fun c => Meets.pure _
    · exact fun _ _ => rfl
  · refine (Meets.digits count).on.bind_on (fun digits => Meets.bumpBoth.bind fun _ =>
      (Meets.charOfNumber digits).bind fun c => Meets.pure _) ?_
    exact fun digits text left skips skips' _ h => readDigits_ne_nil h (Or.inl hcount)
  · intro more skips
    cases count with
    | zero => exact absurd hcount (Nat.lt_irrefl 0)
    | succ count => exact within_none _

/-! ## Properties -/

theorem Meets.readProperty : Meets stops Inside readProperty := by
  unfold Regex.readProperty
  refine Meets.peek_inside fun kind => Meets.bumpBoth.bind fun _ => ?_
  refine Meets.peek (fun c => Meets.ite ?_ (Meets.ite Meets.fault.on ?_)) ?_
  · refine Meets.bumpBoth.bind fun _ => Meets.gatherWhile_bind rfl (fun text => ?_) ?_
    · exact Meets.peek_inside fun _ => Meets.bump.bind fun _ => Meets.pure _
    · exact fun _ _ => rfl
  · exact Meets.bumpBoth.bind fun _ => Meets.pure _
  · exact (takes_bumpBoth.bind fun _ => shrinks_pure _).grips

/-! ## Boundaries of words -/

/-- The text alone is at fault since it ends after an opening brace, as a name or a repetition might
begin there. With the parenthesis, the reader may set the text back to the brace. -/
def Hesitates (b : α) (f : Reader α) (text : List Char) (skips : Bool) : Prop :=
  f ⟨text, skips⟩ = none ∧ ∃ brace : List Char, brace.head? = some '\x7b' ∧
    bumpBoth ⟨brace, skips⟩ = some ((), ⟨[], skips⟩) ∧
      ∀ more, Within more (f ⟨text ++ ')' :: more, skips⟩) ∨
        f ⟨text ++ ')' :: more, skips⟩ = some (b, ⟨brace ++ ')' :: more, skips⟩)

theorem Hesitates.map {f : Reader α} {a : α} {text : List Char} {skips : Bool}
    (hf : Hesitates a f text skips) (h : α → β) :
    Hesitates (h a) (f >>= fun a => pure (h a)) text skips := by
  obtain ⟨hnone, brace, hhead, hbrace, hmore⟩ := hf
  refine ⟨bind_of_none hnone, brace, hhead, hbrace, fun more => ?_⟩
  exact (hmore more).imp (fun hpast => hpast.bind fun a => shrinks_pure _) bind_of_some

theorem Hesitates.congr {f f' : Reader α} {a : α} {text text' : List Char} {skips : Bool}
    (hf : Hesitates a f text skips) (h : f' ⟨text', skips⟩ = f ⟨text, skips⟩)
    (hmore : ∀ more, f' ⟨text' ++ ')' :: more, skips⟩ = f ⟨text ++ ')' :: more, skips⟩) :
    Hesitates a f' text' skips := by
  unfold Hesitates at hf ⊢
  simp only [h, hmore]
  exact hf

/-- Whether a character may stand in the name of a word boundary. -/
def isBoundaryChar (c : Char) : Bool := c.isAlpha || c == '-'

/-- Reads the rest of the name of a word boundary. -/
def readBoundaryName : Reader Assertion := do
  let name ← gatherWhile isBoundaryChar
  if (← peek) == '\x7d' then
    bump
    match specialBoundary? name with
    | some assertion => return assertion
    | none => fault
  else fault

theorem Meets.readBoundaryName : Meets stops Anywhere readBoundaryName := by
  unfold Reader.readBoundaryName
  refine (Meets.gatherWhile rfl).bind fun name => ?_
  refine Meets.peek (fun c => Meets.ite (Meets.bump.bind fun _ => ?_) Meets.fault.on) ?_
  · split
    · exact Meets.pure _
    · exact Meets.fault
  · exact fun more skips => within_none _

theorem readBoundary_other {text : List Char} (h : text.head? ≠ some '\x7b') (skips : Bool) :
    readBoundary ⟨text, skips⟩ = some (.wordBoundary, ⟨text, skips⟩) := by
  have hif : (text.head? == some '\x7b') = false := beq_eq_false_iff_ne.mpr h
  unfold readBoundary
  rw [rest_bind]
  simp only [hif]
  rfl

/-- What follows the opening brace is a name, or the reader goes back to the brace. -/
def readBoundaryAt (brace : List Char) : Reader Assertion := do
  bumpBoth
  if isBoundaryChar (← peek) then readBoundaryName
  else
    setRest brace
    return .wordBoundary

theorem readBoundary_brace (text : List Char) (skips : Bool) :
    readBoundary ⟨'\x7b' :: text, skips⟩ =
      readBoundaryAt ('\x7b' :: text) ⟨'\x7b' :: text, skips⟩ := rfl

theorem shrinks_readBoundary : Shrinks readBoundary := by
  have hname : Tame Anywhere readBoundaryName := Meets.readBoundaryName
  rintro ⟨text, skips⟩
  by_cases hhead : text.head? = some '\x7b'
  · cases text with
    | nil => cases hhead
    | cons d text =>
      obtain rfl := Option.some.inj hhead
      rw [readBoundary_brace]
      intro a last h
      obtain ⟨_, between, hbump, h⟩ := exists_of_bind h
      obtain ⟨c, here, hpeek, h⟩ := exists_of_bind h
      have hhere := (shrinks_peek _ _ _ hpeek).trans (shrinks_bumpBoth _ _ _ hbump)
      split at h
      · exact (hname.shrinks _ _ _ h).trans hhere
      · obtain ⟨-, rfl⟩ := Prod.mk.inj (Option.some.inj h)
        exact List.suffix_refl _
  · rw [readBoundary_other hhead]
    exact within_some (List.suffix_refl _)

theorem readBoundaryAt_name {brace text left : List Char} {skips : Bool} {c : Char}
    (h : bumpBoth ⟨text, skips⟩ = some ((), ⟨c :: left, skips⟩)) (hc : isBoundaryChar c = true) :
    readBoundaryAt brace ⟨text, skips⟩ = readBoundaryName ⟨c :: left, skips⟩ := by
  unfold readBoundaryAt
  rw [bind_of_some h, peek_cons, if_pos hc]

theorem readBoundaryAt_other {brace text left : List Char} {skips : Bool} {c : Char}
    (h : bumpBoth ⟨text, skips⟩ = some ((), ⟨c :: left, skips⟩)) (hc : isBoundaryChar c = false) :
    readBoundaryAt brace ⟨text, skips⟩ = some (.wordBoundary, ⟨brace, skips⟩) := by
  unfold readBoundaryAt
  rw [bind_of_some h, peek_cons, if_neg (Bool.eq_false_iff.mp hc)]
  rfl

theorem readBoundaryAt_end {brace text : List Char} {skips : Bool}
    (h : bumpBoth ⟨text, skips⟩ = some ((), ⟨[], skips⟩)) :
    readBoundaryAt brace ⟨text, skips⟩ = none := by
  unfold readBoundaryAt
  rw [bind_of_some h]
  rfl

theorem exists_bumpBoth (text : List Char) (skips : Bool) :
    ∃ left, bumpBoth ⟨text, skips⟩ = some ((), ⟨left, skips⟩) :=
  ⟨_, bumpSpace_eq (text.drop 1) skips⟩

/-- After a brace that is followed, what decides is whether a name begins there. -/
theorem readBoundary_tracks_of_follows {text left : List Char} {skips : Bool}
    (h : bumpBoth ⟨'\x7b' :: text, skips⟩ = some ((), ⟨left, skips⟩))
    (hmore : ∀ more, bumpBoth ⟨'\x7b' :: text ++ ')' :: more, skips⟩ =
      some ((), ⟨left ++ ')' :: more, skips⟩)) :
    Tracks stops readBoundary ('\x7b' :: text) skips ∨
      Hesitates .wordBoundary readBoundary ('\x7b' :: text) skips := by
  cases left with
  | nil =>
    refine Or.inr ⟨readBoundaryAt_end h, '\x7b' :: text, rfl, h, fun more => Or.inr ?_⟩
    exact readBoundaryAt_other (hmore more) rfl
  | cons c left =>
    left
    cases hc : isBoundaryChar c with
    | true =>
      exact (Meets.readBoundaryName.tracks (c :: left) skips trivial).congr
        (readBoundaryAt_name h hc) fun more => readBoundaryAt_name (hmore more) hc
    | false =>
      exact Or.inl ⟨.wordBoundary, '\x7b' :: text, skips, readBoundaryAt_other h hc,
        fun more => readBoundaryAt_other (hmore more) hc⟩

/-- After a brace with nothing but a comment behind it the text is at its end. -/
theorem readBoundary_hesitates {text : List Char} {skips : Bool}
    (hpasses : Passes bumpBoth ('\x7b' :: text) skips) :
    Hesitates .wordBoundary readBoundary ('\x7b' :: text) skips := by
  obtain ⟨left, h⟩ := exists_bumpBoth ('\x7b' :: text) skips
  obtain rfl : left = [] := hpasses.rest_eq_nil h
  refine ⟨readBoundaryAt_end h, '\x7b' :: text, rfl, h, fun more => ?_⟩
  obtain ⟨left, hmore⟩ := exists_bumpBoth ('\x7b' :: text ++ ')' :: more) skips
  have hwithin : left <:+ more := hpasses.1 more _ _ hmore
  -- Beyond the comment there may be more; then a name is read in it, or the brace is left alone.
  cases left with
  | nil =>
    have hnone : readBoundary ⟨'\x7b' :: text ++ ')' :: more, skips⟩ = none :=
      readBoundaryAt_end hmore
    rw [hnone]
    exact Or.inl (within_none _)
  | cons c left =>
    cases hc : isBoundaryChar c with
    | true =>
      left
      have hread : readBoundary ⟨'\x7b' :: text ++ ')' :: more, skips⟩ =
          readBoundaryName ⟨c :: left, skips⟩ := readBoundaryAt_name hmore hc
      have hname : Tame Anywhere readBoundaryName := Meets.readBoundaryName
      rw [hread]
      exact (hname.shrinks _).mono hwithin
    | false => exact Or.inr (readBoundaryAt_other hmore hc)

theorem readBoundary_tracks (text : List Char) (skips : Bool) :
    Tracks stops readBoundary text skips ∨ Hesitates .wordBoundary readBoundary text skips := by
  by_cases hhead : text.head? = some '\x7b'
  · cases text with
    | nil => cases hhead
    | cons d text =>
      obtain rfl := Option.some.inj hhead
      have hbump : Tame Inside bumpBoth := Meets.bumpBoth
      -- With a brace, what matters is whether the parenthesis ends up in a comment behind it.
      rcases (hbump.tracks ('\x7b' :: text) skips (List.cons_ne_nil _ _)).follows_or_passes with
        ⟨_, left, skips', h, hmore⟩ | hpasses
      · obtain rfl : skips = skips' := by
          obtain ⟨left', hleft⟩ := exists_bumpBoth ('\x7b' :: text) skips
          exact congrArg (fun next => next.2.skipsBlanks) (Option.some.inj (hleft.symm.trans h))
        exact readBoundary_tracks_of_follows h hmore
      · exact Or.inr (readBoundary_hesitates hpasses)
  · left
    refine Or.inl ⟨.wordBoundary, text, skips, readBoundary_other hhead skips, fun more => ?_⟩
    refine readBoundary_other ?_ skips
    cases text with
    | nil => simp
    | cons d text => exact hhead

/-! ## Any escape -/

/-- Reads an escape whose first character is known. -/
def readEscapeOf (c : Char) : Reader Tree := do
  if c == 'x' || c == 'u' || c == 'U' then return .literal (← readHex)
  else if c == 'p' || c == 'P' then
    let (query, negated) ← readProperty
    return .property query negated
  else
    bump
    if isEscapable c then return .literal ⟨c, false⟩
    else
      match controlEscape? c with
      | some control => return .literal ⟨control, false⟩
      | none =>
        match c with
        | 'd' => return .perl .digit false
        | 'D' => return .perl .digit true
        | 's' => return .perl .space false
        | 'S' => return .perl .space true
        | 'w' => return .perl .word false
        | 'W' => return .perl .word true
        | 'A' => return .assertion .startText
        | 'z' => return .assertion .endText
        | 'b' => return .assertion (← readBoundary)
        | 'B' => return .assertion .notWordBoundary
        | '<' => return .assertion .wordStart
        | '>' => return .assertion .wordEnd
        | _ => fault

theorem Meets.readEscapeOf {c : Char} (hc : c ≠ 'b') : Meets stops Inside (readEscapeOf c) := by
  unfold Reader.readEscapeOf
  refine Meets.ite (Meets.readHex.bind fun literal => Meets.pure _) ?_
  refine Meets.ite (Meets.readProperty.bind fun found => Meets.pure _) ?_
  refine Meets.bump.bind fun _ => Meets.ite (Meets.pure _) ?_
  split
  · exact Meets.pure _
  · split
    all_goals first
      | exact Meets.pure _
      | exact Meets.fault
      | exact absurd rfl hc

theorem shrinks_readEscapeOf (c : Char) : Shrinks (readEscapeOf c) := by
  by_cases hc : c = 'b'
  · subst hc
    exact shrinks_bump.bind fun _ => shrinks_readBoundary.bind fun _ => shrinks_pure _
  · have h : Tame Inside (readEscapeOf c) := Meets.readEscapeOf hc
    exact h.shrinks

theorem shrinks_readEscape : Shrinks readEscape :=
  shrinks_bump.bind fun _ => shrinks_peek.bind shrinks_readEscapeOf

theorem takes_readEscape : Takes readEscape :=
  takes_bump.bind fun _ => shrinks_peek.bind shrinks_readEscapeOf

theorem readEscape_tracks (d : Char) (text : List Char) (skips : Bool) :
    Tracks stops readEscape (d :: text) skips ∨
      Hesitates (.assertion .wordBoundary) readEscape (d :: text) skips := by
  cases text with
  | nil =>
    refine Or.inl (Tracks.of_none rfl fun more => ?_)
    exact within_some (List.suffix_refl _)
  | cons c text =>
    have hsame : ∀ more, readEscape ⟨d :: c :: more, skips⟩ = readEscapeOf c ⟨c :: more, skips⟩ :=
      fun more => rfl
    -- Only the boundary of a word may hesitate.
    by_cases hc : c = 'b'
    · subst hc
      rcases readBoundary_tracks text skips with htracks | hhesitates
      · refine Or.inl (Tracks.congr (htracks.bind (fun a => shrinks_pure (Tree.assertion a)) ?_) rfl
          fun more => rfl)
        exact fun a left skips' _ => (Meets.pure _).tracks left skips' trivial
      · exact Or.inr ((hhesitates.map Tree.assertion).congr rfl fun more => rfl)
    · left
      exact ((Meets.readEscapeOf hc).tracks (c :: text) skips (List.cons_ne_nil _ _)).congr
        (hsame _) fun more => hsame _

end Reader
end Gll.Regex
