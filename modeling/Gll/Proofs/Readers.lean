import Gll.Regex.Reader

/-!
What readers leave of the text.

A reader leaves an end of the text that it was given (`Reader.Shrinks`). So the loops of the reader,
which are bounded by the length of the text, do not run into their bounds: a loop that may go around
as often as there are characters satisfies its own equation without a bound (`Reader.settled_eq`).
-/

set_option autoImplicit false

namespace Gll.Regex

namespace Reader

variable {α β γ : Type}

/-! ## One reader after the other -/

section Bind

variable {f : Reader α} {g : α → Reader β} {cursor between last : Cursor}

theorem bind_eq (f : Reader α) (g : α → Reader β) (cursor : Cursor) :
    (f >>= g) cursor = (f cursor).bind fun next => g next.1 next.2 := rfl

theorem bind_of_some {a : α} (h : f cursor = some (a, between)) :
    (f >>= g) cursor = g a between := by
  rw [bind_eq, h]
  rfl

theorem bind_of_none (h : f cursor = none) : (f >>= g) cursor = none := by
  rw [bind_eq, h]
  rfl

theorem exists_of_bind {b : β} (h : (f >>= g) cursor = some (b, last)) :
    ∃ a between, f cursor = some (a, between) ∧ g a between = some (b, last) := by
  rw [bind_eq] at h
  obtain ⟨⟨a, between⟩, hf, hg⟩ := Option.bind_eq_some_iff.mp h
  exact ⟨a, between, hf, hg⟩

theorem bind_congr {g' : α → Reader β}
    (h : ∀ a between, f cursor = some (a, between) → g a between = g' a between) :
    (f >>= g) cursor = (f >>= g') cursor := by
  cases hf : f cursor with
  | none => rw [bind_of_none hf, bind_of_none hf]
  | some next =>
    obtain ⟨a, between⟩ := next
    rw [bind_of_some hf, bind_of_some hf]
    exact h a between hf

end Bind

theorem peek_cons (d : Char) (text : List Char) (skips : Bool) (g : Char → Reader β) :
    (peek >>= g) ⟨d :: text, skips⟩ = g d ⟨d :: text, skips⟩ := rfl

theorem bump_cons (d : Char) (text : List Char) (skips : Bool) (g : Unit → Reader β) :
    (bump >>= g) ⟨d :: text, skips⟩ = g () ⟨text, skips⟩ := rfl

theorem rest_bind (g : List Char → Reader β) (cursor : Cursor) :
    (rest >>= g) cursor = g cursor.rest cursor := rfl

theorem skipsBlanks_bind (g : Bool → Reader β) (cursor : Cursor) :
    (skipsBlanks >>= g) cursor = g cursor.skipsBlanks cursor := rfl

/-! ## What is left -/

/-- What is left is an end of a text, if the reader does not fail. -/
def Within (text : List Char) (result : Option (α × Cursor)) : Prop :=
  ∀ a cursor, result = some (a, cursor) → cursor.rest <:+ text

theorem within_none (text : List Char) : Within text (none : Option (α × Cursor)) := by
  intro a cursor h
  cases h

theorem within_some {text : List Char} {a : α} {cursor : Cursor} (h : cursor.rest <:+ text) :
    Within text (some (a, cursor)) := by
  intro b next hnext
  obtain ⟨-, rfl⟩ := Prod.mk.inj (Option.some.inj hnext)
  exact h

theorem Within.mono {text text' : List Char} {result : Option (α × Cursor)}
    (h : Within text result) (hsuffix : text <:+ text') : Within text' result :=
  fun a cursor hresult => (h a cursor hresult).trans hsuffix

/-- A reader leaves an end of the text. -/
def Shrinks (f : Reader α) : Prop := ∀ cursor, Within cursor.rest (f cursor)

theorem Within.bind {text : List Char} {cursor : Cursor} {f : Reader α} {g : α → Reader β}
    (hf : Within text (f cursor)) (hg : ∀ a, Shrinks (g a)) : Within text ((f >>= g) cursor) := by
  intro b last h
  obtain ⟨a, between, hf', hg'⟩ := exists_of_bind h
  exact (hg a between b last hg').trans (hf a between hf')

theorem Shrinks.bind {f : Reader α} {g : α → Reader β} (hf : Shrinks f)
    (hg : ∀ a, Shrinks (g a)) : Shrinks (f >>= g) :=
  fun cursor => (hf cursor).bind hg

theorem shrinks_pure (a : α) : Shrinks (pure a : Reader α) :=
  fun _ => within_some (List.suffix_refl _)

theorem shrinks_fault : Shrinks (fault : Reader α) := fun _ => within_none _

theorem shrinks_rest : Shrinks rest := fun _ => within_some (List.suffix_refl _)

theorem shrinks_peek : Shrinks peek := by
  rintro ⟨text, skips⟩
  cases text with
  | nil => exact within_none _
  | cons d text => exact within_some (List.suffix_refl _)

theorem shrinks_bump : Shrinks bump := fun cursor => within_some (List.drop_suffix 1 cursor.rest)

theorem afterComment_suffix (text : List Char) : afterComment text <:+ text := by
  induction text with
  | nil => exact List.suffix_refl _
  | cons d text ih =>
    unfold afterComment
    split
    · exact List.suffix_cons d text
    · exact ih.trans (List.suffix_cons d text)

theorem skipIgnored_suffix (fuel : Nat) (text : List Char) : skipIgnored fuel text <:+ text := by
  induction fuel generalizing text with
  | zero => exact List.suffix_refl _
  | succ fuel ih =>
    cases text with
    | nil => exact List.suffix_refl _
    | cons d text =>
      unfold skipIgnored
      split
      · exact (ih _).trans ((afterComment_suffix text).trans (List.suffix_cons d text))
      · split
        · exact (ih _).trans (List.suffix_cons d text)
        · exact List.suffix_refl _

theorem shrinks_bumpSpace : Shrinks bumpSpace := by
  intro cursor
  unfold bumpSpace
  split
  · exact within_some (skipIgnored_suffix _ _)
  · exact within_some (List.suffix_refl _)

theorem shrinks_bumpBoth : Shrinks bumpBoth := shrinks_bump.bind fun _ => shrinks_bumpSpace

theorem shrinks_bumpIf (expected : List Char) : Shrinks (bumpIf expected) := by
  intro cursor
  unfold bumpIf
  split
  · exact within_some (List.drop_suffix _ _)
  · exact within_some (List.suffix_refl _)

theorem shrinks_skipsBlanks : Shrinks skipsBlanks := fun _ => within_some (List.suffix_refl _)

theorem shrinks_setSkipsBlanks (skips : Bool) : Shrinks (setSkipsBlanks skips) :=
  fun _ => within_some (List.suffix_refl _)

theorem shrinks_peekSpace : Shrinks peekSpace := by
  refine shrinks_rest.bind fun text => shrinks_skipsBlanks.bind fun skips => ?_
  split
  · split <;> exact shrinks_pure _
  · exact shrinks_pure _

/-! ## Loops -/

section Loops

variable {ι : Type} {turn : ι → Reader (α ⊕ ι)}

/-- What comes after a turn: nothing if it was the last one. -/
def goOn (next : ι → Reader α) : α ⊕ ι → Reader α
  | .inl a => pure a
  | .inr i => next i

/-- A turn that is not the last one takes something. -/
def Advances (turn : ι → Reader (α ⊕ ι)) : Prop :=
  ∀ i cursor j next, turn i cursor = some (.inr j, next) →
    next.rest.length < cursor.rest.length

theorem turns_succ (turn : ι → Reader (α ⊕ ι)) (fuel : Nat) (i : ι) :
    turns turn (fuel + 1) i = turn i >>= goOn (turns turn fuel) := rfl

theorem goOn_congr (hturn : Advances turn) {next next' : ι → Reader α} {i : ι} {cursor : Cursor}
    (h : ∀ j left, left.rest.length < cursor.rest.length → next j left = next' j left) :
    (turn i >>= goOn next) cursor = (turn i >>= goOn next') cursor := by
  refine bind_congr fun found left hfound => ?_
  cases found with
  | inl a => rfl
  | inr j => exact h j left (hturn i cursor j left hfound)

/-- It does not matter how often a loop may go around if it is often enough. -/
theorem turns_eq_of_lt (hturn : Advances turn) {fuel fuel' : Nat} {i : ι} {cursor : Cursor}
    (h : cursor.rest.length < fuel) (h' : cursor.rest.length < fuel') :
    turns turn fuel i cursor = turns turn fuel' i cursor := by
  induction fuel generalizing fuel' i cursor with
  | zero => exact absurd h (Nat.not_lt_zero _)
  | succ fuel ih =>
    cases fuel' with
    | zero => exact absurd h' (Nat.not_lt_zero _)
    | succ fuel' =>
      rw [turns_succ, turns_succ]
      exact goOn_congr hturn fun j left hleft => ih (by omega) (by omega)

/-- A loop takes a turn and goes on. -/
theorem loop_eq (hturn : Advances turn) (i : ι) : loop turn i = turn i >>= goOn (loop turn) := by
  funext cursor
  show turns turn (cursor.rest.length + 1) i cursor = _
  rw [turns_succ]
  exact goOn_congr hturn fun j left hleft => turns_eq_of_lt hturn hleft (Nat.lt_succ_self _)

theorem shrinks_goOn {next : ι → Reader α} (hnext : ∀ i, Shrinks (next i)) (found : α ⊕ ι) :
    Shrinks (goOn next found) := by
  cases found with
  | inl a => exact shrinks_pure a
  | inr j => exact hnext j

theorem shrinks_loop (hturn : ∀ i, Shrinks (turn i)) (i : ι) : Shrinks (loop turn i) := by
  have hturns : ∀ fuel i, Shrinks (turns turn fuel i) := by
    intro fuel
    induction fuel with
    | zero => exact fun i => shrinks_fault
    | succ fuel ih =>
      intro i
      rw [turns_succ]
      exact (hturn i).bind (shrinks_goOn ih)
  exact fun cursor => hturns _ i cursor

/-- What is done after the last turn. -/
def afterLast (last : α → Reader β) : α ⊕ ι → Reader (β ⊕ ι)
  | .inl a => last a >>= fun b => pure (.inl b)
  | .inr i => pure (.inr i)

theorem Advances.bind_afterLast (hturn : Advances turn) (last : α → Reader β) :
    Advances fun i => turn i >>= afterLast last := by
  intro i cursor j next h
  obtain ⟨found, between, hfound, hlast⟩ := exists_of_bind h
  cases found with
  | inl a =>
    obtain ⟨b, here, -, hb⟩ := exists_of_bind hlast
    cases hb
  | inr k =>
    obtain ⟨hk, rfl⟩ := Prod.mk.inj (Option.some.inj hlast)
    exact hturn i cursor k _ hfound

/-- What comes after a loop may be done with its last turn. -/
theorem loop_bind (turn : ι → Reader (α ⊕ ι)) (last : α → Reader β) (i : ι) :
    loop turn i >>= last = loop (fun i => turn i >>= afterLast last) i := by
  have hturns : ∀ fuel i, turns turn fuel i >>= last =
      turns (fun i => turn i >>= afterLast last) fuel i := by
    intro fuel
    induction fuel with
    | zero => exact fun i => rfl
    | succ fuel ih =>
      intro i
      rw [turns_succ, turns_succ, bind_assoc, bind_assoc]
      congr
      funext found
      cases found with
      | inl a =>
        show last a = (last a >>= fun b => pure (.inl b)) >>= goOn _
        rw [bind_assoc]
        exact (bind_pure (last a)).symm
      | inr j => exact ih j
  exact funext fun cursor => congrFun (hturns _ i) cursor

theorem shrinks_afterLast {last : α → Reader β} (hlast : ∀ a, Shrinks (last a)) (found : α ⊕ ι) :
    Shrinks (afterLast last found) := by
  cases found with
  | inl a => exact (hlast a).bind fun b => shrinks_pure _
  | inr j => exact shrinks_pure _

end Loops

end Reader

end Gll.Regex
