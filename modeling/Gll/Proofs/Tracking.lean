import Gll.Proofs.Readers

/-!
Readers that meet a closing parenthesis.

A reader is compared on a text and on the same text with a closing parenthesis and more after it.
Either the parenthesis is met by nobody, and the reader does the same on both (`Reader.Follows`), or
the reader takes the parenthesis too; then the text alone is at fault, or the parenthesis is in a
comment (`Reader.Passes`). A few readers may be at fault without the parenthesis and stop right at
it (`Reader.Stops`).
-/

set_option autoImplicit false

/-! ## Blanks -/

namespace Gll.Unicode.RangeTable

/-- What the search finds belongs to a run. -/
theorem exists_run_of_search {runs : Array Run} {code first last : Nat}
    (h : search runs code first last = true) :
    runs.toList.any (fun run => run.contains code) = true := by
  fun_induction search runs code first last with
  | case1 => cases h
  | case2 first last hlt middle run hrun hle ih => exact ih h
  | case3 first last hlt middle run hrun hle ih => exact ih h
  | case4 first last hlt run hrun =>
    rw [Array.any_toList, Array.any_eq_true]
    obtain ⟨hi, heq⟩ := Array.getElem?_eq_some_iff.mp hrun
    refine ⟨first - 1, hi, ?_⟩
    rw [heq]
    exact (Bool.and_eq_true_iff.mp h).2
  | case5 => cases h

theorem contains_eq_false {table : RangeTable} {code : Nat}
    (h : table.runs.toList.any (fun run => run.contains code) = false) :
    table.contains code = false := by
  cases hcontains : table.contains code with
  | false => rfl
  | true => exact absurd (h.symm.trans (exists_run_of_search hcontains)) Bool.false_ne_true

end Gll.Unicode.RangeTable

namespace Gll.Unicode.Property

theorem runs_whiteSpace : whiteSpace.runs =
    #[⟨0x9, 0xD, 1⟩, ⟨0x20, 0x20, 1⟩, ⟨0x85, 0x85, 1⟩, ⟨0xA0, 0xA0, 1⟩, ⟨0x1680, 0x1680, 1⟩,
      ⟨0x2000, 0x200A, 1⟩, ⟨0x2028, 0x2029, 1⟩, ⟨0x202F, 0x202F, 1⟩, ⟨0x205F, 0x205F, 1⟩,
      ⟨0x3000, 0x3000, 1⟩] := by
  simp [whiteSpace, RangeTable.ofLines, RangeTable.Reading.line, String.foldl_eq_foldl_toList,
    RangeTable.Reading.next, RangeTable.Reading.close, RangeTable.hexValue]

end Gll.Unicode.Property

namespace Gll.Regex

theorem isBlank_eq_false : ∀ c ∈ [')', ']', '-', '\x7b'], isBlank c = false := by
  intro c hc
  refine Unicode.RangeTable.contains_eq_false ?_
  rw [Unicode.Property.runs_whiteSpace]
  simp only [List.mem_cons, List.not_mem_nil, or_false] at hc
  rcases hc with rfl | rfl | rfl | rfl <;> rfl

theorem isBlank_closing : isBlank ')' = false := isBlank_eq_false _ (by decide)

theorem afterComment_append {text : List Char} (h : '\n' ∈ text) (more : List Char) :
    afterComment (text ++ more) = afterComment text ++ more := by
  induction text with
  | nil => exact absurd h List.not_mem_nil
  | cons d text ih =>
    rw [List.cons_append, afterComment, afterComment]
    split
    · rfl
    · next hd =>
      refine ih ?_
      rcases List.mem_cons.mp h with rfl | hmem
      · exact absurd rfl hd
      · exact hmem

/-- A comment that is not at its end goes on in the text that follows. -/
theorem afterComment_append_of_notMem {text : List Char} (h : '\n' ∉ text) (more : List Char) :
    afterComment (text ++ more) = afterComment more := by
  induction text with
  | nil => rfl
  | cons d text ih =>
    rw [List.cons_append, afterComment, if_neg]
    · exact ih fun hmem => h (List.mem_cons_of_mem _ hmem)
    · rintro rfl
      exact h List.mem_cons_self

theorem afterComment_eq_nil {text : List Char} (h : '\n' ∉ text) : afterComment text = [] := by
  have := afterComment_append_of_notMem h []
  rwa [List.append_nil] at this

theorem skipIgnored_eq_of_lt {fuel fuel' : Nat} {text : List Char} (h : text.length < fuel)
    (h' : text.length < fuel') : skipIgnored fuel text = skipIgnored fuel' text := by
  induction fuel generalizing fuel' text with
  | zero => exact absurd h (Nat.not_lt_zero _)
  | succ fuel ih =>
    cases fuel' with
    | zero => exact absurd h' (Nat.not_lt_zero _)
    | succ fuel' =>
      cases text with
      | nil => rfl
      | cons d text =>
        have hcomment := (Reader.afterComment_suffix text).length_le
        rw [List.length_cons] at h h'
        have hblank := @ih fuel' text (by omega) (by omega)
        have hsign := @ih fuel' (afterComment text) (by omega) (by omega)
        rw [skipIgnored, skipIgnored, hblank, hsign]

/-- The text after all its leading blanks and comments. -/
def skipped (text : List Char) : List Char := skipIgnored (text.length + 1) text

theorem skipped_suffix (text : List Char) : skipped text <:+ text :=
  Reader.skipIgnored_suffix _ _

theorem skipped_nil : skipped [] = [] := rfl

theorem skipped_comment (text : List Char) :
    skipped ('#' :: text) = skipped (afterComment text) := by
  have hlength := (Reader.afterComment_suffix text).length_le
  exact skipIgnored_eq_of_lt (Nat.lt_succ_of_le hlength) (Nat.lt_succ_self _)

theorem skipped_blank {d : Char} (hd : isBlank d) (hsign : d ≠ '#') (text : List Char) :
    skipped (d :: text) = skipped text := by
  rw [skipped, List.length_cons, skipIgnored, if_neg hsign, if_pos hd]
  rfl

theorem skipped_other {d : Char} (hd : isBlank d = false) (hsign : d ≠ '#') (text : List Char) :
    skipped (d :: text) = d :: text := by
  rw [skipped, List.length_cons, skipIgnored, if_neg hsign, if_neg (Bool.eq_false_iff.mp hd)]

/-- Blanks and comments are skipped up to the parenthesis, or it is in a comment. -/
theorem skipped_closing (text : List Char) :
    (∀ more, skipped (text ++ ')' :: more) = skipped text ++ ')' :: more) ∨
      skipped text = [] ∧ ∀ more, skipped (text ++ ')' :: more) <:+ more ∧
        ('\n' ∉ more → skipped (text ++ ')' :: more) = []) := by
  induction hlength : text.length using Nat.strongRecOn generalizing text with
  | ind length ih =>
    subst hlength
    cases text with
    | nil => exact Or.inl fun more => skipped_other isBlank_closing (by decide) more
    | cons d text =>
      by_cases hsign : d = '#'
      · subst hsign
        simp only [List.cons_append, skipped_comment]
        by_cases hline : '\n' ∈ text
        · simp only [afterComment_append hline]
          exact ih _ (Nat.lt_succ_of_le (Reader.afterComment_suffix text).length_le) _ rfl
        · -- the comment goes on beyond the parenthesis
          simp only [afterComment_append_of_notMem hline, afterComment_eq_nil hline]
          refine Or.inr ⟨skipped_nil, fun more => ?_⟩
          have hmore : afterComment (')' :: more) = afterComment more := rfl
          rw [hmore]
          refine ⟨(skipped_suffix _).trans (Reader.afterComment_suffix _), fun hnone => ?_⟩
          rw [afterComment_eq_nil hnone, skipped_nil]
      · cases hd : isBlank d with
        | true =>
          simp only [List.cons_append, skipped_blank hd hsign]
          exact ih _ (Nat.lt_succ_self _) _ rfl
        | false =>
          exact Or.inl fun more => by
            rw [List.cons_append, skipped_other hd hsign, skipped_other hd hsign, List.cons_append]

namespace Reader

variable {α β : Type}

/-! ## Before and beyond the parenthesis -/

/-- The reader does the same whether a closing parenthesis follows the text or not. -/
def Follows (f : Reader α) (text : List Char) (skips : Bool) : Prop :=
  ∃ a left skips', f ⟨text, skips⟩ = some (a, ⟨left, skips'⟩) ∧
    ∀ more, f ⟨text ++ ')' :: more, skips⟩ = some (a, ⟨left ++ ')' :: more, skips'⟩)

/-- The reader takes the closing parenthesis. If the text alone is not at fault, the parenthesis
belongs to a comment, which goes on to the end of the line. -/
def Passes (f : Reader α) (text : List Char) (skips : Bool) : Prop :=
  (∀ more, Within more (f ⟨text ++ ')' :: more, skips⟩)) ∧
    (f ⟨text, skips⟩ = none ∨
      ∀ more, '\n' ∉ more → f ⟨text ++ ')' :: more, skips⟩ = f ⟨text, skips⟩)

/-- The text alone is at fault, and the reader takes at most what comes before the parenthesis. -/
def Stops (f : Reader α) (text : List Char) (skips : Bool) : Prop :=
  f ⟨text, skips⟩ = none ∧ ∀ more, Within (')' :: more) (f ⟨text ++ ')' :: more, skips⟩)

/-- The reader follows or passes, or it stops if that is allowed. -/
def Tracks (stops : Prop) (f : Reader α) (text : List Char) (skips : Bool) : Prop :=
  Follows f text skips ∨ Passes f text skips ∨ stops ∧ Stops f text skips

/-- A reader leaves an end of each text, and on some texts it tracks the parenthesis. -/
structure Meets (stops : Prop) (P : List Char → Prop) (f : Reader α) : Prop where
  shrinks : Shrinks f
  tracks : ∀ text skips, P text → Tracks stops f text skips

/-- The reader follows or passes. -/
abbrev Tame (P : List Char → Prop) (f : Reader α) : Prop := Meets False P f

/-- The reader follows, passes or stops. -/
abbrev Loose (P : List Char → Prop) (f : Reader α) : Prop := Meets True P f

/-- All texts. -/
def Anywhere : List Char → Prop := fun _ => True

/-- The texts that are not at their end. -/
def Inside : List Char → Prop := fun text => text ≠ []

/-- A reader that takes at least one character, if there is one. -/
def Takes (f : Reader α) : Prop := ∀ d text skips, Within text (f ⟨d :: text, skips⟩)

/-- A reader that takes a closing parenthesis if it comes next. -/
def Grips (f : Reader α) : Prop := ∀ more skips, Within more (f ⟨')' :: more, skips⟩)

section

variable {stops : Prop} {P Q : List Char → Prop} {f : Reader α} {g : α → Reader β}

theorem Meets.mono (hf : Meets stops Q f) (h : ∀ text, P text → Q text) : Meets stops P f :=
  ⟨hf.shrinks, fun text skips hP => hf.tracks text skips (h text hP)⟩

theorem Meets.on (hf : Meets stops Anywhere f) : Meets stops P f := hf.mono fun _ _ => trivial

theorem Tracks.follows_or_passes {text : List Char} {skips : Bool}
    (hf : Tracks False f text skips) : Follows f text skips ∨ Passes f text skips :=
  hf.imp_right (Or.elim · id fun h => h.1.elim)

/-- What is the same on the text and beyond the parenthesis is the same for tracking. -/
theorem Tracks.congr {f' : Reader α} {text text' : List Char} {skips skips' : Bool}
    (hf : Tracks stops f text skips) (h : f' ⟨text', skips'⟩ = f ⟨text, skips⟩)
    (hmore : ∀ more, f' ⟨text' ++ ')' :: more, skips'⟩ = f ⟨text ++ ')' :: more, skips⟩) :
    Tracks stops f' text' skips' := by
  unfold Tracks Follows Passes Stops at hf ⊢
  simp only [h, hmore]
  exact hf

/-- A reader that fails on the text and takes the parenthesis passes. -/
theorem Tracks.of_none {text : List Char} {skips : Bool} (h : f ⟨text, skips⟩ = none)
    (hpast : ∀ more, Within more (f ⟨text ++ ')' :: more, skips⟩)) : Tracks stops f text skips :=
  Or.inr (Or.inl ⟨hpast, Or.inl h⟩)

theorem Passes.bind {text : List Char} {skips : Bool} (hf : Passes f text skips)
    (hg : ∀ a, Shrinks (g a)) : Passes (f >>= g) text skips := by
  refine ⟨fun more => (hf.1 more).bind hg, ?_⟩
  rcases hf.2 with hnone | hcomment
  · exact Or.inl (bind_of_none hnone)
  · refine Or.inr fun more hmore => ?_
    rw [bind_eq, bind_eq, hcomment more hmore]

theorem Stops.bind {text : List Char} {skips : Bool} (hf : Stops f text skips)
    (hg : ∀ a, Shrinks (g a)) : Stops (f >>= g) text skips :=
  ⟨bind_of_none hf.1, fun more => (hf.2 more).bind hg⟩

theorem Passes.rest_eq_nil {text : List Char} {skips : Bool} (hf : Passes f text skips) {a : α}
    {cursor : Cursor} (h : f ⟨text, skips⟩ = some (a, cursor)) : cursor.rest = [] := by
  rcases hf.2 with hnone | hcomment
  · rw [hnone] at h
    cases h
  · rw [← hcomment [] List.not_mem_nil] at h
    exact List.suffix_nil.mp (hf.1 [] a cursor h)

/-- After a reader that follows, everything depends on what comes next. -/
theorem Tracks.bind_follows {text left : List Char} {skips skips' : Bool} {a : α}
    (hg : Tracks stops (g a) left skips') (h : f ⟨text, skips⟩ = some (a, ⟨left, skips'⟩))
    (h' : ∀ more, f ⟨text ++ ')' :: more, skips⟩ = some (a, ⟨left ++ ')' :: more, skips'⟩)) :
    Tracks stops (f >>= g) text skips :=
  hg.congr (bind_of_some h) fun more => bind_of_some (h' more)

theorem Tracks.bind {text : List Char} {skips : Bool} (hf : Tracks stops f text skips)
    (hshrinks : ∀ a, Shrinks (g a))
    (hg : ∀ a left skips', f ⟨text, skips⟩ = some (a, ⟨left, skips'⟩) →
      Tracks stops (g a) left skips') : Tracks stops (f >>= g) text skips := by
  rcases hf with ⟨a, left, skips', h, h'⟩ | hpasses | ⟨hallowed, hstops⟩
  · exact (hg a left skips' h).bind_follows h h'
  · exact Or.inr (Or.inl (hpasses.bind hshrinks))
  · exact Or.inr (Or.inr ⟨hallowed, hstops.bind hshrinks⟩)

theorem Meets.bind_on (hf : Meets stops P f) (hg : ∀ a, Meets stops Q (g a))
    (hleft : ∀ a text left skips skips', P text → f ⟨text, skips⟩ = some (a, ⟨left, skips'⟩) →
      Q left) : Meets stops P (f >>= g) :=
  ⟨hf.shrinks.bind fun a => (hg a).shrinks, fun text skips hP =>
    (hf.tracks text skips hP).bind (fun a => (hg a).shrinks) fun a left skips' h =>
      (hg a).tracks left skips' (hleft a text left skips skips' hP h)⟩

theorem Meets.bind (hf : Meets stops P f) (hg : ∀ a, Meets stops Anywhere (g a)) :
    Meets stops P (f >>= g) :=
  hf.bind_on hg fun _ _ _ _ _ _ _ => trivial

/-- A reader that grips goes past the place where the one before it stopped. -/
theorem Tracks.bind_grips {text : List Char} {skips : Bool} (hf : Tracks True f text skips)
    (hshrinks : ∀ a, Shrinks (g a)) (hgrips : ∀ a, Grips (g a))
    (hg : ∀ a left skips', f ⟨text, skips⟩ = some (a, ⟨left, skips'⟩) →
      Tracks stops (g a) left skips') : Tracks stops (f >>= g) text skips := by
  rcases hf with ⟨a, left, skips', h, h'⟩ | hpasses | ⟨-, hstops⟩
  · exact (hg a left skips' h).bind_follows h h'
  · exact Or.inr (Or.inl (hpasses.bind hshrinks))
  · refine Tracks.of_none (bind_of_none hstops.1) fun more b last h => ?_
    obtain ⟨a, ⟨left, skips'⟩, hfirst, hlast⟩ := exists_of_bind h
    rcases List.suffix_cons_iff.mp (hstops.2 more a _ hfirst) with hleft | hleft
    · simp only at hleft
      subst hleft
      exact hgrips a more skips' b last hlast
    · exact (hshrinks a _ b last hlast).trans hleft

theorem Meets.bind_grips (hf : Loose P f) (hg : ∀ a, Meets stops Anywhere (g a))
    (hgrips : ∀ a, Grips (g a)) : Meets stops P (f >>= g) :=
  ⟨hf.shrinks.bind fun a => (hg a).shrinks, fun text skips hP =>
    (hf.tracks text skips hP).bind_grips (fun a => (hg a).shrinks) hgrips fun a left skips' _ =>
      (hg a).tracks left skips' trivial⟩

/-! ## Single steps -/

/-- A reader that does not look at the text. -/
theorem Meets.still {f : Reader α} (result : Option α)
    (h : ∀ cursor, f cursor = result.map fun a => (a, cursor)) : Meets stops Anywhere f := by
  refine ⟨fun cursor => ?_, fun text skips _ => ?_⟩
  · rw [h]
    cases result with
    | none => exact within_none _
    | some a => exact within_some (List.suffix_refl _)
  · cases result with
    | none =>
      refine Tracks.of_none (h _) fun more => ?_
      rw [h]
      exact within_none _
    | some a => exact Or.inl ⟨a, text, skips, h _, fun more => h _⟩

theorem Meets.pure (a : α) : Meets stops Anywhere (pure a : Reader α) :=
  Meets.still (some a) fun _ => rfl

theorem Meets.fault : Meets stops Anywhere (fault : Reader α) := Meets.still none fun _ => rfl

theorem Meets.peek_inside {g : Char → Reader β} (hg : ∀ d, Meets stops Inside (g d)) :
    Meets stops Inside (peek >>= g) := by
  refine ⟨shrinks_peek.bind fun d => (hg d).shrinks, fun text skips hinside => ?_⟩
  cases text with
  | nil => exact absurd rfl hinside
  | cons d text => exact (hg d).tracks (d :: text) skips hinside

/-- To look at the next character: at the end of the text, where there is none, what comes then must
take the parenthesis. -/
theorem Meets.peek {g : Char → Reader β} (hg : ∀ d, Meets stops Inside (g d))
    (hgrips : Grips (g ')')) : Meets stops Anywhere (Reader.peek >>= g) := by
  refine ⟨shrinks_peek.bind fun d => (hg d).shrinks, fun text skips _ => ?_⟩
  cases text with
  | nil => exact Tracks.of_none rfl fun more => hgrips more skips
  | cons d text => exact (hg d).tracks (d :: text) skips (List.cons_ne_nil _ _)

/-- To look at the next character may be a fault at the end of the text only. -/
theorem Meets.peek_loose {g : Char → Reader β} (hg : ∀ d, Loose Inside (g d)) :
    Loose Anywhere (Reader.peek >>= g) := by
  refine ⟨shrinks_peek.bind fun d => (hg d).shrinks, fun text skips _ => ?_⟩
  cases text with
  | nil =>
    refine Or.inr (Or.inr ⟨trivial, rfl, fun more => ?_⟩)
    exact (hg ')').shrinks ⟨')' :: more, skips⟩
  | cons d text => exact (hg d).tracks (d :: text) skips (List.cons_ne_nil _ _)

theorem Meets.bump : Meets stops Inside bump := by
  refine ⟨shrinks_bump, fun text skips hinside => ?_⟩
  cases text with
  | nil => exact absurd rfl hinside
  | cons d text => exact Or.inl ⟨(), text, skips, rfl, fun more => rfl⟩

theorem bumpSpace_eq (text : List Char) (skips : Bool) :
    bumpSpace ⟨text, skips⟩ = some ((), ⟨if skips then skipped text else text, skips⟩) := by
  cases skips <;> rfl

theorem bumpSpace_cons {c : Char} (hc : isBlank c = false) (hsign : c ≠ '#') (text : List Char)
    (skips : Bool) : Reader.bumpSpace ⟨c :: text, skips⟩ = some ((), ⟨c :: text, skips⟩) := by
  rw [bumpSpace_eq, skipped_other hc hsign, ite_self]

theorem Meets.bumpSpace : Meets stops Anywhere bumpSpace := by
  refine ⟨shrinks_bumpSpace, fun text skips _ => ?_⟩
  cases skips with
  | false => exact Or.inl ⟨(), text, false, rfl, fun more => rfl⟩
  | true =>
    rcases skipped_closing text with hfollows | ⟨hnil, hpasses⟩
    · refine Or.inl ⟨(), skipped text, true, bumpSpace_eq _ _, fun more => ?_⟩
      rw [bumpSpace_eq, if_pos rfl, hfollows]
    · refine Or.inr (Or.inl ⟨fun more => ?_, Or.inr fun more hmore => ?_⟩)
      · rw [bumpSpace_eq, if_pos rfl]
        exact within_some (hpasses more).1
      · rw [bumpSpace_eq, bumpSpace_eq, if_pos rfl, if_pos rfl, (hpasses more).2 hmore, hnil]

theorem Meets.bumpBoth : Meets stops Inside bumpBoth := Meets.bump.bind fun _ => Meets.bumpSpace

end

/-! ## Readers that take something -/

theorem Takes.grips {f : Reader α} (hf : Takes f) : Grips f := hf ')'

theorem Takes.bind {f : Reader α} {g : α → Reader β} (hf : Takes f) (hg : ∀ a, Shrinks (g a)) :
    Takes (f >>= g) :=
  fun d text skips => (hf d text skips).bind hg

theorem takes_bump : Takes bump := fun _ _ _ => within_some (List.suffix_refl _)

theorem takes_bumpBoth : Takes bumpBoth := takes_bump.bind fun _ => shrinks_bumpSpace

theorem Takes.peek {g : Char → Reader β} (hg : ∀ d, Takes (g d)) : Takes (peek >>= g) :=
  fun d text skips => hg d d text skips

/-- What takes something and fails at the end of the text leaves an end of each text. -/
theorem Takes.shrinks {f : Reader α} (hf : Takes f) (hend : ∀ skips, f ⟨[], skips⟩ = none) :
    Shrinks f := by
  rintro ⟨text, skips⟩
  cases text with
  | nil =>
    rw [hend]
    exact within_none _
  | cons d text => exact (hf d text skips).mono (List.suffix_cons d text)

/-- What a taking reader leaves is shorter. -/
theorem Takes.length_lt {f : Reader α} (hf : Takes f) {a : α} {d : Char} {text : List Char}
    {skips : Bool} {cursor : Cursor} (h : f ⟨d :: text, skips⟩ = some (a, cursor)) :
    cursor.rest.length < (d :: text).length :=
  Nat.lt_succ_of_le (hf d text skips a cursor h).length_le

/-! ## Loops -/

section Loops

variable {ι : Type} {stops : Prop} {turn : ι → Reader (α ⊕ ι)}

/-- A loop meets the parenthesis as its turns do: by induction on the length of the text. -/
theorem Meets.loop (hadvances : Advances turn) (hturn : ∀ i, Meets stops Anywhere (turn i))
    (i : ι) : Meets stops Anywhere (loop turn i) := by
  have hshrinks := shrinks_loop fun i => (hturn i).shrinks
  refine ⟨hshrinks i, fun text skips hP => ?_⟩
  clear hP
  induction hlength : text.length using Nat.strongRecOn generalizing i text skips with
  | ind length ih =>
    subst hlength
    rw [loop_eq hadvances]
    refine ((hturn i).tracks text skips trivial).bind (shrinks_goOn hshrinks) ?_
    intro found left skips' h
    cases found with
    | inl a => exact (Meets.pure a).tracks left skips' trivial
    | inr j => exact ih _ (hadvances i _ j _ h) j left skips' rfl

end Loops

/-! ## Characters that are gathered -/

section Gather

variable {stops : Prop} {condition : Char → Bool}

theorem gatherTurn_pos {c : Char} (h : condition c = true) (done text : List Char) (skips : Bool) :
    gatherTurn condition done ⟨c :: text, skips⟩ =
      (bumpBoth >>= fun _ => pure (.inr (c :: done))) ⟨c :: text, skips⟩ := by
  show (if condition c then bumpBoth >>= fun _ => pure (.inr (c :: done))
    else pure (.inl done.reverse) : Reader (List Char ⊕ List Char)) _ = _
  rw [if_pos h]

theorem gatherTurn_neg {text : List Char} (h : ∀ c ∈ text.head?, condition c = false)
    (done : List Char) (skips : Bool) :
    gatherTurn condition done ⟨text, skips⟩ = some (.inl done.reverse, ⟨text, skips⟩) := by
  cases text with
  | nil => rfl
  | cons c text =>
    show (if condition c then bumpBoth >>= fun _ => pure (.inr (c :: done))
      else pure (.inl done.reverse) : Reader (List Char ⊕ List Char)) _ = _
    rw [if_neg (Bool.eq_false_iff.mp (h c rfl))]
    rfl

theorem gatherTurn_advances (condition : Char → Bool) : Advances (gatherTurn condition) := by
  rintro done ⟨text, skips⟩ more left h
  cases text with
  | nil => cases h
  | cons c text =>
    cases hc : condition c with
    | true =>
      rw [gatherTurn_pos hc] at h
      exact (takes_bumpBoth.bind fun _ => shrinks_pure _).length_lt h
    | false =>
      rw [gatherTurn_neg (by rintro d ⟨⟩; exact hc)] at h
      cases h

theorem Meets.gatherTurn_inside (condition : Char → Bool) (done : List Char) :
    Meets stops Inside (gatherTurn condition done) := by
  have htake : ∀ c, Meets stops Inside (Reader.bumpBoth >>= fun _ => Pure.pure (.inr (c :: done)) :
      Reader (List Char ⊕ List Char)) := fun c => Meets.bumpBoth.bind fun _ => Meets.pure _
  constructor
  · rintro ⟨text, skips⟩
    cases text with
    | nil => exact within_some (List.suffix_refl _)
    | cons c text =>
      -- Where the next character does not fit, nothing is taken and what was gathered is the
      -- result.
      cases hc : condition c with
      | true =>
        rw [gatherTurn_pos hc]
        exact (htake c).shrinks _
      | false =>
        rw [gatherTurn_neg (by rintro d ⟨⟩; exact hc)]
        exact within_some (List.suffix_refl _)
  · intro text skips hinside
    cases text with
    | nil => exact absurd rfl hinside
    | cons c text =>
      cases hc : condition c with
      | true =>
        exact ((htake c).tracks _ skips hinside).congr (gatherTurn_pos hc done text skips)
          fun more => gatherTurn_pos hc done _ skips
      | false =>
        refine Or.inl ⟨.inl done.reverse, c :: text, skips, ?_, fun more => ?_⟩
        · exact gatherTurn_neg (by rintro d ⟨⟩; exact hc) done skips
        · exact gatherTurn_neg (by rintro d ⟨⟩; exact hc) done skips

/-- Characters are gathered up to the parenthesis if it is not one of them. -/
theorem Meets.gatherWhile (hclosing : condition ')' = false) :
    Meets stops Anywhere (gatherWhile condition) := by
  refine Meets.loop (gatherTurn_advances condition) (fun done => ?_) []
  have hinside : Meets stops Inside (Reader.gatherTurn condition done) :=
    Meets.gatherTurn_inside condition done
  refine ⟨hinside.shrinks, fun text skips _ => ?_⟩
  cases text with
  | nil =>
    refine Or.inl ⟨.inl done.reverse, [], skips, rfl, fun more => ?_⟩
    exact gatherTurn_neg (by rintro d ⟨⟩; exact hclosing) done skips
  | cons c text =>
    exact hinside.tracks _ skips (List.cons_ne_nil _ _)

/-- Characters are gathered over the parenthesis if it is one of them. The text alone is at fault if
something has to come after them. -/
theorem Meets.gatherWhile_bind {last : List Char → Reader β} (hclosing : condition ')' = true)
    (hlast : ∀ done, Meets stops Inside (last done))
    (hend : ∀ done skips, last done ⟨[], skips⟩ = none) :
    Meets stops Anywhere (Reader.gatherWhile condition >>= last) := by
  have hinside : ∀ done, Meets stops Inside (Reader.gatherTurn condition done) :=
    Meets.gatherTurn_inside condition
  have hshrinks : ∀ found : List Char ⊕ List Char, Shrinks (afterLast last found) :=
    shrinks_afterLast fun a => (hlast a).shrinks
  rw [Reader.gatherWhile, loop_bind]
  refine Meets.loop ((gatherTurn_advances condition).bind_afterLast last) (fun done => ?_) []
  refine ⟨(hinside done).shrinks.bind hshrinks, fun text skips _ => ?_⟩
  cases text with
  | nil =>
    refine Tracks.of_none ?_ fun more => ?_
    · exact (bind_of_some (gatherTurn_neg (by rintro d ⟨⟩) done skips)).trans
        (bind_of_none (hend _ _))
    · refine Within.bind ?_ hshrinks
      rw [List.nil_append, gatherTurn_pos hclosing]
      exact (takes_bumpBoth.bind fun _ => shrinks_pure _) _ _ _
  | cons c text =>
    refine ((hinside done).tracks _ skips (List.cons_ne_nil _ _)).bind hshrinks ?_
    intro found left skips' h
    cases found with
    | inl a =>
      -- the last turn leaves the character that it does not gather
      have hleft : left ≠ [] := by
        cases hc : condition c with
        | true =>
          rw [gatherTurn_pos hc] at h
          obtain ⟨_, between, -, hlast⟩ := exists_of_bind h
          cases hlast
        | false =>
          rw [gatherTurn_neg (by rintro d ⟨⟩; exact hc)] at h
          cases h
          exact List.cons_ne_nil _ _
      exact ((hlast a).bind fun b => Meets.pure _).tracks left skips' hleft
    | inr j => exact (Meets.pure _).tracks left skips' trivial

end Gather

end Reader

end Gll.Regex
