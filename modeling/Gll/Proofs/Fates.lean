import Gll.Proofs.Enclosing

/-!
What becomes of a text that is put into a group, before the end of the text is asked for.

The reader goes through the text alone and through the text in the group at the same pace. As long
as both meet the same parts, they keep the same parts; they come apart where a part takes the
parenthesis that was meant for the group, where the text closes the group itself, or at the end of
the text. So a text has one of four fates (`Fate`).
-/

set_option autoImplicit false

namespace Gll.Regex

open Reader

/-- The end of the text that is asked for after the group. -/
def ending : List Char := ['\\', 'z']

/-- The tree of a group and the end of the text. -/
def enclosedTree (settings : FlagSettings) (tree : Tree) : Tree :=
  .concatenation [.group settings tree, .assertion .endText]

theorem closing_notMem_ending : ')' ∉ ending := by decide

theorem readAll_ending (names : List String) (settings : FlagSettings) (tree : Tree) :
    readAll ⟨[], names, [.group settings tree]⟩ ⟨ending, false⟩ =
      some (enclosedTree settings tree, ⟨[], false⟩) := by
  have hpart : readPart ⟨[], names, [.group settings tree]⟩ '\\' ⟨ending, false⟩ =
      some (⟨[], names, [.assertion .endText, .group settings tree]⟩, ⟨[], false⟩) := rfl
  rw [readAll_eq, bind_of_some (bumpSpace_eq ending false)]
  show readOn _ ⟨'\\' :: ['z'], false⟩ = _
  rw [readOn_cons]
  refine (bind_of_some hpart).trans ?_
  rw [readAll_eq, bind_of_some (bumpSpace_eq [] false)]
  exact readOn_nil _ false

/-- What may become of a text when it is read in a group that closes after it, compared to what it
is alone. -/
inductive Fate (settings : FlagSettings) (alone enclosed : List Char → Option (Tree × Cursor))
    (text : List Char) : Prop
  /-- It means the same. -/
  | same {tree : Tree} {cursor : Cursor} (halone : alone text = some (tree, cursor))
      (henclosed : enclosed (text ++ ')' :: ending) =
        some (enclosedTree settings tree, ⟨[], false⟩))
      (hclosing : alone (text ++ [')']) = none)
  /-- It ends in a comment, to which the parenthesis belongs too. -/
  | comment (halone : (alone text).isSome) (henclosed : enclosed (text ++ ')' :: ending) = none)
      (hclosing : (alone (text ++ [')'])).isSome)
  /-- It is at fault. -/
  | fault (halone : alone text = none) (henclosed : enclosed (text ++ ')' :: ending) = none)
  /-- It is at fault since it has a closing parenthesis of its own that closes the group. -/
  | closes {before after : List Char} (halone : alone text = none)
      (htext : text = before ++ ')' :: after) (hbefore : (alone before).isSome)
      (hclosing : alone (before ++ [')']) = none)

section

variable {settings : FlagSettings} {text left : List Char}
  {alone enclosed alone' enclosed' : List Char → Option (Tree × Cursor)}

/-- A text has the fate of what is left of it after a step that is taken alone and in the group. -/
theorem Fate.step (h : Fate settings alone' enclosed' left) (halone : alone text = alone' left)
    (henclosed : enclosed (text ++ ')' :: ending) = enclosed' (left ++ ')' :: ending))
    (hclosing : alone (text ++ [')']) = alone' (left ++ [')']))
    (hbefore : ∀ before after, left = before ++ ')' :: after → (alone' before).isSome →
      ∃ before', text = before' ++ ')' :: after ∧ alone before' = alone' before ∧
        alone (before' ++ [')']) = alone' (before ++ [')'])) :
    Fate settings alone enclosed text := by
  cases h with
  | same h1 h2 h3 => exact .same (halone.trans h1) (henclosed.trans h2) (hclosing.trans h3)
  | comment h1 h2 h3 =>
    exact .comment (by rwa [halone]) (henclosed.trans h2) (by rwa [hclosing])
  | fault h1 h2 => exact .fault (halone.trans h1) (henclosed.trans h2)
  | closes h1 h2 h3 h4 =>
    obtain ⟨before', htext, hsame, hclose⟩ := hbefore _ _ h2 h3
    exact .closes (halone.trans h1) htext (by rwa [hsame]) (hclose.trans h4)

end

/-! ## Braces that are left over -/

section

variable {brace : List Char} {skips : Bool}
  (hbrace : bumpBoth ⟨brace, skips⟩ = some ((), ⟨[], skips⟩))
include hbrace

theorem readCounts_brace (parts : List Tree) : readCounts parts ⟨brace, skips⟩ = none := by
  rw [readCounts_eq, bind_of_some hbrace]
  rfl

variable (hhead : brace.head? = some '\x7b')
include hhead

theorem readAll_brace (reading : Reading) (more : List Char) :
    readAll reading ⟨brace ++ more, skips⟩ =
      (readCounts reading.parts >>= fun parts => readAll { reading with parts := parts })
        ⟨brace ++ more, skips⟩ := by
  cases brace with
  | nil => cases hhead
  | cons c brace =>
    obtain rfl := Option.some.inj hhead
    have hblank : isBlank '\x7b' = false := isBlank_eq_false _ (by decide)
    rw [readAll_eq, List.cons_append, bind_of_some (bumpSpace_cons hblank (by decide) _ skips),
      readOn_cons]
    exact congrFun (bind_assoc (readCounts reading.parts) _ _) _

theorem readAll_brace_alone (reading : Reading) : readAll reading ⟨brace, skips⟩ = none := by
  have h := readAll_brace hbrace hhead reading []
  rw [List.append_nil] at h
  rw [h, bind_of_none (readCounts_brace hbrace _)]

theorem readAll_brace_within (reading : Reading) (settings : FlagSettings) :
    readAll (reading.within settings) ⟨brace ++ ')' :: ending, skips⟩ = none := by
  have hcounts : Tame Inside (readCounts reading.parts) := Meets.readCounts reading.parts
  have hinside : Inside brace := by
    rintro rfl
    cases hhead
  rw [readAll_brace hbrace hhead]
  refine eq_none_of_bind fun parts next hnext => ?_
  rcases (hcounts.tracks brace skips hinside).follows_or_passes with
    ⟨a, left, skips', h, -⟩ | hpasses
  · rw [readCounts_brace hbrace] at h
    cases h
  · have hleft := hpasses.1 ending parts next hnext
    exact readAll_within settings (fun hmem => closing_notMem_ending (hleft.subset hmem))
      { reading with parts := parts } next.skipsBlanks

end

/-! ## Steps -/

/-- A step that ends before a parenthesis does not depend on what comes after it. -/
theorem Reader.Tracks.before {α : Type} {f : Reader α} {text before after : List Char}
    {skips skips' : Bool} {a : α} (hf : Tracks False f text skips)
    (h : f ⟨text ++ ')' :: after, skips⟩ = some (a, ⟨before ++ ')' :: after, skips'⟩)) :
    f ⟨text, skips⟩ = some (a, ⟨before, skips'⟩) ∧
      ∀ more, f ⟨text ++ ')' :: more, skips⟩ = some (a, ⟨before ++ ')' :: more, skips'⟩) := by
  rcases hf.follows_or_passes with ⟨b, left, skips'', halone, hmore⟩ | hpasses
  · have heq := Option.some.inj ((hmore after).symm.trans h)
    obtain ⟨rfl, hcursor⟩ := Prod.mk.inj heq
    obtain ⟨hleft, rfl⟩ := Cursor.mk.inj hcursor
    obtain rfl := List.append_cancel_right hleft
    exact ⟨halone, hmore⟩
  · -- beyond the parenthesis less is left
    have hlength := (hpasses.1 after _ _ h).length_le
    simp only [List.length_append, List.length_cons] at hlength
    omega

theorem exists_before {text left before after : List Char} (hleft : left <:+ text)
    (h : left = before ++ ')' :: after) : ∃ earlier, text = earlier ++ before ++ ')' :: after := by
  obtain ⟨earlier, rfl⟩ := hleft
  exact ⟨earlier, by rw [h, List.append_assoc]⟩

/-- After a part, a text that ends before a parenthesis is read on from where the longer text is. -/
theorem readOn_before {reading next : Reading} {c : Char} {text left before after : List Char}
    {skips skips' : Bool}
    (h : readPart reading c ⟨c :: text, skips⟩ = some (next, ⟨left, skips'⟩))
    (hleft : left = before ++ ')' :: after) (hbefore : (readAll next ⟨before, skips'⟩).isSome) :
    ∃ earlier, c :: text = earlier ++ ')' :: after ∧
      readOn reading ⟨earlier, skips⟩ = readAll next ⟨before, skips'⟩ ∧
      readOn reading ⟨earlier ++ [')'], skips⟩ = readAll next ⟨before ++ [')'], skips'⟩ := by
  obtain ⟨earlier, rfl⟩ := exists_before (takes_readPart reading c text skips _ _ h) hleft
  refine ⟨c :: (earlier ++ before), rfl, ?_⟩
  rw [hleft] at h
  have hpart : Tracks False (readPart reading c) (c :: (earlier ++ before)) skips ∨ _ :=
    readPart_tracks reading c (earlier ++ before) skips
  -- The part is read alike on both texts, or it hesitates at a brace.
  rcases hpart with htracks | ⟨-, brace, hhead, hbrace, hmore⟩
  · obtain ⟨halone, hmore⟩ := Tracks.before htracks h
    exact ⟨(readOn_cons _ _ _ _).trans (bind_of_some halone),
      (readOn_cons _ _ _ _).trans (bind_of_some (hmore []))⟩
  · rcases hmore after with hpast | heq
    · have hlength := (hpast _ _ h).length_le
      simp only [List.length_append, List.length_cons] at hlength
      omega
    · -- what is left is a brace, which cannot be read on alone
      obtain ⟨rfl, hcursor⟩ := Prod.mk.inj (Option.some.inj (heq.symm.trans h))
      obtain ⟨hsame, rfl⟩ := Cursor.mk.inj hcursor
      obtain rfl := List.append_cancel_right hsame
      rw [readAll_brace_alone hbrace hhead] at hbefore
      cases hbefore

section

variable (settings : FlagSettings) {reading : Reading} {c : Char} {text : List Char} {skips : Bool}

theorem readOn_within_cons (hc : c ≠ ')') (text : List Char) :
    readOn (reading.within settings) ⟨c :: text, skips⟩ =
      (readPart reading c >>= fun next => readAll (next.within settings)) ⟨c :: text, skips⟩ := by
  rw [readOn_cons, reading.readPart_within settings hc, bind_assoc]
  rfl

/-- A part that takes the parenthesis leaves the group open. -/
theorem readOn_within_past (hc : c ≠ ')')
    (h : Within ending (readPart reading c ⟨c :: text ++ ')' :: ending, skips⟩)) :
    readOn (reading.within settings) ⟨c :: text ++ ')' :: ending, skips⟩ = none := by
  rw [List.cons_append, readOn_within_cons settings hc]
  refine eq_none_of_bind fun next last hnext => ?_
  have hlast := h next last hnext
  exact readAll_within settings (fun hmem => closing_notMem_ending (hlast.subset hmem)) next
    last.skipsBlanks

/-- A part, and what comes after it on shorter texts. -/
theorem fate_readOn_cons (hc : c ≠ ')')
    (ih : ∀ reading left skips, left.length ≤ text.length →
      Fate settings (fun text => readAll reading ⟨text, skips⟩)
        (fun text => readAll (reading.within settings) ⟨text, skips⟩) left) :
    Fate settings (fun text => readOn reading ⟨text, skips⟩)
      (fun text => readOn (reading.within settings) ⟨text, skips⟩) (c :: text) := by
  have hpart : Tracks False (readPart reading c) (c :: text) skips ∨ _ :=
    readPart_tracks reading c text skips
  -- The part follows, passes or hesitates. If it follows, what becomes of the rest becomes of the
  -- text.
  rcases hpart with htracks | hhesitates
  · rcases Tracks.follows_or_passes htracks with ⟨next, left, skips', halone, hmore⟩ | hpasses
    · have hleft : left <:+ text := takes_readPart reading c text skips _ _ halone
      refine Fate.step (ih next left skips' hleft.length_le) ?_ ?_ ?_ ?_
      · exact (readOn_cons _ _ _ _).trans (bind_of_some halone)
      · exact (readOn_within_cons settings hc _).trans (bind_of_some (hmore ending))
      · exact (readOn_cons _ _ _ _).trans (bind_of_some (hmore []))
      · exact fun before after heq hbefore => readOn_before halone heq hbefore
    · have henclosed := readOn_within_past settings hc (hpasses.1 ending)
      rcases hpasses.2 with hnone | hcomment
      · exact .fault ((readOn_cons _ _ _ _).trans (bind_of_none hnone)) henclosed
      · -- the comment takes the parenthesis as it takes the end of the text
        have hclosing : readOn reading ⟨c :: text ++ [')'], skips⟩ =
            readOn reading ⟨c :: text, skips⟩ := by
          rw [List.cons_append, readOn_cons, readOn_cons, bind_eq, bind_eq]
          exact congrArg (fun first : Option (Reading × Cursor) =>
            first.bind fun next => readAll next.1 next.2) (hcomment [] List.not_mem_nil)
        cases halone : readOn reading ⟨c :: text, skips⟩ with
        | none => exact .fault halone henclosed
        | some found =>
          refine .comment ?_ henclosed ?_
          · rw [halone]
            rfl
          · rw [hclosing, halone]
            rfl
  -- The brace is at fault when the text ends, and also in a group.
  · obtain ⟨hnone, brace, hhead, hbrace, hmore⟩ := hhesitates
    refine .fault ((readOn_cons _ _ _ _).trans (bind_of_none hnone)) ?_
    rcases hmore ending with hpast | heq
    · exact readOn_within_past settings hc hpast
    · refine (readOn_within_cons settings hc _).trans ((bind_of_some heq).trans ?_)
      exact readAll_brace_within hbrace hhead _ settings

theorem readOn_closing (reading : Reading) (text : List Char) (skips : Bool) :
    readOn reading ⟨')' :: text, skips⟩ =
      (closed? reading).bind fun closed => readAll closed.1 ⟨text, closed.2⟩ := by
  rw [readOn_cons, bind_eq]
  show (readClosing reading _).bind _ = _
  rw [readClosing_eq]
  cases closed? reading <;> rfl

/-- The end of the text. -/
theorem fate_readOn_nil :
    Fate settings (fun text => readOn reading ⟨text, skips⟩)
      (fun text => readOn (reading.within settings) ⟨text, skips⟩) [] := by
  -- A text may end if no group is open in it, and then the parenthesis closes the group around it.
  cases hended : reading.ended? with
  | some tree =>
    obtain ⟨hopen, hwithin⟩ := Reading.closed?_within_of_ended settings hended
    have halone : readOn reading ⟨[], skips⟩ = some (tree, ⟨[], skips⟩) := by
      rw [readOn_nil, hended]
      rfl
    refine .same halone ?_ ?_
    · rw [List.nil_append, readOn_closing, hwithin]
      exact readAll_ending _ settings tree
    · rw [List.nil_append, readOn_closing, hopen]
      rfl
  | none =>
    refine .fault ?_ ?_
    · rw [readOn_nil, hended]
      rfl
    · rw [List.nil_append, readOn_closing]
      cases hclosed : closed? reading with
      | none =>
        rw [Reading.closed?_within_of_none settings hended hclosed]
        rfl
      | some closed =>
        rw [Reading.closed?_within_of_closed settings hclosed]
        exact readAll_within settings closing_notMem_ending closed.1 closed.2

/-- A closing parenthesis, and what comes after it on shorter texts. -/
theorem fate_readOn_closing
    (ih : ∀ reading left skips, left.length ≤ text.length →
      Fate settings (fun text => readAll reading ⟨text, skips⟩)
        (fun text => readAll (reading.within settings) ⟨text, skips⟩) left) :
    Fate settings (fun text => readOn reading ⟨text, skips⟩)
      (fun text => readOn (reading.within settings) ⟨text, skips⟩) (')' :: text) := by
  cases hclosed : closed? reading with
  | some closed =>
    have hpart : readPart reading ')' ⟨')' :: text, skips⟩ =
        some (closed.1, ⟨text, closed.2⟩) := by
      show readClosing reading _ = _
      rw [readClosing_eq, hclosed]
      rfl
    refine Fate.step (ih closed.1 text closed.2 (Nat.le_refl _)) ?_ ?_ ?_ ?_
    · rw [readOn_closing, hclosed]
      rfl
    · rw [List.cons_append, readOn_closing, Reading.closed?_within_of_closed settings hclosed]
      rfl
    · rw [List.cons_append, readOn_closing, hclosed]
      rfl
    · exact fun before after heq hbefore => readOn_before hpart heq hbefore
  | none =>
    have halone : ∀ more, readOn reading ⟨')' :: more, skips⟩ = none := by
      intro more
      rw [readOn_closing, hclosed]
      rfl
    -- No group is open in the text, so the parenthesis closes the one around it, too early.
    cases hended : reading.ended? with
    | some tree =>
      have htext : ')' :: text = [] ++ ')' :: text := rfl
      refine .closes (halone text) htext ?_ (halone [])
      rw [readOn_nil, hended]
      rfl
    | none =>
      refine .fault (halone text) ?_
      rw [List.cons_append, readOn_closing,
        Reading.closed?_within_of_none settings hended hclosed]
      rfl

end

theorem readAll_of_bumpSpace (reading : Reading) {text left : List Char} {skips : Bool}
    (h : bumpSpace ⟨text, skips⟩ = some ((), ⟨left, skips⟩)) :
    readAll reading ⟨text, skips⟩ = readOn reading ⟨left, skips⟩ := by
  rw [readAll_eq, bind_of_some h]

section

variable (settings : FlagSettings) (reading : Reading) {text left : List Char} {skips : Bool}

/-- What becomes of a text is what becomes of what is left after its blanks. -/
theorem fate_readAll_of_follows (h : bumpSpace ⟨text, skips⟩ = some ((), ⟨left, skips⟩))
    (hmore : ∀ more, bumpSpace ⟨text ++ ')' :: more, skips⟩ =
      some ((), ⟨left ++ ')' :: more, skips⟩))
    (hfate : Fate settings (fun text => readOn reading ⟨text, skips⟩)
      (fun text => readOn (reading.within settings) ⟨text, skips⟩) left) :
    Fate settings (fun text => readAll reading ⟨text, skips⟩)
      (fun text => readAll (reading.within settings) ⟨text, skips⟩) text := by
  refine Fate.step hfate (readAll_of_bumpSpace _ h) (readAll_of_bumpSpace _ (hmore ending))
    (readAll_of_bumpSpace _ (hmore [])) ?_
  intro before after heq _
  have hspace : Tame Anywhere bumpSpace := Meets.bumpSpace
  obtain ⟨earlier, rfl⟩ := exists_before (shrinks_bumpSpace _ _ _ h) heq
  rw [heq] at h
  obtain ⟨halone, hmore⟩ := Tracks.before (hspace.tracks (earlier ++ before) skips trivial) h
  exact ⟨earlier ++ before, rfl, readAll_of_bumpSpace _ halone, readAll_of_bumpSpace _ (hmore [])⟩

/-- The comment at the end of a text goes on to the end of the line, so it takes the parenthesis and
what comes after it. -/
theorem fate_readAll_of_passes (hpasses : Passes bumpSpace text skips) :
    Fate settings (fun text => readAll reading ⟨text, skips⟩)
      (fun text => readAll (reading.within settings) ⟨text, skips⟩) text := by
  have hspaced : bumpSpace ⟨text, skips⟩ = some ((), ⟨[], skips⟩) := by
    have h := bumpSpace_eq text skips
    have hnil : (if skips then skipped text else text) = [] := hpasses.rest_eq_nil h
    rwa [hnil] at h
  have hend : ∀ more, '\n' ∉ more →
      bumpSpace ⟨text ++ ')' :: more, skips⟩ = some ((), ⟨[], skips⟩) := by
    intro more hmore
    rcases hpasses.2 with hnone | hcomment
    · rw [hnone] at hspaced
      cases hspaced
    · exact (hcomment more hmore).trans hspaced
  have halone := readAll_of_bumpSpace reading hspaced
  have hclosing := readAll_of_bumpSpace reading (hend [] List.not_mem_nil)
  have henclosed : readAll (reading.within settings) ⟨text ++ ')' :: ending, skips⟩ = none := by
    rw [readAll_of_bumpSpace _ (hend ending (by decide)), readOn_nil,
      reading.ended?_within settings]
    rfl
  -- In the comment the parenthesis makes no difference.
  cases hended : readOn reading ⟨[], skips⟩ with
  | none => exact .fault (halone.trans hended) henclosed
  | some found =>
    refine .comment ?_ henclosed ?_
    · rw [halone, hended]
      rfl
    · rw [hclosing, hended]
      rfl

end

/-- What becomes of a text in a group: by induction on its length. -/
theorem fate_readAll (settings : FlagSettings) (reading : Reading) (text : List Char)
    (skips : Bool) :
    Fate settings (fun text => readAll reading ⟨text, skips⟩)
      (fun text => readAll (reading.within settings) ⟨text, skips⟩) text := by
  induction hlength : text.length using Nat.strongRecOn generalizing reading text skips with
  | ind length ih =>
    subst hlength
    have hspace : Tame Anywhere bumpSpace := Meets.bumpSpace
    rcases Tracks.follows_or_passes (hspace.tracks text skips trivial) with
      ⟨_, left, skips', h, hmore⟩ | hpasses
    · obtain rfl : skips = skips' := by
        rw [bumpSpace_eq] at h
        exact congrArg (fun next => next.2.skipsBlanks) (Option.some.inj h)
      have hleft : left <:+ text := shrinks_bumpSpace _ _ _ h
      apply fate_readAll_of_follows settings reading h hmore
      cases left with
      | nil => exact fate_readOn_nil settings
      | cons c left =>
        have ih' := fun reading rest skips (hrest : rest.length ≤ left.length) =>
          ih _ (Nat.lt_of_le_of_lt hrest hleft.length_le) reading rest skips rfl
        by_cases hc : c = ')'
        · subst hc
          exact fate_readOn_closing settings ih'
        · exact fate_readOn_cons settings hc ih'
    · exact fate_readAll_of_passes settings reading hpasses

/-- A step that takes the parenthesis of a text that is not at fault takes it for nothing. -/
theorem Reader.Passes.bind_closing_ne_none {α β : Type} {f : Reader α} {g : α → Reader β}
    {text : List Char} {skips : Bool} (hf : Passes f text skips)
    (h : ((f >>= g) ⟨text, skips⟩).isSome) : (f >>= g) ⟨text ++ [')'], skips⟩ ≠ none := by
  intro hclosing
  rcases hf.2 with hnone | hcomment
  · rw [bind_of_none hnone] at h
    cases h
  · rw [bind_eq, ← hcomment [] List.not_mem_nil, ← bind_eq, hclosing] at h
    cases h

/-- A closing parenthesis for which no group is open is at fault, whatever comes after it: by
induction on the length of the text before it. -/
theorem readAll_unbalanced {reading : Reading} {before : List Char} {skips : Bool}
    (hbefore : (readAll reading ⟨before, skips⟩).isSome)
    (hclosing : readAll reading ⟨before ++ [')'], skips⟩ = none) (after : List Char) :
    readAll reading ⟨before ++ ')' :: after, skips⟩ = none := by
  induction hlength : before.length using Nat.strongRecOn generalizing reading before skips with
  | ind length ih =>
    subst hlength
    have hspace : Tame Anywhere bumpSpace := Meets.bumpSpace
    rw [readAll_eq] at hbefore hclosing ⊢
    rcases Tracks.follows_or_passes (hspace.tracks before skips trivial) with
      ⟨_, left, skips', h, hmore⟩ | hpasses
    · rw [bind_of_some h] at hbefore
      rw [bind_of_some (hmore [])] at hclosing
      rw [bind_of_some (hmore after)]
      have hleft : left <:+ before := shrinks_bumpSpace _ _ _ h
      -- The parenthesis comes next, and there is nothing for it to close; or there is a part before
      -- it.
      cases left with
      | nil =>
        rw [readOn_nil] at hbefore
        cases hended : reading.ended? with
        | none =>
          rw [hended] at hbefore
          cases hbefore
        | some tree =>
          rw [List.nil_append, readOn_closing, (Reading.closed?_within_of_ended [] hended).1]
          rfl
      | cons c left =>
        rw [readOn_cons] at hbefore
        rw [List.cons_append, readOn_cons] at hclosing ⊢
        have hpart : Tracks False (readPart reading c) (c :: left) skips' ∨ _ :=
          readPart_tracks reading c left skips'
        rcases hpart with htracks | ⟨hnone, -⟩
        · rcases Tracks.follows_or_passes htracks with ⟨next, rest, skips'', h, hmore⟩ | hpasses
          · rw [bind_of_some h] at hbefore
            have hclosing' := (bind_of_some (hmore [])).symm.trans hclosing
            refine (bind_of_some (hmore after)).trans (ih _ ?_ hbefore hclosing' rfl)
            have hrest : rest <:+ left := takes_readPart reading c left skips' _ _ h
            exact Nat.lt_of_lt_of_le (Nat.lt_succ_of_le hrest.length_le) hleft.length_le
          · exact absurd hclosing (hpasses.bind_closing_ne_none hbefore)
        · rw [bind_of_none hnone] at hbefore
          cases hbefore
    · exact absurd hclosing (hpasses.bind_closing_ne_none hbefore)

end Gll.Regex
