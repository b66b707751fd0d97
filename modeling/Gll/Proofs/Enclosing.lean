import Gll.Proofs.Groups

/-!
Expressions that are read inside a group.

The reader keeps what is open on a stack. With one more group at the bottom of it
(`Reading.within`), every part of an expression is read as without that group, except for a
parenthesis that closes it and the end of the text, at which it must be closed.
-/

set_option autoImplicit false

namespace Gll.Regex

open Reader

/-! ## One part -/

namespace Reader

variable {stops : Prop}

theorem Meets.skipsBlanks : Meets stops Anywhere skipsBlanks :=
  ⟨shrinks_skipsBlanks, fun text skips _ => Or.inl ⟨skips, text, skips, rfl, fun _ => rfl⟩⟩

theorem Meets.setSkipsBlanks (skips : Bool) : Meets stops Anywhere (setSkipsBlanks skips) :=
  ⟨shrinks_setSkipsBlanks skips, fun text _ _ => Or.inl ⟨(), text, skips, rfl, fun _ => rfl⟩⟩

theorem Meets.openGroup (reading : Reading) (settings : FlagSettings) (name : Option String)
    (outer : Bool) : Meets stops Anywhere (reading.openGroup settings name outer) := by
  cases name with
  | none => exact Meets.pure _
  | some name => exact Meets.ite Meets.fault (Meets.pure _)

/-- What a group or flags are read to. -/
def openedBy (reading : Reading) : GroupStart → Reader Reading
  | .settings settings => do
    setSkipsBlanks ((blanksSetting settings).getD (← skipsBlanks))
    return reading.add (.flags settings)
  | .group settings name => do
    let outer ← skipsBlanks
    setSkipsBlanks ((blanksSetting settings).getD outer)
    reading.openGroup settings name outer

theorem readOpening_eq (reading : Reading) :
    readOpening reading = readGroupStart >>= openedBy reading := rfl

theorem Meets.openedBy (reading : Reading) (start : GroupStart) :
    Meets stops Anywhere (openedBy reading start) := by
  cases start with
  | settings settings =>
    exact Meets.skipsBlanks.bind fun _ => (Meets.setSkipsBlanks _).bind fun _ => Meets.pure _
  | group settings name =>
    exact Meets.skipsBlanks.bind fun outer => (Meets.setSkipsBlanks _).bind fun _ =>
      Meets.openGroup reading settings name outer

theorem Meets.readOpening (reading : Reading) : Meets stops Inside (readOpening reading) := by
  rw [readOpening_eq]
  exact Meets.readGroupStart.bind (Meets.openedBy reading)

theorem takes_readOpening (reading : Reading) : Takes (readOpening reading) := by
  have hopened : ∀ start, Tame Anywhere (openedBy reading start) := Meets.openedBy reading
  rw [readOpening_eq]
  exact takes_readGroupStart.bind fun start => (hopened start).shrinks

/-- What is being read after a group is closed, if one is open, and whether blanks are skipped. -/
def closed? (reading : Reading) : Option (Reading × Bool) :=
  match closeBranch reading.stack reading.parts with
  | (tree, .group before settings outer :: stack) =>
    some (⟨stack, reading.names, .group settings tree :: before⟩, outer)
  | _ => none

theorem readClosing_eq (reading : Reading) (c : Char) (text : List Char) (skips : Bool) :
    readClosing reading ⟨c :: text, skips⟩ =
      (closed? reading).map fun closed => (closed.1, ⟨text, closed.2⟩) := by
  unfold readClosing closed?
  generalize closeBranch reading.stack reading.parts = closed
  rcases closed with ⟨tree, _ | ⟨_ | _, stack⟩⟩ <;> rfl

theorem takes_readClosing (reading : Reading) : Takes (readClosing reading) := by
  intro c text skips
  rw [readClosing_eq]
  cases closed? reading with
  | none => exact within_none _
  | some closed => exact within_some (List.suffix_refl _)

theorem takes_readPart (reading : Reading) (c : Char) (text : List Char) (skips : Bool) :
    Within text (readPart reading c ⟨c :: text, skips⟩) := by
  unfold readPart
  split
  · exact takes_readOpening reading _ _ _
  · exact takes_readClosing reading _ _ _
  · exact (takes_bump.bind fun _ => shrinks_pure _) _ _ _
  · exact (takes_readBracketed.bind fun _ => shrinks_pure _) _ _ _
  · exact ((takes_readRepetition _ _ _).bind fun _ => shrinks_pure _) _ _ _
  · exact ((takes_readRepetition _ _ _).bind fun _ => shrinks_pure _) _ _ _
  · exact ((takes_readRepetition _ _ _).bind fun _ => shrinks_pure _) _ _ _
  · exact ((takes_readCounts _).bind fun _ => shrinks_pure _) _ _ _
  · exact (takes_readPrimitive.bind fun _ => shrinks_pure _) _ _ _

/-- A part tracks the parenthesis, or it is the boundary of a word before a brace. -/
theorem readPart_tracks (reading : Reading) (c : Char) (text : List Char) (skips : Bool) :
    Tracks stops (readPart reading c) (c :: text) skips ∨
      Hesitates (reading.add (.assertion .wordBoundary)) (readPart reading c) (c :: text)
        skips := by
  have hinside : Inside (c :: text) := List.cons_ne_nil _ _
  have htame : ∀ {f : Reader Reading}, Meets stops Inside f → Tracks stops f (c :: text) skips :=
    fun hf => hf.tracks _ skips hinside
  unfold readPart
  split
  · exact Or.inl (htame (Meets.readOpening reading))
  · left
    -- The text itself has a parenthesis here; if no group is open, it is a fault whatever follows.
    cases hclosed : closed? reading with
    | none =>
      refine Tracks.of_none ?_ fun more => ?_
      · rw [readClosing_eq, hclosed]
        rfl
      · rw [List.cons_append, readClosing_eq, hclosed]
        exact within_none _
    | some closed =>
      refine Or.inl ⟨closed.1, text, closed.2, ?_, fun more => ?_⟩
      · rw [readClosing_eq, hclosed]
        rfl
      · rw [List.cons_append, readClosing_eq, hclosed]
        rfl
  · exact Or.inl (htame (Meets.bump.bind fun _ => Meets.pure _))
  · exact Or.inl (htame (Meets.readBracketed.bind fun _ => Meets.pure _))
  · exact Or.inl (htame ((Meets.readRepetition _ _ _).bind fun _ => Meets.pure _))
  · exact Or.inl (htame ((Meets.readRepetition _ _ _).bind fun _ => Meets.pure _))
  · exact Or.inl (htame ((Meets.readRepetition _ _ _).bind fun _ => Meets.pure _))
  · exact Or.inl (htame ((Meets.readCounts _).bind fun _ => Meets.pure _))
  · rcases readPrimitive_tracks c text skips with htracks | hhesitates
    · refine Or.inl (htracks.bind (fun _ => shrinks_pure _) fun part left skips' _ => ?_)
      exact (Meets.pure _).tracks left skips' trivial
    · exact Or.inr (hhesitates.map reading.add)

end Reader

/-! ## An enclosing group -/

namespace Reading

variable (reading : Reading) (settings : FlagSettings)

/-- The same with a group around all of it, before which nothing was read. -/
def within : Reading := { reading with stack := reading.stack ++ [.group [] settings false] }

/-- The tree that has been read if the text ends here. -/
def ended? : Option Tree :=
  match closeBranch reading.stack reading.parts with
  | (tree, []) => some tree
  | _ => none

theorem closeBranch_within : closeBranch (reading.within settings).stack reading.parts =
    ((closeBranch reading.stack reading.parts).1,
      (closeBranch reading.stack reading.parts).2 ++ [.group [] settings false]) := by
  unfold within
  rcases reading.stack with _ | ⟨_ | _, stack⟩ <;> rfl

theorem ended?_within : (reading.within settings).ended? = none := by
  unfold ended?
  rw [show (reading.within settings).parts = reading.parts from rfl, closeBranch_within]
  rcases closeBranch reading.stack reading.parts with ⟨tree, _ | ⟨_, stack⟩⟩ <;> rfl

variable {reading}

theorem closed?_within_of_ended {tree : Tree} (h : reading.ended? = some tree) :
    closed? reading = none ∧ closed? (reading.within settings) =
      some (⟨[], reading.names, [.group settings tree]⟩, false) := by
  unfold closed?
  rw [show (reading.within settings).parts = reading.parts from rfl, closeBranch_within]
  unfold ended? at h
  rcases hclose : closeBranch reading.stack reading.parts with ⟨tree', _ | ⟨_, stack⟩⟩
  · rw [hclose] at h
    obtain rfl := Option.some.inj h
    exact ⟨rfl, rfl⟩
  · rw [hclose] at h
    cases h

theorem closed?_within_of_closed {closed : Reading × Bool} (h : closed? reading = some closed) :
    closed? (reading.within settings) = some (closed.1.within settings, closed.2) := by
  unfold closed? at h ⊢
  rw [show (reading.within settings).parts = reading.parts from rfl, closeBranch_within]
  rcases hclose : closeBranch reading.stack reading.parts with ⟨tree, _ | ⟨_ | _, stack⟩⟩
  · rw [hclose] at h
    cases h
  · rw [hclose] at h
    obtain rfl := Option.some.inj h
    rfl
  · rw [hclose] at h
    cases h

theorem closed?_within_of_none (hended : reading.ended? = none) (hclosed : closed? reading = none) :
    closed? (reading.within settings) = none := by
  unfold closed? at hclosed ⊢
  unfold ended? at hended
  rw [show (reading.within settings).parts = reading.parts from rfl, closeBranch_within]
  rcases hclose : closeBranch reading.stack reading.parts with ⟨tree, _ | ⟨_ | _, stack⟩⟩
  · rw [hclose] at hended
    cases hended
  · rw [hclose] at hclosed
    cases hclosed
  · rfl

variable (reading)

theorem openGroup_within (inner : FlagSettings) (name : Option String) (outer : Bool) :
    (reading.within settings).openGroup inner name outer =
      reading.openGroup inner name outer >>= fun next => pure (next.within settings) := by
  cases name with
  | none => rfl
  | some name =>
    unfold openGroup within
    simp only
    split <;> rfl

theorem nextBranch_within :
    (reading.within settings).nextBranch = reading.nextBranch.within settings := by
  unfold nextBranch within
  rcases reading.stack with _ | ⟨_ | _, stack⟩ <;> rfl

theorem openedBy_within (start : GroupStart) :
    openedBy (reading.within settings) start =
      openedBy reading start >>= fun next => pure (next.within settings) := by
  cases start with
  | settings inner => rfl
  | group inner name =>
    unfold openedBy
    simp only [openGroup_within, bind_assoc]

/-- All but a closing parenthesis is read in a group as it is outside. -/
theorem readPart_within {c : Char} (hc : c ≠ ')') :
    readPart (reading.within settings) c =
      readPart reading c >>= fun next => pure (next.within settings) := by
  unfold readPart
  split
  · rw [readOpening_eq, readOpening_eq, bind_assoc]
    exact congrArg _ (funext (openedBy_within reading settings))
  · exact absurd rfl hc
  · rw [nextBranch_within, bind_assoc]
    rfl
  all_goals
    rw [bind_assoc]
    rfl

end Reading

/-! ## The course of reading -/

/-- Reads one thing after blanks. -/
def treePart (reading : Reading) : Reader (Tree ⊕ Reading) := do
  match (← rest).head? with
  | none =>
    match closeBranch reading.stack reading.parts with
    | (tree, []) => return .inl tree
    | _ => fault
  | some c => return .inr (← readPart reading c)

theorem treeTurn_eq (reading : Reading) :
    treeTurn reading = bumpSpace >>= fun _ => treePart reading := rfl

theorem treePart_nil (reading : Reading) (skips : Bool) :
    treePart reading ⟨[], skips⟩ = reading.ended?.map fun tree => (.inl tree, ⟨[], skips⟩) := by
  unfold treePart Reading.ended?
  rw [rest_bind]
  dsimp only
  rcases closeBranch reading.stack reading.parts with ⟨tree, _ | ⟨_, stack⟩⟩ <;> rfl

theorem treePart_cons (reading : Reading) (c : Char) (text : List Char) (skips : Bool) :
    treePart reading ⟨c :: text, skips⟩ =
      (readPart reading c >>= fun next => pure (.inr next)) ⟨c :: text, skips⟩ := rfl

theorem takes_treePart (reading : Reading) : Takes (treePart reading) := by
  intro c text skips
  rw [treePart_cons]
  exact (takes_readPart reading c text skips).bind fun _ => shrinks_pure _

theorem treeTurn_advances : Advances treeTurn := by
  intro reading cursor next last h
  rw [treeTurn_eq] at h
  obtain ⟨_, ⟨text, skips⟩, hspace, hpart⟩ := exists_of_bind h
  have hlength := (shrinks_bumpSpace cursor _ _ hspace).length_le
  cases text with
  | nil =>
    rw [treePart_nil] at hpart
    obtain ⟨tree, -, htree⟩ := Option.map_eq_some_iff.mp hpart
    cases htree
  | cons c text => exact Nat.lt_of_lt_of_le ((takes_treePart reading).length_lt hpart) hlength

/-- Reads an expression from a certain point on. -/
def readAll (reading : Reading) : Reader Tree := loop treeTurn reading

/-- Reads an expression from a certain point on, where no blanks are. -/
def readOn (reading : Reading) : Reader Tree := treePart reading >>= goOn readAll

theorem readAll_eq (reading : Reading) :
    readAll reading = bumpSpace >>= fun _ => readOn reading := by
  unfold readAll
  rw [loop_eq treeTurn_advances, treeTurn_eq, bind_assoc]
  rfl

theorem readOn_nil (reading : Reading) (skips : Bool) :
    readOn reading ⟨[], skips⟩ = reading.ended?.map fun tree => (tree, ⟨[], skips⟩) := by
  unfold readOn
  rw [bind_eq, treePart_nil]
  cases reading.ended? <;> rfl

theorem readOn_cons (reading : Reading) (c : Char) (text : List Char) (skips : Bool) :
    readOn reading ⟨c :: text, skips⟩ = (readPart reading c >>= readAll) ⟨c :: text, skips⟩ := by
  unfold readOn
  rw [bind_eq, treePart_cons, ← bind_eq, bind_assoc]
  rfl

/-! ## A group that is not closed -/

/-- A group that is around everything must be closed. -/
theorem readAll_within (settings : FlagSettings) {text : List Char} (h : ')' ∉ text)
    (reading : Reading) (skips : Bool) :
    readAll (reading.within settings) ⟨text, skips⟩ = none := by
  -- Nothing in the text closes the group, and at its end the group is still open.
  induction hlength : text.length using Nat.strongRecOn generalizing reading text skips with
  | ind length ih =>
    subst hlength
    rw [readAll_eq]
    refine eq_none_of_bind fun _ next hspace => ?_
    have hnext := shrinks_bumpSpace _ _ _ hspace
    obtain ⟨left, skips'⟩ := next
    cases left with
    | nil =>
      rw [readOn_nil, reading.ended?_within settings]
      rfl
    | cons c left =>
      have hc : c ≠ ')' := by
        rintro rfl
        exact h (hnext.subset List.mem_cons_self)
      rw [readOn_cons, reading.readPart_within settings hc, bind_assoc]
      refine eq_none_of_bind fun inner last hpart => ?_
      have hlast := takes_readPart reading c left skips' inner last hpart
      have hmem : ')' ∉ last.rest := by
        intro hmem
        exact h (hnext.subset (List.mem_cons_of_mem _ (hlast.subset hmem)))
      exact ih _ (Nat.lt_of_lt_of_le (Nat.lt_succ_of_le hlast.length_le) hnext.length_le) hmem inner
        last.skipsBlanks rfl

end Gll.Regex
