import Gll.Proofs.Derivation
import Mathlib.Data.List.Forall2
import Mathlib.Logic.Relation

/-!
Strings of atoms that begin with a text.

A nonterminal is rewritten, one nonterminal after the other and in any order, to strings of atoms.
Whether such a string can begin with tests that a given text passes is asked before the rest of the
input is known (`Productions.Begins`), so it is not about derivation trees.

It comes down to them all the same. The atom that stands behind the tests is reached from the start
nonterminal by going into right-hand sides, each time over a beginning of one that derives a segment
of the text (`Productions.Expects`). That is how a parse comes to it, and there is nothing else in
between: rewriting an atom before the way only changes what a segment is derived by, and rewriting
one behind it changes nothing (`exists_pivot`).
-/

set_option autoImplicit false

namespace Gll

/-- An element of two lists, one behind the other, is in the first or in the second. -/
theorem eq_append_cons_cases {α : Type} {left right before after : List α} {x : α}
    (h : left ++ right = before ++ x :: after) :
    (∃ late, left = before ++ x :: late ∧ after = late ++ right) ∨
      ∃ early, before = left ++ early ∧ right = early ++ x :: after := by
  rcases List.append_eq_append_iff.mp h with ⟨early, hbefore, hright⟩ | ⟨late, hleft, hafter⟩
  · exact .inr ⟨early, hbefore, hright⟩
  · cases late with
    | nil => exact .inr ⟨[], by simpa using hleft.symm, by simpa using hafter.symm⟩
    | cons y late =>
      obtain ⟨rfl, rfl⟩ := List.cons.inj hafter
      exact .inl ⟨late, hleft, rfl⟩

namespace Productions

variable (productions : Productions)

/-- One nonterminal of a string of atoms is replaced by a right-hand side of it. -/
inductive Rewrites : List Atom → List Atom → Prop where
  | replace {symbol : Nonterminal} {alternative : List Atom} (before after : List Atom)
      (hmem : alternative ∈ productions symbol) :
      Rewrites (before ++ .nonterminal symbol :: after) (before ++ (alternative ++ after))

/-- The atoms are tests, one for each character of a text, which passes them. -/
def Passes : List Atom → List Char → Prop :=
  List.Forall₂ fun atom c => ∃ matcher, atom = .terminal matcher ∧ matcher.accepts c = true

/-- A string of atoms is rewritten to tests that a text passes, with a rest behind them. -/
def Begins (atoms : List Atom) (text : List Char) (rest : List Atom) : Prop :=
  ∃ tests, Passes tests text ∧ Relation.ReflTransGen productions.Rewrites atoms (tests ++ rest)

/-- From a nonterminal at an offset into one of its right-hand sides, to the atom behind a beginning
of it that derives the input up to another offset. -/
inductive Into (input : List Char) : Atom × Nat → Atom × Nat → Prop where
  | enter {symbol : Nonterminal} {before after : List Atom} {atom : Atom} {i j : Nat}
      {trees : List Tree} (hmem : before ++ atom :: after ∈ productions symbol)
      (hderives : productions.Derives input before i j trees) :
      Into input (.nonterminal symbol, i) (atom, j)

/-- An atom is what can come next at an offset, if the input is to be derived from a nonterminal. -/
def Expects (input : List Char) (start : Nonterminal) (atom : Atom) (i : Nat) : Prop :=
  Relation.ReflTransGen (productions.Into input) (.nonterminal start, 0) (atom, i)

variable {productions}

/-! ## Tests -/

theorem Passes.append {left right : List Atom} {first second : List Char}
    (hleft : Passes left first) (hright : Passes right second) :
    Passes (left ++ right) (first ++ second) :=
  List.rel_append hleft hright

theorem Passes.exists_of_append {tests : List Atom} {first second : List Char}
    (h : Passes tests (first ++ second)) :
    ∃ left right, tests = left ++ right ∧ Passes left first ∧ Passes right second := by
  induction first generalizing tests with
  | nil => exact ⟨[], tests, rfl, .nil, h⟩
  | cons c first ih =>
    cases h with
    | cons hatom hrest =>
      obtain ⟨left, right, rfl, hleft, hright⟩ := ih hrest
      exact ⟨_ :: left, right, rfl, .cons hatom hleft, hright⟩

/-- Tests derive the texts that pass them. -/
theorem Passes.yields {tests : List Atom} {text : List Char} (h : Passes tests text) :
    productions.Yields tests text := by
  induction h with
  | nil => exact .nil
  | cons hatom _ ih =>
    obtain ⟨matcher, rfl, haccepts⟩ := hatom
    exact .terminal haccepts ih

/-! ## Rewriting -/

/-- What stands around a string of atoms is not in the way. -/
theorem rewrites_around {atoms atoms' : List Atom}
    (h : Relation.ReflTransGen productions.Rewrites atoms atoms') (before after : List Atom) :
    Relation.ReflTransGen productions.Rewrites (before ++ (atoms ++ after))
      (before ++ (atoms' ++ after)) := by
  refine h.lift (fun atoms => before ++ (atoms ++ after)) fun _ _ hstep => ?_
  cases hstep with
  | replace left right hmem =>
    have hnext := Rewrites.replace (before ++ left) (right ++ after) hmem
    simpa only [Function.onFun, List.append_assoc, List.cons_append] using hnext

/-- What derives a text is rewritten to tests that the text passes. -/
theorem Yields.begins {atoms : List Atom} {text : List Char} (h : productions.Yields atoms text) :
    productions.Begins atoms text [] := by
  induction h with
  | nil => exact ⟨[], .nil, .refl⟩
  | @terminal matcher c atoms text haccepts _ ih =>
    obtain ⟨tests, hpasses, hrewrites⟩ := ih
    refine ⟨.terminal matcher :: tests, .cons ⟨matcher, rfl, haccepts⟩ hpasses, ?_⟩
    simpa using rewrites_around hrewrites [.terminal matcher] []
  | @nonterminal callee alternative atoms first rest hmem _ _ ihfirst ihrest =>
    obtain ⟨left, hleft, hfirst⟩ := ihfirst
    obtain ⟨right, hright, hrest⟩ := ihrest
    refine ⟨left ++ right, hleft.append hright, ?_⟩
    have hstep := Rewrites.replace [] atoms hmem
    have hthen := rewrites_around hfirst [] atoms
    have hlast := rewrites_around hrest left []
    simp only [List.append_nil, List.nil_append] at hstep hthen hlast
    rw [List.append_nil]
    exact (Relation.ReflTransGen.head hstep hthen).trans hlast

/-- A text that is derived begins with each of its beginnings. -/
theorem exists_begins_of_yields {atoms : List Atom} {first second : List Char}
    (h : productions.Yields atoms (first ++ second)) :
    ∃ rest, productions.Begins atoms first rest := by
  obtain ⟨tests, hpasses, hrewrites⟩ := h.begins
  obtain ⟨left, right, rfl, hleft, -⟩ := hpasses.exists_of_append
  rw [List.append_assoc] at hrewrites
  exact ⟨_, left, hleft, hrewrites⟩

/-! ## What comes next -/

section Derives

variable {input : List Char}

theorem Derives.exists_of_append {left right : List Atom} {i j : Nat} {trees : List Tree}
    (h : productions.Derives input (left ++ right) i j trees) :
    ∃ m before after, productions.Derives input left i m before ∧
      productions.Derives input right m j after := by
  induction left generalizing i trees with
  | nil => exact ⟨i, [], trees, .nil i, h⟩
  | cons atom left ih =>
    cases h with
    | terminal hchar haccepts hrest =>
      obtain ⟨m, before, after, hleft, hright⟩ := ih hrest
      exact ⟨m, _, after, .terminal hchar haccepts hleft, hright⟩
    | nonterminal hmem hfirst hrest =>
      obtain ⟨m, before, after, hleft, hright⟩ := ih hrest
      exact ⟨m, _, after, .nonterminal hmem hfirst hleft, hright⟩

/-- Where an atom stands behind tests that the input passes, an atom stood before in whose place it
came, and behind something that derives the input up to there. -/
theorem exists_pivot {form tests rest : List Atom} {atom : Atom} {i j : Nat} {trees : List Tree}
    (hrewrites : Relation.ReflTransGen productions.Rewrites form (tests ++ atom :: rest))
    (hderives : productions.Derives input tests i j trees) :
    ∃ before pivot after m trees, form = before ++ pivot :: after ∧
      productions.Derives input before i m trees ∧
        Relation.ReflTransGen (productions.Into input) (pivot, m) (atom, j) := by
  -- The rewriting is undone, beginning with its last step.
  induction hrewrites using Relation.ReflTransGen.head_induction_on with
  | refl => exact ⟨tests, atom, rest, j, trees, rfl, hderives, .refl⟩
  | head hstep _ ih =>
    obtain ⟨before, pivot, after, m, _, hform, hbefore, hinto⟩ := ih
    cases hstep with
    | @replace symbol alternative left right hmem =>
      rcases eq_append_cons_cases hform with ⟨late, rfl, -⟩ | ⟨early, rfl, hright⟩
      · -- The pivot is before the right-hand side that came in,
        exact ⟨before, pivot, late ++ .nonterminal symbol :: right, m, _, by simp, hbefore, hinto⟩
      · rcases eq_append_cons_cases hright with ⟨late, rfl, -⟩ | ⟨early, rfl, rfl⟩
        · -- or in it, and then the nonterminal was the pivot before,
          obtain ⟨n, _, _, hleft, hinner⟩ := hbefore.exists_of_append
          exact ⟨left, .nonterminal symbol, right, n, _, rfl, hleft,
            .head (.enter hmem hinner) hinto⟩
        · -- or behind it.
          obtain ⟨n, _, _, hleft, hrest⟩ := hbefore.exists_of_append
          obtain ⟨n', _, _, hinner, hlater⟩ := hrest.exists_of_append
          exact ⟨left ++ .nonterminal symbol :: early, pivot, after, m, _, by simp,
            hleft.append (.nonterminal hmem hinner hlater), hinto⟩

/-- Behind the text up to an offset a nonterminal is rewritten, and a beginning of what it is
rewritten to derives the text that follows. -/
theorem Begins.enter {atoms before after rest : List Atom} {symbol : Nonterminal} {atom : Atom}
    {i j : Nat} {trees : List Tree}
    (h : productions.Begins atoms (input.take i) (.nonterminal symbol :: rest))
    (hmem : before ++ atom :: after ∈ productions symbol)
    (hderives : productions.Derives input before i j trees) :
    productions.Begins atoms (input.take j) (atom :: (after ++ rest)) := by
  obtain ⟨tests, hpasses, hrewrites⟩ := h
  obtain ⟨text, hyields, hdrop⟩ := hderives.exists_yields
  obtain ⟨tests', hpasses', hrewrites'⟩ := hyields.begins
  have htake : input.take i ++ text = input.take j := by
    have hwhole : (input.take i ++ text) ++ input.drop j = input.take j ++ input.drop j := by
      rw [List.append_assoc, ← hdrop, List.take_append_drop, List.take_append_drop]
    exact List.append_cancel_right hwhole
  refine ⟨tests ++ tests', htake ▸ hpasses.append hpasses', ?_⟩
  have hstep := Rewrites.replace tests rest hmem
  have hlast := rewrites_around hrewrites' tests (atom :: (after ++ rest))
  simp only [List.append_nil, List.append_assoc, List.cons_append] at hstep hlast ⊢
  exact (hrewrites.tail hstep).trans hlast

theorem exists_begins_of_into {start : Nonterminal} {place : Atom × Nat}
    (h : Relation.ReflTransGen (productions.Into input) (.nonterminal start, 0) place) :
    ∃ rest, productions.Begins [.nonterminal start] (input.take place.2) (place.1 :: rest) := by
  induction h with
  | refl => exact ⟨[], [], .nil, .refl⟩
  | tail _ hinto ih =>
    obtain ⟨rest, hbegins⟩ := ih
    cases hinto with
    | enter hmem hderives => exact ⟨_, hbegins.enter hmem hderives⟩

/-- What can come next at an offset is what can stand behind the text up to there. -/
theorem expects_iff {start : Nonterminal} {atom : Atom} {i : Nat} (hi : i ≤ input.length) :
    productions.Expects input start atom i ↔
      ∃ rest, productions.Begins [.nonterminal start] (input.take i) (atom :: rest) := by
  constructor
  · exact exists_begins_of_into
  · rintro ⟨rest, tests, hpasses, hrewrites⟩
    have hdrop : input.drop 0 = input.take i ++ input.drop i := by simp
    have hyields : productions.Yields tests (input.take i) := hpasses.yields
    obtain ⟨trees, hderives⟩ := hyields.exists_derives 0 _ hdrop
    rw [List.length_take, Nat.min_eq_left hi, Nat.zero_add] at hderives
    obtain ⟨before, pivot, after, m, _, hform, hbefore, hinto⟩ := exists_pivot hrewrites hderives
    -- Before the start nonterminal stands nothing.
    cases before with
    | nil =>
      obtain ⟨rfl, -⟩ := List.cons.inj hform
      cases hbefore
      exact hinto
    | cons _ before => simp at hform

/-- A text begins a string of atoms together with the character behind it if the character passes a
test that can come next. -/
theorem begins_take_succ_iff {start : Nonterminal} {i : Nat} {c : Char}
    (hchar : input[i]? = some c) :
    (∃ rest, productions.Begins [.nonterminal start] (input.take (i + 1)) rest) ↔
      ∃ matcher, productions.Expects input start (.terminal matcher) i ∧
        matcher.accepts c = true := by
  obtain ⟨hlt, -⟩ := List.getElem?_eq_some_iff.mp hchar
  have htake : input.take (i + 1) = input.take i ++ [c] := by
    rw [List.take_add_one, hchar, Option.toList_some]
  rw [htake]
  constructor
  · rintro ⟨rest, tests, hpasses, hrewrites⟩
    obtain ⟨left, right, rfl, hleft, hright⟩ := hpasses.exists_of_append
    cases hright with
    | cons hatom hnil =>
      obtain ⟨matcher, rfl, haccepts⟩ := hatom
      cases hnil
      refine ⟨matcher, (expects_iff hlt.le).mpr ⟨rest, left, hleft, ?_⟩, haccepts⟩
      simpa using hrewrites
  · rintro ⟨matcher, hexpects, haccepts⟩
    obtain ⟨rest, tests, hpasses, hrewrites⟩ := (expects_iff hlt.le).mp hexpects
    refine ⟨rest, tests ++ [.terminal matcher],
      hpasses.append (.cons ⟨matcher, rfl, haccepts⟩ .nil), ?_⟩
    simpa using hrewrites

/-- There are trees over a segment of the input exactly if it is derived. -/
theorem exists_derives_iff {atoms : List Atom} {i j : Nat} (hij : i ≤ j) (hj : j ≤ input.length) :
    (∃ trees, productions.Derives input atoms i j trees) ↔
      productions.Yields atoms ((input.take j).drop i) := by
  have hsegment : input.drop i = (input.take j).drop i ++ input.drop j := by
    have hlength : (input.take j).length = j := List.length_take_of_le hj
    rw [← List.drop_append_of_le_length (hlength.symm ▸ hij), List.take_append_drop]
  constructor
  · rintro ⟨trees, hderives⟩
    obtain ⟨text, hyields, htext⟩ := hderives.exists_yields
    rw [hsegment] at htext
    rw [List.append_cancel_right htext]
    exact hyields
  · intro hyields
    obtain ⟨trees, hderives⟩ := hyields.exists_derives i _ hsegment
    rw [List.length_drop, List.length_take_of_le hj, Nat.add_sub_cancel' hij] at hderives
    exact ⟨trees, hderives⟩

/-! What comes behind a text has no say in how it is derived. -/

theorem expects_append_iff {start : Nonterminal} {atom : Atom} {text more : List Char} {i : Nat}
    (hi : i ≤ text.length) :
    productions.Expects (text ++ more) start atom i ↔
      ∃ rest, productions.Begins [.nonterminal start] (text.take i) (atom :: rest) := by
  rw [expects_iff (hi.trans (List.length_append ▸ Nat.le_add_right _ _)),
    List.take_append_of_le_length hi]

theorem exists_derives_append_iff {atoms : List Atom} {text more : List Char} {i : Nat}
    (hi : i ≤ text.length) :
    (∃ trees, productions.Derives (text ++ more) atoms i text.length trees) ↔
      productions.Yields atoms (text.drop i) := by
  rw [exists_derives_iff hi (List.length_append ▸ Nat.le_add_right _ _), List.take_left]

theorem begins_concat_iff {start : Nonterminal} {text : List Char} {c : Char} :
    (∃ rest, productions.Begins [.nonterminal start] (text ++ [c]) rest) ↔
      ∃ matcher, productions.Expects (text ++ [c]) start (.terminal matcher) text.length ∧
        matcher.accepts c = true := by
  have hchar : (text ++ [c])[text.length]? = some c := by simp
  rw [← begins_take_succ_iff hchar, List.take_of_length_le (by simp)]

end Derives

end Productions

end Gll
