import Gll.Program.Lowering
import Gll.Proofs.Interning
import Std.Data.String.ToNat

/-!
Names for parts of rules, and the numbers of nonterminals.

Nonterminals and names are numbered apart from each other, and a row of symbols leads from the one
to the other. The two are in step, as a nonterminal is only ever introduced together with a name
that is new: the symbol at each place is the place itself (`NameTable.InStep`, `Draft.InStep`).

A part of the rule `R` is named `R~n`. A rule may itself be called `R~n`, so counting the parts is
not enough: the number of a part is the first one behind that of the part before it, in the same
rule, whose name is not taken (`IsNext`). Of one more candidates than there are names one is new, so
the search for this number ends (`isNext_freshNumber`), and it passes no more numbers than there are
names (`freshNumber_le`). Parts that were all named in this way have different names, and in a rule
their numbers grow (`Numbered`).
-/

set_option autoImplicit false

namespace Gll

/-! ## Symbols in step with names -/

/-- A row of symbols is in step with a table: there is one for each name, and the symbol at each
place is that place. -/
structure NameTable.InStep (names : NameTable) (symbols : Array NameId) : Prop where
  exact : names.Exact
  listed : symbols.toList = (List.range names.size).map NameId.mk

namespace NameTable.InStep

variable {names : NameTable} {symbols : Array NameId}

theorem empty : NameTable.empty.InStep #[] := ⟨exact_empty, rfl⟩

/-- A new name is put behind the others, and so is its symbol. -/
theorem intern (h : names.InStep symbols) {name : String} (hnew : names.find? name = none) :
    (names.intern name).2.InStep (symbols.push (names.intern name).1) where
  exact := h.exact.intern name
  listed := by
    rw [Array.toList_push, h.listed, fst_intern_of_new hnew, (find?_intern_of_new hnew).2,
      List.range_succ, List.map_append]
    rfl

theorem size_eq (h : names.InStep symbols) : symbols.size = names.size := by
  rw [← Array.length_toList, h.listed, List.length_map, List.length_range]

theorem getElem?_eq_some_iff (h : names.InStep symbols) {i : Nat} {symbol : NameId} :
    symbols[i]? = some symbol ↔ i < names.size ∧ symbol = ⟨i⟩ := by
  rw [← Array.getElem?_toList, h.listed, List.getElem?_map, Option.map_eq_some_iff]
  constructor
  · rintro ⟨j, hj, rfl⟩
    obtain ⟨hlt, rfl⟩ := List.getElem?_eq_some_iff.mp hj
    rw [List.length_range] at hlt
    rw [List.getElem_range]
    exact ⟨hlt, rfl⟩
  · rintro ⟨hlt, rfl⟩
    exact ⟨i, List.getElem?_range hlt, rfl⟩

/-- Through the symbols a place has the name of its own number. -/
theorem bind_name? (h : names.InStep symbols) (i : Nat) :
    (symbols[i]?).bind names.name? = names.name? ⟨i⟩ := by
  cases hsymbol : symbols[i]? with
  | some symbol =>
    obtain ⟨-, rfl⟩ := h.getElem?_eq_some_iff.mp hsymbol
    rfl
  | none =>
    have hle : names.size ≤ i := h.size_eq ▸ Array.getElem?_eq_none_iff.mp hsymbol
    exact (Array.getElem?_eq_none hle).symm

/-- Among the first symbols, a symbol that is a number is at the place of that number. -/
theorem idxOf?_take (h : names.InStep symbols) (count i : Nat) {symbol : NameId}
    (hsymbol : symbol.index < names.size) :
    (symbols.toList.take count).idxOf? symbol = some i ↔ i < count ∧ symbol = ⟨i⟩ := by
  have hget (j : Nat) (hj : j < (symbols.toList.take count).length) :
      (symbols.toList.take count)[j] = ⟨j⟩ := by
    rw [List.getElem_take]
    simp only [h.listed, List.getElem_map, List.getElem_range]
  have hlength : (symbols.toList.take count).length = min count names.size := by
    rw [List.length_take, h.listed, List.length_map, List.length_range]
  rw [List.idxOf?_eq_some_iff]
  constructor
  · rintro ⟨hlt, hself, -⟩
    rw [hget i hlt] at hself
    exact ⟨by omega, hself.symm⟩
  · rintro ⟨hlt, rfl⟩
    have hlt' : i < (symbols.toList.take count).length := by
      rw [hlength]
      exact Nat.lt_min.mpr ⟨hlt, hsymbol⟩
    refine ⟨hlt', hget i hlt', fun j hj heq => ?_⟩
    rw [hget j (hj.trans hlt')] at heq
    exact Nat.ne_of_lt hj (congrArg NameId.index heq)

end NameTable.InStep

namespace Lowering

/-! ## The search for a name -/

theorem partName_injective (rule : String) : Function.Injective (partName rule) := by
  intro m n h
  have htoList := congrArg String.toList h
  simp only [partName, String.toList_append, List.append_assoc] at htoList
  have htail := List.append_cancel_left (List.append_cancel_left htoList)
  exact Nat.repr_inj.mp (String.toList_inj.mp htail)

/-- Of the candidates from a number on, one more than there are names, one is new. -/
theorem exists_new_partName {names : NameTable} (h : names.Faithful) (rule : String)
    (number : Nat) :
    ∃ i < names.size + 1, names.find? (partName rule (number + i)) = none := by
  have hinjective : Function.Injective fun i => partName rule (number + i) :=
    fun i j heq => Nat.add_left_cancel (partName_injective rule heq)
  exact h.exists_new hinjective

/-- The search goes on, past names that are taken, to a new name or until the fuel is spent. -/
theorem freshNumber_spec (names : NameTable) (rule : String) (fuel number : Nat) :
    number ≤ freshNumber names rule fuel number ∧
      (∀ k, number ≤ k → k < freshNumber names rule fuel number →
        names.find? (partName rule k) ≠ none) ∧
      (names.find? (partName rule (freshNumber names rule fuel number)) = none ∨
        freshNumber names rule fuel number = number + fuel) := by
  -- On the fuel: past a name that is taken the search goes on from the next number.
  induction fuel generalizing number with
  | zero =>
    rw [freshNumber]
    exact ⟨Nat.le_refl _, fun k hle hlt => absurd hlt (Nat.not_lt_of_le hle), .inr rfl⟩
  | succ fuel ih =>
    rw [freshNumber]
    split
    · rename_i htaken
      obtain ⟨hle, hskip, hend⟩ := ih (number + 1)
      refine ⟨by omega, fun k hk hlt => ?_, hend.imp_right fun heq => by omega⟩
      by_cases hfirst : k = number
      · rw [hfirst]
        exact Option.isSome_iff_ne_none.mp htaken
      · exact hskip k (by omega) hlt
    · rename_i hfree
      exact ⟨Nat.le_refl _, fun k hle hlt => absurd hlt (Nat.not_lt_of_le hle),
        .inl (Option.not_isSome_iff_eq_none.mp hfree)⟩

/-- The search skips no more numbers than there are names. -/
theorem freshNumber_le {names : NameTable} (h : names.Faithful) (rule : String)
    (fuel number : Nat) : freshNumber names rule fuel number ≤ number + names.size := by
  obtain ⟨-, hskip, -⟩ := freshNumber_spec names rule fuel number
  obtain ⟨i, hi, hnew⟩ := exists_new_partName h rule number
  by_contra hlong
  exact hskip (number + i) (by omega) (by omega) hnew

/-- With more fuel than there are names, the search ends at a new name. -/
theorem find?_freshNumber {names : NameTable} (h : names.Faithful) (rule : String) {fuel : Nat}
    (hfuel : names.size < fuel) (number : Nat) :
    names.find? (partName rule (freshNumber names rule fuel number)) = none := by
  obtain ⟨-, -, hend⟩ := freshNumber_spec names rule fuel number
  refine hend.resolve_right fun hspent => ?_
  have hle := freshNumber_le h rule fuel number
  omega

/-! ## The next number -/

/-- The number is the first one behind `last` that gives a part of the rule a name that is not among
the names. -/
structure IsNext (names : List String) (rule : String) (last number : Nat) : Prop where
  lt : last < number
  new : partName rule number ∉ names
  taken (between : Nat) : last < between → between < number → partName rule between ∈ names

/-- There is only one next number. -/
theorem IsNext.unique {names : List String} {rule : String} {last number number' : Nat}
    (h : IsNext names rule last number) (h' : IsNext names rule last number') :
    number = number' := by
  by_contra hne
  rcases Nat.lt_or_gt_of_ne hne with hlt | hlt
  · exact h.new (h'.taken number h.lt hlt)
  · exact h'.new (h.taken number' h'.lt hlt)

/-- With more fuel than there are names, the search ends at the next number. -/
theorem isNext_freshNumber {names : NameTable} (h : names.Exact) (rule : String) {fuel : Nat}
    (hfuel : names.size < fuel) (last : Nat) :
    IsNext names.names.toList rule last (freshNumber names rule fuel (last + 1)) := by
  obtain ⟨hle, hskip, -⟩ := freshNumber_spec names rule fuel (last + 1)
  refine ⟨by omega, ?_, fun between hlt hless => ?_⟩
  · exact h.find?_eq_none_iff.mp (find?_freshNumber h.faithful rule hfuel (last + 1))
  · by_contra hnot
    exact hskip between (by omega) hless (h.find?_eq_none_iff.mpr hnot)

/-! ## Parts -/

/-- A part of a rule, with the number in its name. -/
structure Part where
  rule : String
  content : Rule
  number : Nat

/-- The name of a part. -/
def Part.name (part : Part) : String := partName part.rule part.number

/-- Which part it is. -/
def Part.origin (part : Part) : String × Rule := (part.rule, part.content)

/-- The number in the name of the last part of a rule, or 0 when it has no part. -/
def lastNumber (rule : String) (parts : List Part) : Nat :=
  ((parts.filter fun part => part.rule = rule).getLast?.map Part.number).getD 0

theorem lastNumber_concat (rule : String) (parts : List Part) (part : Part) :
    lastNumber rule (parts ++ [part])
      = if part.rule = rule then part.number else lastNumber rule parts := by
  by_cases h : part.rule = rule <;> simp [lastNumber, List.filter_append, h]

theorem lastNumber_eq_zero {rule : String} {parts : List Part}
    (h : ∀ part ∈ parts, part.rule ≠ rule) : lastNumber rule parts = 0 := by
  have hnone : (parts.filter fun part => part.rule = rule) = [] := by
    rw [List.filter_eq_nil_iff]
    intro part hpart
    simpa using h part hpart
  rw [lastNumber, hnone]
  rfl

/-- Each of the parts got the next number when the names, and those of the parts before it, were
taken. -/
inductive Numbered (names : List String) : List Part → Prop where
  | nil : Numbered names []
  | concat {parts : List Part} {part : Part} (h : Numbered names parts)
      (hnext : IsNext (names ++ parts.map Part.name) part.rule (lastNumber part.rule parts)
        part.number) : Numbered names (parts ++ [part])

namespace Numbered

variable {names : List String} {parts : List Part}

/-- A part got the next number after those before it. -/
theorem isNext (before : List Part) {part : Part} {after : List Part}
    (h : Numbered names (before ++ part :: after)) :
    IsNext (names ++ before.map Part.name) part.rule (lastNumber part.rule before) part.number := by
  generalize hall : before ++ part :: after = all at h
  induction h generalizing after with
  | nil => simp at hall
  | @concat parts last _ hnext ih =>
    -- The part is the last one, or the last one comes after it and does not matter.
    rcases List.eq_nil_or_concat after with rfl | ⟨init, other, rfl⟩
    · obtain ⟨rfl, hlast⟩ := List.append_inj' hall rfl
      obtain rfl : part = last := (List.cons.inj hlast).1
      exact hnext
    · rw [List.concat_eq_append, ← List.cons_append, ← List.append_assoc] at hall
      exact ih (List.append_inj' hall rfl).1

/-- All names are different. -/
theorem nodup (h : Numbered names parts) (hnames : names.Nodup) :
    (names ++ parts.map Part.name).Nodup := by
  induction h with
  | nil =>
    rw [List.map_nil, List.append_nil]
    exact hnames
  | concat _ hnext ih =>
    rw [List.map_append, ← List.append_assoc]
    exact List.concat_eq_append ▸ ih.concat hnext.new

theorem le_lastNumber (h : Numbered names parts) :
    ∀ part ∈ parts, part.number ≤ lastNumber part.rule parts := by
  induction h with
  | nil => exact fun part hpart => absurd hpart List.not_mem_nil
  | @concat parts last _ hnext ih =>
    intro part hpart
    rw [lastNumber_concat]
    have hlt := hnext.lt
    rcases List.mem_append.mp hpart with hearlier | hlast
    · have hle := ih part hearlier
      by_cases heq : last.rule = part.rule
      · rw [if_pos heq]
        rw [heq] at hlt
        omega
      · rw [if_neg heq]
        exact hle
    · rw [List.mem_singleton.mp hlast, if_pos rfl]

/-- In a rule the numbers grow. -/
theorem increasing (h : Numbered names parts) :
    parts.Pairwise fun earlier later =>
      earlier.rule = later.rule → earlier.number < later.number := by
  induction h with
  | nil => exact .nil
  | @concat parts last hparts hnext ih =>
    refine List.pairwise_append.mpr ⟨ih, List.pairwise_singleton _ _, ?_⟩
    intro earlier hearlier part hpart hrule
    have hle := hparts.le_lastNumber earlier hearlier
    have hlt := hnext.lt
    rw [List.mem_singleton.mp hpart] at hrule ⊢
    rw [hrule] at hle
    omega

end Numbered

/-! ## Drafts in step -/

/-- The tables of a draft are in step: each nonterminal has alternatives, a symbol and a name, all
with the same number. -/
structure Draft.InStep (draft : Draft) : Prop where
  names : draft.names.InStep draft.symbols
  size : draft.productions.size = draft.symbols.size

variable {draft draft' : Draft}

/-- What a draft is in step with has to do with neither the counter nor the patterns, and of the
alternatives only their number matters. -/
theorem Draft.InStep.of_same (h : draft.InStep) (hnames : draft'.names = draft.names)
    (hsymbols : draft'.symbols = draft.symbols)
    (hsize : draft'.productions.size = draft.productions.size) : draft'.InStep where
  names := by
    rw [hnames, hsymbols]
    exact h.names
  size := by
    rw [hsymbols, hsize]
    exact h.size

/-- The name of a nonterminal that is introduced is new. -/
theorem Draft.InStep.reserve (h : draft.InStep) {rule : String} {part : Nonterminal}
    (hstep : Lowering.reserve rule draft = .ok (part, draft')) : draft'.InStep := by
  have hnew := find?_freshNumber h.names.exact.faithful rule (Nat.lt_succ_self _)
    (draft.lastNumber + 1)
  simp only [Lowering.reserve, Except.ok.injEq, Prod.mk.injEq] at hstep
  obtain ⟨-, rfl⟩ := hstep
  refine ⟨h.names.intern hnew, ?_⟩
  rw [Array.size_push, Array.size_push, h.size]

theorem internRow_concat (names : List String) (name : String) : internRow (names ++ [name])
    = (((internRow names).1.intern name).2,
      (internRow names).2.push ((internRow names).1.intern name).1) := by
  rw [internRow, List.foldl_concat]
  rfl

theorem fst_internRow (names : List String) :
    (internRow names).1 = NameTable.empty.internAll names := by
  induction names using List.reverseRecOn with
  | nil => rfl
  | append_singleton names name ih =>
    rw [internRow_concat, ih, NameTable.internAll, NameTable.internAll, List.foldl_concat]

/-- When different names are interned in a row, each is new. -/
theorem inStep_internRow {names : List String} (hnodup : names.Nodup) :
    (internRow names).1.InStep (internRow names).2 := by
  induction names using List.reverseRecOn with
  | nil => exact .empty
  | append_singleton names name ih =>
    obtain ⟨hnames, -, hdisjoint⟩ := List.nodup_append.mp hnodup
    have hname : name ∉ names := fun hmem => hdisjoint _ hmem _ (List.mem_singleton_self _) rfl
    have hnew : (internRow names).1.find? name = none := by
      rw [(ih hnames).exact.find?_eq_none_iff, fst_internRow,
        NameTable.names_internAll_of_nodup hnames]
      exact hname
    rw [internRow_concat]
    exact (ih hnames).intern hnew

theorem inStep_initial (grammar : Grammar) : (initial grammar).InStep where
  names := inStep_internRow grammar.nodup
  size := Array.size_replicate

theorem size_initial (grammar : Grammar) :
    (initial grammar).productions.size = grammar.rules.length := by
  have hnames := congrArg List.length (NameTable.names_internAll_of_nodup grammar.nodup)
  rw [Array.length_toList, List.length_map, ← fst_internRow] at hnames
  calc (initial grammar).productions.size
      = (internRow (grammar.rules.map Prod.fst)).2.size := Array.size_replicate
    _ = (internRow (grammar.rules.map Prod.fst)).1.size :=
      (inStep_internRow grammar.nodup).size_eq
    _ = grammar.rules.length := hnames

end Lowering

/-! ## Looking up -/

namespace Program

variable {program : Program}

theorem name?_of_inStep (h : program.names.InStep program.symbols) (nonterminal : Nonterminal) :
    program.name? nonterminal = program.names.name? ⟨nonterminal.index⟩ :=
  h.bind_name? nonterminal.index

/-- A name is found if it is that of a nonterminal before the count of the rules. -/
theorem find?_of_inStep (h : program.names.InStep program.symbols) {name : String}
    {nonterminal : Nonterminal} : program.find? name = some nonterminal ↔
      program.names.find? name = some ⟨nonterminal.index⟩ ∧
        nonterminal.index < program.ruleCount := by
  simp only [find?, bind, Option.bind_eq_some_iff, pure, Option.some.injEq]
  constructor
  · rintro ⟨symbol, hsymbol, index, hindex, rfl⟩
    obtain ⟨hlt, rfl⟩ :=
      (h.idxOf?_take _ _ (h.exact.faithful.index_lt hsymbol)).mp hindex
    exact ⟨hsymbol, hlt⟩
  · rintro ⟨hsymbol, hlt⟩
    exact ⟨_, hsymbol, nonterminal.index,
      (h.idxOf?_take _ _ (h.exact.faithful.index_lt hsymbol)).mpr ⟨hlt, rfl⟩, rfl⟩

end Program

end Gll
