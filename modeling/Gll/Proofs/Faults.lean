import Gll.Proofs.Compilation

/-!
What a grammar is rejected for.

Compiling a grammar fails at a leaf of a rule: at an empty text, at a pattern that cannot be
compiled or at a reference to a rule that does not exist. It goes through the leaves in the order in
which they are written, whatever is made of the expressions around them, so the first leaf with a
fault is the one that is reported, under the name of the rule in which it is written
(`Grammar.FirstFault`).

Two things stand between the leaves and the outcome. The state of the compilation is changed all the
time, but a step fails or not whatever the state is (`Reports`). The one exception is a pattern, for
which the state is asked first. Compiling each occurrence of a pattern anew is therefore written
down as a compilation of its own, with the same outcome (`compile_eq_compileAnew`), and the leaves
are looked at there.
-/

set_option autoImplicit false

namespace Gll

/-! ## Leaves -/

/-- A part of an expression that has no parts and may have a fault. -/
inductive Leaf where
  | literal (text : String)
  | pattern (source : String) (flags : Option String)
  | symbol (name : String)

mutual

/-- The leaves of an expression from left to right. -/
def Rule.leaves : Rule → List Leaf
  | .blank => []
  | .literal text => [.literal text]
  | .pattern source flags => [.pattern source flags]
  | .symbol name => [.symbol name]
  | .sequence members => Rule.leavesOfAll members
  | .choice members => Rule.leavesOfAll members
  | .star content => content.leaves
  | .plus content => content.leaves

/-- The leaves of several expressions in a row. -/
def Rule.leavesOfAll : List Rule → List Leaf
  | [] => []
  | member :: rest => member.leaves ++ Rule.leavesOfAll rest

end

/-- The leaves of rules in order, each with the name of the rule in which it is written. -/
def leavesOfRules (rules : List (String × Rule)) : List (String × Leaf) :=
  rules.flatMap fun (name, rule) => rule.leaves.map (name, ·)

namespace Leaf

/-- A leaf without a fault. -/
def IsValid (grammar : Grammar) : Leaf → Prop
  | literal text => text ≠ ""
  | pattern source flags => ∃ regex, Pattern.compile source flags = .ok regex
  | symbol name => name ∈ grammar.rules.map Prod.fst

/-- The fault of a leaf in the rule of a name. -/
inductive Faults (grammar : Grammar) (rule : String) : Leaf → LowerError → Prop where
  | literal : Faults grammar rule (.literal "") (.emptyLiteral rule)
  | flags {source : String} {flags : Option String}
      (h : Pattern.compile source flags = .error .flags) :
      Faults grammar rule (.pattern source flags) (.unsupportedFlags rule (flags.getD ""))
  | source {source : String} {flags : Option String} {error : Regex.RegexError}
      (h : Pattern.compile source flags = .error (.source error)) :
      Faults grammar rule (.pattern source flags) (.invalidPattern rule source error)
  | symbol {name : String} (h : name ∉ grammar.rules.map Prod.fst) :
      Faults grammar rule (.symbol name) (.undefinedRule rule name)

/-- The fault of a leaf in the rule of a name, if it has one. -/
def fault? (grammar : Grammar) (rule : String) : Leaf → Option LowerError
  | literal text => if text.isEmpty then some (.emptyLiteral rule) else none
  | pattern source flags =>
    match Pattern.compile source flags with
    | .ok _ => none
    | .error .flags => some (.unsupportedFlags rule (flags.getD ""))
    | .error (.source error) => some (.invalidPattern rule source error)
  | symbol name => if (grammar.indexOf? name).isSome then none else some (.undefinedRule rule name)

end Leaf

/-- Rules that have a number are those of the grammar. -/
theorem Grammar.isSome_indexOf?_iff {grammar : Grammar} {name : String} :
    (grammar.indexOf? name).isSome = true ↔ name ∈ grammar.rules.map Prod.fst := by
  rw [Option.isSome_iff_exists, List.mem_map]
  constructor
  · rintro ⟨index, hindex⟩
    obtain ⟨rule, hget⟩ := indexOf?_eq_some_iff.mp hindex
    exact ⟨_, List.mem_of_getElem? hget, rfl⟩
  · rintro ⟨⟨name, rule⟩, hmem, rfl⟩
    obtain ⟨index, hget⟩ := List.getElem?_of_mem hmem
    exact ⟨index, indexOf?_eq_some_iff.mpr ⟨rule, hget⟩⟩

namespace Leaf

variable {grammar : Grammar} {rule : String} {leaf : Leaf}

theorem fault?_eq_none_iff : leaf.fault? grammar rule = none ↔ leaf.IsValid grammar := by
  cases leaf with
  | literal text =>
    rw [fault?, IsValid, ite_eq_right_iff, String.isEmpty_iff]
    simp
  | pattern source flags =>
    rw [fault?, IsValid]
    cases Pattern.compile source flags with
    | ok regex => simp
    | error error => cases error <;> simp
  | symbol name =>
    rw [fault?, IsValid, ← Grammar.isSome_indexOf?_iff]
    cases grammar.indexOf? name <;> simp

theorem fault?_eq_some_iff {error : LowerError} :
    leaf.fault? grammar rule = some error ↔ leaf.Faults grammar rule error := by
  constructor
  · intro h
    cases leaf with
    | literal text =>
      rw [fault?] at h
      split at h
      · rename_i hempty
        obtain rfl := Option.some.inj h
        obtain rfl := String.isEmpty_iff.mp hempty
        exact .literal
      · cases h
    | pattern source flags =>
      rw [fault?] at h
      split at h
      · cases h
      · rename_i hcompile
        obtain rfl := Option.some.inj h
        exact .flags hcompile
      · rename_i hcompile
        obtain rfl := Option.some.inj h
        exact .source hcompile
    | symbol name =>
      rw [fault?] at h
      split at h
      · cases h
      · rename_i hnone
        obtain rfl := Option.some.inj h
        exact .symbol fun hmem => hnone (Grammar.isSome_indexOf?_iff.mpr hmem)
  · intro h
    cases h with
    | literal => rfl
    | flags h => rw [fault?, h]
    | source h => rw [fault?, h]
    | symbol h => rw [fault?, if_neg (mt Grammar.isSome_indexOf?_iff.mp h)]

end Leaf

namespace Grammar

/-- There is a rule to start with, and no leaf has a fault. -/
structure IsFaultless (grammar : Grammar) : Prop where
  start : ∃ name, grammar.startRule? = some name ∧ name ∈ grammar.rules.map Prod.fst
  leaves : ∀ entry ∈ leavesOfRules grammar.rules, entry.2.IsValid grammar

/-- What is wrong with a grammar, and nothing before it. -/
inductive FirstFault (grammar : Grammar) : LowerError → Prop where
  | noRules (hstart : grammar.start = none) (hrules : grammar.rules = []) :
      FirstFault grammar (.noRules grammar.name)
  | unknownStart {name : String} (hstart : grammar.start = some name)
      (hunknown : name ∉ grammar.rules.map Prod.fst) : FirstFault grammar (.unknownStart name)
  | leaf {name rule : String} {before after : List (String × Leaf)} {leaf : Leaf}
      {error : LowerError} (hstart : grammar.startRule? = some name)
      (hknown : name ∈ grammar.rules.map Prod.fst)
      (hleaves : leavesOfRules grammar.rules = before ++ (rule, leaf) :: after)
      (hvalid : ∀ entry ∈ before, entry.2.IsValid grammar)
      (hfault : leaf.Faults grammar rule error) : FirstFault grammar error

/-- The first fault of a grammar, if it has one. -/
def firstFault? (grammar : Grammar) : Option LowerError :=
  match grammar.startRule? with
  | none => some (.noRules grammar.name)
  | some name =>
    if (grammar.indexOf? name).isSome then
      (leavesOfRules grammar.rules).findSome? fun (rule, leaf) => leaf.fault? grammar rule
    else some (.unknownStart name)

variable {grammar : Grammar}

theorem startRule?_eq_none_iff :
    grammar.startRule? = none ↔ grammar.start = none ∧ grammar.rules = [] := by
  cases hstart : grammar.start <;> simp [startRule?, hstart]

/-- The first rule is there; another one may be asked for. -/
theorem start_eq_of_unknown {name : String} (h : grammar.startRule? = some name)
    (hunknown : name ∉ grammar.rules.map Prod.fst) : grammar.start = some name := by
  cases hstart : grammar.start with
  | some given =>
    rw [startRule?, hstart] at h
    exact h
  | none =>
    rw [startRule?, hstart] at h
    obtain ⟨first, hfirst, rfl⟩ := Option.map_eq_some_iff.mp h
    exact absurd (List.mem_map_of_mem (List.mem_of_mem_head? hfirst)) hunknown

theorem firstFault?_eq_none_iff : grammar.firstFault? = none ↔ grammar.IsFaultless := by
  constructor
  · intro h
    rw [firstFault?] at h
    split at h
    · cases h
    · rename_i name hstart
      split at h
      · rename_i hknown
        refine ⟨⟨name, hstart, isSome_indexOf?_iff.mp hknown⟩, fun entry hentry => ?_⟩
        exact Leaf.fault?_eq_none_iff.mp (List.findSome?_eq_none_iff.mp h entry hentry)
      · cases h
  · rintro ⟨⟨name, hstart, hknown⟩, hleaves⟩
    simp only [firstFault?, hstart, isSome_indexOf?_iff.mpr hknown, if_true]
    exact List.findSome?_eq_none_iff.mpr fun entry hentry =>
      Leaf.fault?_eq_none_iff.mpr (hleaves entry hentry)

theorem firstFault?_eq_some_iff {error : LowerError} :
    grammar.firstFault? = some error ↔ grammar.FirstFault error := by
  constructor
  · intro h
    rw [firstFault?] at h
    split at h
    · rename_i hstart
      obtain rfl := Option.some.inj h
      obtain ⟨hstart, hrules⟩ := startRule?_eq_none_iff.mp hstart
      exact .noRules hstart hrules
    · rename_i name hstart
      split at h
      · rename_i hknown
        -- The leaf that is found is the first with a fault, so those before it are valid.
        obtain ⟨before, ⟨rule, leaf⟩, after, hleaves, hfault, hvalid⟩ :=
          List.findSome?_eq_some_iff.mp h
        exact .leaf hstart (isSome_indexOf?_iff.mp hknown) hleaves
          (fun entry hentry => Leaf.fault?_eq_none_iff.mp (hvalid entry hentry))
          (Leaf.fault?_eq_some_iff.mp hfault)
      · rename_i hunknown
        obtain rfl := Option.some.inj h
        have hmem := mt isSome_indexOf?_iff.mpr hunknown
        exact .unknownStart (start_eq_of_unknown hstart hmem) hmem
  · intro h
    cases h with
    | noRules hstart hrules => rw [firstFault?, startRule?_eq_none_iff.mpr ⟨hstart, hrules⟩]
    | @unknownStart name hstart hunknown =>
      have hname : grammar.startRule? = some name := by
        rw [startRule?, hstart]
        rfl
      simp only [firstFault?, hname, mt isSome_indexOf?_iff.mp hunknown, if_false,
        Bool.false_eq_true]
    | @leaf name rule before after leaf _ hstart hknown hleaves hvalid hfault =>
      simp only [firstFault?, hstart, isSome_indexOf?_iff.mpr hknown, if_true]
      refine List.findSome?_eq_some_iff.mpr ⟨before, (rule, leaf), after, hleaves, ?_, ?_⟩
      · exact Leaf.fault?_eq_some_iff.mpr hfault
      · exact fun entry hentry => Leaf.fault?_eq_none_iff.mpr (hvalid entry hentry)

end Grammar

/-! ## Compiling patterns anew -/

namespace Lowering

/-- Compiles a pattern, whether it was compiled before or not. -/
def patternAnew (rule source : String) (flags : Option String) : Lower Pattern :=
  match Pattern.compile source flags with
  | .ok pattern => return pattern
  | .error .flags => throw (.unsupportedFlags rule (flags.getD ""))
  | .error (.source error) => throw (.invalidPattern rule source error)

mutual

/-- The symbols that a part of a rule is flattened to. -/
def atomsAnew (grammar : Grammar) (rule : String) : Rule → Lower (List Atom)
  | .blank => return []
  | .literal text =>
    if text.isEmpty then throw (.emptyLiteral rule)
    else return text.toList.map fun c => .terminal (.char c)
  | .pattern source flags => do return [.terminal (.pattern (← patternAnew rule source flags))]
  | .symbol name =>
    match grammar.indexOf? name with
    | some index => return [.nonterminal ⟨index⟩]
    | none => throw (.undefinedRule rule name)
  | .sequence members => atomsOfAllAnew grammar rule members
  | .choice members => do
    let part ← reserve rule
    settle part (← alternativesOfAllAnew grammar rule members)
    return [.nonterminal part]
  | .star content => do
    let part ← reserve rule
    settle part (starAlternatives part (← atomsAnew grammar rule content))
    return [.nonterminal part]
  | .plus content => do
    let part ← reserve rule
    settle part (plusAlternatives part (← atomsAnew grammar rule content))
    return [.nonterminal part]

/-- The symbols of several parts in a row. -/
def atomsOfAllAnew (grammar : Grammar) (rule : String) : List Rule → Lower (List Atom)
  | [] => return []
  | member :: rest => do
    let first ← atomsAnew grammar rule member
    return first ++ (← atomsOfAllAnew grammar rule rest)

/-- The symbols of several parts, each an alternative. -/
def alternativesOfAllAnew (grammar : Grammar) (rule : String) :
    List Rule → Lower (List (List Atom))
  | [] => return []
  | member :: rest => do
    let first ← atomsAnew grammar rule member
    return first :: (← alternativesOfAllAnew grammar rule rest)

end

/-- The alternatives of a whole rule. -/
def alternativesAnew (grammar : Grammar) (rule : String) (owner : Nonterminal) :
    Rule → Lower (List (List Atom))
  | .choice members => alternativesOfAllAnew grammar rule members
  | .star content => do return starAlternatives owner (← atomsAnew grammar rule content)
  | .plus content => do return plusAlternatives owner (← atomsAnew grammar rule content)
  | content => do return [← atomsAnew grammar rule content]

/-- Compiles rules, of which the first has the given number. -/
def lowerRulesAnew (grammar : Grammar) : Nat → List (String × Rule) → Lower Unit
  | _, [] => return ()
  | index, (name, rule) :: rest => do
    modify fun draft => { draft with lastNumber := 0 }
    settle ⟨index⟩ (← alternativesAnew grammar name ⟨index⟩ rule)
    lowerRulesAnew grammar (index + 1) rest

/-! ## The same outcome -/

/-- A draft that has kept no patterns. -/
def Draft.forget (draft : Draft) : Draft := { draft with patterns := ∅ }

/-- A step has the outcome of one that compiles patterns anew, as long as the patterns that are kept
are right, and keeps them so. -/
def IsAnew {α : Type} (step anew : Lower α) : Prop :=
  ∀ draft : Draft, draft.Remembers →
    anew draft.forget = (step draft).map (fun (a, next) => (a, next.forget)) ∧
      ∀ a next, step draft = .ok (a, next) → next.Remembers

section IsAnew

variable {α β : Type}

/-- A step that does not ask for patterns. -/
theorem isAnew_self {step : Lower α}
    (h : ∀ draft, step draft.forget = (step draft).map fun (a, next) => (a, next.forget))
    (hpatterns : ∀ draft a next, step draft = .ok (a, next) → next.patterns = draft.patterns) :
    IsAnew step step := by
  refine fun draft hremembers => ⟨h draft, fun a next hstep source flags regex hregex => ?_⟩
  rw [hpatterns draft a next hstep] at hregex
  exact hremembers source flags regex hregex

theorem isAnew_pure (a : α) : IsAnew (pure a) (pure a) :=
  isAnew_self (fun _ => rfl) fun _ _ _ hstep => by rw [(of_run_pure hstep).2]

theorem isAnew_throw (error : LowerError) : IsAnew (throw error : Lower α) (throw error) :=
  isAnew_self (fun _ => rfl) fun _ _ _ hstep => absurd hstep throw_ne_ok

theorem isAnew_reserve (rule : String) : IsAnew (reserve rule) (reserve rule) :=
  isAnew_self (fun _ => rfl) fun _ _ _ hstep => (reserve_eq_ok hstep).2.2.1

theorem isAnew_settle (part : Nonterminal) (alternatives : List (List Atom)) :
    IsAnew (settle part alternatives) (settle part alternatives) :=
  isAnew_self (fun _ => rfl) fun _ _ _ hstep => by rw [settle_eq_ok hstep]

theorem isAnew_bind {first anew : Lower α} {next nextAnew : α → Lower β}
    (hfirst : IsAnew first anew) (hnext : ∀ a, IsAnew (next a) (nextAnew a)) :
    IsAnew (first >>= next) (anew >>= nextAnew) := by
  intro draft hremembers
  -- Both runs come to the second step with the same result and the same draft but for patterns, or
  -- both break off with the same error.
  obtain ⟨hsame, hkeep⟩ := hfirst draft hremembers
  simp only [bind, StateT.bind, Except.bind, hsame]
  cases hstep : first draft with
  | error error => exact ⟨rfl, fun _ _ h => absurd h (by simp)⟩
  | ok result => exact hnext result.1 result.2 (hkeep result.1 result.2 hstep)

/-- A pattern that is kept is what compiling it again gives. -/
theorem isAnew_pattern (rule source : String) (flags : Option String) :
    IsAnew (pattern rule source flags) (patternAnew rule source flags) := by
  intro draft hremembers
  refine ⟨?_, fun regex next hstep => ?_⟩
  · rw [pattern, patternAnew]
    cases hkept : draft.patterns[(source, flags)]? with
    | some regex =>
      rw [hremembers source flags regex hkept]
      rfl
    | none =>
      cases Pattern.compile source flags with
      | ok regex => rfl
      | error error => cases error <;> rfl
  · exact (ensures_pattern rule source flags _ _ _ hstep hremembers).1.remembers hremembers

/-- A nonterminal for a part, with its content compiled anew. -/
theorem isAnew_part {rule : String} {content anew : Lower α}
    (alternatives : Nonterminal → α → List (List Atom)) (hcontent : IsAnew content anew) :
    IsAnew (do
      let part ← reserve rule
      settle part (alternatives part (← content))
      return [Atom.nonterminal part]) (do
      let part ← reserve rule
      settle part (alternatives part (← anew))
      return [Atom.nonterminal part]) :=
  isAnew_bind (isAnew_reserve rule) fun part =>
    isAnew_bind hcontent fun a =>
      isAnew_bind (isAnew_settle part (alternatives part a)) fun _ => isAnew_pure _

end IsAnew

mutual

theorem isAnew_atoms (grammar : Grammar) (name : String) :
    ∀ rule : Rule, IsAnew (atoms grammar name rule) (atomsAnew grammar name rule)
  | .blank => by
    rw [atoms, atomsAnew]
    exact isAnew_pure _
  | .literal text => by
    rw [atoms, atomsAnew]
    split
    · exact isAnew_throw _
    · exact isAnew_pure _
  | .pattern source flags => by
    rw [atoms, atomsAnew]
    exact isAnew_bind (isAnew_pattern name source flags) fun regex => isAnew_pure _
  | .symbol reference => by
    rw [atoms, atomsAnew]
    cases grammar.indexOf? reference with
    | none => exact isAnew_throw _
    | some index => exact isAnew_pure _
  | .sequence members => by
    rw [atoms, atomsAnew]
    exact isAnew_atomsOfAll grammar name members
  | .choice members => by
    rw [atoms, atomsAnew]
    exact isAnew_part (fun _ each => each) (isAnew_alternativesOfAll grammar name members)
  | .star content => by
    rw [atoms, atomsAnew]
    exact isAnew_part starAlternatives (isAnew_atoms grammar name content)
  | .plus content => by
    rw [atoms, atomsAnew]
    exact isAnew_part plusAlternatives (isAnew_atoms grammar name content)

theorem isAnew_atomsOfAll (grammar : Grammar) (name : String) :
    ∀ members : List Rule,
      IsAnew (atomsOfAll grammar name members) (atomsOfAllAnew grammar name members)
  | [] => by
    rw [atomsOfAll, atomsOfAllAnew]
    exact isAnew_pure _
  | member :: rest => by
    rw [atomsOfAll, atomsOfAllAnew]
    exact isAnew_bind (isAnew_atoms grammar name member) fun first =>
      isAnew_bind (isAnew_atomsOfAll grammar name rest) fun others => isAnew_pure _

theorem isAnew_alternativesOfAll (grammar : Grammar) (name : String) :
    ∀ members : List Rule,
      IsAnew (alternativesOfAll grammar name members) (alternativesOfAllAnew grammar name members)
  | [] => by
    rw [alternativesOfAll, alternativesOfAllAnew]
    exact isAnew_pure _
  | member :: rest => by
    rw [alternativesOfAll, alternativesOfAllAnew]
    exact isAnew_bind (isAnew_atoms grammar name member) fun first =>
      isAnew_bind (isAnew_alternativesOfAll grammar name rest) fun others => isAnew_pure _

end

theorem isAnew_alternatives (grammar : Grammar) (name : String) (owner : Nonterminal)
    (rule : Rule) :
    IsAnew (alternatives grammar name owner rule) (alternativesAnew grammar name owner rule) := by
  have hsingle {rule : Rule} : IsAnew (do return [← atoms grammar name rule])
      (do return [← atomsAnew grammar name rule]) :=
    isAnew_bind (isAnew_atoms grammar name rule) fun once => isAnew_pure [once]
  cases rule with
  | choice members =>
    rw [alternatives, alternativesAnew]
    exact isAnew_alternativesOfAll grammar name members
  | star content =>
    rw [alternatives, alternativesAnew]
    exact isAnew_bind (isAnew_atoms grammar name content) fun once => isAnew_pure _
  | plus content =>
    rw [alternatives, alternativesAnew]
    exact isAnew_bind (isAnew_atoms grammar name content) fun once => isAnew_pure _
  | _ => exact hsingle

theorem isAnew_lowerRules (grammar : Grammar) (index : Nat) (rules : List (String × Rule)) :
    IsAnew (lowerRules grammar index rules) (lowerRulesAnew grammar index rules) := by
  induction rules generalizing index with
  | nil =>
    rw [lowerRules, lowerRulesAnew]
    exact isAnew_pure _
  | cons head rest ih =>
    rw [lowerRules, lowerRulesAnew]
    have hreset : IsAnew (modify fun draft => { draft with lastNumber := 0 } : Lower Unit)
        (modify fun draft => { draft with lastNumber := 0 }) :=
      isAnew_self (fun _ => rfl) fun draft _ next hstep => by cases hstep; rfl
    exact isAnew_bind hreset fun _ =>
      isAnew_bind (isAnew_alternatives grammar head.1 ⟨index⟩ head.2) fun each =>
        isAnew_bind (isAnew_settle ⟨index⟩ each) fun _ => ih (index + 1)

/-! ## The first fault -/

/-- A step fails with an error, or, if there is none, comes to its end, whatever the draft is. -/
def Reports {α : Type} (step : Lower α) : Option LowerError → Prop
  | none => ∀ draft, ∃ a next, step draft = .ok (a, next)
  | some error => ∀ draft, step draft = .error error

section Reports

variable {α β : Type} {fault fault' : Option LowerError}

theorem reports_pure (a : α) : Reports (pure a) none := fun draft => ⟨a, draft, rfl⟩

theorem reports_throw (error : LowerError) : Reports (throw error : Lower α) (some error) :=
  fun _ => rfl

/-- The fault of the first step is reported before that of the second. -/
theorem reports_bind {first : Lower α} {next : α → Lower β} (hfirst : Reports first fault)
    (hnext : ∀ a, Reports (next a) fault') : Reports (first >>= next) (fault.or fault') := by
  cases fault with
  | some error =>
    -- The second step is not begun.
    intro draft
    simp only [bind, StateT.bind, Except.bind, hfirst draft]
  | none =>
    rw [Option.none_or]
    cases fault' with
    | some error =>
      intro draft
      obtain ⟨a, between, hstep⟩ := hfirst draft
      simp only [bind, StateT.bind, Except.bind, hstep, hnext a between]
    | none =>
      intro draft
      obtain ⟨a, between, hstep⟩ := hfirst draft
      simp only [bind, StateT.bind, Except.bind, hstep]
      exact hnext a between

/-- Making something of a result has no fault of its own. -/
theorem reports_map {step : Lower α} (h : Reports step fault) (f : α → β) :
    Reports (do return f (← step)) fault := by
  rw [← Option.or_none (o := fault)]
  exact reports_bind h fun a => reports_pure (f a)

theorem reports_settle (part : Nonterminal) (alternatives : List (List Atom)) :
    Reports (settle part alternatives) none := fun _ => ⟨_, _, rfl⟩

/-- Of a part, the fault of its content is reported. -/
theorem reports_part {rule : String} {content : Lower α}
    (alternatives : Nonterminal → α → List (List Atom)) (h : Reports content fault) :
    Reports (do
      let part ← reserve rule
      settle part (alternatives part (← content))
      return [Atom.nonterminal part]) fault := by
  have hreserve : Reports (reserve rule) none := fun _ => ⟨_, _, rfl⟩
  rw [← Option.none_or (o := fault), ← Option.or_none (o := fault)]
  exact reports_bind hreserve fun part =>
    reports_bind h fun a =>
      reports_bind (reports_settle part (alternatives part a)) fun _ => reports_pure _

theorem reports_patternAnew (grammar : Grammar) (rule source : String) (flags : Option String) :
    Reports (patternAnew rule source flags) ((Leaf.pattern source flags).fault? grammar rule) := by
  rw [patternAnew, Leaf.fault?]
  cases Pattern.compile source flags with
  | ok regex => exact reports_pure regex
  | error error => cases error <;> exact reports_throw _

end Reports

mutual

/-- Flattening an expression reports the first fault of its leaves. -/
theorem reports_atomsAnew (grammar : Grammar) (name : String) :
    ∀ rule : Rule, Reports (atomsAnew grammar name rule)
      (rule.leaves.findSome? (Leaf.fault? grammar name))
  | .blank => by
    rw [atomsAnew, Rule.leaves]
    exact reports_pure _
  | .literal text => by
    rw [atomsAnew, Rule.leaves, List.findSome?_singleton, Leaf.fault?]
    split
    · exact reports_throw _
    · exact reports_pure _
  | .pattern source flags => by
    rw [atomsAnew, Rule.leaves, List.findSome?_singleton]
    exact reports_map (reports_patternAnew grammar name source flags) _
  | .symbol reference => by
    rw [atomsAnew, Rule.leaves, List.findSome?_singleton, Leaf.fault?]
    cases grammar.indexOf? reference with
    | none => exact reports_throw _
    | some index => exact reports_pure _
  | .sequence members => by
    rw [atomsAnew, Rule.leaves]
    exact reports_atomsOfAllAnew grammar name members
  -- The part is reserved before its content is looked at, and that cannot fail.
  | .choice members => by
    rw [atomsAnew, Rule.leaves]
    exact reports_part (fun _ each => each) (reports_alternativesOfAllAnew grammar name members)
  | .star content => by
    rw [atomsAnew, Rule.leaves]
    exact reports_part starAlternatives (reports_atomsAnew grammar name content)
  | .plus content => by
    rw [atomsAnew, Rule.leaves]
    exact reports_part plusAlternatives (reports_atomsAnew grammar name content)

theorem reports_atomsOfAllAnew (grammar : Grammar) (name : String) :
    ∀ members : List Rule, Reports (atomsOfAllAnew grammar name members)
      ((Rule.leavesOfAll members).findSome? (Leaf.fault? grammar name))
  | [] => by
    rw [atomsOfAllAnew, Rule.leavesOfAll]
    exact reports_pure _
  | member :: rest => by
    rw [atomsOfAllAnew, Rule.leavesOfAll, List.findSome?_append]
    exact reports_bind (reports_atomsAnew grammar name member) fun first =>
      reports_map (reports_atomsOfAllAnew grammar name rest) (first ++ ·)

theorem reports_alternativesOfAllAnew (grammar : Grammar) (name : String) :
    ∀ members : List Rule, Reports (alternativesOfAllAnew grammar name members)
      ((Rule.leavesOfAll members).findSome? (Leaf.fault? grammar name))
  | [] => by
    rw [alternativesOfAllAnew, Rule.leavesOfAll]
    exact reports_pure _
  | member :: rest => by
    rw [alternativesOfAllAnew, Rule.leavesOfAll, List.findSome?_append]
    exact reports_bind (reports_atomsAnew grammar name member) fun first =>
      reports_map (reports_alternativesOfAllAnew grammar name rest) (first :: ·)

end

theorem reports_alternativesAnew (grammar : Grammar) (name : String) (owner : Nonterminal)
    (rule : Rule) : Reports (alternativesAnew grammar name owner rule)
      (rule.leaves.findSome? (Leaf.fault? grammar name)) := by
  have hsingle (rule : Rule) : Reports (do return [← atomsAnew grammar name rule])
      (rule.leaves.findSome? (Leaf.fault? grammar name)) :=
    reports_map (reports_atomsAnew grammar name rule) fun once => [once]
  cases rule with
  | choice members =>
    rw [alternativesAnew, Rule.leaves]
    exact reports_alternativesOfAllAnew grammar name members
  | star content =>
    rw [alternativesAnew, Rule.leaves]
    exact reports_map (reports_atomsAnew grammar name content) _
  | plus content =>
    rw [alternativesAnew, Rule.leaves]
    exact reports_map (reports_atomsAnew grammar name content) _
  | _ => exact hsingle _

/-- Compiling rules reports the first fault of their leaves. -/
theorem reports_lowerRulesAnew (grammar : Grammar) (index : Nat) (rules : List (String × Rule)) :
    Reports (lowerRulesAnew grammar index rules)
      ((leavesOfRules rules).findSome? fun (name, leaf) => leaf.fault? grammar name) := by
  induction rules generalizing index with
  | nil =>
    rw [lowerRulesAnew]
    exact reports_pure _
  | cons head rest ih =>
    have hreset : Reports (modify fun draft => { draft with lastNumber := 0 } : Lower Unit) none :=
      fun _ => ⟨_, _, rfl⟩
    rw [lowerRulesAnew, leavesOfRules, List.flatMap_cons, List.findSome?_append,
      List.findSome?_map, ← Option.none_or (o := Option.or ..)]
    refine reports_bind hreset fun _ => ?_
    refine reports_bind (reports_alternativesAnew grammar head.1 ⟨index⟩ head.2) fun each => ?_
    rw [← Option.none_or (o := List.findSome? ..)]
    exact reports_bind (reports_settle ⟨index⟩ each) fun _ => ih (index + 1)

end Lowering

namespace Program

open Lowering

/-- Compiles a grammar, and each occurrence of a pattern anew. -/
def compileAnew (grammar : Grammar) : Except LowerError Program := do
  let startName ← (grammar.startRule?.elim (throw (.noRules grammar.name)) pure)
  let start ← (grammar.indexOf? startName).elim (throw (.unknownStart startName)) pure
  let ((), draft) ← (lowerRulesAnew grammar 0 grammar.rules).run (initial grammar)
  let layout := Program.Layout.ofProductions draft.productions.toList
  return ⟨draft.names, draft.symbols, layout.entries, layout.slots, ⟨start⟩,
    grammar.rules.length⟩

variable {grammar : Grammar}

/-- Keeping patterns makes no difference. -/
theorem compile_eq_compileAnew (grammar : Grammar) :
    Program.compile grammar = compileAnew grammar := by
  have hremembers := remembers_initial grammar
  obtain ⟨hsame, -⟩ := isAnew_lowerRules grammar 0 grammar.rules (initial grammar) hremembers
  have hinitial : (initial grammar).forget = initial grammar := rfl
  rw [hinitial] at hsame
  simp only [Program.compile, compileAnew, StateT.run, hsame]
  cases lowerRules grammar 0 grammar.rules (initial grammar) <;> rfl

/-- Compiling a grammar fails with its first fault, or succeeds if it has none. -/
theorem compile_of_firstFault? (grammar : Grammar) :
    match grammar.firstFault? with
    | none => ∃ program, Program.compile grammar = .ok program
    | some error => Program.compile grammar = .error error := by
  -- There must be a start, it must be a rule, and then the leaves decide.
  have hrules := reports_lowerRulesAnew grammar 0 grammar.rules
  rw [compile_eq_compileAnew, compileAnew, Grammar.firstFault?]
  cases hstart : grammar.startRule? with
  | none => rfl
  | some name =>
    cases hindex : grammar.indexOf? name with
    | none =>
      simp only [Option.elim_some, pure_bind, hindex]
      rfl
    | some index =>
      simp only [Option.elim_some, pure_bind, hindex, Option.isSome_some, if_true]
      cases hfault : (leavesOfRules grammar.rules).findSome? fun (rule, leaf) =>
          leaf.fault? grammar rule with
      | none =>
        rw [hfault] at hrules
        obtain ⟨⟨⟩, draft, hrun⟩ := hrules (initial grammar)
        simp only [StateT.run, hrun]
        exact ⟨_, rfl⟩
      | some error =>
        rw [hfault] at hrules
        simp only [StateT.run, hrules (initial grammar)]
        rfl

/-- **A grammar compiles just when it has no fault, and else its first fault is reported.** Which
patterns are kept makes no difference. -/
theorem compile_faults (grammar : Grammar) :
    ((∃ program, Program.compile grammar = .ok program) ↔ grammar.IsFaultless) ∧
    (∀ error, Program.compile grammar = .error error ↔ grammar.FirstFault error) ∧
    Program.compile grammar = compileAnew grammar := by
  have houtcome := compile_of_firstFault? grammar
  refine ⟨?_, fun error => ?_, compile_eq_compileAnew grammar⟩
  · rw [← Grammar.firstFault?_eq_none_iff]
    cases hfault : grammar.firstFault? with
    | none =>
      rw [hfault] at houtcome
      exact iff_of_true houtcome rfl
    | some error =>
      rw [hfault] at houtcome
      simp [houtcome]
  · rw [← Grammar.firstFault?_eq_some_iff]
    cases hfault : grammar.firstFault? with
    | none =>
      rw [hfault] at houtcome
      obtain ⟨program, hprogram⟩ := houtcome
      simp [hprogram]
    | some other =>
      rw [hfault] at houtcome
      simp [houtcome]

/-- The text is in a part of the rule, and before the reference. -/
example : Program.compile ((Grammar.empty "parts").withRule "S"
    (.sequence [.blank, .star (.choice [.literal ""]), .symbol "T"]))
      = .error (.emptyLiteral "S") := rfl

end Program

end Gll
