import Gll.Proofs.Course
import Mathlib.Data.Set.Insert

/-!
What holds of a scheduler, as single facts.

A scheduler only ever learns within a generation: nodes, frames, links, results and entries of the
tables are added and none is taken back. Said with `Fact`s that is one sentence (`Moment.Grows`),
and every property that is put together from facts without negation is kept for that reason alone.

For each of the elementary changes there is one lemma in the next file that says what it does: the
facts that hold afterwards are those from before and the named new ones (`Moment.Adds`). Nothing
after that looks into the arrays and tables of a scheduler.

The facts on nodes, stacks and links last (`Fact.Lasts`); those on the tables are of the current
generation alone.
-/

set_option autoImplicit false

namespace Gll

/-- A single thing that may hold of a scheduler and of what was offered to it. -/
inductive Fact where
  | frame (id : StackId) (label : Label) (origin : Nat)
  | link (frame : StackId) (link : Link)
  | empty (id : PrefixId) (position : Position)
  | cons (id : PrefixId) (label : Label) (first last : Position)
  | split (id : PrefixId) (child : Split)
  | terminal (id : SymbolId) (position : Position)
  | derivation (id : SymbolId) (symbol : Nonterminal) (first last : Position)
  | alternative (id : SymbolId) (child : PrefixId)
  /-- The frame of a label and an origin in this generation. -/
  | frameKey (label : Label) (origin : Nat) (id : StackId)
  /-- The empty prefix of this generation. -/
  | emptyKey (id : PrefixId)
  /-- The prefix of a label and a first position in this generation. -/
  | consKey (label : Label) (first : Position) (id : PrefixId)
  /-- The derivation of a nonterminal and a first position in this generation. -/
  | derivationKey (symbol : Nonterminal) (first : Position) (id : SymbolId)
  | result (frame : StackId) (symbol : SymbolId)
  | resumed (label : Label) (caller : StackId)
  | shifted (frame : StackId)
  | staged (task : Task)
  | offered (task : Task)

/-- Facts that outlive their generation. -/
def Fact.Lasts : Fact → Prop
  | frame .. | link .. | empty .. | cons .. | split .. | terminal .. | derivation ..
  | alternative .. => True
  | _ => False

/-- What of a scheduler does not change within a generation. -/
structure Control where
  start : Nonterminal
  first : Option Position
  root : Option SymbolId
  nextIndex : Nat
  isFinished : Bool
  current : Position
  terminal : Option SymbolId

/-- What of a scheduler does not change within a generation. -/
def Scheduler.control (s : Scheduler) : Control :=
  ⟨s.start, s.first, s.root, s.nextIndex, s.isFinished, s.current, s.terminal⟩

namespace Moment

/-- A fact holds at a moment. -/
def Holds (m : Moment) : Fact → Prop
  | .frame id label origin =>
    ∃ links, m.scheduler.graph.stack? id = some (.frame label origin links)
  | .link frame link =>
    ∃ label origin links, m.scheduler.graph.stack? frame = some (.frame label origin links) ∧
      link ∈ links
  | .empty id position => m.scheduler.forest.prefixNode? id = some (.empty position)
  | .cons id label first last =>
    ∃ children, m.scheduler.forest.prefixNode? id = some (.cons label first last children)
  | .split id child =>
    ∃ label first last children,
      m.scheduler.forest.prefixNode? id = some (.cons label first last children) ∧
        child ∈ children
  | .terminal id position => m.scheduler.forest.symbolNode? id = some (.terminal position)
  | .derivation id symbol first last =>
    ∃ alternatives,
      m.scheduler.forest.symbolNode? id = some (.nonterminal symbol first last alternatives)
  | .alternative id child =>
    ∃ symbol first last alternatives,
      m.scheduler.forest.symbolNode? id = some (.nonterminal symbol first last alternatives) ∧
        child ∈ alternatives
  | .frameKey label origin id => m.scheduler.memory.frames[(label, origin)]? = some id
  | .emptyKey id => m.scheduler.memory.emptyPrefix = some id
  | .consKey label first id => m.scheduler.memory.conses[(label, first)]? = some id
  | .derivationKey symbol first id => m.scheduler.memory.derivations[(symbol, first)]? = some id
  | .result frame symbol => symbol ∈ m.scheduler.results frame
  | .resumed label caller => (label, caller) ∈ m.scheduler.memory.resumed
  | .shifted frame => frame ∈ m.scheduler.memory.shifted
  | .staged task => task ∈ m.scheduler.staged
  | .offered task => task ∈ m.offers

/-- The tasks that are pending at a moment. -/
def pending (m : Moment) : List Task := m.scheduler.pending.toList

/-- A change within a generation that adds facts and nothing else. -/
structure Adds (before after : Moment) (new : Set Fact) : Prop where
  holds (fact : Fact) : after.Holds fact ↔ before.Holds fact ∨ fact ∈ new
  control : after.scheduler.control = before.scheduler.control
  pending : after.pending = before.pending

/-! ## Single heads -/

section Functional

variable {m : Moment}

/-- A frame has one label and one origin. -/
theorem frame_unique {id : StackId} {label label' : Label} {origin origin' : Nat}
    (h : m.Holds (.frame id label origin)) (h' : m.Holds (.frame id label' origin')) :
    label = label' ∧ origin = origin' := by
  obtain ⟨links, hstack⟩ := h
  obtain ⟨links', hstack'⟩ := h'
  rw [hstack] at hstack'
  simp only [Option.some.injEq, Stack.frame.injEq] at hstack'
  exact ⟨hstack'.1, hstack'.2.1⟩

theorem frame_of_link {id : StackId} {link : Link} (h : m.Holds (.link id link)) :
    ∃ label origin, m.Holds (.frame id label origin) := by
  obtain ⟨label, origin, links, hstack, -⟩ := h
  exact ⟨label, origin, links, hstack⟩

theorem cons_unique {id : PrefixId} {label label' : Label} {first first' last last' : Position}
    (h : m.Holds (.cons id label first last)) (h' : m.Holds (.cons id label' first' last')) :
    label = label' ∧ first = first' ∧ last = last' := by
  obtain ⟨children, hnode⟩ := h
  obtain ⟨children', hnode'⟩ := h'
  rw [hnode] at hnode'
  simp only [Option.some.injEq, PrefixNode.cons.injEq] at hnode'
  exact ⟨hnode'.1, hnode'.2.1, hnode'.2.2.1⟩

theorem not_empty_of_cons {id : PrefixId} {label : Label} {position first last : Position}
    (h : m.Holds (.cons id label first last)) : ¬ m.Holds (.empty id position) := by
  obtain ⟨children, hnode⟩ := h
  intro h'
  simp only [Holds] at h'
  rw [hnode] at h'
  simp at h'

theorem terminal_unique {id : SymbolId} {position position' : Position}
    (h : m.Holds (.terminal id position)) (h' : m.Holds (.terminal id position')) :
    position = position' := by
  simp only [Holds] at h h'
  rw [h] at h'
  simpa using h'

theorem derivation_unique {id : SymbolId} {symbol symbol' : Nonterminal}
    {first first' last last' : Position} (h : m.Holds (.derivation id symbol first last))
    (h' : m.Holds (.derivation id symbol' first' last')) :
    symbol = symbol' ∧ first = first' ∧ last = last' := by
  obtain ⟨alternatives, hnode⟩ := h
  obtain ⟨alternatives', hnode'⟩ := h'
  rw [hnode] at hnode'
  simp only [Option.some.injEq, SymbolNode.nonterminal.injEq] at hnode'
  exact ⟨hnode'.1, hnode'.2.1, hnode'.2.2.1⟩

theorem not_terminal_of_derivation {id : SymbolId} {symbol : Nonterminal}
    {position first last : Position} (h : m.Holds (.derivation id symbol first last)) :
    ¬ m.Holds (.terminal id position) := by
  obtain ⟨alternatives, hnode⟩ := h
  intro h'
  simp only [Holds] at h'
  rw [hnode] at h'
  simp at h'

theorem emptyKey_unique {id id' : PrefixId} (h : m.Holds (.emptyKey id))
    (h' : m.Holds (.emptyKey id')) : id = id' :=
  Option.some.inj (h.symm.trans h')

theorem consKey_unique {label : Label} {first : Position} {id id' : PrefixId}
    (h : m.Holds (.consKey label first id)) (h' : m.Holds (.consKey label first id')) : id = id' :=
  Option.some.inj (h.symm.trans h')

theorem derivationKey_unique {symbol : Nonterminal} {first : Position} {id id' : SymbolId}
    (h : m.Holds (.derivationKey symbol first id))
    (h' : m.Holds (.derivationKey symbol first id')) : id = id' :=
  Option.some.inj (h.symm.trans h')

end Functional

end Moment

end Gll
