import Gll.Proofs.Generation
import Gll.Proofs.Knowledge

/-!
Nodes and frames are made once.

What tells a node from others of its kind is its `Shape`. Whether there is one of a shape is decided
by tables that each generation starts afresh, while the nodes stay. It is still decided rightly over
the whole parse, because nodes are only made where the parse is: the tables list exactly the nodes
that end at the current position (`Distinct.listed`), and all others end at positions that will not
come again (`Distinct.past`).

Frames are told apart within their generation only, by return label and origin (`FramesListed`). The
root is listed from the opening of a generation on (`Rooted`), so that no other derivation of the
start nonterminal over the whole input is ever made.
-/

set_option autoImplicit false

namespace Gll

/-- What tells a node from others of its kind. -/
inductive Shape where
  | empty (position : Position)
  | cons (label : Label) (first last : Position)
  | terminal (position : Position)
  | derivation (symbol : Nonterminal) (first last : Position)

namespace Shape

/-- The position at which nodes of a shape were made. -/
def last : Shape → Position
  | empty position => position
  | cons _ _ last => last
  | terminal position => position
  | derivation _ _ last => last

/-- The node of a number has a shape. -/
def node : Shape → Nat → Fact
  | empty position, i => .empty ⟨i⟩ position
  | cons label first last, i => .cons ⟨i⟩ label first last
  | terminal position, i => .terminal ⟨i⟩ position
  | derivation symbol first last, i => .derivation ⟨i⟩ symbol first last

theorem lasts_node (shape : Shape) (i : Nat) : (shape.node i).Lasts := by
  cases shape <;> trivial

@[simp] theorem node_inj {shape shape' : Shape} {i j : Nat} :
    shape.node i = shape'.node j ↔ shape = shape' ∧ i = j := by
  cases shape <;> cases shape' <;> simp [node] <;> grind

end Shape

namespace Scheduler

/-- The tables have a number for a shape, taken to end at the current position. -/
def Lists (s : Scheduler) : Shape → Nat → Prop
  | .empty _, i => s.Knows (.emptyKey ⟨i⟩)
  | .cons label first _, i => s.Knows (.consKey label first ⟨i⟩)
  | .terminal _, i => s.terminal = some ⟨i⟩
  | .derivation symbol first _, i => s.Knows (.derivationKey symbol first ⟨i⟩)

theorem Lists.unique {s : Scheduler} {shape : Shape} {i j : Nat} (hi : s.Lists shape i)
    (hj : s.Lists shape j) : i = j := by
  cases shape with
  | empty position => exact congrArg PrefixId.index (Moment.emptyKey_unique hi hj)
  | cons label first last => exact congrArg PrefixId.index (Moment.consKey_unique hi hj)
  | terminal position => exact congrArg SymbolId.index (Option.some.inj (hi.symm.trans hj))
  | derivation symbol first last =>
    exact congrArg SymbolId.index (Moment.derivationKey_unique hi hj)

/-- There is one node of a shape. -/
structure Distinct (s : Scheduler) : Prop where
  unique (shape : Shape) {i j : Nat} :
    s.Knows (shape.node i) → s.Knows (shape.node j) → i = j
  past {shape : Shape} {i : Nat} :
    s.Knows (shape.node i) → shape.last = .beforeInput ∨ shape.last.offset < s.nextIndex
  listed (shape : Shape) (i : Nat) :
    shape.last = s.current → (s.Knows (shape.node i) ↔ s.Lists shape i)
  place : s.current = .beforeInput ∨ s.current.offset < s.nextIndex

variable {s s' rest : Scheduler} {new : Set Fact}

theorem Learns.current_eq (h : s.Learns s' new) : s'.current = s.current :=
  congrArg Control.current h.control

theorem Learns.nextIndex_eq (h : s.Learns s' new) : s'.nextIndex = s.nextIndex :=
  congrArg Control.nextIndex h.control

theorem Learns.terminal_eq (h : s.Learns s' new) : s'.terminal = s.terminal :=
  congrArg Control.terminal h.control

/-- The prefix that is found or made for a label ends at the current position. -/
theorem Distinct.consFor (h : s'.Distinct) {label : Label} {first : Position} {id : PrefixId}
    (hcons : s.consFor label first = (id, s')) :
    s'.Knows (.consKey label first id) ∧ s'.Knows (.cons id label first s'.current) := by
  have hkey : s'.Knows (.consKey label first id) := by
    rcases consFor_cases hcons with ⟨rfl, hkey⟩ | ⟨-, hlearns⟩
    · exact hkey
    · exact (hlearns.knows _).mpr (.inr (by simp))
  exact ⟨hkey, (h.listed (.cons label first _) id.index rfl).mpr hkey⟩

/-- The derivation that is found or made of a nonterminal ends at the current position. -/
theorem Distinct.derivationFor (h : s'.Distinct) {symbol : Nonterminal} {first : Position}
    {id : SymbolId} (hderivation : s.derivationFor symbol first = (id, s')) :
    s'.Knows (.derivation id symbol first s'.current) := by
  have hkey : s'.Knows (.derivationKey symbol first id) := by
    rcases derivationFor_cases hderivation with ⟨rfl, hkey⟩ | ⟨-, hlearns⟩
    · exact hkey
    · exact (hlearns.knows _).mpr (.inr (by simp))
  exact (h.listed (.derivation symbol first _) id.index rfl).mpr hkey

/-- A new node is made at the current position, if none of its shape is listed, and then it is. -/
theorem Distinct.of_node (h : s.Distinct) (made : Shape) {i : Nat} {key : Fact}
    (hlearns : s.Learns s' {made.node i, key}) (hkey : ∀ (shape : Shape) j, shape.node j ≠ key)
    (hlast : made.last = s.current) (hnew : ∀ j, ¬ s.Lists made j)
    (hlists : ∀ (shape : Shape) j, shape.last = s.current →
      (s'.Lists shape j ↔ s.Lists shape j ∨ shape = made ∧ j = i)) : s'.Distinct := by
  have hknows (shape : Shape) (j : Nat) :
      s'.Knows (shape.node j) ↔ s.Knows (shape.node j) ∨ shape = made ∧ j = i := by
    simp [hlearns.knows, hkey]
  have hunknown (j : Nat) : ¬ s.Knows (made.node j) :=
    fun hj => hnew j ((h.listed made j hlast).mp hj)
  constructor
  -- Of two numbers for one shape, either both are old, or both are the new one.
  · intro shape j k hj hk
    rcases (hknows _ _).mp hj with hold | ⟨rfl, rfl⟩
    · rcases (hknows _ _).mp hk with hold' | ⟨rfl, rfl⟩
      · exact h.unique _ hold hold'
      · exact absurd hold (hunknown _)
    · rcases (hknows _ _).mp hk with hold' | ⟨-, rfl⟩
      · exact absurd hold' (hunknown _)
      · rfl
  · intro shape j hj
    rw [hlearns.nextIndex_eq]
    rcases (hknows _ _).mp hj with hold | ⟨rfl, -⟩
    · exact h.past hold
    · rw [hlast]
      exact h.place
  · intro shape j hj
    rw [hlearns.current_eq] at hj
    rw [hknows, hlists shape j hj, h.listed shape j hj]
  · rw [hlearns.current_eq, hlearns.nextIndex_eq]
    exact h.place

/-- A lesson that is not on nodes changes nothing about them. -/
theorem Distinct.of_others (h : s.Distinct) (hlearns : s.Learns s' new)
    (hnodes : ∀ (shape : Shape) i, shape.node i ∉ new)
    (hlists : ∀ (shape : Shape) i, s'.Lists shape i ↔ s.Lists shape i) : s'.Distinct := by
  have hknows (shape : Shape) (i : Nat) : s'.Knows (shape.node i) ↔ s.Knows (shape.node i) := by
    simp [hlearns.knows, hnodes]
  constructor
  · intro shape i j hi hj
    exact h.unique shape ((hknows _ _).mp hi) ((hknows _ _).mp hj)
  · intro shape i hi
    rw [hlearns.nextIndex_eq]
    exact h.past ((hknows _ _).mp hi)
  · intro shape i hlast
    rw [hlearns.current_eq] at hlast
    rw [hknows, hlists, h.listed shape i hlast]
  · rw [hlearns.current_eq, hlearns.nextIndex_eq]
    exact h.place

theorem kept_distinct : Kept Distinct := by
  refine .of_lessons fun {s s' new} hlesson hlearns h => ?_
  -- The three kinds of nodes that have a table are each made together with their entry.
  cases hlesson with
  | @empty id hnew =>
    obtain ⟨k⟩ := id
    refine h.of_node (.empty s.current) hlearns ?_ rfl (fun j => hnew ⟨j⟩) ?_
    · rintro (_ | _ | _ | _) j <;> simp [Shape.node]
    · rintro (_ | _ | _ | _) j hlast <;>
        simp_all [Shape.last, Lists, hlearns.knows, hlearns.terminal_eq]
  | @cons label first id hnew =>
    obtain ⟨k⟩ := id
    refine h.of_node (.cons label first s.current) hlearns ?_ rfl (fun j => hnew ⟨j⟩) ?_
    · rintro (_ | _ | _ | _) j <;> simp [Shape.node]
    · rintro (_ | _ | _ | _) j hlast <;>
        simp_all [Shape.last, Lists, hlearns.knows, hlearns.terminal_eq, and_assoc]
  | @derivation symbol first id hnew =>
    obtain ⟨k⟩ := id
    refine h.of_node (.derivation symbol first s.current) hlearns ?_ rfl
      (fun j => hnew ⟨j⟩) ?_
    · rintro (_ | _ | _ | _) j <;> simp [Shape.node]
    · rintro (_ | _ | _ | _) j hlast <;>
        simp_all [Shape.last, Lists, hlearns.knows, hlearns.terminal_eq, and_assoc]
  | _ =>
    refine h.of_others hlearns ?_ ?_
    · rintro (_ | _ | _ | _) i <;> simp [Shape.node]
    · rintro (_ | _ | _ | _) i <;> simp [Lists, hlearns.knows, hlearns.terminal_eq]

theorem knows_initial {start : Nonterminal} {fact : Fact} (hlasts : fact.Lasts) :
    ¬ (initial start).Knows fact :=
  Moment.not_holds_initial hlasts

theorem distinct_initial (start : Nonterminal) : (initial start).Distinct where
  unique _ _ _ hi _ := absurd hi (knows_initial (Shape.lasts_node _ _))
  past hi := absurd hi (knows_initial (Shape.lasts_node _ _))
  listed shape i _ := by
    refine ⟨fun hi => absurd hi (knows_initial (Shape.lasts_node _ _)), fun hi => ?_⟩
    cases shape <;> simp [Lists, Knows, Moment.Holds, initial, Memory.empty] at hi
  place := .inl rfl

/-- Taking a task out teaches nothing. -/
theorem dequeue_learns {task : Task} (h : s.dequeue? = some (task, rest)) : s.Learns rest ∅ := by
  obtain ⟨hholds, hcontrol, -⟩ := Moment.dequeue_spec [] h
  exact ⟨fun fact => by simp [Knows, hholds], hcontrol⟩

theorem Distinct.of_dequeue (h : s.Distinct) {task : Task}
    (hdequeue : s.dequeue? = some (task, rest)) : rest.Distinct := by
  have hlearns := dequeue_learns hdequeue
  refine h.of_others hlearns (fun _ _ => Set.notMem_empty _) ?_
  rintro (_ | _ | _ | _) i <;> simp [Lists, hlearns.knows, hlearns.terminal_eq]

theorem offset_nextPosition (s : Scheduler) (symbol : Option Char) :
    (s.nextPosition symbol).offset = s.nextIndex := by
  cases symbol <;> rfl

/-- The position of a new generation is none of those at which nodes have been made. -/
theorem Distinct.last_ne_nextPosition (h : s.Distinct) {shape : Shape} {i : Nat}
    (hi : s.Knows (shape.node i)) (symbol : Option Char) : shape.last ≠ s.nextPosition symbol := by
  intro heq
  have hread : s.nextPosition symbol ≠ .beforeInput := by cases symbol <;> simp [nextPosition]
  rcases h.past hi with hlast | hlast
  · exact hread (heq.symm.trans hlast)
  · rw [heq, offset_nextPosition] at hlast
    exact Nat.lt_irrefl _ hlast

theorem start_advance (s : Scheduler) (symbol : Option Char) :
    (s.advance symbol).start = s.start := by
  obtain ⟨root, node, hopens⟩ := Moment.opens_advance ⟨s, []⟩ symbol
  exact congrArg Control.start hopens.control

theorem current_advance (s : Scheduler) (symbol : Option Char) :
    (s.advance symbol).current = s.nextPosition symbol := by
  obtain ⟨root, node, hopens⟩ := Moment.opens_advance ⟨s, []⟩ symbol
  exact congrArg Control.current hopens.control

theorem nextIndex_advance (s : Scheduler) (symbol : Option Char) :
    (s.advance symbol).nextIndex = s.nextIndex + 1 := by
  obtain ⟨root, node, hopens⟩ := Moment.opens_advance ⟨s, []⟩ symbol
  exact congrArg Control.nextIndex hopens.control

theorem first_advance (s : Scheduler) (symbol : Option Char) :
    (s.advance symbol).first = some (s.first.getD (s.nextPosition symbol)) := by
  obtain ⟨root, node, hopens⟩ := Moment.opens_advance ⟨s, []⟩ symbol
  exact congrArg Control.first hopens.control

/-- The nodes of a new generation are that of the symbol and the root; nothing is listed but them.
-/
theorem knows_advance (s : Scheduler) (symbol : Option Char) :
    ∃ root, (s.advance symbol).root = some root ∧
      ∀ fact, (s.advance symbol).Knows fact ↔ (fact.Lasts ∧ s.Knows fact) ∨
        (∃ id, (s.advance symbol).terminal = some id ∧
          fact = .terminal id (s.advance symbol).current) ∨
        fact = .derivation root s.start (s.first.getD (s.nextPosition symbol))
          (s.advance symbol).current ∨
        fact = .derivationKey s.start (s.first.getD (s.nextPosition symbol)) root := by
  obtain ⟨root, node, hopens⟩ := Moment.opens_advance ⟨s, []⟩ symbol
  have hcontrol : (s.advance symbol).control = _ := hopens.control
  simp only [control, Control.mk.injEq] at hcontrol
  obtain ⟨-, -, hroot, -, -, hcurrent, hterminal⟩ := hcontrol
  refine ⟨root, hroot, fun fact => ?_⟩
  rw [hcurrent, hterminal]
  exact hopens.holds fact

theorem Distinct.advance (h : s.Distinct) (symbol : Option Char) :
    (s.advance symbol).Distinct := by
  obtain ⟨⟨root⟩, -, hknows⟩ := knows_advance s symbol
  -- What is there is old, or it ends at the new position and the tables list it.
  have hnodes (shape : Shape) (i : Nat) : (s.advance symbol).Knows (shape.node i) ↔
      s.Knows (shape.node i) ∨
        (shape.last = (s.advance symbol).current ∧ (s.advance symbol).Lists shape i) := by
    rw [hknows]
    rcases shape with _ | _ | _ | _ <;>
      simp only [Shape.node, Shape.last, Lists, Fact.Lasts, hknows] <;> grind
  have hnew {shape : Shape} {i : Nat} (hi : s.Knows (shape.node i)) :
      shape.last ≠ (s.advance symbol).current := by
    rw [current_advance]
    exact h.last_ne_nextPosition hi symbol
  constructor
  · intro shape i j hi hj
    rcases (hnodes _ _).mp hi with hold | ⟨hlast, hlists⟩
    · rcases (hnodes _ _).mp hj with hold' | ⟨hlast, -⟩
      · exact h.unique _ hold hold'
      · exact absurd hlast (hnew hold)
    · rcases (hnodes _ _).mp hj with hold | ⟨-, hlists'⟩
      · exact absurd hlast (hnew hold)
      · exact hlists.unique hlists'
  · intro shape i hi
    rw [nextIndex_advance]
    rcases (hnodes _ _).mp hi with hold | ⟨hlast, -⟩
    · exact (h.past hold).imp_right Nat.lt_succ_of_lt
    · rw [hlast, current_advance, offset_nextPosition]
      exact .inr (Nat.lt_succ_self _)
  · intro shape i hlast
    rw [hnodes]
    constructor
    · rintro (hold | ⟨-, hlists⟩)
      · exact absurd hlast (hnew hold)
      · exact hlists
    · exact fun hlists => .inr ⟨hlast, hlists⟩
  · rw [current_advance, nextIndex_advance, offset_nextPosition]
    exact .inr (Nat.lt_succ_self _)

theorem law_distinct (start : Nonterminal) : Law start Distinct where
  toKept := kept_distinct
  initial := distinct_initial start
  advance symbol _ h := h.advance symbol
  dequeue hdequeue h := h.of_dequeue hdequeue

/-! ## The root -/

/-- The root is listed as the derivation of the start nonterminal over everything read so far. -/
structure Rooted (start : Nonterminal) (s : Scheduler) : Prop where
  start_eq : s.start = start
  unread : s.nextIndex = 0 → s.first = none
  root : 0 < s.nextIndex → ∃ first root, s.first = some first ∧ first.offset = 0 ∧
    s.root = some root ∧ s.Knows (.derivationKey start first root)

theorem Rooted.of_learns {start : Nonterminal} (h : Rooted start s) (hlearns : s.Learns s' new) :
    Rooted start s' := by
  have hfirst : s'.first = s.first := congrArg Control.first hlearns.control
  have hroot : s'.root = s.root := congrArg Control.root hlearns.control
  refine ⟨(congrArg Control.start hlearns.control).trans h.start_eq, fun hnext => ?_,
    fun hnext => ?_⟩
  · rw [hlearns.nextIndex_eq] at hnext
    exact hfirst.trans (h.unread hnext)
  · rw [hlearns.nextIndex_eq] at hnext
    obtain ⟨first, root, hfirst', hoffset, hroot', hkey⟩ := h.root hnext
    exact ⟨first, root, hfirst.trans hfirst', hoffset, hroot.trans hroot',
      (hlearns.knows _).mpr (.inl hkey)⟩

theorem Rooted.advance {start : Nonterminal} (h : Rooted start s) (symbol : Option Char) :
    Rooted start (s.advance symbol) := by
  obtain ⟨root, hroot, hknows⟩ := knows_advance s symbol
  refine ⟨(start_advance s symbol).trans h.start_eq, fun hnext => ?_, fun _ => ?_⟩
  · rw [nextIndex_advance] at hnext
    exact absurd hnext (Nat.succ_ne_zero _)
  · refine ⟨_, root, first_advance s symbol, ?_, hroot, ?_⟩
    · rcases Nat.eq_zero_or_pos s.nextIndex with hzero | hpos
      · rw [h.unread hzero, Option.getD_none, offset_nextPosition, hzero]
      · obtain ⟨first, _, hfirst, hoffset, -⟩ := h.root hpos
        rw [hfirst, Option.getD_some, hoffset]
    · rw [hknows, h.start_eq]
      exact .inr (.inr (.inr rfl))

theorem law_rooted (start : Nonterminal) : Law start (Rooted start) where
  toKept := .of_lessons fun _ hlearns h => h.of_learns hlearns
  initial := ⟨rfl, fun _ => rfl, fun hnext => absurd hnext (Nat.lt_irrefl 0)⟩
  advance symbol _ h := h.advance symbol
  dequeue hdequeue h := h.of_learns (dequeue_learns hdequeue)

/-! ## Frames -/

/-- What the table of frames has is the frame of its label and origin. -/
def FrameKeys (s : Scheduler) : Prop :=
  ∀ ⦃label origin id⦄, s.Knows (.frameKey label origin id) → s.Knows (.frame id label origin)

theorem FrameKeys.of_learns (h : FrameKeys s) (hlearns : s.Learns s' new)
    (hnew : ∀ label origin id, .frameKey label origin id ∈ new → .frame id label origin ∈ new) :
    FrameKeys s' := by
  intro label origin id hkey
  rcases (hlearns.knows _).mp hkey with hold | hmem
  · exact (hlearns.knows _).mpr (.inl (h hold))
  · exact (hlearns.knows _).mpr (.inr (hnew label origin id hmem))

theorem law_frameKeys (start : Nonterminal) : Law start FrameKeys where
  toKept := .of_lessons fun hlesson hlearns h => h.of_learns hlearns fun label origin id hmem => by
    cases hlesson <;> simp_all
  initial := fun label origin id hkey => by
    simp [Knows, Moment.Holds, initial, Memory.empty] at hkey
  advance {s} symbol _ _ := fun label origin id hkey => by
    obtain ⟨root, -, hknows⟩ := knows_advance s symbol
    simp [hknows, Fact.Lasts] at hkey
  dequeue hdequeue h := h.of_learns (dequeue_learns hdequeue) fun _ _ _ hmem =>
    absurd hmem (Set.notMem_empty _)

/-- The frames that were not there when the generation was opened are listed. -/
def FramesListed (opened s : Scheduler) : Prop :=
  ∀ ⦃id label origin⦄, s.Knows (.frame id label origin) → opened.graph.stack? id = none →
    s.Knows (.frameKey label origin id)

theorem framesListed_self (opened : Scheduler) : FramesListed opened opened := by
  rintro id label origin ⟨links, hstack⟩ hnone
  exact absurd (hstack.symm.trans hnone) (Option.some_ne_none _)

theorem FramesListed.of_learns {opened : Scheduler} (h : FramesListed opened s)
    (hlearns : s.Learns s' new)
    (hnew : ∀ id label origin, .frame id label origin ∈ new → .frameKey label origin id ∈ new) :
    FramesListed opened s' := by
  intro id label origin hframe hnone
  rcases (hlearns.knows _).mp hframe with hold | hmem
  · exact (hlearns.knows _).mpr (.inl (h hold hnone))
  · exact (hlearns.knows _).mpr (.inr (hnew id label origin hmem))

theorem kept_framesListed (opened : Scheduler) : Kept (FramesListed opened) := by
  refine .of_lessons fun hlesson hlearns h => h.of_learns hlearns fun id label origin hmem => ?_
  cases hlesson <;> simp_all

/-- Two frames of one generation have not both the label and the origin in common. -/
theorem FramesListed.unique {opened : Scheduler} (h : FramesListed opened s) {id id' : StackId}
    {label : Label} {origin : Nat} (hframe : s.Knows (.frame id label origin))
    (hnone : opened.graph.stack? id = none) (hframe' : s.Knows (.frame id' label origin))
    (hnone' : opened.graph.stack? id' = none) : id = id' := by
  have hkey := h hframe hnone
  have hkey' := h hframe' hnone'
  exact Option.some.inj (hkey.symm.trans hkey')

end Scheduler

end Gll
