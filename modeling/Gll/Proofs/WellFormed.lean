import Gll.Proofs.Calls
import Gll.Proofs.Compilation
import Gll.Proofs.Identity
import Gll.Proofs.Sets
import Gll.Proofs.Trees

/-!
Well-formed forests.

Every node of the forest of a compiled grammar is what the slots of its program say, at any time of
a parse. An alternative of a derivation is the empty prefix or a prefix at the slot that completes
the nonterminal. A way to build a prefix goes back by one slot: to its right is what the instruction
of that slot is about, to its left the prefix at that slot, or the empty one, if the dot is at the
beginning. The one prefix of slot 0 is the start nonterminal over what was read.

That both parts of a split are over adjoining spans is what is proper of it (`Moment.Proper`); that
no split comes twice is then a consequence of there being one node of each shape.
-/

set_option autoImplicit false

namespace Gll

namespace Program

section Definitions

variable (program : Program) (s : Scheduler)

/-- The symbol at the right of a split is over what the instruction of a slot is about, from the
split up to a position. -/
inductive Spans : Instruction → SymbolId → Position → Position → Prop where
  | terminal {matcher : Matcher} {id : SymbolId} {char : Char} {i : Nat} {last : Position}
      (hnode : s.forest.symbolNode? id = some (.terminal (.symbol char i)))
      (haccepts : matcher.accepts char = true) (hlast : last.offset = i + 1) :
      Spans (.terminal matcher) id (.symbol char i) last
  | call {callee : Nonterminal} {id : SymbolId} {alternatives : Array PrefixId}
      {split last : Position}
      (hnode : s.forest.symbolNode? id = some (.nonterminal callee split last alternatives)) :
      Spans (.call callee) id split last

/-- The prefix at a slot, from a position up to a split: the empty one at the beginning. -/
inductive Precedes (label : Label) : Nat → PrefixId → Position → Position → Prop where
  | empty {id : PrefixId} {first : Position}
      (hnode : s.forest.prefixNode? id = some (.empty first)) : Precedes label 0 id first first
  | cons {dot : Nat} {id : PrefixId} {first split : Position} {children : Array Split}
      (hdot : 0 < dot)
      (hnode : s.forest.prefixNode? id = some (.cons label first split children)) :
      Precedes label dot id first split

/-- An alternative of a derivation is the prefix at a slot that completes its nonterminal. -/
inductive Completes (symbol : Nonterminal) (first last : Position) (id : PrefixId) : Prop where
  | empty {labels : List Label} {entry : Label} (hlabels : program.entries? symbol = some labels)
      (hentry : entry ∈ labels)
      (hslot : program.slot? entry = some ⟨some symbol, 0, .complete symbol⟩)
      (hfirst : first = last) (hnode : s.forest.prefixNode? id = some (.empty first)) :
      Completes symbol first last id
  | cons {label : Label} {dot : Nat} {children : Array Split} (hdot : 0 < dot)
      (hslot : program.slot? label = some ⟨some symbol, dot, .complete symbol⟩)
      (hnode : s.forest.prefixNode? id = some (.cons label first last children)) :
      Completes symbol first last id

/-- A way to build the prefix of a label goes back by one slot; that of slot 0 is the start
nonterminal from the first position on. -/
inductive Builds (first last : Position) : Label → Split → Prop where
  | slot {label previous : Label} {slot : Slot} {split : Position} {left : PrefixId}
      {right : SymbolId} (hnext : previous.next = label)
      (hslot : program.slot? previous = some slot)
      (hright : Spans s slot.instruction right split last)
      (hleft : Precedes s previous slot.dot left first split) :
      Builds first last label ⟨label, split, left, right⟩
  | accept {left : PrefixId} {right : SymbolId} {alternatives : Array PrefixId}
      (hfirst : s.first = some first) (hleft : s.forest.prefixNode? left = some (.empty first))
      (hright : s.forest.symbolNode? right
        = some (.nonterminal program.start first last alternatives)) :
      Builds first last acceptLabel ⟨acceptLabel, first, left, right⟩

/-- Everything in the forest is what the slots say, and no split comes twice. -/
structure WellFormed : Prop where
  alternatives {id : SymbolId} {symbol : Nonterminal} {first last : Position}
    {alternatives : Array PrefixId} {child : PrefixId} :
    s.forest.symbolNode? id = some (.nonterminal symbol first last alternatives) →
      child ∈ alternatives → program.Completes s symbol first last child
  children {id : PrefixId} {label : Label} {first last : Position} {children : Array Split}
    {child : Split} : s.forest.prefixNode? id = some (.cons label first last children) →
      child ∈ children → program.Builds s first last label child
  distinct {id : PrefixId} {label : Label} {first last : Position} {children : Array Split} :
    s.forest.prefixNode? id = some (.cons label first last children) →
      (children.toList.map Split.split).Nodup

end Definitions

section Proofs

variable {program : Program} {s : Scheduler} {input : List Char} {m : Moment}

/-- There is one symbol over what an instruction is about, between two positions. -/
theorem Spans.unique (hdistinct : s.Distinct) {instruction : Instruction} {id id' : SymbolId}
    {split last : Position} (h : Spans s instruction id split last)
    (h' : Spans s instruction id' split last) : id = id' := by
  cases h with
  | terminal hnode _ _ =>
    cases h' with
    | terminal hnode' _ _ =>
      exact congrArg SymbolId.mk (hdistinct.unique (.terminal (.symbol _ _)) hnode hnode')
  | call hnode =>
    cases h' with
    | call hnode' =>
      exact congrArg SymbolId.mk
        (hdistinct.unique (.derivation _ split last) ⟨_, hnode⟩ ⟨_, hnode'⟩)

/-- There is one prefix at a slot between two positions. -/
theorem Precedes.unique (hdistinct : s.Distinct) {label : Label} {dot : Nat} {id id' : PrefixId}
    {first split : Position} (h : Precedes s label dot id first split)
    (h' : Precedes s label dot id' first split) : id = id' := by
  cases h with
  | empty hnode =>
    cases h' with
    | empty hnode' => exact congrArg PrefixId.mk (hdistinct.unique (.empty first) hnode hnode')
    | cons hdot _ => exact absurd hdot (Nat.lt_irrefl 0)
  | cons hdot hnode =>
    cases h' with
    | empty _ => exact absurd hdot (Nat.lt_irrefl 0)
    | cons _ hnode' =>
      exact congrArg PrefixId.mk
        (hdistinct.unique (.cons label first split) ⟨_, hnode⟩ ⟨_, hnode'⟩)

/-- A derivation is completed in one way at a slot, and in one way by the empty prefix. -/
theorem Completes.unique (hdistinct : s.Distinct) {symbol : Nonterminal} {first last : Position}
    {id id' : PrefixId} (h : program.Completes s symbol first last id)
    (h' : program.Completes s symbol first last id')
    (hending : s.forest.endingOf id = s.forest.endingOf id') : id = id' := by
  unfold Forest.endingOf at hending
  -- The ending tells the empty prefix from the others, and of the others it tells the slot.
  cases h with
  | empty _ _ _ _ hempty =>
    cases h' with
    | empty _ _ _ _ hempty' =>
      exact congrArg PrefixId.mk (hdistinct.unique (.empty first) hempty hempty')
    | cons _ _ hcons' =>
      rw [hempty, hcons'] at hending
      cases hending
  | cons _ _ hcons =>
    cases h' with
    | empty _ _ _ _ hempty' =>
      rw [hcons, hempty'] at hending
      cases hending
    | cons _ _ hcons' =>
      rw [hcons, hcons'] at hending
      obtain rfl := Option.some.inj hending
      exact congrArg PrefixId.mk (hdistinct.unique (.cons _ first last) ⟨_, hcons⟩ ⟨_, hcons'⟩)

theorem next_ne_accept (label : Label) : label.next ≠ acceptLabel := fun h =>
  Nat.succ_ne_zero _ (Label.mk.inj h)

/-- A prefix is built at a split in one way. -/
theorem Builds.unique (hdistinct : s.Distinct) {first last : Position} {label : Label}
    {child child' : Split} (h : program.Builds s first last label child)
    (h' : program.Builds s first last label child') (hsplit : child.split = child'.split) :
    child = child' := by
  cases h with
  | slot hnext hslot hright hleft =>
    cases h' with
    | slot hnext' hslot' hright' hleft' =>
      obtain rfl := Label.next_inj (hnext.trans hnext'.symm)
      cases hslot.symm.trans hslot'
      obtain rfl := hsplit
      rw [hright.unique hdistinct hright', hleft.unique hdistinct hleft']
    | accept => exact absurd hnext (next_ne_accept _)
  | accept _ hleft hright =>
    cases h' with
    | slot hnext' => exact absurd hnext' (next_ne_accept _)
    | accept _ hleft' hright' =>
      have hprecedes {id : PrefixId} (hnode : s.forest.prefixNode? id = some (.empty first)) :
          Precedes s acceptLabel 0 id first first := .empty hnode
      rw [(Spans.call hright).unique hdistinct (.call hright'),
        (hprecedes hleft).unique hdistinct (hprecedes hleft')]

/-- A symbol node over an atom is over what the instruction for the atom is about. -/
theorem spans_of_derivative {atom : Atom} {id : SymbolId} {i j : Nat}
    (h : m.Derivative program input atom id i j) :
    Spans m.scheduler atom.instruction id (.of input i) (.of input j) := by
  cases h with
  | @terminal matcher _ c _ hnode hchar haccepts =>
    have hposition : Position.of input i = .symbol c i := by rw [Position.of, hchar]
    rw [hposition]
    rw [Moment.Holds, hposition] at hnode
    exact .terminal hnode haccepts (Position.offset_of _ _)
  | nonterminal hnode _ _ =>
    obtain ⟨alternatives, hnode⟩ := hnode
    exact .call hnode

/-- A prefix node over what is before a dot is the prefix at its slot. -/
theorem precedes_of_stem {label : Label} {before : List Atom} {id : PrefixId} {i j : Nat}
    (h : m.Stem program input label.next before id i j) :
    Precedes m.scheduler label before.length id (.of input i) (.of input j) := by
  cases h with
  | empty hnode => exact .empty hnode
  | cons hnext _ hnode _ =>
    obtain ⟨children, hnode⟩ := hnode
    obtain rfl := Label.next_inj hnext
    exact .cons (by simp) hnode

/-- What is proper of an alternative. -/
theorem completes_of_sound (hsound : m.Sound program input) {id : SymbolId} {symbol : Nonterminal}
    {first last : Position} {child : PrefixId} (hnode : m.Holds (.derivation id symbol first last))
    (hchild : m.Holds (.alternative id child)) :
    program.Completes m.scheduler symbol first last child := by
  obtain ⟨symbol', label, before, i, j, hnode', hitem, hstem⟩ := hsound.proper hchild
  obtain ⟨rfl, rfl, rfl⟩ := Moment.derivation_unique hnode hnode'
  have hslot := hitem.slot?_nil
  cases hstem with
  | empty hempty =>
    cases hitem with
    | slot hlabels hentry _ => exact .empty hlabels hentry hslot rfl hempty
  | cons hnext _ hcons _ =>
    obtain ⟨children, hcons⟩ := hcons
    obtain rfl := Label.next_inj hnext
    exact .cons (by simp) hslot hcons

/-- What is proper of a split. -/
theorem builds_of_sound (hlaid : program.Laid) (hsound : m.Sound program input) {id : PrefixId}
    {label : Label} {first last : Position} {child : Split}
    (hnode : m.Holds (.cons id label first last)) (hchild : m.Holds (.split id child)) :
    program.Builds m.scheduler first last label child := by
  obtain ⟨label', split, left, right⟩ := child
  obtain ⟨owner, before, atom, after, i, l, j, hnode', hitem, rfl, hstem, hderivative⟩ :=
    hsound.proper hchild
  obtain ⟨rfl, rfl, rfl⟩ := Moment.cons_unique hnode hnode'
  cases owner with
  | some owner =>
    obtain ⟨previous, rfl, hprevious⟩ := hitem.previous
    exact .slot rfl hprevious.slot?_cons (spans_of_derivative hderivative)
      (precedes_of_stem hstem)
  | none =>
    -- The prefix of slot 0 was built for the initial stack, and that waits from the beginning on.
    obtain ⟨owner', _, _, _, i', _, _, hi, _, hitem', ⟨caller, hcaller⟩, _⟩ := hsound.proper hnode
    obtain ⟨rfl, _, _⟩ := hlaid.item_unique hitem hitem'
    obtain rfl := Position.of_inj hi
    cases hcaller
    obtain ⟨rfl, hbefore, rfl, _⟩ := hitem.eq_accept_of_concat
    cases hstem with
    | cons => simp at hbefore
    | empty hempty =>
      cases hderivative with
      | nonterminal hderivation _ _ =>
        obtain ⟨alternatives, hderivation⟩ := hderivation
        exact .accept hsound.situated.first hempty hderivation

/-- Before the first symbol the forest has no nodes. -/
theorem wellFormed_initial (start : Nonterminal) :
    program.WellFormed (Scheduler.initial start) := by
  have hnone (id : PrefixId) : (Scheduler.initial start).forest.prefixNode? id = none := rfl
  have hnone' (id : SymbolId) : (Scheduler.initial start).forest.symbolNode? id = none := rfl
  refine ⟨fun {id _ _ _ _ _} hnode => ?_, fun {id _ _ _ _ _} hnode => ?_,
    fun {id _ _ _ _} hnode => ?_⟩
  · cases (hnone' id).symm.trans hnode
  · cases (hnone id).symm.trans hnode
  · cases (hnone id).symm.trans hnode

/-- A sound moment has a well-formed forest. -/
theorem wellFormed_of_sound (hlaid : program.Laid) (hsound : m.Sound program input)
    (hdistinct : m.scheduler.Distinct) (htidy : Tidy m.scheduler) :
    program.WellFormed m.scheduler := by
  have hchildren {id : PrefixId} {label : Label} {first last : Position} {children : Array Split}
      {child : Split}
      (hnode : m.scheduler.forest.prefixNode? id = some (.cons label first last children))
      (hchild : child ∈ children) : program.Builds m.scheduler first last label child :=
    builds_of_sound hlaid hsound ⟨children, hnode⟩ ⟨label, first, last, children, hnode, hchild⟩
  refine ⟨fun hnode hchild => ?_, hchildren, fun {id label first last children} hnode => ?_⟩
  · exact completes_of_sound hsound ⟨_, hnode⟩ ⟨_, _, _, _, hnode, hchild⟩
  · refine List.Nodup.map_on (fun child hmem child' hmem' hsplit => ?_) (htidy.children hnode)
    exact (hchildren hnode (Array.mem_toList_iff.mp hmem)).unique hdistinct
      (hchildren hnode (Array.mem_toList_iff.mp hmem')) hsplit

end Proofs

section Calls

variable {grammar : Grammar} {program : Program} {σ : Type} {tracer : Tracer σ} {trace : σ}
  {limit : Nat} {session : Session σ Unit} {fed : List Char} {offers : List Task}

theorem wellFormed_of_reaches (hlaid : program.Laid)
    (h : Session.Reaches program.interpreter tracer (.initial program.interpreter trace () limit)
      fed session offers) : program.WellFormed session.scheduler := by
  rcases h.timeline hlaid (List.prefix_refl fed) fun _ => rfl with ⟨hinitial, -⟩ | htimeline
  · exact hinitial ▸ wellFormed_initial _
  · obtain ⟨carried, hunderway⟩ := htimeline.underway
    exact wellFormed_of_sound hlaid hunderway.steady.sound
      (h.law (Scheduler.law_distinct program.start)) (h.law (law_tidy program.start))

/-- In every state of a session, whether its work is done or not, every node of the forest is what
the slots of the program say. -/
theorem compile_wellFormed (hcompile : Program.compile grammar = .ok program)
    (h : Session.Reaches program.interpreter tracer (.initial program.interpreter trace () limit)
      fed session offers) : program.WellFormed session.scheduler :=
  wellFormed_of_reaches (laid_of_compile hcompile) h

end Calls

theorem compile_wellFormed_letter : ∃ program session,
    Program.compile Session.letter = .ok program ∧
      program.parse .silent () 4 "a" = .ok true session ∧
        program.WellFormed session.scheduler := by
  obtain ⟨program, session, hcompile, hparse⟩ := Session.parse_letter
  obtain ⟨⟨offers, h⟩, -⟩ := Session.Reaches.start.of_parse hparse
  exact ⟨program, session, hcompile, hparse, compile_wellFormed hcompile h⟩

end Program

end Gll
