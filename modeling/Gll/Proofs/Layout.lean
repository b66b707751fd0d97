import Gll.Proofs.Derivation
import Gll.Program.Lowering

/-!
Where the slots of a program lie, and what productions they spell.

A program is laid out in *blocks*: the slots of an alternative stand in a row from its entry label
on (`HasBlock`). Whoever runs a program never asks for a block, though; a parse moves from a label
to the next. What it needs is to know at every label which dotted item it is at. So the facts about
blocks are gathered here once, in the relation `Program.Item`, and all that follows argues with
items:

* the slot of an item holds the instruction of the atom after the dot (`Item.slot?_cons`), or, when
  there is none, the one that completes its owner (`Item.slot?_nil`);
* the next label is the item with its dot one further (`Item.next`);
* a label is of one item only (`Laid.item_unique`), and every slot is of one (`Laid.exists_item`);
* at an entry label the dot is in front of an alternative, and as many labels on as it has atoms it
  is behind it (`Laid.item_entry`, `Laid.item_end`).

Slot 0 is the end of an item that nobody owns, `· ::= start ·`. Its other label does not exist: it
would be that of the call of the start symbol.

`Program.compile` lays its productions out (`laid_of_compile`), and what is read off the slots is
what was laid out (`Layout.Holds.rightHandSides`).
-/

set_option autoImplicit false

namespace Gll

/-- The atom for which an instruction is there. -/
def Instruction.atom? : Instruction → Option Atom
  | accept => none
  | terminal matcher => some (.terminal matcher)
  | call callee => some (.nonterminal callee)
  | complete _ => none

@[simp] theorem Atom.atom?_instruction (atom : Atom) : atom.instruction.atom? = some atom := by
  cases atom <;> rfl

@[simp] theorem Atom.isComplete_instruction (atom : Atom) :
    atom.instruction.isComplete = false := by
  cases atom <;> rfl

theorem Label.next_inj {label label' : Label} (h : label.next = label'.next) : label = label' := by
  cases label
  cases label'
  exact congrArg Label.mk (Nat.succ.inj (Label.mk.inj h))

namespace Program

/-- The atoms of the alternative in which a label lies. -/
def atomsAt (program : Program) (label : Label) : List Atom :=
  ((program.symbols? label).getD []).filterMap fun slot => slot.instruction.atom?

/-- The right-hand sides of the alternatives of each nonterminal, as the slots spell them. -/
def rightHandSides (program : Program) : Productions := fun nonterminal =>
  ((program.entries? nonterminal).getD []).map program.atomsAt

/-! ## Blocks -/

/-- The slots of an alternative stand in a row from its entry label on. -/
def HasBlock (slots : Array Slot) (entry : Label) (owner : Nonterminal)
    (alternative : List Atom) : Prop :=
  slotsOf owner alternative <+: slots.toList.drop entry.index

theorem length_slotsOf (owner : Nonterminal) (alternative : List Atom) :
    (slotsOf owner alternative).length = alternative.length + 1 := by
  simp [slotsOf]

/-- The slot of the atom at a place. -/
theorem getElem?_slotsOf_atom (owner : Nonterminal) (before : List Atom) (atom : Atom)
    (after : List Atom) :
    (slotsOf owner (before ++ atom :: after))[before.length]?
      = some ⟨some owner, before.length, atom.instruction⟩ := by
  rw [slotsOf, List.getElem?_append_left (by simp), List.getElem?_map, List.getElem?_zipIdx]
  simp

/-- The slot behind the atoms. -/
theorem getElem?_slotsOf_end (owner : Nonterminal) (alternative : List Atom) :
    (slotsOf owner alternative)[alternative.length]?
      = some ⟨some owner, alternative.length, .complete owner⟩ := by
  rw [slotsOf, List.getElem?_append_right (by simp)]
  simp

theorem HasBlock.getElem? {slots : Array Slot} {entry : Label} {owner : Nonterminal}
    {alternative : List Atom} (h : HasBlock slots entry owner alternative) {place : Nat}
    {slot : Slot} (hplace : (slotsOf owner alternative)[place]? = some slot) :
    slots[entry.index + place]? = some slot := by
  obtain ⟨rest, hrest⟩ := h
  have hlt : place < (slotsOf owner alternative).length :=
    (List.getElem?_eq_some_iff.mp hplace).1
  rw [← Array.getElem?_toList, ← List.getElem?_drop, ← hrest, List.getElem?_append_left hlt]
  exact hplace

/-- The slots of the atoms are those before the one that completes the owner. -/
theorem takeWhile_slotsOf (owner : Nonterminal) (alternative : List Atom) (rest : List Slot) :
    (slotsOf owner alternative ++ rest).takeWhile (fun slot => !slot.instruction.isComplete)
      = alternative.zipIdx.map fun (atom, dot) => ⟨some owner, dot, atom.instruction⟩ := by
  rw [slotsOf, List.append_assoc, List.takeWhile_append_of_pos]
  · simp [Instruction.isComplete]
  · intro slot hslot
    obtain ⟨⟨atom, dot⟩, _, rfl⟩ := List.mem_map.mp hslot
    simp

theorem filterMap_atom?_slots (owner : Nonterminal) (alternative : List Atom) :
    (alternative.zipIdx.map fun (atom, dot) =>
      (⟨some owner, dot, atom.instruction⟩ : Slot)).filterMap (fun slot => slot.instruction.atom?)
      = alternative := by
  have hfun : (fun slot : Slot => slot.instruction.atom?) ∘
      (fun (atom, dot) => (⟨some owner, dot, atom.instruction⟩ : Slot)) = some ∘ Prod.fst := by
    funext x
    exact Atom.atom?_instruction x.1
  rw [List.filterMap_map, hfun, List.filterMap_eq_map, List.zipIdx_map_fst]

/-- From any label of a block, the slots of its atoms can be read off. -/
theorem HasBlock.symbols? {program : Program} {entry : Label} {owner : Nonterminal}
    {before after : List Atom} (h : HasBlock program.slots entry owner (before ++ after)) :
    program.symbols? ⟨entry.index + before.length⟩
      = some ((before ++ after).zipIdx.map fun (atom, dot) =>
        ⟨some owner, dot, atom.instruction⟩) := by
  -- A label stands before an atom or at the end of the block; either way the slot there has the
  -- owner and the place.
  have hslot : ∃ instruction, program.slot? ⟨entry.index + before.length⟩
      = some ⟨some owner, before.length, instruction⟩ := by
    cases after with
    | nil =>
      refine ⟨.complete owner, h.getElem? ?_⟩
      rw [List.append_nil]
      exact getElem?_slotsOf_end owner before
    | cons atom after => exact ⟨_, h.getElem? (getElem?_slotsOf_atom owner before atom after)⟩
  obtain ⟨instruction, hslot⟩ := hslot
  obtain ⟨rest, hrest⟩ := h
  have hfollowing : (program.slots.extract entry.index program.slots.size).toList
      = slotsOf owner (before ++ after) ++ rest := by
    rw [hrest, Array.toList_extract, List.extract_eq_take_drop, List.take_of_length_le]
    simp
  simp only [Program.symbols?, hslot, Option.bind_eq_bind, Option.bind_some, Option.isNone_some,
    Bool.false_eq_true, if_false, Nat.add_sub_cancel, hfollowing, takeWhile_slotsOf,
    Option.pure_def]

/-- From any label of a block, its atoms can be read off. -/
theorem HasBlock.atomsAt {program : Program} {entry : Label} {owner : Nonterminal}
    {before after : List Atom} (h : HasBlock program.slots entry owner (before ++ after)) :
    program.atomsAt ⟨entry.index + before.length⟩ = before ++ after := by
  rw [Program.atomsAt, h.symbols?, Option.getD_some, filterMap_atom?_slots]

theorem HasBlock.atomsAt_entry {program : Program} {entry : Label} {owner : Nonterminal}
    {alternative : List Atom} (h : HasBlock program.slots entry owner alternative) :
    program.atomsAt entry = alternative := by
  have hwhole : HasBlock program.slots entry owner ([] ++ alternative) := h
  exact hwhole.atomsAt

/-! ## Items -/

/-- The label is that of the dotted item `owner ::= before · after`. The item of slot 0 has no
owner. -/
inductive Item (program : Program) :
    Label → Option Nonterminal → List Atom → List Atom → Prop where
  | accept : Item program acceptLabel none [.nonterminal program.start] []
  | slot {owner : Nonterminal} {labels : List Label} {entry : Label} {before after : List Atom}
      (hlabels : program.entries? owner = some labels) (hentry : entry ∈ labels)
      (hblock : HasBlock program.slots entry owner (before ++ after)) :
      Item program ⟨entry.index + before.length⟩ (some owner) before after

theorem Item.of_entry {program : Program} {owner : Nonterminal} {labels : List Label}
    {entry : Label} {alternative : List Atom} (hlabels : program.entries? owner = some labels)
    (hentry : entry ∈ labels) (hblock : HasBlock program.slots entry owner alternative) :
    program.Item entry (some owner) [] alternative := by
  have hwhole : HasBlock program.slots entry owner ([] ++ alternative) := hblock
  exact .slot hlabels hentry hwhole

/-- A program whose slots are those of items, slot 0 apart. -/
structure Laid (program : Program) : Prop where
  /-- Slot 0 is where the call of the start symbol continues. -/
  accept : program.slot? acceptLabel = some ⟨none, 0, .accept⟩
  /-- An alternative begins at every entry label. -/
  entry {owner : Nonterminal} {labels : List Label} {entry : Label} :
    program.entries? owner = some labels → entry ∈ labels →
      ∃ alternative, HasBlock program.slots entry owner alternative
  /-- Every other slot is of an alternative. -/
  covered {label : Label} {slot : Slot} :
    program.slot? label = some slot → label ≠ acceptLabel →
      ∃ owner before after, program.Item label (some owner) before after

variable {program : Program}

theorem Item.slot?_cons {label : Label} {owner : Option Nonterminal} {before after : List Atom}
    {atom : Atom} (h : program.Item label owner before (atom :: after)) :
    program.slot? label = some ⟨owner, before.length, atom.instruction⟩ := by
  cases h with
  | slot _ _ hblock => exact hblock.getElem? (getElem?_slotsOf_atom _ before atom after)

theorem Item.slot?_nil {label : Label} {owner : Nonterminal} {before : List Atom}
    (h : program.Item label (some owner) before []) :
    program.slot? label = some ⟨some owner, before.length, .complete owner⟩ := by
  cases h with
  | slot _ _ hblock =>
    refine hblock.getElem? ?_
    rw [List.append_nil]
    exact getElem?_slotsOf_end owner before

/-- The slot of an item tells its owner and how far the alternative reaches back. -/
theorem Item.exists_slot? {label : Label} {owner : Nonterminal} {before after : List Atom}
    (h : program.Item label (some owner) before after) :
    ∃ instruction, program.slot? label = some ⟨some owner, before.length, instruction⟩ := by
  cases after with
  | nil => exact ⟨_, h.slot?_nil⟩
  | cons atom after => exact ⟨_, h.slot?_cons⟩

/-- Only slot 0 is of the item that nobody owns. -/
theorem Item.eq_accept {label : Label} {before after : List Atom}
    (h : program.Item label none before after) :
    label = acceptLabel ∧ before = [.nonterminal program.start] ∧ after = [] := by
  cases h
  exact ⟨rfl, rfl, rfl⟩

/-- Behind an atom, that item is behind the start nonterminal. -/
theorem Item.eq_accept_of_concat {label : Label} {before after : List Atom} {atom : Atom}
    (h : program.Item label none (before ++ [atom]) after) :
    label = acceptLabel ∧ before = [] ∧ atom = .nonterminal program.start ∧ after = [] := by
  obtain ⟨hlabel, hatoms, hafter⟩ := h.eq_accept
  have hatoms' : before ++ [atom] = [] ++ [.nonterminal program.start] := hatoms
  obtain ⟨hbefore, hatom⟩ := List.append_inj' hatoms' rfl
  exact ⟨hlabel, hbefore, (List.cons.inj hatom).1, hafter⟩

/-- The dot moves on with the label. -/
theorem Item.next {label : Label} {owner : Option Nonterminal} {before after : List Atom}
    {atom : Atom} (h : program.Item label owner before (atom :: after)) :
    program.Item label.next owner (before ++ [atom]) after := by
  cases h with
  | @slot owner labels entry _ _ hlabels hentry hblock =>
    have hlabel : (⟨entry.index + before.length⟩ : Label).next
        = ⟨entry.index + (before ++ [atom]).length⟩ := by
      rw [List.length_append, List.length_singleton, ← Nat.add_assoc]
      rfl
    rw [hlabel]
    refine .slot hlabels hentry ?_
    rw [List.append_assoc, List.singleton_append]
    exact hblock

/-- Before a label whose dot is behind an atom there is the label with its dot before it. -/
theorem Item.previous {label : Label} {owner : Nonterminal} {before after : List Atom}
    {atom : Atom} (h : program.Item label (some owner) (before ++ [atom]) after) :
    ∃ previous : Label, previous.next = label ∧
      program.Item previous (some owner) before (atom :: after) := by
  cases h with
  | @slot _ labels entry _ _ hlabels hentry hblock =>
    refine ⟨⟨entry.index + before.length⟩, ?_, .slot hlabels hentry ?_⟩
    · rw [List.length_append, List.length_singleton, ← Nat.add_assoc]
      rfl
    · rw [List.append_assoc, List.singleton_append] at hblock
      exact hblock

/-- An item is of one of the right-hand sides of its owner. -/
theorem Item.mem_rightHandSides {label : Label} {owner : Nonterminal} {before after : List Atom}
    (h : program.Item label (some owner) before after) :
    before ++ after ∈ program.rightHandSides owner := by
  cases h with
  | @slot _ labels entry _ _ hlabels hentry hblock =>
    rw [rightHandSides, hlabels, Option.getD_some]
    exact List.mem_map.mpr ⟨entry, hentry, hblock.atomsAt_entry⟩

namespace Laid

variable (hlaid : program.Laid)
include hlaid

theorem not_item_accept {owner : Nonterminal} {before after : List Atom} :
    ¬ program.Item acceptLabel (some owner) before after := by
  intro h
  have haccept := hlaid.accept
  cases after with
  | nil =>
    rw [h.slot?_nil] at haccept
    simp at haccept
  | cons atom after =>
    rw [h.slot?_cons] at haccept
    simp at haccept

/-- A label is of one item only: its slot tells the owner and how far the block reaches back, and
from there the atoms can be read off. -/
theorem item_unique {label : Label} {owner owner' : Option Nonterminal}
    {before after before' after' : List Atom} (h : program.Item label owner before after)
    (h' : program.Item label owner' before' after') :
    owner = owner' ∧ before = before' ∧ after = after' := by
  -- The slot has the owner and the number of atoms before the dot, the block has the atoms;
  -- together they leave no choice.
  have hatoms {label : Label} {owner : Nonterminal} {before after : List Atom}
      (h : program.Item label (some owner) before after) :
      program.atomsAt label = before ++ after := by
    cases h with
    | slot _ _ hblock => exact hblock.atomsAt
  cases owner with
  | none =>
    obtain ⟨rfl, rfl, rfl⟩ := h.eq_accept
    cases owner' with
    | none =>
      obtain ⟨_, rfl, rfl⟩ := h'.eq_accept
      exact ⟨rfl, rfl, rfl⟩
    | some owner' => exact absurd h' hlaid.not_item_accept
  | some owner =>
    cases owner' with
    | none =>
      obtain ⟨rfl, _, _⟩ := h'.eq_accept
      exact absurd h hlaid.not_item_accept
    | some owner' =>
      obtain ⟨instruction, hinstruction⟩ := h.exists_slot?
      obtain ⟨instruction', hinstruction'⟩ := h'.exists_slot?
      rw [hinstruction] at hinstruction'
      simp only [Option.some.injEq, Slot.mk.injEq] at hinstruction'
      obtain ⟨howner, hlength, _⟩ := hinstruction'
      have happend := (hatoms h).symm.trans (hatoms h')
      obtain ⟨hbefore, hafter⟩ := List.append_inj happend hlength
      exact ⟨congrArg some howner, hbefore, hafter⟩

theorem exists_item {label : Label} {slot : Slot} (hslot : program.slot? label = some slot) :
    ∃ owner before after, program.Item label owner before after := by
  by_cases hlabel : label = acceptLabel
  · subst hlabel
    exact ⟨none, _, _, .accept⟩
  · obtain ⟨owner, before, after, hitem⟩ := hlaid.covered hslot hlabel
    exact ⟨some owner, before, after, hitem⟩

/-- At an entry label the dot is in front of the alternative, -/
theorem item_entry {owner : Nonterminal} {labels : List Label} {entry : Label}
    (hlabels : program.entries? owner = some labels) (hentry : entry ∈ labels) :
    program.Item entry (some owner) [] (program.atomsAt entry) := by
  obtain ⟨alternative, hblock⟩ := hlaid.entry hlabels hentry
  rw [hblock.atomsAt_entry]
  exact .of_entry hlabels hentry hblock

theorem item_entry_append {owner : Nonterminal} {labels : List Label} {entry : Label}
    (hlabels : program.entries? owner = some labels) (hentry : entry ∈ labels) :
    program.Item entry (some owner) [] (program.atomsAt entry ++ []) := by
  rw [List.append_nil]
  exact hlaid.item_entry hlabels hentry

/-- and behind it where the alternative is completed. -/
theorem item_end {owner : Nonterminal} {labels : List Label} {entry : Label}
    (hlabels : program.entries? owner = some labels) (hentry : entry ∈ labels) :
    program.Item ⟨entry.index + (program.atomsAt entry).length⟩ (some owner)
      (program.atomsAt entry) [] := by
  obtain ⟨alternative, hblock⟩ := hlaid.entry hlabels hentry
  rw [hblock.atomsAt_entry]
  apply Item.slot hlabels hentry
  rw [List.append_nil]
  exact hblock

/-- A dot in a right-hand side is at a label. -/
theorem exists_item_of_mem {owner : Nonterminal} {before after : List Atom}
    (hmem : before ++ after ∈ program.rightHandSides owner) :
    ∃ label, program.Item label (some owner) before after := by
  rw [rightHandSides] at hmem
  obtain ⟨entry, hentry, hatoms⟩ := List.mem_map.mp hmem
  cases hlabels : program.entries? owner with
  | none =>
    rw [hlabels] at hentry
    exact absurd hentry List.not_mem_nil
  | some labels =>
    rw [hlabels, Option.getD_some] at hentry
    obtain ⟨alternative, hblock⟩ := hlaid.entry hlabels hentry
    rw [← hblock.atomsAt_entry, hatoms] at hblock
    exact ⟨_, .slot hlabels hentry hblock⟩

end Laid

/-! ## The layout of productions -/

/-- Further slots behind it leave a block where it is. -/
theorem HasBlock.mono {slots slots' : Array Slot} {entry : Label} {owner : Nonterminal}
    {alternative : List Atom} (h : HasBlock slots entry owner alternative)
    (hslots : slots.toList <+: slots'.toList) : HasBlock slots' entry owner alternative :=
  h.trans (hslots.drop _)

/-- A number of slot is that of an item of an owner that begins at one of the labels. -/
def IsCovered (slots : Array Slot) (labels : List Label) (owner : Nonterminal) (m : Nat) : Prop :=
  ∃ entry ∈ labels, ∃ before after, HasBlock slots entry owner (before ++ after) ∧
    m = entry.index + before.length

theorem IsCovered.mono {slots slots' : Array Slot} {labels labels' : List Label}
    {owner : Nonterminal} {m : Nat} (h : IsCovered slots labels owner m)
    (hslots : slots.toList <+: slots'.toList) (hlabels : labels ⊆ labels') :
    IsCovered slots' labels' owner m := by
  obtain ⟨entry, hentry, before, after, hblock, hm⟩ := h
  exact ⟨entry, hlabels hentry, before, after, hblock.mono hslots, hm⟩

/-- Every number between the ends of a block is that of one of its items. -/
theorem HasBlock.isCovered {slots : Array Slot} {entry : Label} {owner : Nonterminal}
    {alternative : List Atom} (h : HasBlock slots entry owner alternative) {m : Nat}
    (hle : entry.index ≤ m) (hlt : m ≤ entry.index + alternative.length) :
    IsCovered slots [entry] owner m := by
  refine ⟨entry, List.mem_singleton_self entry, alternative.take (m - entry.index),
    alternative.drop (m - entry.index), ?_, ?_⟩
  · rw [List.take_append_drop]
    exact h
  · rw [List.length_take]
    omega

namespace Layout

theorem size_append_slots (slots : Array Slot) (added : List Slot) :
    (slots ++ added).size = slots.size + added.length := by
  rw [← Array.length_toList, Array.toList_appendList, List.length_append, Array.length_toList]

theorem addAlternatives_spec (owner : Nonterminal) (slots : Array Slot)
    (alternatives : List (List Atom)) :
    slots.toList <+: (addAlternatives owner slots alternatives).1.toList ∧
      List.Forall₂ (fun label alternative =>
        HasBlock (addAlternatives owner slots alternatives).1 label owner alternative)
        (addAlternatives owner slots alternatives).2 alternatives ∧
      ∀ m, slots.size ≤ m → m < (addAlternatives owner slots alternatives).1.size →
        IsCovered (addAlternatives owner slots alternatives).1
          (addAlternatives owner slots alternatives).2 owner m := by
  induction alternatives generalizing slots with
  | nil =>
    refine ⟨List.prefix_rfl, .nil, fun m hle hlt => ?_⟩
    simp only [addAlternatives] at hlt
    omega
  | cons alternative rest ih =>
    obtain ⟨hkept, hblocks, hcovered⟩ := ih (slots ++ slotsOf owner alternative)
    rw [Array.toList_appendList] at hkept
    -- The first block stands where the slots ended; the rest is put behind it and does not move it.
    have hfirst : HasBlock (slots ++ slotsOf owner alternative) ⟨slots.size⟩ owner alternative := by
      rw [HasBlock, Array.toList_appendList, ← Array.length_toList, List.drop_left]
    have hsize : (slots ++ slotsOf owner alternative).size
        = slots.size + (alternative.length + 1) := by
      rw [size_append_slots, length_slotsOf]
    have hwhole : (slots ++ slotsOf owner alternative).toList <+:
        (addAlternatives owner (slots ++ slotsOf owner alternative) rest).1.toList := by
      rw [Array.toList_appendList]
      exact hkept
    simp only [addAlternatives]
    refine ⟨(List.prefix_append _ _).trans hkept, .cons (hfirst.mono hwhole) hblocks, ?_⟩
    intro m hle hlt
    by_cases hm : m < slots.size + (alternative.length + 1)
    · exact (hfirst.isCovered hle (by simp only; omega)).mono hwhole (by simp)
    · exact (hcovered m (by omega) hlt).mono List.prefix_rfl (List.subset_cons_self _ _)

/-- A layout holds the alternatives of the productions, and besides them slot 0 alone. -/
structure Holds (layout : Layout) (productions : List (List (List Atom))) : Prop where
  size : layout.entries.size = productions.length
  accept : layout.slots[0]? = some ⟨none, 0, .accept⟩
  blocks {n : Nat} {labels : List Label} : layout.entries[n]? = some labels →
    ∃ alternatives, productions[n]? = some alternatives ∧
      List.Forall₂ (fun label alternative => HasBlock layout.slots label ⟨n⟩ alternative)
        labels alternatives
  covered {m : Nat} : 0 < m → m < layout.slots.size →
    ∃ n labels, layout.entries[n]? = some labels ∧ IsCovered layout.slots labels ⟨n⟩ m

theorem holds_initial : initial.Holds [] where
  size := rfl
  accept := rfl
  blocks h := by simp [initial] at h
  covered hpos hlt := by
    simp only [initial, List.size_toArray, List.length_singleton] at hlt
    omega

theorem Holds.addProduction {layout : Layout} {productions : List (List (List Atom))}
    (h : layout.Holds productions) (alternatives : List (List Atom)) :
    (layout.addProduction alternatives).Holds (productions ++ [alternatives]) := by
  obtain ⟨hkept, hblocks, hcovered⟩ :=
    addAlternatives_spec ⟨layout.entries.size⟩ layout.slots alternatives
  have hentries (n : Nat) (labels : List Label)
      (hn : (layout.addProduction alternatives).entries[n]? = some labels) :
      layout.entries[n]? = some labels ∨ (n = layout.entries.size ∧
        labels = (addAlternatives ⟨layout.entries.size⟩ layout.slots alternatives).2) := by
    simp only [Layout.addProduction, Array.getElem?_push] at hn
    split at hn
    · rename_i heq
      exact .inr ⟨heq, (Option.some.inj hn).symm⟩
    · exact .inl hn
  constructor
  · simp [Layout.addProduction, h.size]
  · -- What was at a number before is there still, as slots are only put behind.
    have hzero := h.accept
    rw [← Array.getElem?_toList] at hzero ⊢
    obtain ⟨rest, hrest⟩ := hkept
    simp only [Layout.addProduction]
    rw [← hrest, List.getElem?_append_left (List.getElem?_eq_some_iff.mp hzero).1]
    exact hzero
  · intro n labels hn
    rcases hentries n labels hn with hold | ⟨rfl, rfl⟩
    · obtain ⟨olds, holds, hforall⟩ := h.blocks hold
      refine ⟨olds, ?_, hforall.imp fun _ _ hblock => hblock.mono hkept⟩
      rw [List.getElem?_append_left (List.getElem?_eq_some_iff.mp holds).1]
      exact holds
    · refine ⟨alternatives, ?_, hblocks⟩
      rw [h.size, List.getElem?_concat_length]
  · intro m hpos hlt
    -- A slot is an old one, or one of those that have just been laid out.
    by_cases hm : m < layout.slots.size
    · obtain ⟨n, labels, hn, hcover⟩ := h.covered hpos hm
      refine ⟨n, labels, ?_, hcover.mono hkept (List.Subset.refl _)⟩
      simp only [Layout.addProduction]
      have hlt : n < layout.entries.size := (Array.getElem?_eq_some_iff.mp hn).1
      rw [Array.getElem?_push, if_neg (Nat.ne_of_lt hlt)]
      exact hn
    · refine ⟨layout.entries.size, _, ?_, hcovered m (by omega) hlt⟩
      simp [Layout.addProduction]

theorem holds_ofProductions (productions : List (List (List Atom))) :
    (ofProductions productions).Holds productions := by
  have hfold (done todo : List (List (List Atom))) (layout : Layout) (h : layout.Holds done) :
      (todo.foldl Layout.addProduction layout).Holds (done ++ todo) := by
    induction todo generalizing done layout with
    | nil =>
      rw [List.append_nil]
      exact h
    | cons next rest ih =>
      rw [List.foldl_cons, List.append_cons]
      exact ih _ _ (h.addProduction next)
  exact hfold [] productions initial holds_initial

/-- The program of a layout has the slots of items, -/
theorem Holds.laid {layout : Layout} {productions : List (List (List Atom))}
    (h : layout.Holds productions) {program : Program} (hslots : program.slots = layout.slots)
    (hentries : program.entries = layout.entries) : program.Laid := by
  constructor
  · rw [slot?, hslots]
    exact h.accept
  · intro owner labels entry hlabels hentry
    rw [entries?, hentries] at hlabels
    obtain ⟨alternatives, _, hforall⟩ := h.blocks hlabels
    obtain ⟨i, hi, rfl⟩ := List.getElem_of_mem hentry
    have hi' : i < alternatives.length := hforall.length_eq ▸ hi
    rw [hslots]
    exact ⟨alternatives[i], hforall.get hi hi'⟩
  · intro label slot hslot hlabel
    rw [slot?, hslots] at hslot
    have hpos : 0 < label.index := by
      refine Nat.pos_of_ne_zero fun hzero => hlabel ?_
      cases label
      exact congrArg Label.mk hzero
    obtain ⟨n, labels, hn, entry, hentry, before, after, hblock, hindex⟩ :=
      h.covered hpos (Array.getElem?_eq_some_iff.mp hslot).1
    -- All slots but the first lie in blocks, and the label of a slot is as far from the entry of
    -- its block as its dot says.
    refine ⟨⟨n⟩, before, after, ?_⟩
    have heq : label = ⟨entry.index + before.length⟩ := by
      cases label
      exact congrArg Label.mk hindex
    rw [heq]
    refine .slot ?_ hentry ?_
    · rw [entries?, hentries]
      exact hn
    · rw [hslots]
      exact hblock

/-- and they spell the productions. -/
theorem Holds.rightHandSides {layout : Layout} {productions : List (List (List Atom))}
    (h : layout.Holds productions) {program : Program} (hslots : program.slots = layout.slots)
    (hentries : program.entries = layout.entries) (nonterminal : Nonterminal) :
    program.rightHandSides nonterminal = (productions[nonterminal.index]?).getD [] := by
  rw [Program.rightHandSides, entries?, hentries]
  cases hn : layout.entries[nonterminal.index]? with
  | none =>
    rw [List.getElem?_eq_none (h.size ▸ Array.getElem?_eq_none_iff.mp hn)]
    rfl
  | some labels =>
    obtain ⟨alternatives, halternatives, hforall⟩ := h.blocks hn
    rw [halternatives, Option.getD_some, Option.getD_some]
    rw [← hslots] at hforall
    -- The labels and the alternatives correspond one by one.
    clear hn halternatives
    induction hforall with
    | nil => rfl
    | cons hblock _ ih =>
      rw [List.map_cons, ih]
      exact congrArg (· :: _) hblock.atomsAt_entry

end Layout

end Program

end Gll
