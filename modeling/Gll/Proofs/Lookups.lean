import Gll.Program.Listing
import Gll.Proofs.Counting
import Gll.Proofs.PartNames

/-!
Whatever is looked up in a program is there.

A program is shown by looking things up in it: the slot of a label, the alternative in which it
lies, the names of the nonterminals in that. For each label of a compiled program all of that is
found (`Whole.exists_item?`, `Whole.exists_rightHandSide?`), and so the whole listing is
(`Whole.exists_listing?`).

`symbols?` cuts an alternative out of the slots and does not miss a slot that is not there. Reading
the alternative off slot by slot would: `scan` goes back from the label by its dot and from there
on, looking up each slot, until it comes to the one that completes the owner. It finds the same
(`Whole.scan_eq`).
-/

set_option autoImplicit false

namespace Gll

theorem exists_bind_ok {α β : Type} {first : Except Fault α} {next : α → Except Fault β} {a : α}
    (hfirst : first = .ok a) (hnext : ∃ b, next a = .ok b) : ∃ b, (first >>= next) = .ok b := by
  subst hfirst
  exact hnext

/-- When every item has an outcome, so has the list, and what holds of the outcomes of the items
holds of its members. -/
theorem exists_mapM {m : Type → Type} [Monad m] [LawfulMonad m] {α β : Type} {f : α → m β}
    {Q : β → Prop} {items : List α} (h : ∀ item ∈ items, ∃ b, f item = pure b ∧ Q b) :
    ∃ outcomes, items.mapM f = pure outcomes ∧ ∀ b ∈ outcomes, Q b := by
  induction items with
  | nil => exact ⟨[], List.mapM_nil, fun b hb => absurd hb List.not_mem_nil⟩
  | cons item rest ih =>
    obtain ⟨b, hb, hQ⟩ := h item List.mem_cons_self
    obtain ⟨outcomes, hrest, hall⟩ := ih fun other hother => h other (List.mem_cons_of_mem _ hother)
    refine ⟨b :: outcomes, ?_, List.forall_mem_cons.mpr ⟨hQ, hall⟩⟩
    rw [List.mapM_cons, hb, hrest, pure_bind, pure_bind]

theorem exists_mapM_eq_pure {m : Type → Type} [Monad m] [LawfulMonad m] {α β : Type} {f : α → m β}
    {items : List α} (h : ∀ item ∈ items, ∃ b, f item = pure b) :
    ∃ outcomes, items.mapM f = pure outcomes := by
  have htrue : ∀ item ∈ items, ∃ b, f item = pure b ∧ True := fun item hitem =>
    (h item hitem).imp fun _ hb => ⟨hb, trivial⟩
  exact (exists_mapM htrue).imp fun _ houtcomes => houtcomes.1

theorem mapM_eq_pure {m : Type → Type} [Monad m] [LawfulMonad m] {α β : Type} {f : α → m β}
    {g : α → β} {items : List α} (h : ∀ item ∈ items, f item = pure (g item)) :
    items.mapM f = pure (items.map g) := by
  induction items with
  | nil => exact List.mapM_nil
  | cons item rest ih =>
    rw [List.mapM_cons, h item List.mem_cons_self,
      ih fun other hother => h other (List.mem_cons_of_mem _ hother), pure_bind, pure_bind]
    rfl

namespace Program

/-! ## Reading an alternative slot by slot -/

/-- The slots from a label on that come before the one that completes their owner, each looked
up. -/
def slotsFrom (program : Program) : Nat → Label → Except Fault (List Slot)
  | 0, label => .error (.unknownLabel label)
  | steps + 1, label => do
    let slot ← (Fault.unknownLabel label).unlessSome (program.slot? label)
    if slot.instruction.isComplete then return []
    else return slot :: (← slotsFrom program steps label.next)

/-- The slots of the symbols of the alternative in which a label lies, each looked up. The beginning
of the alternative is as far back as the dot of the label says, and there have to be as many labels
before it. -/
def scan (program : Program) (label : Label) : Except Fault (List Slot) := do
  let slot ← (Fault.unknownLabel label).unlessSome (program.slot? label)
  if slot.nonterminal.isNone then return []
  else if label.index < slot.dot then throw (.unknownLabel label)
  else program.slotsFrom program.slotCount ⟨label.index - slot.dot⟩

variable {program : Program} {label : Label} {owner : Nonterminal} {before after atoms : List Atom}

theorem Item.symbols? (h : program.Item label (some owner) before after) :
    program.symbols? label
      = some ((before ++ after).zipIdx.map fun (atom, dot) =>
        ⟨some owner, dot, atom.instruction⟩) := by
  cases h with
  | slot _ _ hblock => exact hblock.symbols?

/-- From an item on there are the slots of what is after the dot. -/
theorem Item.slotsFrom_eq {steps : Nat} (h : program.Item label (some owner) before after)
    (hsteps : after.length < steps) :
    program.slotsFrom steps label
      = .ok ((after.zipIdx before.length).map fun (atom, dot) =>
        ⟨some owner, dot, atom.instruction⟩) := by
  -- On what is after the dot, which moves to the right with each step.
  induction after generalizing label before steps with
  | nil =>
    cases steps with
    | zero => exact absurd hsteps (Nat.not_lt_zero _)
    | succ steps =>
      rw [slotsFrom, h.slot?_nil]
      rfl
  | cons atom after ih =>
    cases steps with
    | zero => exact absurd hsteps (Nat.not_lt_zero _)
    | succ steps =>
      have hrest := ih h.next (Nat.lt_of_succ_lt_succ hsteps)
      rw [slotsFrom, h.slot?_cons]
      simp only [Fault.unlessSome, bind, Except.bind, Atom.isComplete_instruction,
        Bool.false_eq_true, if_false, hrest, List.length_append, List.length_singleton,
        List.zipIdx_cons, List.map_cons]
      rfl

/-! ## Programs that have everything -/

/-- A program in which everything is found that a parse or a listing looks up. -/
structure Whole (program : Program) : Prop where
  laid : program.Laid
  closed : program.Closed
  named : program.Named

theorem whole_of_compile {grammar : Grammar} (h : Program.compile grammar = .ok program) :
    program.Whole :=
  ⟨laid_of_compile h, closed_of_compile h, named_of_compile h⟩

theorem lt_of_entries? {nonterminal : Nonterminal} {labels : List Label}
    (h : program.entries? nonterminal = some labels) :
    nonterminal.index < program.nonterminalCount :=
  (Array.getElem?_eq_some_iff.mp h).1

/-- What owns an item is a nonterminal of the program. -/
theorem Item.owner_lt (h : program.Item label (some owner) before after) :
    owner.index < program.nonterminalCount := by
  cases h with
  | slot hlabels _ _ => exact lt_of_entries? hlabels

namespace Whole

variable (h : program.Whole)
include h

theorem start_lt : program.start.index < program.nonterminalCount := by
  obtain ⟨labels, hlabels⟩ := h.closed.start
  exact lt_of_entries? hlabels

/-- What an item calls is a nonterminal of the program. -/
theorem callee_lt {owner : Option Nonterminal} {callee : Nonterminal}
    (hitem : program.Item label owner before (.nonterminal callee :: after)) :
    callee.index < program.nonterminalCount := by
  obtain ⟨labels, hlabels⟩ := h.closed.callee hitem
  exact lt_of_entries? hlabels

theorem exists_item (hlabel : label.index < program.slotCount) :
    ∃ owner before after, program.Item label owner before after :=
  h.laid.exists_item (Array.getElem?_eq_getElem hlabel)

/-- The end of the alternative of an item is a slot of the program. -/
theorem end_lt (hitem : program.Item label (some owner) before after) :
    label.index + after.length < program.slotCount := by
  induction after generalizing label before with
  | nil => exact hitem.index_lt h.laid
  | cons atom after ih =>
    have hnext := ih hitem.next
    rw [Label.next, Nat.add_assoc, Nat.add_comm 1] at hnext
    exact hnext

/-- A label is at least as far from the first slot as its dot is from the beginning of the
alternative, and reading the alternative slot by slot finds its symbols. -/
theorem scan_eq (hlabel : label.index < program.slotCount) :
    ∃ slot symbols, program.slot? label = some slot ∧ slot.dot ≤ label.index ∧
      program.symbols? label = some symbols ∧ program.scan label = .ok symbols := by
  obtain ⟨owner, before, after, hitem⟩ := h.exists_item hlabel
  cases owner with
  | none =>
    obtain ⟨rfl, -, -⟩ := hitem.eq_accept
    refine ⟨_, [], h.laid.accept, Nat.zero_le _, ?_, ?_⟩
    · rw [Program.symbols?, h.laid.accept]
      rfl
    · rw [scan, h.laid.accept]
      rfl
  | some owner =>
    obtain ⟨instruction, hslot⟩ := hitem.exists_slot?
    have hsymbols := hitem.symbols?
    -- From the label back to the entry of its alternative, and from there on slot by slot.
    cases hitem with
    | @slot _ labels entry _ _ hlabels hentry hblock =>
      refine ⟨_, _, hslot, Nat.le_add_left _ _, hsymbols, ?_⟩
      have hentry := Item.of_entry hlabels hentry hblock
      have hlength : (before ++ after).length < program.slotCount :=
        Nat.lt_of_le_of_lt (Nat.le_add_left _ _) (h.end_lt hentry)
      have hback : ¬ entry.index + before.length < before.length :=
        Nat.not_lt.mpr (Nat.le_add_left _ _)
      have hslots := hentry.slotsFrom_eq hlength
      rw [scan, hslot]
      simp only [Fault.unlessSome, bind, Except.bind, Option.isNone_some, Bool.false_eq_true,
        if_false, hback, Nat.add_sub_cancel]
      exact hslots

/-! ## Texts -/

theorem exists_symbolText? (hmem : atoms ∈ program.rightHandSides owner) {atom : Atom}
    (hatom : atom ∈ atoms) (slot : Slot) (hslot : slot.instruction = atom.instruction) :
    ∃ text, program.symbolText? slot = some text := by
  rw [symbolText?, hslot]
  cases atom with
  | terminal matcher => exact ⟨_, rfl⟩
  | nonterminal callee =>
    obtain ⟨before, after, rfl⟩ := List.append_of_mem hatom
    obtain ⟨label, hitem⟩ := h.laid.exists_item_of_mem hmem
    obtain ⟨name, hname⟩ := h.named (h.callee_lt hitem)
    exact ⟨_, congrArg (Option.map _) hname⟩

/-- The symbols around the dot of a label can be shown. -/
theorem exists_symbolTexts (hlabel : label.index < program.slotCount) :
    ∃ symbols texts, program.symbols? label = some symbols ∧
      symbols.mapM program.symbolText? = some texts := by
  obtain ⟨owner, before, after, hitem⟩ := h.exists_item hlabel
  cases owner with
  | none =>
    obtain ⟨rfl, -, -⟩ := hitem.eq_accept
    refine ⟨[], [], ?_, rfl⟩
    rw [Program.symbols?, h.laid.accept]
    rfl
  | some owner =>
    have heach : ∀ slot ∈ (before ++ after).zipIdx.map fun (atom, dot) =>
        (⟨some owner, dot, atom.instruction⟩ : Slot),
        ∃ text, program.symbolText? slot = pure text := by
      intro slot hslot
      obtain ⟨⟨atom, dot⟩, hatom, rfl⟩ := List.mem_map.mp hslot
      exact h.exists_symbolText? hitem.mem_rightHandSides
        (List.fst_mem_of_mem_zipIdx hatom) ⟨some owner, dot, atom.instruction⟩ rfl
    obtain ⟨texts, htexts⟩ := exists_mapM_eq_pure heach
    exact ⟨_, texts, hitem.symbols?, htexts⟩

/-- Every label has a dotted item. -/
theorem exists_item? (hlabel : label.index < program.slotCount) :
    ∃ text, program.item? label = some text := by
  obtain ⟨symbols, texts, hsymbols, htexts⟩ := h.exists_symbolTexts hlabel
  obtain ⟨owner, before, after, hitem⟩ := h.exists_item hlabel
  cases owner with
  | none =>
    obtain ⟨rfl, -, -⟩ := hitem.eq_accept
    rw [item?, h.laid.accept]
    exact ⟨_, rfl⟩
  | some owner =>
    obtain ⟨instruction, hslot⟩ := hitem.exists_slot?
    obtain ⟨name, hname⟩ := h.named hitem.owner_lt
    simp only [item?, hslot, hname, hsymbols, htexts, Option.bind_eq_bind, Option.bind_some]
    exact ⟨_, rfl⟩

/-- Every label has a right-hand side. -/
theorem exists_rightHandSide? (hlabel : label.index < program.slotCount) :
    ∃ text, program.rightHandSide? label = some text := by
  obtain ⟨symbols, texts, hsymbols, htexts⟩ := h.exists_symbolTexts hlabel
  simp only [rightHandSide?, hsymbols, htexts, Option.bind_eq_bind, Option.bind_some]
  exact ⟨_, rfl⟩

/-! ## The listing -/

/-- The labels of the alternative that begins at a label are labels of the program. -/
theorem exists_blockLabels? {labels : List Label} {entry : Label}
    (hlabels : program.entries? owner = some labels) (hentry : entry ∈ labels) :
    ∃ block, program.blockLabels? entry = some block ∧
      ∀ label ∈ block, label.index < program.slotCount := by
  have hitem := h.laid.item_entry hlabels hentry
  simp only [blockLabels?, hitem.symbols?, Option.bind_eq_bind, Option.bind_some]
  refine ⟨_, rfl, fun label hlabel => ?_⟩
  obtain ⟨dot, hdot, rfl⟩ := List.mem_map.mp hlabel
  rw [List.mem_range, List.length_map, List.length_zipIdx, List.nil_append] at hdot
  exact Nat.lt_of_le_of_lt (Nat.add_le_add_left (Nat.le_of_lt_succ hdot) _) (h.end_lt hitem)

theorem exists_nonterminalLines? {nonterminal : Nonterminal}
    (hlt : nonterminal.index < program.nonterminalCount) :
    ∃ lines, program.nonterminalLines? nonterminal = some lines := by
  obtain ⟨name, hname⟩ := h.named hlt
  have hlabels : program.entries? nonterminal = some program.entries[nonterminal.index] :=
    Array.getElem?_eq_getElem hlt
  obtain ⟨blocks, hblocks, hall⟩ := exists_mapM fun entry hentry =>
    h.exists_blockLabels? hlabels hentry
  have hblocks : program.entries[nonterminal.index].mapM program.blockLabels? = some blocks :=
    hblocks
  have hlines : ∀ label ∈ blocks.flatten, ∃ line,
      (do return program.slotLine label (← program.item? label) : Option Text.Styled)
        = pure line := by
    intro label hlabel
    obtain ⟨block, hblock, hmem⟩ := List.mem_flatten.mp hlabel
    obtain ⟨text, htext⟩ := h.exists_item? (hall block hblock label hmem)
    rw [htext]
    exact ⟨_, rfl⟩
  obtain ⟨lines, hlines⟩ := exists_mapM_eq_pure hlines
  simp only [nonterminalLines?, hname, hlabels, hblocks, Option.bind_eq_bind, Option.bind_some]
  exact ⟨_, congrArg (Option.bind · _) hlines⟩

/-- The program can be listed. -/
theorem exists_listing? : ∃ lines, program.listing? = some lines := by
  obtain ⟨start, hstart⟩ := h.named h.start_lt
  have hgroups : ∀ nonterminal ∈ program.nonterminals, ∃ lines,
      program.nonterminalLines? nonterminal = pure lines := by
    intro nonterminal hmem
    obtain ⟨index, hindex, rfl⟩ := List.mem_map.mp hmem
    exact h.exists_nonterminalLines? (List.mem_range.mp hindex)
  obtain ⟨groups, hgroups⟩ := exists_mapM_eq_pure hgroups
  simp only [listing?, hstart, hgroups, Option.bind_eq_bind, Option.bind_some]
  exact ⟨_, rfl⟩

end Whole

end Program

end Gll
