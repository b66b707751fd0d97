import Gll.Proofs.Budget
import Gll.Proofs.Lookups

/-!
The blocks of a program, one behind the other.

The slots of a program are slot 0 and behind it the blocks of its alternatives, in the order of the
nonterminals and of each one's entries, without a gap and without an overlap (`LaysOut`). That
follows the three loops of the layout: over the atoms of an alternative, over the alternatives of a
nonterminal and over the nonterminals. Each of them puts slots behind those that are there, and the
label that is kept of a block is how many there were (`InRow`).

From a block one reads off what is found at each of its labels (`Fits`): how far the dot is, whose
alternative it is, what is to be done and which item is shown. As the labels of the blocks are all
labels but that of slot 0, and come in order, the listing has the line of each of them once, from
the lowest to the highest (`Whole.exists_listing?_filter`).
-/

set_option autoImplicit false

namespace Gll

open Text

/-- An alternative, with the label at which it begins. -/
@[ext]
structure Block where
  owner : Nonterminal
  entry : Label
  atoms : List Atom

namespace Block

/-- The label at which so many symbols are before the dot. -/
def label (block : Block) (dot : Nat) : Label := ⟨block.entry.index + dot⟩

/-- The labels of the block, from the one with the dot in front to the one with the dot behind. -/
def labels (block : Block) : List Label := (List.range (block.atoms.length + 1)).map block.label

/-- The slots of the block. -/
def slots (block : Block) : List Slot := Program.slotsOf block.owner block.atoms

/-- The slots of the symbols of the block. -/
def symbols (block : Block) : List Slot :=
  block.atoms.zipIdx.map fun (atom, dot) => ⟨some block.owner, dot, atom.instruction⟩

theorem mem_labels {block : Block} {label : Label} :
    label ∈ block.labels ↔ ∃ dot ≤ block.atoms.length, block.label dot = label := by
  simp only [labels, List.mem_map, List.mem_range, Nat.lt_succ_iff]

end Block

namespace Program

/-- The alternatives of a nonterminal, in the order of its entries. -/
def blocksOf (program : Program) (owner : Nonterminal) : List Block :=
  ((program.entries? owner).getD []).map fun entry => ⟨owner, entry, program.atomsAt entry⟩

/-- The alternatives of a program, in the order of the nonterminals and of the entries of each. -/
def blocks (program : Program) : List Block := program.nonterminals.flatMap program.blocksOf

/-! ## Putting blocks behind each other -/

/-- From a number on, the labels of blocks come one after the other. -/
def InRow (first : Nat) (blocks : List Block) : Prop :=
  blocks.flatMap Block.labels
    = (List.range' first (blocks.flatMap Block.slots).length).map Label.mk

theorem InRow.append {first : Nat} {blocks others : List Block} (h : InRow first blocks)
    (h' : InRow (first + (blocks.flatMap Block.slots).length) others) :
    InRow first (blocks ++ others) := by
  rw [InRow, List.flatMap_append, List.flatMap_append, h, h', ← List.map_append,
    List.range'_append_1, List.length_append]

theorem inRow_singleton (block : Block) : InRow block.entry.index [block] := by
  rw [InRow, List.flatMap_singleton, List.flatMap_singleton, Block.slots, length_slotsOf,
    List.range'_eq_map_range, List.map_map]
  rfl

namespace Layout

/-- The alternatives of a nonterminal are laid out in a row. -/
theorem exists_row_addAlternatives (owner : Nonterminal) (slots : Array Slot)
    (alternatives : List (List Atom)) : ∃ blocks : List Block,
      (addAlternatives owner slots alternatives).1.toList
        = slots.toList ++ blocks.flatMap Block.slots ∧
      InRow slots.size blocks ∧
      blocks.map Block.entry = (addAlternatives owner slots alternatives).2 ∧
      blocks.map Block.atoms = alternatives ∧ ∀ block ∈ blocks, block.owner = owner := by
  induction alternatives generalizing slots with
  | nil =>
    exact ⟨[], (List.append_nil _).symm, rfl, rfl, rfl, fun _ hblock =>
      absurd hblock List.not_mem_nil⟩
  | cons alternative rest ih =>
    -- The rest is laid out when the slots of the first alternative are there, so its blocks begin
    -- where that one ends.
    obtain ⟨blocks, hslots, hrow, hentries, hatoms, howner⟩ :=
      ih (slots ++ slotsOf owner alternative)
    rw [Array.toList_appendList, List.append_assoc] at hslots
    rw [size_append_slots] at hrow
    let first : Block := ⟨owner, ⟨slots.size⟩, alternative⟩
    have hlength : ([first].flatMap Block.slots).length = (slotsOf owner alternative).length := by
      rw [List.flatMap_singleton]
      rfl
    refine ⟨first :: blocks, hslots, (inRow_singleton first).append (hlength ▸ hrow), ?_, ?_, ?_⟩
    · exact congrArg (Label.mk slots.size :: ·) hentries
    · exact congrArg (alternative :: ·) hatoms
    · exact List.forall_mem_cons.mpr ⟨rfl, howner⟩

/-- The slots of a layout are slot 0 and blocks in a row, a group of them for each production. -/
structure InBlocks (layout : Layout) (productions : List (List (List Atom)))
    (groups : List (List Block)) : Prop where
  slots : layout.slots.toList = ⟨none, 0, .accept⟩ :: groups.flatten.flatMap Block.slots
  row : InRow 1 groups.flatten
  entries : groups.map (·.map Block.entry) = layout.entries.toList
  atoms : groups.map (·.map Block.atoms) = productions
  owner {index : Nat} {group : List Block} : groups[index]? = some group →
    ∀ block ∈ group, block.owner = ⟨index⟩

theorem inBlocks_initial : initial.InBlocks [] [] where
  slots := rfl
  row := rfl
  entries := rfl
  atoms := rfl
  owner h := by cases h

theorem InBlocks.addProduction {layout : Layout} {productions : List (List (List Atom))}
    {groups : List (List Block)} (h : layout.InBlocks productions groups)
    (alternatives : List (List Atom)) : ∃ group,
      (layout.addProduction alternatives).InBlocks (productions ++ [alternatives])
        (groups ++ [group]) := by
  obtain ⟨group, hslots, hrow, hentries, hatoms, howner⟩ :=
    exists_row_addAlternatives ⟨layout.entries.size⟩ layout.slots alternatives
  have hsize : layout.slots.size = 1 + (groups.flatten.flatMap Block.slots).length := by
    rw [← Array.length_toList, h.slots, List.length_cons, Nat.add_comm]
  have hflatten : (groups ++ [group]).flatten = groups.flatten ++ group := by
    rw [List.flatten_append, List.flatten_singleton]
  have hcount : groups.length = layout.entries.size := by
    rw [← Array.length_toList, ← h.entries, List.length_map]
  -- What there was of slots, labels, entries and atoms is now followed by that of the new group.
  refine ⟨group, ?_, ?_, ?_, ?_, ?_⟩
  · rw [hflatten, List.flatMap_append, ← List.cons_append, ← h.slots]
    exact hslots
  · rw [hflatten]
    exact h.row.append (hsize ▸ hrow)
  · rw [List.map_append, h.entries, List.map_singleton, hentries]
    exact Array.toList_push.symm
  · rw [List.map_append, h.atoms, List.map_singleton, hatoms]
  · intro index others hothers
    rw [List.getElem?_append] at hothers
    split at hothers
    · exact h.owner hothers
    · obtain ⟨hlt, hlast⟩ := List.getElem?_eq_some_iff.mp hothers
      rw [List.length_singleton] at hlt
      rw [List.getElem_singleton] at hlast
      obtain rfl : index = layout.entries.size := by omega
      exact hlast ▸ howner

theorem exists_inBlocks (productions : List (List (List Atom))) :
    ∃ groups, (ofProductions productions).InBlocks productions groups := by
  induction productions using List.reverseRecOn with
  | nil => exact ⟨[], inBlocks_initial⟩
  | append_singleton productions alternatives ih =>
    obtain ⟨groups, h⟩ := ih
    obtain ⟨group, hnext⟩ := h.addProduction alternatives
    rw [ofProductions, List.foldl_concat]
    exact ⟨_, hnext⟩

end Layout

/-! ## The blocks of a program -/

/-- The slots of a program are slot 0 and behind it the blocks of the alternatives, which are those
of the productions. -/
structure LaysOut (program : Program) (productions : List (List (List Atom))) : Prop where
  atoms : program.nonterminals.map (fun owner => (program.blocksOf owner).map Block.atoms)
    = productions
  slots : program.slots.toList = ⟨none, 0, .accept⟩ :: program.blocks.flatMap Block.slots
  labels : program.labels = acceptLabel :: program.blocks.flatMap Block.labels

/-- The blocks of a nonterminal are those that were laid out for it. -/
theorem blocksOf_eq {program : Program} {productions : List (List (List Atom))}
    {groups : List (List Block)}
    (hslots : program.slots = (Layout.ofProductions productions).slots)
    (hentries : program.entries = (Layout.ofProductions productions).entries)
    (h : (Layout.ofProductions productions).InBlocks productions groups) {index : Nat}
    {group : List Block} (hgroup : groups[index]? = some group) :
    program.blocksOf ⟨index⟩ = group := by
  have hlabels : program.entries? ⟨index⟩ = some (group.map Block.entry) := by
    rw [entries?, hentries, ← Array.getElem?_toList, ← h.entries, List.getElem?_map, hgroup]
    rfl
  -- The atoms that are read off the slots are those of the production.
  have hatoms : (group.map Block.entry).map program.atomsAt = group.map Block.atoms := by
    have hread := (Layout.holds_ofProductions productions).rightHandSides hslots hentries ⟨index⟩
    rw [rightHandSides, hlabels, Option.getD_some, ← h.atoms, List.getElem?_map, hgroup] at hread
    exact hread
  rw [List.map_map, List.map_inj_left] at hatoms
  rw [blocksOf, hlabels, Option.getD_some, List.map_map]
  refine (List.map_congr_left fun block hblock => ?_).trans (List.map_id group)
  exact Block.ext (h.owner hgroup block hblock).symm rfl (hatoms block hblock)

theorem laysOut_of_ofProductions {program : Program} {productions : List (List (List Atom))}
    (hslots : program.slots = (Layout.ofProductions productions).slots)
    (hentries : program.entries = (Layout.ofProductions productions).entries) :
    program.LaysOut productions := by
  obtain ⟨groups, h⟩ := Layout.exists_inBlocks productions
  -- Reading the blocks off the program gives the groups that were laid out.
  have hgroups : program.nonterminals.map program.blocksOf = groups := by
    have hcount : program.nonterminalCount = groups.length := by
      rw [nonterminalCount, hentries, ← Array.length_toList, ← h.entries, List.length_map]
    refine List.ext_getElem (by simp [nonterminals, hcount]) fun index hindex hindex' => ?_
    rw [List.getElem_map]
    simpa [nonterminals] using
      blocksOf_eq hslots hentries h (List.getElem?_eq_getElem hindex')
  have hblocks : program.blocks = groups.flatten := by
    rw [blocks, List.flatMap_def, hgroups]
  refine ⟨?_, ?_, ?_⟩
  · rw [← h.atoms, ← hgroups, List.map_map]
    rfl
  · rw [hslots, h.slots, hblocks]
  · have hsize : program.slotCount = (groups.flatten.flatMap Block.slots).length + 1 := by
      rw [slotCount, hslots, ← Array.length_toList, h.slots, List.length_cons]
    rw [Program.labels, hsize, hblocks, h.row, List.range_eq_range', List.range'_succ]
    rfl

/-! ## What is at the labels of a block -/

/-- The piece of an item that is its dot. -/
def dotPiece : Text.Piece := ⟨some .faint, "·"⟩

/-- An item with a blank before each of its texts, of which so many are before the dot. -/
def dotted (name : String) (texts : List Styled) (dot : Nat) : Styled :=
  paint .name name ++ plain " ::=" ++ ((texts.take dot).flatMap (plain " " ++ ·) ++ dotText ++
    (texts.drop dot).flatMap (plain " " ++ ·))

theorem withDot_eq {dot : Nat} {texts : List Styled} (h : dot ≤ texts.length) :
    withDot dot texts = (texts.take dot).flatMap (plain " " ++ ·) ++ dotText ++
      (texts.drop dot).flatMap (plain " " ++ ·) := by
  induction dot generalizing texts with
  | zero => rfl
  | succ dot ih =>
    cases texts with
    | nil => exact absurd h (Nat.not_succ_le_zero _)
    | cons text texts =>
      rw [withDot, ih (Nat.le_of_succ_le_succ h), List.take_succ_cons, List.drop_succ_cons,
        List.flatMap_cons]
      simp only [List.append_assoc]

theorem count_dotPiece_flatMap {texts : List Styled} (h : ∀ text ∈ texts, dotPiece ∉ text) :
    (texts.flatMap (plain " " ++ ·)).count dotPiece = 0 := by
  refine List.count_eq_zero.mpr fun hmem => ?_
  obtain ⟨text, htext, hmem⟩ := List.mem_flatMap.mp hmem
  rcases List.mem_append.mp hmem with hblank | hmem
  · exact absurd hblank (by decide)
  · exact h text htext hmem

/-- There is one dot in an item. -/
theorem count_dotPiece_dotted {texts : List Styled} (h : ∀ text ∈ texts, dotPiece ∉ text)
    (name : String) (dot : Nat) : (dotted name texts dot).count dotPiece = 1 := by
  have hname : (paint .name name ++ plain " ::=").count dotPiece = 0 := by
    refine List.count_eq_zero.mpr fun hmem => ?_
    simp [paint, plain, dotPiece] at hmem
  have hdot : dotText.count dotPiece = 1 := by decide
  have hbefore : ((texts.take dot).flatMap (plain " " ++ ·)).count dotPiece = 0 :=
    count_dotPiece_flatMap fun text htext => h text (List.mem_of_mem_take htext)
  have hafter : ((texts.drop dot).flatMap (plain " " ++ ·)).count dotPiece = 0 :=
    count_dotPiece_flatMap fun text htext => h text (List.mem_of_mem_drop htext)
  rw [dotted, List.count_append, hname, List.count_append, List.count_append, hbefore, hdot, hafter]

theorem dotPiece_not_mem_symbolText {program : Program} {slot : Slot} {text : Styled}
    (h : program.symbolText? slot = some text) : dotPiece ∉ text := by
  unfold symbolText? at h
  split at h
  · obtain rfl := Option.some.inj h
    simp [paint, dotPiece]
  · obtain ⟨name, -, rfl⟩ := Option.map_eq_some_iff.mp h
    simp [paint, dotPiece]
  · cases h
  · cases h

/-- What is found at each label of a block is that of its atoms. -/
structure Fits (program : Program) (block : Block) : Prop where
  /-- The slots count the atoms and hold their instructions, and the last one completes the
  owner. -/
  slot {dot : Nat} : dot ≤ block.atoms.length → program.slot? (block.label dot) =
    some ⟨some block.owner, dot, (block.atoms[dot]?).elim (.complete block.owner) Atom.instruction⟩
  /-- The atoms call nonterminals of the program. -/
  callee {callee : Nonterminal} : .nonterminal callee ∈ block.atoms →
    callee.index < program.nonterminalCount
  symbols {dot : Nat} : dot ≤ block.atoms.length →
    program.symbols? (block.label dot) = some block.symbols
  /-- Reading on from the beginning of the alternative comes to its end. -/
  scan {dot : Nat} : dot ≤ block.atoms.length →
    program.scan (block.label dot) = .ok block.symbols
  /-- The item has the texts of all symbols, and one dot. -/
  item {dot : Nat} : dot ≤ block.atoms.length → ∃ name texts,
    program.name? block.owner = some name ∧ block.symbols.mapM program.symbolText? = some texts ∧
    program.item? (block.label dot) = some (dotted name texts dot) ∧
    (dotted name texts dot).count dotPiece = 1

section Fits

variable {program : Program} {block : Block} {dot : Nat}

/-- An alternative is at an entry of its owner. -/
theorem exists_entries_of_mem_blocks (h : block ∈ program.blocks) :
    ∃ labels, program.entries? block.owner = some labels ∧ block.entry ∈ labels ∧
      program.atomsAt block.entry = block.atoms := by
  obtain ⟨owner, -, hmem⟩ := List.mem_flatMap.mp h
  obtain ⟨entry, hentry, rfl⟩ := List.mem_map.mp hmem
  cases hlabels : program.entries? owner with
  | none =>
    rw [hlabels] at hentry
    exact absurd hentry List.not_mem_nil
  | some labels =>
    rw [hlabels, Option.getD_some] at hentry
    exact ⟨labels, rfl, hentry, rfl⟩

variable (h : program.Whole) (hblock : block ∈ program.blocks)
include h hblock

/-- At a label of a block is the item with its atoms before and after the dot. -/
theorem Whole.item_label (hdot : dot ≤ block.atoms.length) :
    program.Item (block.label dot) (some block.owner) (block.atoms.take dot)
      (block.atoms.drop dot) := by
  obtain ⟨labels, hlabels, hentry, hatoms⟩ := exists_entries_of_mem_blocks hblock
  obtain ⟨alternative, hslots⟩ := h.laid.entry hlabels hentry
  rw [hslots.atomsAt_entry] at hatoms
  subst hatoms
  rw [← List.take_append_drop dot block.atoms] at hslots
  have hitem := Item.slot hlabels hentry hslots
  rw [List.length_take_of_le hdot] at hitem
  exact hitem

theorem Whole.symbols?_label (hdot : dot ≤ block.atoms.length) :
    program.symbols? (block.label dot) = some block.symbols := by
  have hsymbols := (h.item_label hblock hdot).symbols?
  rw [List.take_append_drop] at hsymbols
  exact hsymbols

theorem Whole.slot?_label (hdot : dot ≤ block.atoms.length) :
    program.slot? (block.label dot) = some ⟨some block.owner, dot,
      (block.atoms[dot]?).elim (.complete block.owner) Atom.instruction⟩ := by
  have hitem := h.item_label hblock hdot
  have hlength := List.length_take_of_le hdot
  rw [← List.head?_drop]
  cases hafter : block.atoms.drop dot with
  | nil =>
    rw [hafter] at hitem
    rw [hitem.slot?_nil, hlength]
    rfl
  | cons atom after =>
    rw [hafter] at hitem
    rw [hitem.slot?_cons, hlength]
    rfl

/-- All symbols have texts, of which none has a dot. -/
theorem Whole.exists_texts_symbols : ∃ texts, block.symbols.mapM program.symbolText? = some texts ∧
    texts.length = block.atoms.length ∧ ∀ text ∈ texts, dotPiece ∉ text := by
  have hmem : block.atoms ∈ program.rightHandSides block.owner := by
    have hitem := h.item_label hblock (Nat.zero_le _)
    exact hitem.mem_rightHandSides
  have heach : ∀ symbol ∈ block.symbols,
      program.symbolText? symbol = pure ((program.symbolText? symbol).getD []) := by
    intro symbol hsymbol
    obtain ⟨⟨atom, place⟩, hatom, rfl⟩ := List.mem_map.mp hsymbol
    obtain ⟨text, htext⟩ := h.exists_symbolText? hmem (List.fst_mem_of_mem_zipIdx hatom)
      ⟨some block.owner, place, atom.instruction⟩ rfl
    rw [htext]
    rfl
  refine ⟨_, mapM_eq_pure heach, ?_, fun text htext => ?_⟩
  · simp [Block.symbols]
  · obtain ⟨symbol, hsymbol, rfl⟩ := List.mem_map.mp htext
    exact dotPiece_not_mem_symbolText (heach symbol hsymbol)

theorem Whole.fits : program.Fits block where
  slot := h.slot?_label hblock
  -- With the dot in front of a call, the item says what is called.
  callee hmem := by
    obtain ⟨before, after, hatoms⟩ := List.append_of_mem hmem
    have hdot : before.length ≤ block.atoms.length := by
      rw [hatoms, List.length_append]
      exact Nat.le_add_right _ _
    have hitem := h.item_label hblock hdot
    rw [hatoms, List.drop_left] at hitem
    exact h.callee_lt hitem
  symbols := h.symbols?_label hblock
  -- A scan finds what stands at the label, and that are the symbols of the block.
  scan hdot := by
    have hlt := (h.item_label hblock hdot).index_lt h.laid
    obtain ⟨-, symbols, -, -, hsymbols, hscan⟩ := h.scan_eq hlt
    rw [h.symbols?_label hblock hdot] at hsymbols
    rw [hscan, Option.some.inj hsymbols]
  item {dot} hdot := by
    have hitem := h.item_label hblock hdot
    obtain ⟨name, hname⟩ := h.named hitem.owner_lt
    obtain ⟨texts, htexts, hlength, hnone⟩ := h.exists_texts_symbols hblock
    refine ⟨name, texts, hname, htexts, ?_, count_dotPiece_dotted hnone name dot⟩
    have hdots := withDot_eq (hlength ▸ hdot)
    simp only [item?, h.slot?_label hblock hdot, hname, h.symbols?_label hblock hdot, htexts,
      Option.bind_eq_bind, Option.bind_some, hdots]
    rfl

end Fits

/-- Only slot 0 accepts. -/
theorem Laid.accept_iff {program : Program} (h : program.Laid) {label : Label} :
    (∃ slot, program.slot? label = some slot ∧ slot.instruction = .accept) ↔
      label = acceptLabel := by
  constructor
  · rintro ⟨slot, hslot, haccept⟩
    by_contra hne
    obtain ⟨owner, before, after, hitem⟩ := h.covered hslot hne
    cases after with
    | nil =>
      rw [hitem.slot?_nil] at hslot
      obtain rfl := Option.some.inj hslot
      cases haccept
    | cons atom after =>
      rw [hitem.slot?_cons] at hslot
      obtain rfl := Option.some.inj hslot
      cases atom <;> cases haccept
  · rintro rfl
    exact ⟨_, h.accept, rfl⟩

/-! ## The lines of the slots -/

/-- The line of a slot with its item. -/
def itemLine? (program : Program) (label : Label) : Option Styled := do
  return program.slotLine label (← program.item? label)

/-- The line of a slot that has an item. -/
def itemLine (program : Program) (label : Label) : Styled :=
  program.slotLine label ((program.item? label).getD [])

/-- Whether a line of a listing is that of a slot: those of the nonterminals are not indented. -/
def isSlotLine (line : Styled) : Bool := line.head? == some ⟨none, "  "⟩

theorem filter_itemLines (program : Program) (labels : List Label) :
    (labels.map program.itemLine).filter isSlotLine = labels.map program.itemLine := by
  refine List.filter_eq_self.mpr fun line hline => ?_
  obtain ⟨label, -, rfl⟩ := List.mem_map.mp hline
  rfl

namespace Whole

variable {program : Program} (h : program.Whole)
include h

/-- The lines of the labels of the program, all of them at once. -/
theorem mapM_itemLine? {labels : List Label}
    (hlabels : ∀ label ∈ labels, label.index < program.slotCount) :
    labels.mapM program.itemLine? = some (labels.map program.itemLine) := by
  refine mapM_eq_pure fun label hlabel => ?_
  obtain ⟨text, htext⟩ := h.exists_item? (hlabels label hlabel)
  rw [itemLine?, itemLine, htext]
  rfl

theorem label_lt {block : Block} (hblock : block ∈ program.blocks) {label : Label}
    (hlabel : label ∈ block.labels) : label.index < program.slotCount := by
  obtain ⟨dot, hdot, rfl⟩ := Block.mem_labels.mp hlabel
  exact (h.item_label hblock hdot).index_lt h.laid

theorem blockLabels?_entry {block : Block} (hblock : block ∈ program.blocks) :
    program.blockLabels? block.entry = some block.labels := by
  have hsymbols : program.symbols? block.entry = some block.symbols :=
    h.symbols?_label hblock (Nat.zero_le _)
  rw [blockLabels?, hsymbols, Block.labels, Option.bind_eq_bind, Option.bind_some, Block.symbols,
    List.length_map, List.length_zipIdx]
  rfl

/-- Of a nonterminal its name is listed, and behind it the slots of its blocks. -/
theorem nonterminalLines?_eq {owner : Nonterminal} (howner : owner ∈ program.nonterminals) :
    program.nonterminalLines? owner
      = some ([[], paint .name ((program.name? owner).getD "")] ++
        ((program.blocksOf owner).flatMap Block.labels).map program.itemLine) := by
  have hmem : ∀ block ∈ program.blocksOf owner, block ∈ program.blocks := fun block hblock =>
    List.mem_flatMap.mpr ⟨owner, howner, hblock⟩
  obtain ⟨index, hindex, rfl⟩ := List.mem_map.mp howner
  have hlt : (⟨index⟩ : Nonterminal).index < program.nonterminalCount := List.mem_range.mp hindex
  obtain ⟨name, hname⟩ := h.named hlt
  have hentries : program.entries? ⟨index⟩ = some program.entries[index] :=
    Array.getElem?_eq_getElem hlt
  -- Each entry begins a block, and the labels that are listed for it are those of the block.
  have hblocks : program.entries[index].mapM program.blockLabels?
      = some ((program.blocksOf ⟨index⟩).map Block.labels) := by
    rw [blocksOf, hentries, Option.getD_some, List.map_map]
    refine mapM_eq_pure fun entry hentry => ?_
    have hblock : ⟨⟨index⟩, entry, program.atomsAt entry⟩ ∈ program.blocksOf ⟨index⟩ := by
      rw [blocksOf, hentries]
      exact List.mem_map_of_mem hentry
    exact h.blockLabels?_entry (hmem _ hblock)
  have hlabels : ∀ label ∈ (program.blocksOf ⟨index⟩).flatMap Block.labels,
      label.index < program.slotCount := by
    intro label hlabel
    obtain ⟨block, hblock, hlabel⟩ := List.mem_flatMap.mp hlabel
    exact h.label_lt (hmem block hblock) hlabel
  simp only [nonterminalLines?, hname, hentries, hblocks, Option.bind_eq_bind, Option.bind_some]
  rw [← List.flatMap_def]
  exact congrArg (Option.bind · _) (h.mapM_itemLine? hlabels)

/-- Every label is listed once, and they come in order. -/
theorem exists_listing?_filter
    (hlabels : program.labels = acceptLabel :: program.blocks.flatMap Block.labels) :
    ∃ lines, program.listing? = some lines ∧
      program.labels.mapM program.itemLine? = some (lines.filter isSlotLine) := by
  obtain ⟨start, hstart⟩ := h.named h.start_lt
  have hgroups := mapM_eq_pure fun owner howner => h.nonterminalLines?_eq howner
  have haccept : program.item? acceptLabel = some (plain "accept") := by
    rw [item?, h.laid.accept]
    rfl
  have hlt : ∀ label ∈ program.labels, label.index < program.slotCount := by
    intro label hlabel
    obtain ⟨index, hindex, rfl⟩ := List.mem_map.mp hlabel
    exact List.mem_range.mp hindex
  simp only [listing?, hstart, hgroups, Option.bind_eq_bind, Option.bind_some]
  refine ⟨_, rfl, ?_⟩
  have hfirst : program.slotLine acceptLabel (plain "accept") = program.itemLine acceptLabel := by
    rw [itemLine, haccept, Option.getD_some]
  -- What is left of the lines of a nonterminal are those of its blocks.
  have hgroup (owner : Nonterminal) : ([[], paint .name ((program.name? owner).getD "")] ++
      ((program.blocksOf owner).flatMap Block.labels).map program.itemLine).filter isSlotLine
      = ((program.blocksOf owner).flatMap Block.labels).map program.itemLine := by
    rw [List.filter_append, filter_itemLines]
    rfl
  have hblocks : program.blocks.flatMap Block.labels
      = program.nonterminals.flatMap fun owner =>
        (program.blocksOf owner).flatMap Block.labels := by
    rw [blocks, List.flatMap_assoc]
  rw [h.mapM_itemLine? hlt, hlabels, hblocks, List.filter_append, List.filter_flatten, List.map_map,
    ← List.flatMap_def, List.map_cons, List.map_flatMap, ← hfirst]
  simp only [Function.comp_def, hgroup]
  rfl

end Whole

/-! ## Compiled programs -/

/-- The slots of a compiled program are slot 0, the only one that accepts, and behind it the blocks
of the alternatives to which the rules were flattened. From each label of a block its symbols are
found and its item is shown, and the listing has every slot once. -/
theorem compile_blocks {grammar : Grammar} {program : Program}
    (h : Program.compile grammar = .ok program) :
    ∃ draft,
      Lowering.lowerRules grammar 0 grammar.rules (Lowering.initial grammar) = .ok ((), draft) ∧
      program.LaysOut draft.productions.toList ∧
      (∀ block ∈ program.blocks, program.Fits block) ∧
      (∀ label, (∃ slot, program.slot? label = some slot ∧ slot.instruction = .accept) ↔
        label = acceptLabel) ∧
      ∃ lines, program.listing? = some lines ∧
        program.labels.mapM program.itemLine? = some (lines.filter isSlotLine) := by
  have hwhole := whole_of_compile h
  obtain ⟨name, start, draft, -, -, hrun, hprogram⟩ := compile_eq_ok h
  have hlays : program.LaysOut draft.productions.toList := by
    subst hprogram
    exact laysOut_of_ofProductions rfl rfl
  exact ⟨draft, hrun, hlays, fun block => hwhole.fits, fun label => hwhole.laid.accept_iff,
    hwhole.exists_listing?_filter hlays.labels⟩

/-- The circular grammar has a nonterminal with three alternatives, of which one is empty. -/
theorem compile_blocks_circular : ∃ program, Program.compile circular = .ok program ∧
    program.LaysOut [[[.nonterminal ⟨0⟩, .nonterminal ⟨0⟩], [.terminal (.char 'a')], []]] ∧
    (∀ block ∈ program.blocks, program.Fits block) ∧
    (∀ label, (∃ slot, program.slot? label = some slot ∧ slot.instruction = .accept) ↔
      label = acceptLabel) ∧
    ∃ lines, program.listing? = some lines ∧
      program.labels.mapM program.itemLine? = some (lines.filter isSlotLine) := by
  obtain ⟨program, hcompile⟩ : ∃ program, Program.compile circular = .ok program := ⟨_, rfl⟩
  obtain ⟨draft, hrun, hlays, hrest⟩ := compile_blocks hcompile
  obtain ⟨-, rfl⟩ := Prod.mk.inj (Except.ok.inj hrun)
  exact ⟨program, hcompile, hlays, hrest⟩

end Program

end Gll
