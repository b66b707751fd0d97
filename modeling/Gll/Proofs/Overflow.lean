import Gll.Proofs.Frontier
import Mathlib.Data.Finset.Powerset

/-!
How many references there are at least.

Different rows of trees over a prefix go different ways through it, at least where no node has two
of the trees. If all rows begin with one tree, then each of the ways mentions the node of that tree.
So the node is mentioned as often as there are rows (`Navigable.card_le_count_mentions`), and there
can be as many rows as there are ways to distribute letters over places. That outgrows a word long
before anything else does: there is a short text of a small grammar, with a few thousand nodes,
whose forest has no outline (`Program.exists_root_places`).
-/

set_option autoImplicit false

namespace Gll

/-- If everything in a set is related to one of a few items, and an item has only so many things
related to it, then all items together bound the set. -/
theorem card_le_sum_map {α β : Type} {R : β → α → Prop} {bound : β → Nat} {items : List β}
    (hbound : ∀ item ∈ items, ∀ part : Finset α, (∀ a ∈ part, R item a) →
      part.card ≤ bound item)
    {all : Finset α} (hall : ∀ a ∈ all, ∃ item ∈ items, R item a) :
    all.card ≤ (items.map bound).sum := by
  classical
  induction items generalizing all with
  | nil =>
    have hnone : all = ∅ := Finset.eq_empty_of_forall_notMem fun a ha => by
      obtain ⟨item, hitem, -⟩ := hall a ha
      exact absurd hitem List.not_mem_nil
    rw [hnone]
    exact Nat.zero_le _
  | cons item rest ih =>
    -- What is related to the first item is bounded by it, and what is not by the others.
    have hfirst := hbound item List.mem_cons_self {a ∈ all | R item a} fun a ha =>
      (Finset.mem_filter.mp ha).2
    have hothers : ∀ a ∈ ({a ∈ all | ¬ R item a} : Finset α), ∃ item' ∈ rest, R item' a := by
      intro a ha
      obtain ⟨hmem, hnot⟩ := Finset.mem_filter.mp ha
      obtain ⟨item', hitem', hrelated⟩ := hall a hmem
      rcases List.mem_cons.mp hitem' with rfl | hitem'
      · exact absurd hrelated hnot
      · exact ⟨item', hitem', hrelated⟩
    have hrest := ih (fun item' hitem' => hbound item' (List.mem_cons_of_mem _ hitem')) hothers
    rw [← Finset.card_filter_add_card_filter_not (R item), List.map_cons, List.sum_cons]
    exact Nat.add_le_add hfirst hrest

namespace Forest

variable {program : Program} {forest : Forest} {kind : Set Tree} {first : Tree} {n : Nat}

/-- No node has two trees of a kind. -/
def TellsApart (forest : Forest) (kind : Set Tree) : Prop :=
  ∀ ⦃id : SymbolId⦄ ⦃tree tree' : Tree⦄, tree ∈ kind → tree' ∈ kind →
    forest.HasTree id tree → forest.HasTree id tree' → tree = tree'

/-- The trees of a prefix, all of a kind: a tree that is known, and some number of others. -/
structure IsRow (forest : Forest) (kind : Set Tree) (first : Tree) (n : Nat) (id : PrefixId)
    (row : List Tree) : Prop where
  trees : forest.Trees (.stem id) row
  kind {tree : Tree} : tree ∈ row → tree ∈ kind
  begins : ∃ others, row = first :: others ∧ others.length = n

theorem Trees.exists_singleton {id : SymbolId} {trees : List Tree}
    (h : forest.Trees (.symbol id) trees) : ∃ tree, trees = [tree] := by
  cases h with
  | terminal _ => exact ⟨_, rfl⟩
  | nonterminal _ _ _ => exact ⟨_, rfl⟩

/-- The trees of a prefix come from a split: the last one from its right, the others from its
left. -/
theorem IsRow.exists_split {id : PrefixId} {row : List Tree}
    (h : forest.IsRow kind first n id row) :
    ∃ node child left right, forest.prefixNode? id = some node ∧ child ∈ node.children ∧
      row = left ++ [right] ∧ right ∈ kind ∧ forest.HasTree child.right right ∧
        (n = 0 → right = first) ∧ ∀ m, n = m + 1 → forest.IsRow kind first m child.left left := by
  obtain ⟨others, hrow, hlength⟩ := h.begins
  cases h.trees with
  | empty _ => cases hrow
  | @cons _ label start stop children child left right hnode hchild hleft hright =>
    obtain ⟨right, rfl⟩ := hright.exists_singleton
    refine ⟨_, child, left, right, hnode, hchild, rfl, h.kind (by simp), hright, ?_, ?_⟩
    · rintro rfl
      rw [List.length_eq_zero_iff.mp hlength] at hrow
      exact (List.append_eq_singleton_iff.mp hrow).elim (fun hsplit => by simpa using hsplit.2)
        fun hsplit => by simpa using hsplit.2
    · rintro m rfl
      -- There are others, so the first of the row is on the left.
      cases left with
      | nil =>
        rw [List.nil_append] at hrow
        rw [(List.cons.inj hrow).2.symm] at hlength
        cases hlength
      | cons tree rest =>
        obtain ⟨rfl, rfl⟩ := List.cons.inj hrow
        refine ⟨hleft, fun hmem => h.kind (List.mem_append_left _ hmem), rest, rfl, ?_⟩
        simpa using hlength

namespace Navigable

variable (h : forest.Navigable program) (hkind : forest.TellsApart kind) {symbol : SymbolId}
  (hsymbol : ∀ {id : SymbolId}, forest.HasTree id first → id = symbol)
include h hkind hsymbol

/-- The node of the first tree is mentioned once for each row. -/
theorem card_le_count_mentions {id : PrefixId} {rows : Finset (List Tree)}
    (hrows : ∀ row ∈ rows, forest.IsRow kind first n id row) :
    rows.card ≤ (forest.mentions id).count symbol := by
  classical
  -- On the length of the rows, since the rows on the left of a split are shorter.
  induction n generalizing id rows with
  | zero =>
    have hsame : ∀ row ∈ rows, row = [first] := fun row hrow => by
      obtain ⟨others, rfl, hlength⟩ := (hrows row hrow).begins
      rw [List.length_eq_zero_iff.mp hlength]
    rcases rows.eq_empty_or_nonempty with rfl | ⟨row, hrow⟩
    · exact Nat.zero_le _
    · obtain ⟨node, child, left, right, hnode, hchild, -, -, hright, hfirst, -⟩ :=
        (hrows row hrow).exists_split
      have heq : child.right = symbol := hsymbol (hfirst rfl ▸ hright)
      have hmem : symbol ∈ forest.mentions id := by
        rw [h.mentions_eq hnode, List.mem_flatMap]
        exact ⟨child, Array.mem_toList_iff.mpr hchild, heq ▸ List.mem_cons_self⟩
      calc rows.card ≤ 1 := Finset.card_le_one.mpr fun row hrow row' hrow' =>
            (hsame row hrow).trans (hsame row' hrow').symm
        _ ≤ _ := List.count_pos_iff.mpr hmem
  | succ n ih =>
    rcases rows.eq_empty_or_nonempty with rfl | ⟨row, hrow⟩
    · exact Nat.zero_le _
    obtain ⟨node, -, -, -, hnode, -⟩ := (hrows row hrow).exists_split
    rw [h.mentions_eq hnode, List.count_flatMap]
    refine card_le_sum_map (R := fun child row => ∃ left right, row = left ++ [right] ∧
      right ∈ kind ∧ forest.HasTree child.right right ∧
        forest.IsRow kind first n child.left left) (fun child _ part hpart => ?_) fun row hrow => ?_
    · -- Rows that come from one split end with one tree, so they differ on the left.
      have hinj : Set.InjOn List.dropLast (part : Set (List Tree)) := by
        intro row hrow row' hrow' heq
        obtain ⟨left, right, rfl, hright, hhas, -⟩ := hpart row hrow
        obtain ⟨left', right', rfl, hright', hhas', -⟩ := hpart row' hrow'
        rw [List.dropLast_concat, List.dropLast_concat] at heq
        rw [heq, hkind hright hright' hhas hhas']
      have hlefts : ∀ left ∈ part.image List.dropLast,
          forest.IsRow kind first n child.left left := by
        intro left hleft
        obtain ⟨row, hrow, rfl⟩ := Finset.mem_image.mp hleft
        obtain ⟨left, right, rfl, -, -, hleft⟩ := hpart row hrow
        rw [List.dropLast_concat]
        exact hleft
      have hle := ih hlefts
      rw [Finset.card_image_of_injOn hinj] at hle
      exact hle.trans (List.count_le_count_cons)
    · obtain ⟨node', child, left, right, hnode', hchild, heq, hright, hhas, -, hleft⟩ :=
        (hrows row hrow).exists_split
      obtain rfl := Option.some.inj (hnode.symm.trans hnode')
      exact ⟨child, Array.mem_toList_iff.mpr hchild, left, right, heq, hright, hhas, hleft n rfl⟩

/-- It is referred to once for each tree of the root, if these are nodes over such rows. -/
theorem card_le_referenceCount {root : SymbolId} {nonterminal : Nonterminal}
    {rows : Finset (List Tree)} (htrees : ∀ row ∈ rows, forest.HasTree root (.node nonterminal row))
    (hrows : ∀ row ∈ rows, (∀ tree ∈ row, tree ∈ kind) ∧
      ∃ others, row = first :: others ∧ others.length = n) :
    rows.card ≤ forest.referenceCount root symbol := by
  rcases rows.eq_empty_or_nonempty with rfl | ⟨row, hrow⟩
  · exact Nat.zero_le _
  obtain ⟨node, hnode⟩ : ∃ node, forest.symbolNode? root = some node := by
    cases htrees row hrow with
    | nonterminal hnode _ _ => exact ⟨_, hnode⟩
  have hcount : rows.card ≤ (forest.refersTo root).count symbol := by
    rw [refersTo_eq hnode, List.count_flatMap]
    refine card_le_sum_map (R := fun child row => forest.IsRow kind first n child row)
      (fun child _ part hpart => h.card_le_count_mentions hkind hsymbol hpart) fun row hrow => ?_
    cases htrees row hrow with
    | nonterminal hnode' hchild hrest =>
      obtain rfl := Option.some.inj (hnode.symm.trans hnode')
      exact ⟨_, Array.mem_toList_iff.mpr hchild, hrest, (hrows row hrow).1 _, (hrows row hrow).2⟩
  have hreached : root.index ∈ forest.reached root := mem_reached.mpr
    ⟨(Array.getElem?_eq_some_iff.mp hnode).1, .refl⟩
  have hsum := Finset.single_le_sum (f := fun i => (forest.refersTo ⟨i⟩).count symbol)
    (fun _ _ => Nat.zero_le _) hreached
  exact hcount.trans (hsum.trans (Nat.le_add_left _ _))

end Navigable

end Forest

namespace Moment

variable {program : Program} {input : List Char} {m : Moment}

/-- There is one node for the trees of a nonterminal over a segment that is not empty. -/
theorem Sound.eq_of_hasTree (hlaid : program.Laid) (hsound : m.Sound program input)
    (hdistinct : m.scheduler.Distinct) {id id' : SymbolId} {symbol : Nonterminal}
    {children : List Tree} (hne : Tree.leavesOfRow children ≠ [])
    (h : m.scheduler.forest.HasTree id (.node symbol children))
    (h' : m.scheduler.forest.HasTree id' (.node symbol children)) : id = id' := by
  have hspan {id : SymbolId} (h : m.scheduler.forest.HasTree id (.node symbol children)) :
      ∃ i j, m.Holds (.derivation id symbol (.of input i) (.of input j)) ∧
        Tree.leavesOfRow children = List.range' i (j - i) := by
    cases h with
    | @nonterminal _ _ first last alternatives _ _ hnode hchild htrees =>
      have hholds : m.Holds (.derivation id symbol first last) := ⟨alternatives, hnode⟩
      obtain ⟨i, j, -, rfl, rfl, -⟩ := hsound.proper hholds
      have hderives := hsound.derivesTree hlaid hholds (.nonterminal hnode hchild htrees)
      have hleaves := hderives.leavesOfRow
      rw [Tree.leavesOfRow_singleton] at hleaves
      exact ⟨i, j, hholds, hleaves⟩
  obtain ⟨i, j, hholds, hleaves⟩ := hspan h
  obtain ⟨i', j', hholds', hleaves'⟩ := hspan h'
  -- The leaves tell where the segment begins and how long it is.
  rw [hleaves] at hleaves' hne
  obtain ⟨hlength, hbegin⟩ := List.range'_inj.mp hleaves'
  have hpositive : j - i ≠ 0 := fun hzero => hne (by rw [hzero, List.range'_zero])
  obtain rfl : i = i' := hbegin.resolve_left hpositive
  obtain rfl : j = j' := by omega
  exact congrArg SymbolId.mk (hdistinct.unique (.derivation symbol (.of input i) (.of input j))
    hholds hholds')

end Moment

namespace Program

/-! ## Letters in places -/

/-- A grammar with thirty-six places, each of which holds a letter or nothing: `S = A A … A` and
`A = "a" | ""`. -/
def places : Grammar :=
  ((Grammar.empty "places").withRule "S" (.sequence (List.replicate 36 (.symbol "A")))).withRule "A"
    (.choice [.literal "a", .blank])

theorem compile_places : ∃ program, Program.compile places = .ok program ∧
    program.slotCount = 41 ∧ program.start = ⟨0⟩ ∧ program.entries = #[[⟨1⟩], [⟨38⟩, ⟨40⟩]] ∧
      program.atomsAt ⟨1⟩ = List.replicate 36 (.nonterminal ⟨1⟩) ∧
        program.atomsAt ⟨38⟩ = [.terminal (.char 'a')] ∧ program.atomsAt ⟨40⟩ = [] :=
  ⟨_, rfl, rfl, rfl, rfl, rfl, rfl, rfl⟩

theorem rightHandSides_places {program : Program}
    (hcompile : Program.compile places = .ok program) :
    program.rightHandSides ⟨0⟩ = [List.replicate 36 (.nonterminal ⟨1⟩)] ∧
      program.rightHandSides ⟨1⟩ = [[.terminal (.char 'a')], []] := by
  obtain ⟨other, hcompile', -, -, hentries, hrow, hletter, hnothing⟩ := compile_places
  obtain rfl : program = other := Except.ok.inj (hcompile.symm.trans hcompile')
  constructor
  · simp [rightHandSides, entries?, hentries, hrow]
  · simp [rightHandSides, entries?, hentries, hletter, hnothing]

/-- A place that holds the letter at an offset, or holds nothing. -/
def placeTree (offset : Option Nat) : Tree := .node ⟨1⟩ (offset.toList.map .leaf)

/-- The letters up to a place: one, and one more for each place before that was chosen. -/
def lettersBefore (chosen : Finset Nat) (place : Nat) : Nat :=
  (chosen ∩ Finset.range place).card + 1

/-- A place that holds the first letter, and others that hold a letter if they were chosen. -/
def placeTrees (chosen : Finset Nat) : Nat → List Tree
  | 0 => [placeTree (some 0)]
  | place + 1 => placeTrees chosen place
    ++ [placeTree (if place ∈ chosen then some (lettersBefore chosen place) else none)]

theorem lettersBefore_succ (chosen : Finset Nat) (place : Nat) :
    lettersBefore chosen (place + 1)
      = lettersBefore chosen place + if place ∈ chosen then 1 else 0 := by
  unfold lettersBefore
  rw [Finset.range_add_one]
  split
  · next hmem =>
    have hnew : place ∉ chosen ∩ Finset.range place := by simp
    rw [Finset.inter_insert_of_mem hmem, Finset.card_insert_of_notMem hnew]
  · next hmem =>
    rw [Finset.inter_insert_of_notMem hmem]

theorem length_placeTrees (chosen : Finset Nat) (count : Nat) :
    ∃ others, placeTrees chosen count = placeTree (some 0) :: others ∧ others.length = count := by
  induction count with
  | zero => exact ⟨[], rfl, rfl⟩
  | succ count ih =>
    obtain ⟨others, heq, hlength⟩ := ih
    exact ⟨others ++ [_], by rw [placeTrees, heq, List.cons_append], by simp [hlength]⟩

theorem exists_of_mem_placeTrees {chosen : Finset Nat} {count : Nat} {tree : Tree}
    (h : tree ∈ placeTrees chosen count) : ∃ offset, tree = placeTree offset := by
  induction count with
  | zero => exact ⟨_, List.mem_singleton.mp h⟩
  | succ count ih =>
    rcases List.mem_append.mp h with h | h
    · exact ih h
    · exact ⟨_, List.mem_singleton.mp h⟩

theorem placeTree_injective : Function.Injective placeTree := by
  intro offset offset' h
  cases offset <;> cases offset' <;> simp_all [placeTree]

/-- The trees tell which places were chosen. -/
theorem mem_iff_of_placeTrees_eq {chosen chosen' : Finset Nat} {count : Nat}
    (h : placeTrees chosen count = placeTrees chosen' count) {place : Nat}
    (hplace : place < count) : place ∈ chosen ↔ place ∈ chosen' := by
  induction count with
  | zero => exact absurd hplace (Nat.not_lt_zero _)
  | succ count ih =>
    obtain ⟨hbefore, hlast⟩ := List.append_inj' h rfl
    rcases Nat.lt_succ_iff_lt_or_eq.mp hplace with hless | rfl
    · exact ih hbefore hless
    · have heq := placeTree_injective (List.singleton_inj.mp hlast)
      by_cases hmem : place ∈ chosen <;> by_cases hmem' : place ∈ chosen' <;> simp_all

theorem injOn_placeTrees (count : Nat) : Set.InjOn (fun chosen => placeTrees chosen count)
    {chosen | chosen ⊆ Finset.range count} := by
  intro chosen hchosen chosen' hchosen' heq
  ext place
  exact ⟨fun hmem => (mem_iff_of_placeTrees_eq heq (Finset.mem_range.mp (hchosen hmem))).mp hmem,
    fun hmem => (mem_iff_of_placeTrees_eq heq (Finset.mem_range.mp (hchosen' hmem))).mpr hmem⟩

/-- A node covers the leaves of its trees, and the trees of a place differ in these. -/
theorem tellsApart_placeTree {program : Program} {input : List Char} {m : Moment}
    (hlaid : program.Laid) (hsound : m.Sound program input) :
    m.scheduler.forest.TellsApart (Set.range placeTree) := by
  rintro id _ _ ⟨offset, rfl⟩ ⟨offset', rfl⟩ htree htree'
  have hid : m.scheduler.forest.IsDerivation id := by
    cases htree with
    | nonterminal hnode _ _ => exact ⟨_, _, _, _, hnode⟩
  have hleaves := (hsound.leaves_eq_cover hlaid hid htree).trans
    (hsound.leaves_eq_cover hlaid hid htree').symm
  cases offset <;> cases offset' <;> simp_all [placeTree, Tree.leaves, Tree.leavesOfRow]

/-- The letters can be distributed over the places in any way. -/
theorem derives_placeTrees {program : Program} (hcompile : Program.compile places = .ok program)
    {input : List Char} {chosen : Finset Nat} {letters : Nat}
    (hinput : ∀ i < letters, input[i]? = some 'a') (hcard : chosen.card < letters) (count : Nat) :
    program.rightHandSides.Derives input (List.replicate (count + 1) (.nonterminal ⟨1⟩)) 0
      (lettersBefore chosen count) (placeTrees chosen count) := by
  obtain ⟨-, hatoms⟩ := rightHandSides_places hcompile
  have hletter {i : Nat} (hi : i < letters) : program.rightHandSides.Derives input
      [.nonterminal ⟨1⟩] i (i + 1) [placeTree (some i)] :=
    .nonterminal (by rw [hatoms]; exact List.mem_cons_self)
      (.terminal (hinput i hi) (by simp [Matcher.accepts]) (.nil _)) (.nil _)
  have hnothing (i : Nat) : program.rightHandSides.Derives input
      [.nonterminal ⟨1⟩] i i [placeTree none] :=
    .nonterminal (by rw [hatoms]; simp) (.nil _) (.nil _)
  induction count with
  | zero =>
    have hzero : lettersBefore chosen 0 = 0 + 1 := by simp [lettersBefore]
    rw [hzero]
    exact hletter (by omega)
  | succ count ih =>
    rw [List.replicate_succ', placeTrees, lettersBefore_succ]
    refine ih.append ?_
    split
    · next hmem =>
      -- A place that was chosen is not among those before it.
      have hless : (chosen ∩ Finset.range count).card < chosen.card :=
        Finset.card_lt_card (Finset.ssubset_iff_subset_ne.mpr ⟨Finset.inter_subset_left,
          fun heq => Finset.notMem_range_self (Finset.inter_eq_left.mp heq hmem)⟩)
      exact hletter (show _ + 1 < _ by omega)
    · exact hnothing _

/-- Eighteen letters, which can be distributed over thirty-six places in more ways than there are
words. -/
def letters : String := "aaaaaaaaaaaaaaaaaa"

theorem size_lt_choose : UInt32.size < Nat.choose 35 17 := by
  rw [Nat.choose_eq_factorial_div_factorial (by decide)]
  decide

theorem toList_letters : letters.toList = List.replicate 18 'a' := rfl

/-- Whichever places are chosen besides the first one, there is a tree over all letters. -/
theorem derivesTree_places {program : Program} (hcompile : Program.compile places = .ok program)
    {chosen : Finset Nat} (hchosen : chosen ∈ (Finset.range 35).powersetCard 17) :
    program.rightHandSides.DerivesTree letters.toList program.start 0 18
      (.node program.start (placeTrees chosen 35)) := by
  obtain ⟨other, hcompile', -, hstart, -⟩ := compile_places
  obtain rfl : program = other := Except.ok.inj (hcompile.symm.trans hcompile')
  obtain ⟨hsubset, hcard⟩ := Finset.mem_powersetCard.mp hchosen
  have hinput : ∀ i < 18, letters.toList[i]? = some 'a' := fun i hi => by
    rw [toList_letters, List.getElem?_replicate_of_lt hi]
  have hlast : lettersBefore chosen 35 = 18 := by
    rw [lettersBefore, Finset.inter_eq_left.mpr hsubset, hcard]
  have hrow := derives_placeTrees hcompile hinput (by omega : chosen.card < 18) 35
  rw [hlast] at hrow
  rw [hstart]
  exact .nonterminal (by rw [(rightHandSides_places hcompile).1]; exact List.mem_cons_self) hrow
    (.nil _)

theorem parse_places : ∃ program session, Program.compile places = .ok program ∧
    program.parse .silent () 608399 letters = .ok true session := by
  obtain ⟨program, hcompile, hcount, -⟩ := compile_places
  have hchosen : Finset.range 17 ∈ (Finset.range 35).powersetCard 17 :=
    Finset.mem_powersetCard.mpr ⟨Finset.range_subset_range.mpr (by decide), Finset.card_range 17⟩
  have hmem : letters.toList ∈ program.rightHandSides.language program.start :=
    (Productions.take_mem_language_iff (k := 18) (by simp [toList_letters])).mpr
      ⟨_, derivesTree_places hcompile hchosen⟩
  have hlimit : (letters.toList.length + 1) * program.generationFuel letters.toList.length
      ≤ 608399 := by
    rw [generationFuel, hcount, toList_letters]
    decide
  obtain ⟨session, hparse⟩ :=
    exists_parse_of_mem Tracer.isTotal_silent hcompile letters hmem hlimit ()
  exact ⟨program, session, hcompile, hparse⟩

/-- The place of the first letter is referred to once for each way to distribute the others. -/
theorem exists_choose_le_referenceCount {program : Program} {m : Moment}
    (hcompile : Program.compile places = .ok program) (h : m.Timeline program letters.toList)
    (hdrained : m.pending = []) (hindex : m.index = 18) (hdistinct : m.scheduler.Distinct)
    {root : SymbolId}
    (hroot : m.Holds (.derivation root program.start (.of letters.toList 0)
      (.of letters.toList m.index))) :
    ∃ id, Nat.choose 35 17 ≤ m.scheduler.forest.referenceCount root id := by
  classical
  have hwhole := whole_of_compile hcompile
  obtain ⟨carried, hunderway⟩ := h.underway
  have hsound := hunderway.steady.sound
  have hkind := tellsApart_placeTree hwhole.laid hsound
  obtain ⟨id, hid⟩ : ∃ id, ∀ {id'}, m.scheduler.forest.HasTree id' (placeTree (some 0)) →
      id' = id := by
    by_cases hfound : ∃ id, m.scheduler.forest.HasTree id (placeTree (some 0))
    · obtain ⟨id, hid⟩ := hfound
      have hne : Tree.leavesOfRow [.leaf 0] ≠ [] := by simp [Tree.leavesOfRow, Tree.leaves]
      exact ⟨id, fun hid' => hsound.eq_of_hasTree hwhole.laid hdistinct hne hid' hid⟩
    · exact ⟨⟨0⟩, fun hid => absurd ⟨_, hid⟩ hfound⟩
  have hinj := (injOn_placeTrees 35).mono fun chosen hchosen =>
    (Finset.mem_powersetCard (n := 17).mp hchosen).1
  have htrees : ∀ row ∈ ((Finset.range 35).powersetCard 17).image fun chosen =>
      placeTrees chosen 35, m.scheduler.forest.HasTree root (.node program.start row) := by
    intro row hrow
    obtain ⟨chosen, hchosen, rfl⟩ := Finset.mem_image.mp hrow
    rw [hasTree_iff_of_timeline hwhole.laid h hdrained hroot, hindex]
    exact derivesTree_places hcompile hchosen
  refine ⟨id, ?_⟩
  calc Nat.choose 35 17 = ((Finset.range 35).powersetCard 17).card := by
        rw [Finset.card_powersetCard, Finset.card_range]
    _ = (((Finset.range 35).powersetCard 17).image fun chosen => placeTrees chosen 35).card :=
        (Finset.card_image_of_injOn hinj).symm
    _ ≤ m.scheduler.forest.referenceCount root id := by
        refine (hsound.navigable hwhole).card_le_referenceCount (n := 35) hkind hid htrees
          fun row hrow => ?_
        obtain ⟨chosen, -, rfl⟩ := Finset.mem_image.mp hrow
        exact ⟨fun tree htree => (exists_of_mem_placeTrees htree).imp fun _ heq => heq.symm,
          length_placeTrees chosen 35⟩

/-- After the letters were parsed and accepted there are a few thousand nodes, but one of them is
referred to more often than a word can tell, so that counting the references overflows. -/
theorem exists_root_places : ∃ program session root id,
    Program.compile places = .ok program ∧
      program.parse .silent () 608399 letters = .ok true session ∧
        session.scheduler.root = some root ∧
          session.scheduler.forest.symbols.size + session.scheduler.forest.prefixes.size
            + session.scheduler.graph.members.size < 10000 ∧
            UInt32.size < session.scheduler.forest.referenceCount root id ∧
              session.scheduler.forest.outline program root = .error .overflow := by
  obtain ⟨program, session, hcompile, hparse⟩ := parse_places
  have hwhole := whole_of_compile hcompile
  obtain ⟨⟨offers, h⟩, hdequeue, hopen, hfinished, -⟩ := Session.Reaches.start.of_parse hparse
  rw [List.nil_append] at h
  have htimeline := h.timeline_fed hwhole.laid hopen
  obtain ⟨carried, hunderway⟩ := htimeline.underway
  obtain ⟨root, hroot, hderivation⟩ := exists_root hunderway.steady.sound
  have hindex : session.scheduler.index = 18 :=
    congrArg Position.offset (current_of_isFinished htimeline hfinished)
  obtain ⟨id, hid⟩ := exists_choose_le_referenceCount hcompile htimeline
    (pending_eq_nil_of_dequeue? offers hdequeue) hindex
    (h.law (Scheduler.law_distinct program.start)) hderivation
  have hmany := size_lt_choose.trans_le hid
  have hbounded := bounded_of_reaches hwhole h
  obtain ⟨other, hcompile', hcount, -, hentries, -⟩ := compile_places
  obtain rfl : program = other := Except.ok.inj (hcompile.symm.trans hcompile')
  have hsymbols := hbounded.symbols_size_le
  have hprefixes := hbounded.prefixes
  have hgraph := hbounded.graph
  rw [nonterminalCount, hentries, hindex] at hsymbols
  rw [hcount, hindex] at hprefixes hgraph
  obtain ⟨alternatives, hnode⟩ := hderivation
  refine ⟨program, session, root, id, hcompile, hparse, hroot, ?_, hmany,
    (h.navigable hwhole).outline_eq_overflow hnode fun hfits => Nat.lt_asymm hmany (hfits id)⟩
  have hsymbols : session.scheduler.forest.symbols.size ≤ 399 := hsymbols
  have hprefixes : session.scheduler.forest.prefixes.size ≤ 7809 := hprefixes
  have hgraph : session.scheduler.graph.members.size ≤ 780 := hgraph
  omega

/-- A fault is met in a session with few nodes, namely that a count of references overflows. -/
theorem outline_overflow_places : ∃ program session root,
    Program.compile places = .ok program ∧
      program.parse .silent () 608399 letters = .ok true session ∧
        session.scheduler.root = some root ∧
          session.scheduler.forest.symbols.size + session.scheduler.forest.prefixes.size
            + session.scheduler.graph.members.size < 10000 ∧
            session.scheduler.forest.outline program root = .error .overflow := by
  obtain ⟨program, session, root, -, hcompile, hparse, hroot, hsize, -, houtline⟩ :=
    exists_root_places
  exact ⟨program, session, root, hcompile, hparse, hroot, hsize, houtline⟩

/-- What is referred to so often has no entry for each reference, as nothing is written out. -/
theorem no_outline_places : ∃ program session root id,
    Program.compile places = .ok program ∧
      program.parse .silent () 608399 letters = .ok true session ∧
        session.scheduler.root = some root ∧
          UInt32.size < session.scheduler.forest.referenceCount root id ∧
            ∀ lines, session.scheduler.forest.outline program root ≠ .ok lines := by
  obtain ⟨program, session, root, id, hcompile, hparse, hroot, -, hmany, houtline⟩ :=
    exists_root_places
  refine ⟨program, session, root, id, hcompile, hparse, hroot, hmany, fun lines hlines => ?_⟩
  cases hlines.symm.trans houtline

end Program

end Gll
