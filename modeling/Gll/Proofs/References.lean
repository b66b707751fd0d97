import Gll.Forest.Outline
import Gll.Proofs.Lookups
import Mathlib.Algebra.Order.BigOperators.Group.Finset
import Mathlib.Data.Finset.Card
import Mathlib.Logic.Relation
import Mathlib.Data.List.Perm.Subperm

/-!
What a derivation refers to.

To go through a forest is to look up nodes that others refer to, and to go back along prefixes. In a
forest that is `Navigable` every node that is referred to is there, and the way back leads to
prefixes of lower *rank*, as each is shorter by a symbol. So what a prefix mentions is found in no
more steps than there are prefixes (`Navigable.references_eq`), and it is the same however many
steps are allowed; `Forest.mentions` is that, and `Forest.refersTo` all that the right-hand sides of
a derivation mention.

References are counted by going through each symbol once. That comes to an end, as a symbol waits to
be gone through at most once. Either each reference from a symbol that the root leads to has been
counted in the end, or a count does not fit its word; and the latter happens just if there are so
many references (`Navigable.referenceCounts_spec`).
-/

set_option autoImplicit false

namespace Gll

/-- A prefix that is shorter by a symbol has a lower rank. -/
def PrefixNode.rank : PrefixNode → Nat
  | empty _ => 0
  | cons label _ _ _ => label.index + 1

namespace Forest

/-- What the nodes of a forest refer to is there, and has a name in the program. -/
structure Navigable (program : Program) (forest : Forest) : Prop where
  left {id : PrefixId} {node : PrefixNode} {child : Split} : forest.prefixNode? id = some node →
    child ∈ node.children →
      ∃ left, forest.prefixNode? child.left = some left ∧ left.rank < node.rank
  right {id : PrefixId} {node : PrefixNode} {child : Split} : forest.prefixNode? id = some node →
    child ∈ node.children → ∃ right, forest.symbolNode? child.right = some right
  alternative {id : SymbolId} {node : SymbolNode} {child : PrefixId} :
    forest.symbolNode? id = some node → child ∈ node.alternatives →
      ∃ below, forest.prefixNode? child = some below
  label {id : PrefixId} {node : PrefixNode} {label : Label} : forest.prefixNode? id = some node →
    node.label? = some label → label.index < program.slotCount
  symbol {id : SymbolId} {node : SymbolNode} {symbol : Nonterminal} :
    forest.symbolNode? id = some node → node.nonterminal? = some symbol →
      symbol.index < program.nonterminalCount

variable {program : Program} {forest : Forest}

/-! ## Back along a prefix -/

/-- The rank of the prefix of a number. -/
def rank (forest : Forest) (id : PrefixId) : Nat := (forest.prefixNode? id).elim 0 PrefixNode.rank

/-- The number of prefixes of a lower rank. No way back from a prefix is longer. -/
def depth (forest : Forest) (id : PrefixId) : Nat :=
  {i ∈ Finset.range forest.prefixes.size | forest.rank ⟨i⟩ < forest.rank id}.card

theorem rank_eq {id : PrefixId} {node : PrefixNode} (hnode : forest.prefixNode? id = some node) :
    forest.rank id = node.rank := by
  rw [rank, hnode]
  rfl

theorem index_lt_of_prefixNode? {id : PrefixId} {node : PrefixNode}
    (hnode : forest.prefixNode? id = some node) : id.index < forest.prefixes.size :=
  (Array.getElem?_eq_some_iff.mp hnode).1

theorem depth_lt {id : PrefixId} {node : PrefixNode} (hnode : forest.prefixNode? id = some node) :
    forest.depth id < forest.prefixes.size := by
  have hproper : {i ∈ Finset.range forest.prefixes.size | forest.rank ⟨i⟩ < forest.rank id}
      ⊂ Finset.range forest.prefixes.size := by
    refine Finset.filter_ssubset.mpr ⟨id.index, ?_, Nat.lt_irrefl _⟩
    exact Finset.mem_range.mpr (index_lt_of_prefixNode? hnode)
  calc forest.depth id < (Finset.range forest.prefixes.size).card := Finset.card_lt_card hproper
    _ = forest.prefixes.size := Finset.card_range _

/-- What is found on the way back from a prefix in a number of steps. -/
def references (forest : Forest) : Nat → PrefixId → List SymbolId
  | 0, _ => []
  | steps + 1, id =>
    match forest.prefixNode? id with
    | some node => node.children.toList.flatMap fun child =>
      child.right :: references forest steps child.left
    | none => []

/-- What is mentioned in a prefix, once for every way through it. -/
def mentions (forest : Forest) (id : PrefixId) : List SymbolId :=
  forest.references (forest.prefixes.size + 1) id

/-- What is mentioned in the right-hand sides of a derivation. -/
def refersTo (forest : Forest) (id : SymbolId) : List SymbolId :=
  match forest.symbolNode? id with
  | some node => node.alternatives.toList.flatMap forest.mentions
  | none => []

namespace Navigable

variable (h : forest.Navigable program)
include h

theorem depth_left {id : PrefixId} {node : PrefixNode} {child : Split}
    (hnode : forest.prefixNode? id = some node) (hchild : child ∈ node.children) :
    forest.depth child.left < forest.depth id := by
  obtain ⟨left, hleft, hlower⟩ := h.left hnode hchild
  have hlower : forest.rank child.left < forest.rank id := by
    rw [rank_eq hleft, rank_eq hnode]
    exact hlower
  refine Finset.card_lt_card (Finset.ssubset_iff_subset_ne.mpr ⟨?_, fun heq => ?_⟩)
  · intro i hi
    rw [Finset.mem_filter] at hi ⊢
    exact ⟨hi.1, hi.2.trans hlower⟩
  · -- The prefix on the left is of a lower rank than this one, and not than itself.
    have hmem : child.left.index ∈
        {i ∈ Finset.range forest.prefixes.size | forest.rank ⟨i⟩ < forest.rank id} :=
      Finset.mem_filter.mpr ⟨Finset.mem_range.mpr (index_lt_of_prefixNode? hleft), hlower⟩
    rw [← heq, Finset.mem_filter] at hmem
    exact Nat.lt_irrefl _ hmem.2

/-- What a prefix mentions is found, and is the same, with any number of steps that suffices. -/
theorem exists_references {id : PrefixId} {node : PrefixNode}
    (hnode : forest.prefixNode? id = some node) :
    (∀ steps, forest.depth id < steps → forest.references steps id = forest.mentions id) ∧
      forest.mentions id
        = node.children.toList.flatMap fun child => child.right :: forest.mentions child.left := by
  -- On the depth of a prefix, since what is left of a split is less deep.
  induction hdepth : forest.depth id using Nat.strong_induction_on generalizing id node with
  | _ depth ih =>
    have hfound (steps : Nat) (hsteps : depth < steps) : forest.references steps id
        = node.children.toList.flatMap fun child =>
          child.right :: forest.mentions child.left := by
      cases steps with
      | zero => exact absurd hsteps (Nat.not_lt_zero _)
      | succ steps =>
        simp only [references, hnode]
        refine List.flatMap_congr fun child hchild => ?_
        have hchild := Array.mem_toList_iff.mp hchild
        obtain ⟨left, hleft, -⟩ := h.left hnode hchild
        have hless := h.depth_left hnode hchild
        rw [hdepth] at hless
        rw [(ih _ hless hleft rfl).1 steps (by omega)]
    have hmentions : forest.mentions id = node.children.toList.flatMap fun child =>
        child.right :: forest.mentions child.left := by
      have hless := depth_lt hnode
      rw [hdepth] at hless
      exact hfound _ (by omega)
    exact ⟨fun steps hsteps => by rw [hmentions, hfound steps hsteps], hmentions⟩

theorem references_eq {id : PrefixId} {node : PrefixNode}
    (hnode : forest.prefixNode? id = some node) {steps : Nat} (hsteps : forest.depth id < steps) :
    forest.references steps id = forest.mentions id :=
  (h.exists_references hnode).1 steps hsteps

theorem mentions_eq {id : PrefixId} {node : PrefixNode}
    (hnode : forest.prefixNode? id = some node) : forest.mentions id
      = node.children.toList.flatMap fun child => child.right :: forest.mentions child.left :=
  (h.exists_references hnode).2

/-- What a prefix mentions is on the right of one of its splits, or is mentioned on the left of
one. -/
theorem mentions_induction {motive : PrefixId → SymbolId → Prop}
    (hright : ∀ {id : PrefixId} {node : PrefixNode} {child : Split},
      forest.prefixNode? id = some node → child ∈ node.children → motive id child.right)
    (hleft : ∀ {id : PrefixId} {node : PrefixNode} {child : Split} {symbol : SymbolId},
      forest.prefixNode? id = some node → child ∈ node.children → motive child.left symbol →
        motive id symbol)
    {id : PrefixId} {node : PrefixNode} (hnode : forest.prefixNode? id = some node)
    {symbol : SymbolId} (hsymbol : symbol ∈ forest.mentions id) : motive id symbol := by
  induction hdepth : forest.depth id using Nat.strong_induction_on generalizing id node with
  | _ depth ih =>
    rw [h.mentions_eq hnode, List.mem_flatMap] at hsymbol
    obtain ⟨child, hchild, hmem⟩ := hsymbol
    have hchild := Array.mem_toList_iff.mp hchild
    rcases List.mem_cons.mp hmem with rfl | hmem
    · exact hright hnode hchild
    · obtain ⟨left, hfound, -⟩ := h.left hnode hchild
      exact hleft hnode hchild (ih _ (hdepth ▸ h.depth_left hnode hchild) hfound hmem rfl)

/-- What is mentioned is there. -/
theorem exists_of_mem_mentions {id : PrefixId} {node : PrefixNode}
    (hnode : forest.prefixNode? id = some node) {symbol : SymbolId}
    (hsymbol : symbol ∈ forest.mentions id) : ∃ found, forest.symbolNode? symbol = some found :=
  h.mentions_induction (motive := fun _ symbol => ∃ found, forest.symbolNode? symbol = some found)
    h.right (fun _ _ hfound => hfound) hnode hsymbol

omit h in
theorem refersTo_eq {id : SymbolId} {node : SymbolNode}
    (hnode : forest.symbolNode? id = some node) :
    forest.refersTo id = node.alternatives.toList.flatMap forest.mentions := by
  rw [refersTo, hnode]

/-- What is referred to is there. -/
theorem exists_of_mem_refersTo {id symbol : SymbolId} (hsymbol : symbol ∈ forest.refersTo id) :
    ∃ found, forest.symbolNode? symbol = some found := by
  cases hnode : forest.symbolNode? id with
  | none =>
    rw [refersTo, hnode] at hsymbol
    exact absurd hsymbol List.not_mem_nil
  | some node =>
    rw [refersTo_eq hnode, List.mem_flatMap] at hsymbol
    obtain ⟨child, hchild, hmem⟩ := hsymbol
    obtain ⟨below, hbelow⟩ := h.alternative hnode (Array.mem_toList_iff.mp hchild)
    exact h.exists_of_mem_mentions hbelow hmem

/-- A chain ends in no more steps than there are prefixes. What it was at is what it passed and what
is mentioned in the prefix at which it stops. -/
theorem exists_chain {id : PrefixId} {node : PrefixNode}
    (hnode : forest.prefixNode? id = some node) {steps : Nat} (hsteps : forest.depth id < steps)
    (after : List SymbolId) : ∃ stop passed,
      forest.chain steps id after = .ok (stop, passed ++ after) ∧
        (stop = none ∧ (forest.mentions id).Perm passed ∨
          ∃ last lastNode, stop = some (last, lastNode) ∧
            forest.prefixNode? last = some lastNode ∧ forest.depth last ≤ forest.depth id ∧
              (forest.mentions id).Perm (forest.mentions last ++ passed)) := by
  induction steps generalizing id node after with
  | zero => exact absurd hsteps (Nat.not_lt_zero _)
  | succ steps ih =>
    have hread : forest.prefixNode id = .ok node := Fault.unlessSome_eq_ok_iff.mpr hnode
    have hmentions := h.mentions_eq hnode
    simp only [chain, hread, bind, Except.bind]
    -- A chain goes on at a prefix that is built in one way, and stops at all others.
    match hchildren : node.children.toList with
    | [] =>
      refine ⟨none, [], rfl, .inl ⟨rfl, ?_⟩⟩
      rw [hmentions, hchildren]
      exact .refl _
    | [child] =>
      have hchild : child ∈ node.children := by
        rw [← Array.mem_toList_iff, hchildren]
        exact List.mem_singleton_self _
      obtain ⟨left, hleft, -⟩ := h.left hnode hchild
      have hless := h.depth_left hnode hchild
      obtain ⟨stop, passed, hchain, hstop⟩ := ih hleft (by omega) (child.right :: after)
      refine ⟨stop, passed ++ [child.right], ?_, ?_⟩
      · rw [List.append_assoc]
        exact hchain
      · rw [hmentions, hchildren, List.flatMap_singleton]
        rcases hstop with ⟨rfl, hperm⟩ | ⟨last, lastNode, rfl, hlast, hle, hperm⟩
        · refine .inl ⟨rfl, ?_⟩
          exact (hperm.cons _).trans (List.perm_append_singleton _ _).symm
        · refine .inr ⟨last, lastNode, rfl, hlast, by omega, ?_⟩
          rw [← List.append_assoc]
          exact (hperm.cons _).trans (List.perm_append_singleton _ _).symm
    | first :: second :: rest =>
      refine ⟨some (id, node), [], rfl, .inr ⟨id, node, rfl, hnode, Nat.le_refl _, ?_⟩⟩
      rw [List.append_nil]

end Navigable

/-! ## Counting -/

/-- One symbol leads to another. -/
def Leads (forest : Forest) : SymbolId → SymbolId → Prop :=
  Relation.ReflTransGen fun id other => other ∈ forest.refersTo id

open Classical in
/-- The numbers of the symbols to which a root leads. -/
noncomputable def reached (forest : Forest) (root : SymbolId) : Finset Nat :=
  {i ∈ Finset.range forest.symbols.size | forest.Leads root ⟨i⟩}

theorem mem_reached {root : SymbolId} {i : Nat} :
    i ∈ forest.reached root ↔ i < forest.symbols.size ∧ forest.Leads root ⟨i⟩ := by
  classical
  rw [reached, Finset.mem_filter, Finset.mem_range]

/-- How often a symbol is referred to by all to which the root leads; being the root counts once. -/
noncomputable def referenceCount (forest : Forest) (root id : SymbolId) : Nat :=
  [root].count id + ∑ i ∈ forest.reached root, (forest.refersTo ⟨i⟩).count id

/-- All counts of what is below a root fit their words. -/
def CountsFit (forest : Forest) (root : SymbolId) : Prop :=
  ∀ id, forest.referenceCount root id < UInt32.size

/-- Steps that each go through a row go through all rows, one after the other. -/
theorem foldlM_flatMap {m : Type → Type} [Monad m] [LawfulMonad m] {α β σ : Type}
    {f : σ → β → m σ} {row : α → List β} {step : σ → α → m σ} {items : List α}
    (h : ∀ item ∈ items, ∀ s, step s item = (row item).foldlM f s) (s : σ) :
    items.foldlM step s = (items.flatMap row).foldlM f s := by
  induction items generalizing s with
  | nil => rfl
  | cons item rest ih =>
    obtain ⟨hitem, hrest⟩ := List.forall_mem_cons.mp h
    rw [List.foldlM_cons, List.flatMap_cons, List.foldlM_append, hitem]
    exact bind_congr fun between => ih hrest between

namespace Navigable

variable (h : forest.Navigable program)
include h

/-- What is counted along a prefix is what it mentions. -/
theorem tallyPrefix_eq {id : PrefixId} {node : PrefixNode}
    (hnode : forest.prefixNode? id = some node) {steps : Nat} (hsteps : forest.depth id < steps)
    (tallied : Tallied) :
    forest.tallyPrefix steps id tallied = (forest.mentions id).foldlM tally tallied := by
  induction steps generalizing id node tallied with
  | zero => exact absurd hsteps (Nat.not_lt_zero _)
  | succ steps ih =>
    have hread : forest.prefixNode id = .ok node := Fault.unlessSome_eq_ok_iff.mpr hnode
    rw [tallyPrefix, hread, h.mentions_eq hnode]
    refine foldlM_flatMap (fun child hchild tallied => ?_) tallied
    have hchild := Array.mem_toList_iff.mp hchild
    obtain ⟨left, hleft, -⟩ := h.left hnode hchild
    have hless := h.depth_left hnode hchild
    rw [List.foldlM_cons]
    exact bind_congr fun between => ih hleft (by omega) between

/-- What is counted for a derivation is what it refers to. -/
theorem tallySymbol_eq {id : SymbolId} {node : SymbolNode}
    (hnode : forest.symbolNode? id = some node) (tallied : Tallied) :
    forest.tallySymbol id tallied = (forest.refersTo id).foldlM tally tallied := by
  have hread : forest.symbolNode id = .ok node := Fault.unlessSome_eq_ok_iff.mpr hnode
  rw [tallySymbol, hread, refersTo_eq hnode]
  refine foldlM_flatMap (fun child hchild tallied => ?_) tallied
  obtain ⟨below, hbelow⟩ := h.alternative hnode (Array.mem_toList_iff.mp hchild)
  exact h.tallyPrefix_eq hbelow (Nat.lt_succ_of_lt (depth_lt hbelow)) tallied

end Navigable

/-- References have been counted. The symbols to which they lead are done or wait. -/
structure Counted (root : SymbolId) (forest : Forest) (references : List SymbolId)
    (done waiting : List SymbolId) (counts : Counts) : Prop where
  nodup : (done ++ waiting).Nodup
  mem_iff (id : SymbolId) : id ∈ done ++ waiting ↔ id ∈ references
  count (id : SymbolId) : counts[id]?.map UInt32.toNat
    = if id ∈ references then some (references.count id) else none
  leads {id : SymbolId} : id ∈ references → forest.Leads root id
  node {id : SymbolId} : id ∈ references → ∃ node, forest.symbolNode? id = some node

namespace Counted

variable {root : SymbolId} {references done waiting : List SymbolId} {counts : Counts}

/-- At first only the root itself is counted. -/
theorem initial {node : SymbolNode} (hroot : forest.symbolNode? root = some node) :
    Counted root forest [root] [] [root] ((∅ : Counts).insert root 1) where
  nodup := List.nodup_singleton root
  mem_iff _ := Iff.rfl
  count id := by
    rw [Std.HashMap.getElem?_insert]
    by_cases heq : root = id
    · subst heq
      simp
    · have hne : id ≠ root := Ne.symm heq
      simp [heq, hne]
  leads hid := by
    obtain rfl := List.mem_singleton.mp hid
    exact .refl
  node hid := by
    obtain rfl := List.mem_singleton.mp hid
    exact ⟨node, hroot⟩

/-- A reference is counted, unless that makes too many. What is counted once more waited before or
waits now. -/
theorem tally (h : Counted root forest references done waiting counts) {id : SymbolId}
    (hleads : forest.Leads root id) (hnode : ∃ node, forest.symbolNode? id = some node) :
    (∃ waiting' counts', Forest.tally (waiting, counts) id = .ok (waiting', counts') ∧
      Counted root forest (references ++ [id]) done waiting' counts') ∨
    (Forest.tally (waiting, counts) id = .error .overflow ∧
      UInt32.size ≤ (references ++ [id]).count id) := by
  have hcount (other : SymbolId) (hne : other ≠ id) :
      (references ++ [id]).count other = references.count other := by
    rw [List.count_append, List.count_singleton, if_neg (by simpa using Ne.symm hne), Nat.add_zero]
  have hself : (references ++ [id]).count id = references.count id + 1 := by
    rw [List.count_append, List.count_singleton_self]
  have hall {Q : SymbolId → Prop} (hold : ∀ {other}, other ∈ references → Q other) (hid : Q id)
      {other : SymbolId} (hother : other ∈ references ++ [id]) : Q other := by
    rcases List.mem_append.mp hother with hmem | hmem
    · exact hold hmem
    · rwa [List.mem_singleton.mp hmem]
  have hinsert {total : UInt32} (htotal : total.toNat = references.count id + 1)
      (other : SymbolId) : (counts.insert id total)[other]?.map UInt32.toNat
        = if other ∈ references ++ [id] then some ((references ++ [id]).count other) else none := by
    rw [Std.HashMap.getElem?_insert]
    by_cases heq : other = id
    · subst heq
      simp [hself, htotal]
    · rw [if_neg (by simpa using Ne.symm heq), h.count other, hcount other heq]
      simp [heq]
  have hknown := h.count id
  -- A symbol is put among those that wait the first time that it is referred to.
  by_cases hmem : id ∈ references
  · rw [if_pos hmem, Option.map_eq_some_iff] at hknown
    obtain ⟨count, hget, hcounted⟩ := hknown
    simp only [Forest.tally, hget]
    by_cases hfits : count.toNat + 1 < UInt32.size
    · rw [if_pos hfits]
      have htotal : (count + 1).toNat = references.count id + 1 := by
        rw [UInt32.toNat_add, ← hcounted]
        exact Nat.mod_eq_of_lt hfits
      refine .inl ⟨_, _, rfl, h.nodup, fun other => ?_, hinsert htotal, hall h.leads hleads,
        hall h.node hnode⟩
      rw [h.mem_iff, List.mem_append, List.mem_singleton]
      exact ⟨.inl, fun hother => hother.elim (fun hold => hold) fun heq => heq ▸ hmem⟩
    · rw [if_neg hfits]
      refine .inr ⟨rfl, ?_⟩
      rw [hself, ← hcounted]
      exact Nat.le_of_not_lt hfits
  · rw [if_neg hmem, Option.map_eq_none_iff] at hknown
    have hzero : references.count id = 0 := List.count_eq_zero.mpr hmem
    have hperm : (done ++ id :: waiting).Perm (id :: (done ++ waiting)) := List.perm_middle
    simp only [Forest.tally, hknown]
    refine .inl ⟨_, _, rfl, hperm.nodup_iff.mpr (List.nodup_cons.mpr ⟨?_, h.nodup⟩),
      fun other => ?_, hinsert (by rw [hzero]; rfl), hall h.leads hleads, hall h.node hnode⟩
    · rwa [h.mem_iff]
    · rw [hperm.mem_iff, List.mem_cons, h.mem_iff, List.mem_append, List.mem_singleton]
      exact Or.comm

/-- References are counted one after the other, until there are too many of one symbol. -/
theorem foldlM_tally {found : List SymbolId}
    (h : Counted root forest references done waiting counts)
    (hleads : ∀ id ∈ found, forest.Leads root id)
    (hnode : ∀ id ∈ found, ∃ node, forest.symbolNode? id = some node) :
    (∃ waiting' counts', found.foldlM Forest.tally (waiting, counts) = .ok (waiting', counts') ∧
      Counted root forest (references ++ found) done waiting' counts') ∨
    (found.foldlM Forest.tally (waiting, counts) = .error .overflow ∧
      ∃ id, UInt32.size ≤ (references ++ found).count id) := by
  induction found generalizing references waiting counts with
  | nil =>
    rw [List.append_nil]
    exact .inl ⟨waiting, counts, rfl, h⟩
  | cons id rest ih =>
    obtain ⟨hid, hrest⟩ := List.forall_mem_cons.mp hleads
    obtain ⟨hid', hrest'⟩ := List.forall_mem_cons.mp hnode
    have happend : references ++ id :: rest = references ++ [id] ++ rest := by simp
    rw [List.foldlM_cons, happend]
    rcases h.tally hid hid' with ⟨waiting', counts', htally, hstep⟩ | ⟨htally, hmany⟩
    · rw [htally]
      exact ih hstep hrest hrest'
    · rw [htally]
      refine .inr ⟨rfl, id, hmany.trans ?_⟩
      have hmore : (references ++ [id]).Sublist (references ++ [id] ++ rest) :=
        List.sublist_append_left _ _
      exact hmore.count_le _

theorem index_injective : Function.Injective SymbolId.index := fun a b hab => by
  cases a
  cases b
  exact congrArg SymbolId.mk hab

theorem index_lt (h : Counted root forest references done waiting counts) {id : SymbolId}
    (hid : id ∈ done ++ waiting) : id.index < forest.symbols.size := by
  obtain ⟨node, hnode⟩ := h.node ((h.mem_iff id).mp hid)
  exact (Array.getElem?_eq_some_iff.mp hnode).1

/-- No more symbols are done or wait than there are. -/
theorem length_le (h : Counted root forest references done waiting counts) :
    (done ++ waiting).length ≤ forest.symbols.size := by
  have hsub : (done ++ waiting).map SymbolId.index ⊆ List.range forest.symbols.size := by
    intro index hindex
    obtain ⟨id, hid, rfl⟩ := List.mem_map.mp hindex
    exact List.mem_range.mpr (h.index_lt hid)
  have hle := ((h.nodup.map index_injective).subperm hsub).length_le
  rwa [List.length_map, List.length_range] at hle

end Counted

/-! ## How many references there are -/

section ReferenceCount

variable {root : SymbolId} {done waiting : List SymbolId} {counts : Counts}

/-- What different symbols refer to, as a sum over their numbers. -/
theorem sum_count_refersTo (hnodup : done.Nodup) (id : SymbolId) :
    ∑ i ∈ (done.map SymbolId.index).toFinset, (forest.refersTo ⟨i⟩).count id
      = (done.flatMap forest.refersTo).count id := by
  rw [List.sum_toFinset _ (hnodup.map Counted.index_injective), List.map_map, List.count_flatMap]
  rfl

/-- What some of the symbols below a root refer to is not more than what all of them do. -/
theorem count_le_referenceCount (hnodup : done.Nodup)
    (hleads : ∀ id ∈ done, forest.Leads root id)
    (hlt : ∀ id ∈ done, id.index < forest.symbols.size) (id : SymbolId) :
    (root :: done.flatMap forest.refersTo).count id ≤ forest.referenceCount root id := by
  rw [← List.singleton_append, List.count_append, ← sum_count_refersTo hnodup, referenceCount]
  refine Nat.add_le_add_left (Finset.sum_le_sum_of_subset fun i hi => ?_) _
  obtain ⟨symbol, hsymbol, rfl⟩ := List.mem_map.mp (List.mem_toFinset.mp hi)
  exact mem_reached.mpr ⟨hlt symbol hsymbol, hleads symbol hsymbol⟩

namespace Counted

variable (h : Counted root forest (root :: done.flatMap forest.refersTo) done [] counts)
include h

theorem mem_done_iff (id : SymbolId) : id ∈ done ↔ id ∈ root :: done.flatMap forest.refersTo := by
  have hiff := h.mem_iff id
  rwa [List.append_nil] at hiff

theorem nodup_done : done.Nodup := by
  have hnodup := h.nodup
  rwa [List.append_nil] at hnodup

/-- When nothing waits any more, all to which the root leads is done. -/
theorem mem_done_iff_leads (id : SymbolId) : id ∈ done ↔ forest.Leads root id := by
  refine ⟨fun hid => h.leads ((h.mem_done_iff id).mp hid), fun hleads => ?_⟩
  induction hleads with
  | refl => exact (h.mem_done_iff root).mpr List.mem_cons_self
  | @tail before id _ hstep ih =>
    exact (h.mem_done_iff id).mpr
      (List.mem_cons_of_mem _ (List.mem_flatMap.mpr ⟨before, ih, hstep⟩))

/-- Then all references are counted, -/
theorem count_eq_referenceCount (id : SymbolId) :
    (root :: done.flatMap forest.refersTo).count id = forest.referenceCount root id := by
  have hset : (done.map SymbolId.index).toFinset = forest.reached root := by
    ext i
    rw [List.mem_toFinset, List.mem_map, mem_reached]
    constructor
    · rintro ⟨symbol, hsymbol, rfl⟩
      exact ⟨h.index_lt (List.mem_append_left _ hsymbol), (h.mem_done_iff_leads symbol).mp hsymbol⟩
    · rintro ⟨-, hleads⟩
      exact ⟨⟨i⟩, (h.mem_done_iff_leads ⟨i⟩).mpr hleads, rfl⟩
  rw [referenceCount, ← hset, sum_count_refersTo h.nodup_done, ← List.count_append,
    List.singleton_append]

/-- and are what the table has. -/
theorem getD_eq (id : SymbolId) :
    (counts.getD id 0).toNat = (root :: done.flatMap forest.refersTo).count id := by
  have hcount := h.count id
  rw [Std.HashMap.getD_eq_getD_getElem?]
  split at hcount
  · obtain ⟨count, hget, hcount⟩ := Option.map_eq_some_iff.mp hcount
    rw [hget, ← hcount]
    rfl
  · rename_i hmem
    rw [Option.map_eq_none_iff.mp hcount, List.count_eq_zero.mpr hmem]
    rfl

theorem countsFit : forest.CountsFit root := fun id => by
  rw [← h.count_eq_referenceCount, ← h.getD_eq]
  exact UInt32.toNat_lt_size _

end Counted

end ReferenceCount

namespace Navigable

variable (h : forest.Navigable program) {root : SymbolId}
include h

/-- Counting ends. Then no symbol waits, unless there were too many references before. -/
theorem countFrom_spec {steps : Nat} {done waiting : List SymbolId} {counts : Counts}
    (hcounted : Counted root forest (root :: done.flatMap forest.refersTo) done waiting counts)
    (hsteps : forest.symbols.size < steps + done.length) :
    (∃ counts' done', forest.countFrom steps (waiting, counts) = .ok counts' ∧
      Counted root forest (root :: done'.flatMap forest.refersTo) done' [] counts') ∨
    (forest.countFrom steps (waiting, counts) = .error .overflow ∧ ¬ forest.CountsFit root) := by
  induction steps generalizing done waiting counts with
  | zero =>
    have hlength := hcounted.length_le
    rw [List.length_append] at hlength
    omega
  | succ steps ih =>
    cases waiting with
    | nil => exact .inl ⟨counts, done, rfl, hcounted⟩
    | cons id waiting =>
      have hmem : id ∈ root :: done.flatMap forest.refersTo :=
        (hcounted.mem_iff id).mp (List.mem_append_right _ List.mem_cons_self)
      obtain ⟨node, hnode⟩ := hcounted.node hmem
      have heq : done ++ [id] ++ waiting = done ++ id :: waiting := by simp
      have hmoved : Counted root forest (root :: done.flatMap forest.refersTo) (done ++ [id])
          waiting counts :=
        ⟨heq ▸ hcounted.nodup, fun other => heq ▸ hcounted.mem_iff other, hcounted.count,
          hcounted.leads, hcounted.node⟩
      have hreferences : (root :: done.flatMap forest.refersTo) ++ forest.refersTo id
          = root :: (done ++ [id]).flatMap forest.refersTo := by
        rw [List.flatMap_append, List.flatMap_singleton, List.cons_append]
      have hnext := hmoved.foldlM_tally (fun other hother => (hcounted.leads hmem).tail hother)
        (fun other hother => h.exists_of_mem_refersTo hother)
      rw [hreferences] at hnext
      rw [countFrom, h.tallySymbol_eq hnode]
      rcases hnext with ⟨waiting', counts', hfold, hnext⟩ | ⟨hfold, other, hmany⟩
      · rw [hfold]
        refine ih hnext ?_
        rw [List.length_append, List.length_singleton]
        omega
      · rw [hfold]
        refine .inr ⟨rfl, fun hfits => ?_⟩
        have hwaits {symbol : SymbolId} (hsymbol : symbol ∈ done ++ [id]) :
            symbol ∈ done ++ [id] ++ waiting := List.mem_append_left _ hsymbol
        have hle := count_le_referenceCount (List.nodup_append.mp hmoved.nodup).1
          (fun symbol hsymbol => hmoved.leads ((hmoved.mem_iff symbol).mp (hwaits hsymbol)))
          (fun symbol hsymbol => hmoved.index_lt (hwaits hsymbol)) other
        exact Nat.not_lt.mpr (hmany.trans hle) (hfits other)

/-- The references that are counted for a root are those from all symbols to which it leads, and
they are counted just if all counts fit. -/
theorem referenceCounts_spec {node : SymbolNode} (hroot : forest.symbolNode? root = some node) :
    (forest.CountsFit root ∧ ∃ counts done, forest.referenceCounts root = .ok counts ∧
      Counted root forest (root :: done.flatMap forest.refersTo) done [] counts) ∨
    (¬ forest.CountsFit root ∧ forest.referenceCounts root = .error .overflow) := by
  have hinitial : Counted root forest (root :: ([] : List SymbolId).flatMap forest.refersTo) []
      [root] ((∅ : Counts).insert root 1) := .initial hroot
  have hsteps : forest.symbols.size < forest.symbols.size + 1 + ([] : List SymbolId).length :=
    Nat.lt_succ_self _
  rcases h.countFrom_spec hinitial hsteps with ⟨counts, done, hcounts, hcounted⟩ | ⟨hcounts, hmany⟩
  · exact .inl ⟨hcounted.countsFit, counts, done, hcounts, hcounted⟩
  · exact .inr ⟨hmany, hcounts⟩

end Navigable

end Forest

end Gll
