import Gll.Proofs.Faultless

/-!
How many references there can be.

What a parse keeps is cubic in the offset. Of references that are counted for an outline there can
be more, since a prefix is gone through once for every way that leads to it. But at each step back
along a prefix there are at most as many ways as there are offsets, and no more steps than slots. So
a count is polynomial in the offset, with an exponent that depends on the grammar
(`compile_referenceCount_le`), and where the polynomial is small enough every node has an outline
(`compile_countsFit`).
-/

set_option autoImplicit false

namespace Gll

variable {program : Program}

namespace Forest

variable {forest : Forest} {width : Nat}

/-- No prefix is built in more ways. -/
def IsNarrow (forest : Forest) (width : Nat) : Prop :=
  ∀ {id : PrefixId} {node : PrefixNode}, forest.prefixNode? id = some node →
    node.children.toList.length ≤ width

namespace Navigable

variable (h : forest.Navigable program) (hnarrow : forest.IsNarrow width)
include h

theorem rank_le {id : PrefixId} {node : PrefixNode} (hnode : forest.prefixNode? id = some node) :
    node.rank ≤ program.slotCount := by
  cases node with
  | empty position => exact Nat.zero_le _
  | cons label first last children => exact h.label hnode rfl

include hnarrow

/-- Each step back multiplies what is mentioned by no more than the ways, and adds one for each. -/
theorem length_mentions_lt {id : PrefixId} {node : PrefixNode}
    (hnode : forest.prefixNode? id = some node) :
    (forest.mentions id).length < (width + 1) ^ node.rank := by
  induction hrank : node.rank using Nat.strong_induction_on generalizing id node with
  | _ rank ih =>
    rw [h.mentions_eq hnode, List.length_flatMap]
    cases rank with
    | zero =>
      -- Nothing is of a lower rank, so there is no way to build this prefix.
      have hnone : node.children.toList = [] := List.eq_nil_iff_forall_not_mem.mpr
        fun child hchild => by
          obtain ⟨left, -, hless⟩ := h.left hnode (Array.mem_toList_iff.mp hchild)
          omega
      rw [hnone]
      exact Nat.one_pos
    | succ rank =>
      have heach : ∀ count ∈ node.children.toList.map fun child =>
          (child.right :: forest.mentions child.left).length, count ≤ (width + 1) ^ rank := by
        intro count hcount
        obtain ⟨child, hchild, rfl⟩ := List.mem_map.mp hcount
        obtain ⟨left, hleft, hless⟩ := h.left hnode (Array.mem_toList_iff.mp hchild)
        rw [List.length_cons]
        exact (ih left.rank (by omega) hleft rfl).trans_le
          (Nat.pow_le_pow_right (Nat.succ_pos _) (by omega))
      have hsum := List.sum_le_card_nsmul _ _ heach
      rw [List.length_map, smul_eq_mul] at hsum
      calc _ ≤ node.children.toList.length * (width + 1) ^ rank := hsum
        _ ≤ width * (width + 1) ^ rank := Nat.mul_le_mul_right _ (hnarrow hnode)
        _ < (width + 1) * (width + 1) ^ rank :=
          Nat.mul_lt_mul_of_pos_right (Nat.lt_succ_self _) (Nat.pow_pos (Nat.succ_pos _))
        _ = (width + 1) ^ (rank + 1) := (Nat.pow_succ' ..).symm

theorem length_refersTo_le {id : SymbolId} {node : SymbolNode}
    (hnode : forest.symbolNode? id = some node) (hnodup : node.alternatives.toList.Nodup) :
    (forest.refersTo id).length
      ≤ forest.prefixes.size * (width + 1) ^ program.slotCount := by
  have heach : ∀ count ∈ node.alternatives.toList.map fun child =>
      (forest.mentions child).length, count ≤ (width + 1) ^ program.slotCount := by
    intro count hcount
    obtain ⟨child, hchild, rfl⟩ := List.mem_map.mp hcount
    obtain ⟨below, hbelow⟩ := h.alternative hnode (Array.mem_toList_iff.mp hchild)
    exact (h.length_mentions_lt hnarrow hbelow).le.trans
      (Nat.pow_le_pow_right (Nat.succ_pos _) (h.rank_le hbelow))
  have hsum := List.sum_le_card_nsmul _ _ heach
  rw [List.length_map, smul_eq_mul] at hsum
  -- The alternatives are different prefixes of the forest.
  have hinj : Function.Injective PrefixId.index := fun a b hab => by
    cases a
    cases b
    exact congrArg PrefixId.mk hab
  have hsub : node.alternatives.toList.map PrefixId.index ⊆ List.range forest.prefixes.size := by
    intro index hindex
    obtain ⟨child, hchild, rfl⟩ := List.mem_map.mp hindex
    obtain ⟨below, hbelow⟩ := h.alternative hnode (Array.mem_toList_iff.mp hchild)
    exact List.mem_range.mpr (index_lt_of_prefixNode? hbelow)
  have hlength := ((hnodup.map hinj).subperm hsub).length_le
  rw [List.length_map, List.length_range] at hlength
  rw [Navigable.refersTo_eq hnode, List.length_flatMap]
  exact hsum.trans (Nat.mul_le_mul_right _ hlength)

theorem referenceCount_le (hnodup : ∀ {id : SymbolId} {node : SymbolNode},
      forest.symbolNode? id = some node → node.alternatives.toList.Nodup) (root id : SymbolId) :
    forest.referenceCount root id
      ≤ 1 + forest.symbols.size * (forest.prefixes.size * (width + 1) ^ program.slotCount) := by
  have heach : ∀ i ∈ forest.reached root, (forest.refersTo ⟨i⟩).count id
      ≤ forest.prefixes.size * (width + 1) ^ program.slotCount := by
    intro i hi
    have hlt := (mem_reached.mp hi).1
    have hnode : forest.symbolNode? ⟨i⟩ = some forest.symbols[i] := Array.getElem?_eq_getElem hlt
    exact List.count_le_length.trans (h.length_refersTo_le hnarrow hnode (hnodup hnode))
  have hcard : (forest.reached root).card ≤ forest.symbols.size := by
    have hsub : forest.reached root ⊆ Finset.range forest.symbols.size :=
      fun i hi => Finset.mem_range.mpr (mem_reached.mp hi).1
    exact (Finset.card_le_card hsub).trans_eq (Finset.card_range _)
  have hsum := Finset.sum_le_card_nsmul _ _ _ heach
  rw [smul_eq_mul] at hsum
  exact Nat.add_le_add (List.count_le_length (l := [root]))
    (hsum.trans (Nat.mul_le_mul_right _ hcard))

end Navigable

end Forest

namespace Program

/-- No count of references is larger up to an offset. -/
def countBound (program : Program) (n : Nat) : Nat :=
  1 + (program.nonterminalCount * ((n + 1) * (n + 2) / 2) + (n + 1))
    * (((n + 1) + program.slotCount * ((n + 1) * (n + 2) / 2)) * (n + 2) ^ program.slotCount)

section Calls

variable {grammar : Grammar} {σ : Type} {tracer : Tracer σ} {trace : σ} {limit : Nat}
  {fed : List Char} {session : Session σ Unit} {offers : List Task}
  (hcompile : Program.compile grammar = .ok program)
  (h : Session.Reaches program.interpreter tracer (.initial program.interpreter trace () limit)
    fed session offers)
include hcompile h

/-- **How often a symbol is referred to.** Whatever the grammar and whatever was fed, no symbol is
referred to more often than a polynomial in the length of what was fed tells; its degree is larger
than the number of slots by four. -/
theorem compile_referenceCount_le (root id : SymbolId) :
    session.scheduler.forest.referenceCount root id ≤ program.countBound fed.length := by
  have hwhole := whole_of_compile hcompile
  have hbounded := bounded_of_reaches hwhole h
  have hindex : session.scheduler.index ≤ fed.length := by
    rcases h.initial_or_sound hwhole.laid with hinitial | hsound
    · rw [hinitial]
      exact Nat.zero_le _
    · exact hsound.situated.index_le
  have hnarrow : session.scheduler.forest.IsNarrow (fed.length + 1) := fun {id node} hnode => by
    cases node with
    | empty position => exact Nat.zero_le _
    | cons label first last children =>
      obtain ⟨-, hlast, hsize⟩ := hbounded.children hnode
      show children.toList.length ≤ _
      rw [Array.length_toList]
      omega
  have hsymbols : session.scheduler.forest.symbols.size
      ≤ program.nonterminalCount * ((fed.length + 1) * (fed.length + 2) / 2)
        + (fed.length + 1) := by
    refine hbounded.symbols_size_le.trans ?_
    gcongr
  have hprefixes : session.scheduler.forest.prefixes.size ≤ (fed.length + 1)
      + program.slotCount * ((fed.length + 1) * (fed.length + 2) / 2) := by
    refine hbounded.prefixes.trans ?_
    gcongr
  refine ((h.navigable hwhole).referenceCount_le hnarrow
    (h.law (law_tidy program.start)).alternatives root id).trans ?_
  unfold countBound
  gcongr

/-- Where the polynomial is a word, every count fits its word. -/
theorem compile_countsFit (hbound : program.countBound fed.length < UInt32.size)
    (root : SymbolId) : session.scheduler.forest.CountsFit root :=
  fun id => (compile_referenceCount_le hcompile h root id).trans_lt hbound

end Calls

end Program

end Gll
