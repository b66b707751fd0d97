import Gll.Proofs.Generation
import Gll.Proofs.Laws

/-!
Arrays that stand for sets.

The children of a node, the links of a frame and its results are arrays in the order in which their
members came. Members are only added if they are not there yet, so none is there twice.
-/

set_option autoImplicit false

namespace Gll

theorem nodup_insertNew {α : Type} [BEq α] [LawfulBEq α] {items : Array α} {item : α}
    (h : items.toList.Nodup) : (insertNew items item).2.toList.Nodup := by
  rw [insertNew]
  split
  · exact h
  · rename_i hmem
    rw [Array.contains_iff_mem, ← Array.mem_toList_iff] at hmem
    rw [Array.toList_push, List.nodup_append]
    exact ⟨h, List.nodup_singleton item, fun a ha b hb => by
      rw [List.mem_singleton.mp hb]
      exact fun heq => hmem (heq ▸ ha)⟩

theorem PrefixNode.nodup_pack? {node : PrefixNode} {child : Split}
    (h : node.children.toList.Nodup) :
    ((node.pack? child).getD node).children.toList.Nodup := by
  cases node with
  | empty position => exact h
  | cons label first last children => exact nodup_insertNew h

theorem SymbolNode.nodup_pack? {node : SymbolNode} {child : PrefixId}
    (h : node.alternatives.toList.Nodup) :
    ((node.pack? child).getD node).alternatives.toList.Nodup := by
  cases node with
  | terminal position => exact h
  | nonterminal symbol first last alternatives => exact nodup_insertNew h

theorem Stack.nodup_link {stack : Stack} {link : Link} (h : stack.links.toList.Nodup) :
    (stack.link link).2.links.toList.Nodup := by
  cases stack with
  | initial => exact h
  | frame label origin links => exact nodup_insertNew h

/-- No child, alternative, link or result is there twice, and the initial stack has no links. -/
structure Tidy (s : Scheduler) : Prop where
  children {id : PrefixId} {node : PrefixNode} :
    s.forest.prefixNode? id = some node → node.children.toList.Nodup
  alternatives {id : SymbolId} {node : SymbolNode} :
    s.forest.symbolNode? id = some node → node.alternatives.toList.Nodup
  links {id : StackId} {stack : Stack} :
    s.graph.stack? id = some stack → stack.links.toList.Nodup
  results (frame : StackId) : (s.results frame).toList.Nodup
  bottom : s.graph.stack? .initial = some .initial

namespace Tidy

variable {s : Scheduler}

theorem addPrefix (h : Tidy s) {node : PrefixNode} (hnode : node.children = #[]) {id : PrefixId}
    {found : PrefixNode} (hfound : (s.forest.addPrefix node).2.prefixNode? id = some found) :
    found.children.toList.Nodup := by
  rcases Forest.prefixNode?_addPrefix.mp hfound with hold | ⟨-, rfl⟩
  · exact h.children hold
  · rw [hnode]
    exact List.nodup_nil

theorem addSymbol (h : Tidy s) {node : SymbolNode} (hnode : node.alternatives = #[])
    {id : SymbolId} {found : SymbolNode}
    (hfound : (s.forest.addSymbol node).2.symbolNode? id = some found) :
    found.alternatives.toList.Nodup := by
  rcases Forest.symbolNode?_addSymbol.mp hfound with hold | ⟨-, rfl⟩
  · exact h.alternatives hold
  · rw [hnode]
    exact List.nodup_nil

end Tidy

theorem kept_tidy : Kept Tidy where
  emptyPrefix {s} h := by
    rw [Scheduler.emptyPrefix]
    split
    · exact h
    · exact ⟨h.addPrefix rfl, h.alternatives, h.links, h.results, h.bottom⟩
  consFor label first h := by
    rw [Scheduler.consFor]
    split
    · exact h
    · exact ⟨h.addPrefix rfl, h.alternatives, h.links, h.results, h.bottom⟩
  derivationFor symbol first h := by
    rw [Scheduler.derivationFor]
    split
    · exact h
    · exact ⟨h.children, h.addSymbol rfl, h.links, h.results, h.bottom⟩
  -- What is packed, linked or recorded is put at the end of a list only if it is new there.
  packSplit id child h := by
    refine ⟨fun {other node} hnode => ?_, h.alternatives, h.links, h.results, h.bottom⟩
    rw [Scheduler.packSplit, Forest.prefixNode?_packSplit] at hnode
    split at hnode
    · obtain ⟨old, hold, rfl⟩ := Option.map_eq_some_iff.mp hnode
      exact PrefixNode.nodup_pack? (h.children hold)
    · exact h.children hnode
  packAlternative id child h := by
    refine ⟨h.children, fun {other node} hnode => ?_, h.links, h.results, h.bottom⟩
    rw [Scheduler.packAlternative, Forest.symbolNode?_packAlternative] at hnode
    split at hnode
    · obtain ⟨old, hold, rfl⟩ := Option.map_eq_some_iff.mp hnode
      exact SymbolNode.nodup_pack? (h.alternatives hold)
    · exact h.alternatives hnode
  offer {s} task h := by
    obtain ⟨_, _, _, _, heq⟩ := s.exists_offer_eq task
    rw [heq]
    exact ⟨h.children, h.alternatives, h.links, h.results, h.bottom⟩
  frameFor label origin h := by
    rw [Scheduler.frameFor]
    split
    · exact h
    · refine ⟨h.children, h.alternatives, fun {id stack} hstack => ?_, h.results,
        StackGraph.stack?_addFrame.mpr (.inl h.bottom)⟩
      rcases StackGraph.stack?_addFrame.mp hstack with hold | ⟨-, rfl⟩
      · exact h.links hold
      · exact List.nodup_nil
  link frame link h := by
    rw [Scheduler.link]
    split
    · refine ⟨h.children, h.alternatives, fun {id stack} hstack => ?_, h.results, ?_⟩
      · rw [StackGraph.stack?_addLink] at hstack
        split at hstack
        · obtain ⟨old, hold, rfl⟩ := Option.map_eq_some_iff.mp hstack
          exact Stack.nodup_link (h.links hold)
        · exact h.links hstack
      · rw [StackGraph.stack?_addLink, h.bottom]
        split <;> rfl
    · exact h
  recordResult {s} frame result h := by
    simp only [Scheduler.recordResult]
    split
    · exact h
    · rename_i hnew
      refine ⟨h.children, h.alternatives, h.links, fun other => ?_, h.bottom⟩
      have hpush : ((s.results frame).push result).toList.Nodup := by
        have hinsert : (insertNew (s.results frame) result).2.toList.Nodup :=
          nodup_insertNew (h.results frame)
        rwa [insertNew, if_neg hnew] at hinsert
      simp only [Scheduler.results, Std.HashMap.getElem?_insert]
      split
      · exact hpush
      · exact h.results other

/-- Making the root and the node of a symbol packs nothing, and a new generation has no results. -/
theorem Tidy.advance {s : Scheduler} (h : Tidy s) (symbol : Option Char) :
    Tidy (s.advance symbol) := by
  have hmoved (isLast : Bool) : Tidy (s.moveTo (s.nextPosition symbol) isLast) :=
    ⟨h.children, h.alternatives, h.links, fun frame => by
      simp [Scheduler.results, Scheduler.moveTo, Memory.empty], h.bottom⟩
  have hanchored {s : Scheduler} (h : Tidy s) : Tidy s.anchorRoot := by
    have hmade := kept_tidy.derivationFor s.start (s.first.getD s.current) h
    exact ⟨hmade.children, hmade.alternatives, hmade.links, hmade.results, hmade.bottom⟩
  have hread {s : Scheduler} (h : Tidy s) : Tidy s.readSymbol :=
    ⟨h.children, h.addSymbol rfl, h.links, h.results, h.bottom⟩
  cases symbol with
  | none => exact hanchored (hmoved true)
  | some c => exact hanchored (hread (hmoved false))

theorem law_tidy (start : Nonterminal) : Law start Tidy where
  toKept := kept_tidy
  initial := by
    refine ⟨fun {id node} hnode => ?_, fun {id node} hnode => ?_, fun {id stack} hstack => ?_,
      fun frame => ?_, rfl⟩
    · simp [Scheduler.initial] at hnode
    · simp [Scheduler.initial] at hnode
    · obtain ⟨-, rfl⟩ := StackGraph.stack?_empty.mp hstack
      exact List.nodup_nil
    · simp [Scheduler.results, Scheduler.initial, Memory.empty]
  advance symbol _ h := h.advance symbol
  dequeue {s rest task} hdequeue h := by
    obtain ⟨_, -, rfl⟩ := Scheduler.exists_of_dequeue? hdequeue
    exact ⟨h.children, h.alternatives, h.links, h.results, h.bottom⟩

end Gll
