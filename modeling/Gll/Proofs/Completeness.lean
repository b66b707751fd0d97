import Gll.Proofs.Trees

/-!
No derivation is missing.

When a generation has been drained, so have been all before it, and then every derivation of a
beginning of an item is followed through them: from the generation in which the item was reached,
atom by atom, to the one in which its end is reached (`Stages.reach`). The induction is on the
derivation, so a nonterminal is followed twice, once into its own right-hand side, for the frame in
which the caller waits, and then behind the atom, when its result has been delivered to the caller.
It is here that it matters that every result is delivered over every link, and that being resumed
once is as good as being resumed many times.

What is carried along is more than that the item is reached: the prefix with which it is has the
trees of what was derived, and with the marks of the alternatives that were taken.
-/

set_option autoImplicit false

namespace Gll

namespace Moment

variable {program : Program} {input : List Char} {stages : Nat → Moment} {k : Nat}

/-- A slot is reached for a caller, with some trees. -/
def Reached (program : Program) (m : Moment) (caller : StackId) (label : Label)
    (trees : List MarkedTree) : Prop :=
  ∃ stem, m.Holds (.offered (.resume label caller stem)) ∧
    m.scheduler.forest.MarkedTrees program (.stem stem) trees

namespace Stages

variable (hlaid : program.Laid) (h : Stages program input stages k)
  (hlast : (stages k).pending = [])

include h

/-- A result that a frame has goes on in the callers linked to it, with the trees of both. -/
theorem delivered {i j : Nat} (hij : i ≤ j) (hj : j ≤ k) {frame caller : StackId} {stem : PrefixId}
    {result : SymbolId} {label : Label} {left : List MarkedTree} {right : MarkedTree}
    (hframe : (stages i).Holds (.frame frame label i))
    (hlink : (stages i).Holds (.link frame ⟨caller, stem⟩))
    (hleft : (stages i).scheduler.forest.MarkedTrees program (.stem stem) left)
    (hresult : (stages j).Holds (.result frame result))
    (hright : (stages j).scheduler.forest.MarkedTrees program (.symbol result) [right]) :
    (stages j).Reached program caller label (left ++ [right]) := by
  have hlasts {fact : Fact} : fact.Lasts → (stages i).Holds fact → (stages j).Holds fact :=
    h.lasts hij hj
  obtain ⟨_, _, id, _, hsplit, hoffered⟩ := (h.underway hj).steady.served
    (hlasts trivial hframe) (hlasts trivial hlink) hresult
  exact ⟨id, hoffered, trees_of_split hsplit (trees_mono hlasts hleft) hright⟩

/-- The alternatives of a nonterminal are reached where a frame begins that waits for it. -/
theorem reached_entry {i : Nat} (hlaid : program.Laid) (hi : i ≤ k) {frame : StackId}
    {label : Label} {owner : Option Nonterminal} {before after : List Atom} {callee : Nonterminal}
    (hframe : (stages i).Holds (.frame frame label i))
    (hitem : program.Item label owner (before ++ [.nonterminal callee]) after)
    {labels : List Label} {entry : Label} (hlabels : program.entries? callee = some labels)
    (hentry : entry ∈ labels) : (stages i).Reached program frame entry [] := by
  have hsteady := (h.underway hi).steady
  have hframe' : (stages i).Holds (.frame frame label (stages i).index) := by
    rw [h.index hi]
    exact hframe
  obtain ⟨stem, hoffered⟩ := hsteady.opened hframe' hitem hlabels hentry
  obtain ⟨_, owner', before', after', i', hitem', _, hcanonical⟩ := hsteady.sound.proper hoffered
  obtain ⟨_, hbefore, _⟩ := hlaid.item_unique (hlaid.item_entry hlabels hentry) hitem'
  refine ⟨stem, hoffered, ?_⟩
  cases hcanonical with
  | empty hkey => exact trees_of_empty (hsteady.sound.empty_of_key hkey)
  | cons => simp at hbefore

include hlaid hlast

/-- A complete right-hand side becomes a result of the caller that waits for its owner. -/
theorem completed {j : Nat} (hj : j ≤ k) {caller : StackId} {label : Label} {i : Nat}
    {owner : Option Nonterminal} {before after : List Atom} {callee : Nonterminal}
    {labels : List Label} {entry : Label} {trees : List MarkedTree}
    (hframe : (stages j).Holds (.frame caller label i))
    (hitem : program.Item label owner (before ++ [.nonterminal callee]) after)
    (hlabels : program.entries? callee = some labels) (hentry : entry ∈ labels)
    (hreached : (stages j).Reached program caller
      ⟨entry.index + (program.atomsAt entry).length⟩ trees) :
    ∃ result, (stages j).Holds (.result caller result) ∧
      (stages j).Holds (.derivation result callee (.of input i) (.of input j)) ∧
        (stages j).scheduler.forest.MarkedTrees program (.symbol result)
          [.node callee entry trees] := by
  obtain ⟨stem, hoffered, htrees⟩ := hreached
  have hsound := h.sound hj
  have hend := hlaid.item_end hlabels hentry
  obtain ⟨result, halternative, hresult⟩ := h.covered hlast hlaid hj hoffered hend
  obtain ⟨label', owner', before', atom', after', i', hanswer⟩ := hsound.proper hresult
  obtain ⟨rfl, rfl⟩ := frame_unique hframe hanswer.frame
  obtain ⟨_, hatoms, _⟩ := hlaid.item_unique hitem hanswer.item
  obtain ⟨-, hatom⟩ := List.append_inj' hatoms rfl
  obtain ⟨rfl, -⟩ := List.cons.inj hatom
  have hderivative := hanswer.derivative
  rw [h.index hj] at hderivative
  -- The prefix is the canonical one at the end of the alternative, so it is marked as its entry.
  have hmarks : program.Marks (stages j).scheduler.forest callee stem entry := by
    obtain ⟨_, owner'', before'', after'', i'', hitem'', _, hcanonical⟩ := hsound.proper hoffered
    obtain ⟨_, hbefore, _⟩ := hlaid.item_unique hend hitem''
    cases hcanonical with
    | empty hkey => exact marks_of_empty hlabels hentry hbefore (hsound.empty_of_key hkey)
    | cons hkey =>
      exact marks_of_cons hlabels hentry (by simp [hbefore]) rfl (hsound.cons_of_key hkey)
  -- It is a result of a frame that waits for the owner, so it is over the same offsets.
  cases hderivative with
  | nonterminal hnode _ _ =>
    exact ⟨result, hresult, hnode, trees_of_alternative hnode halternative hmarks htrees⟩

/-- From an item that is reached, a derivation of atoms that are next behind the dot leads behind
them. -/
theorem reach {atoms : List Atom} {i j : Nat} {trees : List MarkedTree}
    (hderives : program.MarkedDerives input atoms i j trees) (hj : j ≤ k)
    {caller : StackId} {label : Label} {owner : Option Nonterminal} {before after : List Atom}
    {known : List MarkedTree} (hitem : program.Item label owner before (atoms ++ after))
    (hreached : (stages i).Reached program caller label known) :
    (stages j).Reached program caller ⟨label.index + atoms.length⟩ (known ++ trees) := by
  have hindex (label : Label) (atom : Atom) (atoms : List Atom) :
      (⟨label.next.index + atoms.length⟩ : Label) = ⟨label.index + (atom :: atoms).length⟩ :=
    congrArg Label.mk (Nat.succ_add_eq_add_succ _ _)
  -- The caller varies: a nonterminal is derived for the frame in which the present caller waits.
  induction hderives generalizing caller label owner before after known with
  | nil i =>
    rw [List.append_nil]
    exact hreached
  | @terminal matcher c atoms i j trees hchar haccepts hrest ih =>
    have hle := hrest.erase.le
    have hi : i < k := by omega
    obtain ⟨stem, hoffered, htrees⟩ := hreached
    have hcovered := h.covered hlast hlaid hi.le hoffered
    have hsound := h.sound hi.le
    have hcurrent : (stages i).scheduler.current.char? = some c := by
      rw [hsound.situated.current, Position.char?_of, h.index hi.le]
      exact hchar
    -- Its slot has been run here, so the symbol was staged for a frame that has the caller.
    obtain ⟨frame, result, hframe, hlink, hstaged⟩ := hcovered hitem hcurrent haccepts
    obtain ⟨_, _, _, _, matcher', _, hanswer⟩ := hsound.proper hstaged
    rw [h.index hi.le] at hframe hanswer
    have hleaf : (stages (i + 1)).scheduler.forest.MarkedTrees program (.symbol result)
        [.leaf i] := by
      cases hanswer.derivative with
      | terminal hterminal _ _ =>
        have hlater : (stages (i + 1)).scheduler.forest.MarkedTrees program _ _ :=
          trees_of_terminal (h.lasts (Nat.le_succ i) hi trivial hterminal)
        rw [Position.offset_of] at hlater
        exact hlater
    have hnext := h.delivered (Nat.le_succ i) hi hframe hlink htrees
      (h.shifted hlast hi hstaged) hleaf
    have hdone := ih hj hitem.next hnext
    rw [List.append_assoc, hindex] at hdone
    exact hdone
  | @nonterminal callee labels entry atoms i m j children trees hlabels hentry hfirst hrest ihfirst
      ihrest =>
    have hle := hfirst.erase.le
    have hle' := hrest.erase.le
    have hi : i ≤ k := by omega
    have hm : m ≤ k := by omega
    obtain ⟨stem, hoffered, htrees⟩ := hreached
    -- Into the nonterminal, up to the generation in which its right-hand side is complete,
    obtain ⟨frame, hframe, hlink⟩ := h.covered hlast hlaid hi hoffered hitem
    rw [h.index hi] at hframe
    have hinner := ihfirst hm (hlaid.item_entry_append hlabels hentry)
      (h.reached_entry hlaid hi hframe hitem.next hlabels hentry)
    obtain ⟨result, hresult, _, htree⟩ := h.completed hlaid hlast hm
      (h.lasts hle hm trivial hframe) hitem.next hlabels hentry hinner
    -- and from there on behind it.
    have hnext := h.delivered hle hm hframe hlink htrees hresult htree
    have hdone := ihrest hj hitem.next hnext
    rw [List.append_assoc, hindex] at hdone
    exact hdone

/-- For a frame that waits for a nonterminal, every marked derivation tree of the nonterminal from
where the frame begins is the tree of a result of it. -/
theorem answered {i j : Nat} (hj : j ≤ k) {frame : StackId} {label : Label}
    {owner : Option Nonterminal} {before after : List Atom} {callee : Nonterminal}
    {tree : MarkedTree} (hframe : (stages j).Holds (.frame frame label i))
    (hitem : program.Item label owner (before ++ [.nonterminal callee]) after)
    (h' : program.MarkedDerivesTree input callee i j tree) :
    ∃ result, (stages j).Holds (.result frame result) ∧
      (stages j).Holds (.derivation result callee (.of input i) (.of input j)) ∧
        (stages j).scheduler.forest.MarkedTrees program (.symbol result) [tree] := by
  obtain ⟨labels, entry, children, hlabels, hentry, rfl, hderives⟩ :=
    Program.markedDerivesTree_iff.mp h'
  have hle := hderives.erase.le
  have hstart := h.frame_at_origin hj hframe
  have hend := h.reach hlaid hlast hderives hj (hlaid.item_entry_append hlabels hentry)
    (h.reached_entry hlaid (hle.trans hj) hstart hitem hlabels hentry)
  exact h.completed hlaid hlast hj hframe hitem hlabels hentry hend

/-- Every marked derivation tree of the nonterminal of a node over its span is a tree of the node,
if the node ends where the stages end. -/
theorem hasMarkedTree {id : SymbolId} {symbol : Nonterminal} {i : Nat} {tree : MarkedTree}
    (hnode : (stages k).Holds (.derivation id symbol (.of input i) (.of input k)))
    (h' : program.MarkedDerivesTree input symbol i k tree) :
    (stages k).scheduler.forest.MarkedTrees program (.symbol id) [tree] := by
  have hunderway := h.underway (Nat.le_refl k)
  have hsound := hunderway.steady.sound
  have hindex := h.index (Nat.le_refl k)
  obtain ⟨i', j', _, hi, hj, hkey, hcaller⟩ := hsound.proper hnode
  obtain rfl := Position.of_inj hi
  obtain rfl := Position.of_inj hj
  -- Some frame waits for the symbol: the accepting one, or the one for which the node was made.
  obtain ⟨frame, label, owner, before, after, hframe, hitem⟩ : ∃ frame label owner before after,
      (stages k).Holds (.frame frame label i) ∧
        program.Item label owner (before ++ [.nonterminal symbol]) after := by
    rcases hcaller with ⟨rfl, rfl⟩ | ⟨frame, hcaller⟩
    · obtain ⟨frame, hframe⟩ := hunderway.seeded
      exact ⟨frame, _, none, [], [], hframe, .accept⟩
    · cases hcaller with
      | frame hframe hitem => exact ⟨frame, _, _, _, _, hframe, hitem⟩
  obtain ⟨result, _, hresult, htree⟩ :=
    h.answered hlaid hlast (Nat.le_refl k) hframe hitem h'
  -- The tables have one derivation for a nonterminal and an offset.
  obtain ⟨_, _, _, hi', hj', hkey', _⟩ := hsound.proper hresult
  obtain rfl := Position.of_inj hi'
  obtain rfl := Position.of_inj hj'
  obtain rfl := derivationKey_unique (hkey hindex.symm) (hkey' hindex.symm)
  exact htree

end Stages

/-- When nothing is pending, every marked derivation tree of the nonterminal of a node over its span
is a tree of the node, if the node ends at the current position. -/
theorem Timeline.hasMarkedTree {m : Moment} (hlaid : program.Laid) (h : m.Timeline program input)
    (hdrained : m.pending = []) {id : SymbolId} {symbol : Nonterminal} {i : Nat} {tree : MarkedTree}
    (hnode : m.Holds (.derivation id symbol (.of input i) (.of input m.index)))
    (h' : program.MarkedDerivesTree input symbol i m.index tree) :
    m.scheduler.forest.MarkedTrees program (.symbol id) [tree] := by
  -- A derivation is followed through all generations up to this one.
  obtain ⟨stages, hstages, hlast, hpending⟩ := h.exists_drained_stages hdrained
  have hnode' : (stages m.index).Holds
      (.derivation id symbol (.of input i) (.of input m.index)) := by
    rw [hlast]
    exact hnode
  have hdone := hstages.hasMarkedTree hlaid hpending hnode' h'
  rw [hlast] at hdone
  exact hdone

end Moment

end Gll
