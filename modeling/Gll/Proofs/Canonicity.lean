import Gll.Proofs.Deliveries

/-!
Canonical nodes.

Whatever drives a parse, and in whatever order its requests come, there is never a second node of a
shape in the whole forest, never a second frame of a label and an origin in a generation, and the
root is the one derivation of the start nonterminal over what was read.

All that is needed are the laws on identity, for what is `Reached`.
-/

set_option autoImplicit false

namespace Gll

variable {start : Nonterminal} {opened : Scheduler} {ledger : Ledger}

namespace Scheduler

/-- To pack under a listed derivation gives that derivation. -/
theorem derive_of_key {before : Ledger} {symbol : Nonterminal} {first : Position} {id : SymbolId}
    (hkey : before.scheduler.Knows (.derivationKey symbol first id)) (child : PrefixId) :
    (∃ after, (Operation.derive symbol first child).Carries before id after) ∧
      ∀ answer after, (Operation.derive symbol first child).Carries before answer after →
        answer = id := by
  have hlook : before.scheduler.memory.derivations[(symbol, first)]? = some id := hkey
  have hfor : before.scheduler.derivationFor symbol first = (id, before.scheduler) := by
    rw [derivationFor, hlook]
  constructor
  · have hleads : (Operation.derive symbol first child).Leads before.toMoment id
        { before.toMoment with scheduler := before.scheduler.packAlternative id child } := by
      simp only [Operation.Leads, Operation.act, derive, Act.leads_bind, Act.leads_update,
        Act.leads_pure]
      exact ⟨id, before.toMoment, ⟨hfor, rfl⟩, (),
        { before.toMoment with scheduler := before.scheduler.packAlternative id child },
        ⟨rfl, rfl⟩, rfl, rfl⟩
    obtain ⟨after, -, hcarries⟩ := Operation.exists_carries hleads
    exact ⟨after, hcarries⟩
  · intro answer after hcarries
    have hleads := hcarries.leads
    simp only [Operation.Leads, Operation.act, derive, Act.leads_bind, Act.leads_update,
      Act.leads_pure] at hleads
    obtain ⟨made, between, ⟨hmade, -⟩, -, -, -, rfl, -⟩ := hleads
    exact (congrArg Prod.fst (hmade.symm.trans hfor))

end Scheduler

/-- Over the whole parse there is one node of each kind for what it stands for, in a generation
there is one frame for a label and an origin, and the root is found by whoever derives the start
nonterminal. -/
theorem Reached.nodes_unique (h : Reached start opened ledger) :
    (∀ id id' symbol first last alternatives alternatives',
      ledger.scheduler.forest.symbolNode? id
        = some (.nonterminal symbol first last alternatives) →
      ledger.scheduler.forest.symbolNode? id'
        = some (.nonterminal symbol first last alternatives') → id = id') ∧
    (∀ id id' label first last children children',
      ledger.scheduler.forest.prefixNode? id = some (.cons label first last children) →
      ledger.scheduler.forest.prefixNode? id' = some (.cons label first last children') →
        id = id') ∧
    (∀ id id' position,
      ledger.scheduler.forest.prefixNode? id = some (.empty position) →
      ledger.scheduler.forest.prefixNode? id' = some (.empty position) → id = id') ∧
    (∀ id id' position,
      ledger.scheduler.forest.symbolNode? id = some (.terminal position) →
      ledger.scheduler.forest.symbolNode? id' = some (.terminal position) → id = id') ∧
    (∀ id id' label origin links links',
      opened.graph.stack? id = none → opened.graph.stack? id' = none →
      ledger.scheduler.graph.stack? id = some (.frame label origin links) →
      ledger.scheduler.graph.stack? id' = some (.frame label origin links') → id = id') ∧
    (0 < ledger.scheduler.nextIndex → ∃ first root alternatives,
      ledger.scheduler.first = some first ∧ first.offset = 0 ∧
      ledger.scheduler.root = some root ∧
      ledger.scheduler.forest.symbolNode? root
        = some (.nonterminal start first ledger.scheduler.current alternatives) ∧
      ∀ child,
        (∃ after, (Operation.derive start first child).Carries ledger root after) ∧
        ∀ answer after, (Operation.derive start first child).Carries ledger answer after →
          answer = root) := by
  have hdistinct := h.law (Scheduler.law_distinct start)
  have hrooted := h.law (Scheduler.law_rooted start)
  refine ⟨?_, ?_, ?_, ?_, ?_, ?_⟩
  · intro ⟨i⟩ ⟨j⟩ symbol first last alternatives alternatives' hi hj
    exact congrArg SymbolId.mk
      (hdistinct.unique (.derivation symbol first last) ⟨_, hi⟩ ⟨_, hj⟩)
  · intro ⟨i⟩ ⟨j⟩ label first last children children' hi hj
    exact congrArg PrefixId.mk
      (hdistinct.unique (.cons label first last) ⟨_, hi⟩ ⟨_, hj⟩)
  · intro ⟨i⟩ ⟨j⟩ position hi hj
    exact congrArg PrefixId.mk (hdistinct.unique (.empty position) hi hj)
  · intro ⟨i⟩ ⟨j⟩ position hi hj
    exact congrArg SymbolId.mk (hdistinct.unique (.terminal position) hi hj)
  · intro id id' label origin links links' hnone hnone' hstack hstack'
    exact h.framesListed.unique ⟨_, hstack⟩ hnone ⟨_, hstack'⟩ hnone'
  · intro hnext
    obtain ⟨first, root, hfirst, hoffset, hroot, hkey⟩ := hrooted.root hnext
    obtain ⟨alternatives, hnode⟩ :=
      (hdistinct.listed (.derivation start first _) root.index rfl).mpr hkey
    exact ⟨first, root, alternatives, hfirst, hoffset, hroot, hnode,
      Scheduler.derive_of_key hkey⟩

/-- After a first symbol the root is over no symbols yet, and there is no other derivation like it
and no other frame like one that was pushed. -/
theorem nodes_unique_root : ∃ ledger frame root links,
    Reached ⟨0⟩ ((Scheduler.initial ⟨0⟩).advance (some 'x')) ledger ∧
      ledger.scheduler.root = some root ∧ (∃ first alternatives, first.offset = 0 ∧
        ledger.scheduler.forest.symbolNode? root
          = some (.nonterminal ⟨0⟩ first ledger.scheduler.current alternatives) ∧
        (∀ other alternatives', ledger.scheduler.forest.symbolNode? other
          = some (.nonterminal ⟨0⟩ first ledger.scheduler.current alternatives') → other = root) ∧
        ∀ child answer after,
          (Operation.derive ⟨0⟩ first child).Carries ledger answer after → answer = root) ∧
      ledger.scheduler.graph.stack? frame = some (.frame ⟨1⟩ 0 links) ∧
      ∀ other links', ((Scheduler.initial ⟨0⟩).advance (some 'x')).graph.stack? other = none →
        ledger.scheduler.graph.stack? other = some (.frame ⟨1⟩ 0 links') → other = frame := by
  obtain ⟨ledger, frame, stem, _, links, h, hnext, -, hnew, hstack, -, -⟩ := exists_reached
  obtain ⟨hderivations, -, -, -, hframes, hroot⟩ := h.nodes_unique
  obtain ⟨first, root, alternatives, -, hoffset, hroot, hnode, hderive⟩ :=
    hroot (hnext ▸ Nat.one_pos)
  exact ⟨ledger, frame, root, links, h, hroot, ⟨first, alternatives, hoffset, hnode,
    fun other alternatives' hother => hderivations _ _ _ _ _ _ _ hother hnode,
    fun child => (hderive child).2⟩, hstack,
    fun other links' hnew' hstack' => hframes _ _ _ _ _ _ hnew' hnew hstack' hstack⟩

end Gll
