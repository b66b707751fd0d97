import Gll.Proofs.Ambiguity
import Mathlib.Data.Set.Card

/-!
How many right-hand sides are packed under a node.

What is packed under a derivation are prefixes. Those that complete alternatives of its nonterminal
have the labels of the slots that complete them, so two alternatives with atoms are never packed as
one; not even if they are the same string of atoms. All empty alternatives are packed as the empty
prefix, though. So there is one right-hand side for each *ending* of an alternative that derives the
span (`Moment.Timeline.size_alternatives`), and one for each such alternative if and only if at most
one of them is empty. A grammar with two empty alternatives shows that it matters (`blanks`).
-/

set_option autoImplicit false

namespace Gll

namespace Program

variable (program : Program) (fed : List Char) (symbol : Nonterminal) (i j : Nat)

/-- The entries of a nonterminal whose alternatives derive a segment of the input. -/
def derivers : Set Label :=
  {entry | (∃ labels, program.entries? symbol = some labels ∧ entry ∈ labels) ∧
    ∃ trees, program.rightHandSides.Derives fed (program.atomsAt entry) i j trees}

/-- Those of them whose alternatives are empty. -/
def emptyDerivers : Set Label :=
  {entry ∈ program.derivers fed symbol i j | program.atomsAt entry = []}

variable {program fed symbol i j}

theorem finite_derivers : (program.derivers fed symbol i j).Finite := by
  cases hlabels : program.entries? symbol with
  | none =>
    refine Set.finite_empty.subset fun entry hentry => ?_
    obtain ⟨⟨labels, hlabels', -⟩, -⟩ := hentry
    cases hlabels.symm.trans hlabels'
  | some labels =>
    refine labels.finite_toSet.subset fun entry hentry => ?_
    obtain ⟨⟨labels', hlabels', hmem⟩, -⟩ := hentry
    cases hlabels.symm.trans hlabels'
    exact hmem

/-- If no nonterminal has two empty alternatives, at most one of those that derive is empty. -/
theorem ncard_emptyDerivers_le_one (hempty : program.EmptyUnique) :
    (program.emptyDerivers fed symbol i j).ncard ≤ 1 := by
  have hfinite : (program.emptyDerivers fed symbol i j).Finite :=
    finite_derivers.subset (Set.sep_subset _ _)
  rw [Set.ncard_le_one hfinite]
  intro entry hentry entry' hentry'
  obtain ⟨⟨⟨labels, hlabels, hmem⟩, -⟩, hatoms⟩ := hentry
  obtain ⟨⟨⟨labels', hlabels', hmem'⟩, -⟩, hatoms'⟩ := hentry'
  obtain rfl := Option.some.inj (hlabels.symm.trans hlabels')
  exact hempty hlabels hmem hmem' hatoms hatoms'

/-- Alternatives that are not empty are told apart by their endings. -/
theorem injOn_ending (hlaid : program.Laid) :
    Set.InjOn program.ending
      (program.derivers fed symbol i j \ program.emptyDerivers fed symbol i j) := by
  rintro entry ⟨hentry, hnot⟩ entry' ⟨hentry', -⟩ heq
  have hne : program.atomsAt entry ≠ [] := fun hatoms => hnot ⟨hentry, hatoms⟩
  obtain ⟨⟨labels, hlabels, hmem⟩, -⟩ := hentry
  obtain ⟨⟨labels', hlabels', hmem'⟩, -⟩ := hentry'
  obtain rfl := Option.some.inj (hlabels.symm.trans hlabels')
  exact hlaid.ending_inj hlabels hmem hmem' hne heq

/-- All empty alternatives have the same one. -/
theorem image_ending_emptyDerivers {entry : Label}
    (hentry : entry ∈ program.emptyDerivers fed symbol i j) :
    program.ending '' program.emptyDerivers fed symbol i j = {none} := by
  refine Set.Subset.antisymm ?_ ?_
  · rintro _ ⟨other, hother, rfl⟩
    exact ending_eq_none_iff.mpr hother.2
  · rintro _ rfl
    exact ⟨entry, hentry, ending_eq_none_iff.mpr hentry.2⟩

/-- Of the empty alternatives all but one are lost when endings are counted. -/
theorem ncard_derivers (hlaid : program.Laid) :
    (program.derivers fed symbol i j).ncard
      = (program.ending '' program.derivers fed symbol i j).ncard
        + ((program.emptyDerivers fed symbol i j).ncard - 1) := by
  have hsubset : program.emptyDerivers fed symbol i j ⊆ program.derivers fed symbol i j :=
    Set.sep_subset _ _
  have hfinite : (program.derivers fed symbol i j).Finite := finite_derivers
  have hothers : (program.ending '' (program.derivers fed symbol i j
      \ program.emptyDerivers fed symbol i j)).ncard
        = (program.derivers fed symbol i j \ program.emptyDerivers fed symbol i j).ncard :=
    (injOn_ending hlaid).ncard_image
  -- Endings tell all alternatives that are not empty from one another, and the empty ones have
  -- none. So if there are empty ones, they add one to the image.
  rcases Set.eq_empty_or_nonempty (program.emptyDerivers fed symbol i j) with
    hnone | ⟨entry, hentry⟩
  · rw [hnone, Set.sdiff_empty] at hothers
    rw [hnone, Set.ncard_empty, hothers, Nat.zero_sub, Nat.add_zero]
  · have hnot : none ∉ program.ending '' (program.derivers fed symbol i j
        \ program.emptyDerivers fed symbol i j) := by
      rintro ⟨other, ⟨hother, hatoms⟩, heq⟩
      exact hatoms ⟨hother, ending_eq_none_iff.mp heq⟩
    have himage : program.ending '' program.derivers fed symbol i j
        = insert none (program.ending '' (program.derivers fed symbol i j
          \ program.emptyDerivers fed symbol i j)) := by
      rw [← Set.union_singleton, ← image_ending_emptyDerivers hentry, ← Set.image_union,
        Set.sdiff_union_of_subset hsubset]
    have hcount := Set.ncard_sdiff_add_ncard_of_subset hsubset hfinite
    have hpos := (Set.ncard_pos (hfinite.subset hsubset)).mpr ⟨entry, hentry⟩
    rw [himage, Set.ncard_insert_of_notMem hnot (hfinite.sdiff.image _), hothers]
    omega

end Program

/-- Items without repetitions are as many as they are. -/
theorem size_eq_ncard {α : Type} {items : Array α} (hnodup : items.toList.Nodup) :
    items.size = {item | item ∈ items}.ncard := by
  classical
  have hset : {item | item ∈ items} = (items.toList.toFinset : Set α) := by
    ext item
    simp only [Set.mem_ofPred_eq, List.coe_toFinset, Array.mem_toList_iff]
  rw [hset, Set.ncard_coe_finset, List.toFinset_card_of_nodup hnodup, Array.length_toList]

namespace Moment

variable {program : Program} {input : List Char} {m : Moment}

/-- What is packed under a derivation has different endings. -/
theorem Sound.injOn_endingOf (hsound : m.Sound program input) (hdistinct : m.scheduler.Distinct)
    {id : SymbolId} {symbol : Nonterminal} {first last : Position} {alternatives : Array PrefixId}
    (hnode : m.scheduler.forest.symbolNode? id
      = some (.nonterminal symbol first last alternatives)) :
    Set.InjOn m.scheduler.forest.endingOf {child | child ∈ alternatives} := by
  have hcompletes {child : PrefixId} (hchild : child ∈ alternatives) :
      program.Completes m.scheduler symbol first last child :=
    Program.completes_of_sound hsound ⟨_, hnode⟩ ⟨_, _, _, _, hnode, hchild⟩
  intro child hchild child' hchild' hending
  exact (hcompletes hchild).unique hdistinct (hcompletes hchild') hending

/-- When nothing is pending, there is one right-hand side under a node that ends at the current
position for each ending of an alternative that derives its span. -/
theorem Timeline.size_alternatives (hlaid : program.Laid) (h : m.Timeline program input)
    (hdrained : m.pending = []) (hdistinct : m.scheduler.Distinct) (htidy : Tidy m.scheduler)
    {id : SymbolId} {symbol : Nonterminal} {i : Nat} {alternatives : Array PrefixId}
    (hnode : m.scheduler.forest.symbolNode? id
      = some (.nonterminal symbol (.of input i) (.of input m.index) alternatives)) :
    alternatives.size = (program.ending '' program.derivers input symbol i m.index).ncard := by
  obtain ⟨carried, hunderway⟩ := h.underway
  have hsound := hunderway.steady.sound
  have hderivation : m.Holds (.derivation id symbol (.of input i) (.of input m.index)) :=
    ⟨_, hnode⟩
  -- What is under the node was derived, and what derives the span has a tree, which is marked in
  -- the forest.
  have himage : m.scheduler.forest.endingOf '' {child | child ∈ alternatives}
      = program.ending '' program.derivers input symbol i m.index := by
    refine Set.Subset.antisymm ?_ ?_
    · rintro _ ⟨child, hchild, rfl⟩
      obtain ⟨_, entry, hmarks, hstem⟩ :=
        hsound.stem_of_alternative hderivation ⟨_, _, _, _, hnode, hchild⟩
      exact ⟨entry, ⟨hmarks.mem, hstem.derives⟩, hmarks.ending.symm⟩
    · rintro _ ⟨entry, ⟨⟨labels, hlabels, hentry⟩, trees, hderives⟩, rfl⟩
      obtain ⟨children, -, hchildren⟩ := Program.exists_markedDerives hderives
      cases h.hasMarkedTree hlaid hdrained hderivation
        (.nonterminal hlabels hentry hchildren (.nil _)) with
      | nonterminal hnode' hchild hmarks _ =>
        cases hnode.symm.trans hnode'
        exact ⟨_, hchild, hmarks.ending⟩
  have hnodup : alternatives.toList.Nodup := htidy.alternatives hnode
  rw [← himage, (hsound.injOn_endingOf hdistinct hnode).ncard_image, size_eq_ncard hnodup]

end Moment

namespace Program

section Calls

variable {grammar : Grammar} {program : Program} {σ : Type} {tracer : Tracer σ} {trace : σ}
  {limit : Nat} {session : Session σ Unit} {fed : List Char} {offers : List Task}

/-- When nothing is pending, a node that ends at the current position has a right-hand side for each
alternative that derives its span, except that it has one for all the empty ones together. -/
theorem ncard_derivers_of_reaches (hlaid : program.Laid)
    (h : Session.Reaches program.interpreter tracer (.initial program.interpreter trace () limit)
      fed session offers) (hdrained : session.scheduler.pending.isEmpty = true) {id : SymbolId}
    {symbol : Nonterminal} {first : Position} {alternatives : Array PrefixId}
    (hnode : session.scheduler.forest.symbolNode? id
      = some (.nonterminal symbol first session.scheduler.current alternatives)) :
    (program.derivers fed symbol first.offset session.scheduler.index).ncard
      = alternatives.size
        + ((program.emptyDerivers fed symbol first.offset session.scheduler.index).ncard - 1) := by
  rcases h.timeline hlaid (List.prefix_refl fed) fun _ => rfl with ⟨hinitial, -⟩ | htimeline
  · rw [hinitial] at hnode
    cases hnode
  · obtain ⟨carried, hunderway⟩ := htimeline.underway
    have hsound := hunderway.steady.sound
    have hcurrent : session.scheduler.current = _ := hsound.situated.current
    have hderivation : Moment.Holds ⟨session.scheduler, offers⟩ (.derivation id symbol first _) :=
      ⟨alternatives, hnode⟩
    obtain ⟨i, _, _, rfl, _⟩ := hsound.proper hderivation
    rw [hcurrent] at hnode
    have hsize := htimeline.size_alternatives hlaid ((Queue.isEmpty_iff _).mp hdrained)
      (h.law (Scheduler.law_distinct program.start)) (h.law (law_tidy program.start)) hnode
    rw [Position.offset_of, ncard_derivers hlaid, hsize]
    rfl

/-- The root ends at the current position. -/
theorem exists_root_of_reaches (hlaid : program.Laid)
    (h : Session.Reaches program.interpreter tracer (.initial program.interpreter trace () limit)
      fed session offers) (hopen : 0 < session.scheduler.nextIndex) :
    ∃ root alternatives, session.scheduler.forest.symbolNode? root
      = some (.nonterminal program.start (.of fed 0) session.scheduler.current alternatives) := by
  obtain ⟨carried, hunderway⟩ := (h.timeline_fed hlaid hopen).underway
  have hsound := hunderway.steady.sound
  have hcurrent : session.scheduler.current = _ := hsound.situated.current
  obtain ⟨root, -, alternatives, hnode⟩ := exists_root hsound
  exact ⟨root, alternatives, hcurrent ▸ hnode⟩

/-- When nothing is pending, a node that ends at the current position has as many right-hand sides
as there are alternatives of its nonterminal that derive its span if and only if at most one of
these alternatives is empty. Otherwise the others of the empty ones are missing. -/
theorem compile_packing (hcompile : Program.compile grammar = .ok program)
    (h : Session.Reaches program.interpreter tracer (.initial program.interpreter trace () limit)
      fed session offers) (hdrained : session.scheduler.pending.isEmpty = true) {id : SymbolId}
    {symbol : Nonterminal} {first : Position} {alternatives : Array PrefixId}
    (hnode : session.scheduler.forest.symbolNode? id
      = some (.nonterminal symbol first session.scheduler.current alternatives)) :
    (alternatives.size = (program.derivers fed symbol first.offset session.scheduler.index).ncard ↔
      (program.emptyDerivers fed symbol first.offset session.scheduler.index).ncard ≤ 1) ∧
    (program.derivers fed symbol first.offset session.scheduler.index).ncard
      = alternatives.size
        + ((program.emptyDerivers fed symbol first.offset session.scheduler.index).ncard - 1) := by
  have hcount := ncard_derivers_of_reaches (laid_of_compile hcompile) h hdrained hnode
  constructor
  · omega
  · exact hcount

end Calls

/-- With one empty alternative all are there. -/
theorem compile_packing_circular : ∃ program session root alternatives,
    Program.compile circular = .ok program ∧
      program.parse .silent () 224 "a" = .ok true session ∧
        session.scheduler.forest.symbolNode? root
          = some (.nonterminal program.start (.of ['a'] 0) session.scheduler.current
            alternatives) ∧
        alternatives.size
          = (program.derivers ['a'] program.start 0 session.scheduler.index).ncard := by
  obtain ⟨program, session, hcompile, hparse⟩ := parse_circular
  obtain ⟨⟨offers, h⟩, hdequeue, hopen, -⟩ := Session.Reaches.start.of_parse hparse
  obtain ⟨root, alternatives, hnode⟩ := exists_root_of_reaches (laid_of_compile hcompile) h hopen
  obtain ⟨hiff, -⟩ := compile_packing hcompile h
    ((Queue.isEmpty_iff _).mpr (pending_eq_nil_of_dequeue? offers hdequeue)) hnode
  exact ⟨program, session, root, alternatives, hcompile, hparse, hnode,
    hiff.mpr (ncard_emptyDerivers_le_one (emptyUnique_circular hcompile))⟩

/-- A grammar whose only nonterminal has two empty alternatives. -/
def blanks : Grammar := (Grammar.empty "blanks").withRule "S" (.choice [.blank, .blank])

/-- Two empty alternatives both derive every segment without characters. -/
theorem ncard_of_blanks {program : Program} (fed : List Char) (i : Nat)
    (hlabels : program.entries? program.start = some [⟨1⟩, ⟨2⟩])
    (hfirst : program.atomsAt ⟨1⟩ = []) (hsecond : program.atomsAt ⟨2⟩ = []) :
    (program.derivers fed program.start i i).ncard = 2 ∧
      (program.emptyDerivers fed program.start i i).ncard = 2 := by
  have hatoms {entry : Label} (hentry : entry ∈ ([⟨1⟩, ⟨2⟩] : List Label)) :
      program.atomsAt entry = [] := by
    rcases List.mem_pair.mp hentry with rfl | rfl
    · exact hfirst
    · exact hsecond
  have hderivers : program.derivers fed program.start i i = {⟨1⟩, ⟨2⟩} := by
    ext entry
    constructor
    · rintro ⟨⟨labels, hlabels', hentry⟩, -⟩
      cases hlabels.symm.trans hlabels'
      exact List.mem_pair.mp hentry
    · intro hentry
      have hmem : entry ∈ ([⟨1⟩, ⟨2⟩] : List Label) := List.mem_pair.mpr hentry
      refine ⟨⟨_, hlabels, hmem⟩, [], ?_⟩
      rw [hatoms hmem]
      exact .nil i
  have hempties : program.emptyDerivers fed program.start i i
      = program.derivers fed program.start i i := by
    refine Set.sep_eq_self_iff_mem_true.mpr fun entry hentry => ?_
    rw [hderivers] at hentry
    exact hatoms (List.mem_pair.mpr hentry)
  rw [hempties, hderivers]
  exact ⟨Set.ncard_pair (by decide), Set.ncard_pair (by decide)⟩

/-- Both alternatives of its start nonterminal derive the empty text, and there is one right-hand
side under the root. -/
theorem packing_blanks : ∃ program accepted session root alternatives,
    Program.compile blanks = .ok program ∧
      program.parse .silent () 15 "" = .ok accepted session ∧
        session.scheduler.forest.symbolNode? root
          = some (.nonterminal program.start (.of [] 0) session.scheduler.current alternatives) ∧
        alternatives.size = 1 ∧
          (program.derivers [] program.start 0 session.scheduler.index).ncard = 2 := by
  obtain ⟨program, hcompile, hcount, hlabels, hfirst, hsecond⟩ :
      ∃ program, Program.compile blanks = .ok program ∧ program.slotCount = 3 ∧
        program.entries? program.start = some [⟨1⟩, ⟨2⟩] ∧ program.atomsAt ⟨1⟩ = [] ∧
          program.atomsAt ⟨2⟩ = [] := ⟨_, rfl, rfl, rfl, rfl, rfl⟩
  have hlaid := laid_of_compile hcompile
  have hends : Session.Ends .silent (fun _ _ => True) (program.parse .silent () 15 "") :=
    Session.Reaches.start.parse_ends hlaid (closed_of_compile hcompile) rfl (by
      rw [generationFuel, hcount]
      exact Nat.le_refl 15)
  obtain ⟨accepted, session, hparse, -⟩ := hends.exists_ok Tracer.isTotal_silent
  obtain ⟨⟨offers, h⟩, hdequeue, hopen, -⟩ := Session.Reaches.start.of_parse hparse
  obtain ⟨root, alternatives, hnode⟩ := exists_root_of_reaches hlaid h hopen
  have hindex : session.scheduler.index = 0 := by
    obtain ⟨carried, hunderway⟩ := (h.timeline_fed hlaid hopen).underway
    exact Nat.le_zero.mp hunderway.steady.sound.situated.index_le
  have hcount := ncard_derivers_of_reaches hlaid h
    ((Queue.isEmpty_iff _).mpr (pending_eq_nil_of_dequeue? offers hdequeue)) hnode
  rw [Position.offset_of, hindex] at hcount
  obtain ⟨htwo, hboth⟩ := ncard_of_blanks ([] ++ "".toList) 0 hlabels hfirst hsecond
  rw [hboth, htwo] at hcount
  refine ⟨program, accepted, session, root, alternatives, hcompile, hparse, hnode, by omega, ?_⟩
  rw [hindex]
  exact htwo

end Program

end Gll
