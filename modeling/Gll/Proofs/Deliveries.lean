import Gll.Proofs.Progress
import Gll.Proofs.Sets
import Gll.Proofs.Tally

/-!
No result is lost.

A frame gets links and results in any order, and each link is to get each result once. The ledger of
a generation shows that it does (`Settled`): what was delivered is, without repetition, every result
of every frame over every link of it. A request that brings a link or a result delivers exactly the
pairs that this makes (`Settled.of_deliveries`); all others bring neither.

Nothing is asked of whoever makes the requests but that the handles are of things that are there.
-/

set_option autoImplicit false

namespace Gll

open Scheduler

/-! ## Requests that leave the stacks alone -/

/-- The stacks, their links and their results are the same. -/
structure SameStacks (s s' : Scheduler) : Prop where
  graph : s'.graph = s.graph
  results : s'.memory.results = s.memory.results

theorem keptOffStacks_sameStacks (s : Scheduler) : KeptOffStacks (SameStacks s) :=
  .of_stacks fun h hgraph hresults => ⟨hgraph.trans h.graph, hresults.trans h.results⟩

theorem SameStacks.link_iff {s s' : Scheduler} (h : SameStacks s s') {frame : StackId}
    {link : Link} : s'.Knows (.link frame link) ↔ s.Knows (.link frame link) := by
  simp only [Knows, Moment.Holds, h.graph]

theorem SameStacks.result_iff {s s' : Scheduler} (h : SameStacks s s') {frame : StackId}
    {result : SymbolId} : s'.Knows (.result frame result) ↔ s.Knows (.result frame result) := by
  simp only [Knows, Moment.Holds, Scheduler.results, h.results]

theorem HandsOut.sameStacks {label : Label} {deliveries : List Delivery} {before after : Ledger}
    (h : HandsOut label deliveries before after) : SameStacks before.scheduler after.scheduler :=
  h.keeps (keptOffStacks_sameStacks _) ⟨rfl, rfl⟩

theorem HandsOut.later {label : Label} {deliveries : List Delivery} {before after : Ledger}
    (h : HandsOut label deliveries before after) : before.scheduler.Later after.scheduler :=
  h.keeps (kept_later _).toKeptOffStacks (.refl _)

/-! ## What a ledger shows -/

/-- A delivery that is due: the frame has the link and the result. -/
def Delivery.Due (s : Scheduler) (delivery : Delivery) : Prop :=
  s.Knows (.link delivery.frame delivery.link) ∧ s.Knows (.result delivery.frame delivery.result)

theorem Delivery.Due.later {s s' : Scheduler} {delivery : Delivery} (h : delivery.Due s)
    (hlater : s.Later s') : delivery.Due s' :=
  ⟨hlater.knows h.1, hlater.knows h.2⟩

/-- Every delivery that is due was made, and once. -/
structure Settled (ledger : Ledger) : Prop where
  closed : ledger.scheduler.Closed
  handed (delivery : Delivery) {label : Label} {origin : Nat} : delivery.Due ledger.scheduler →
    ledger.scheduler.Knows (.frame delivery.frame label origin) →
      ledger.scheduler.Handed label delivery.link delivery.result
  delivered (delivery : Delivery) : delivery ∈ ledger.deliveries ↔ delivery.Due ledger.scheduler
  once : ledger.deliveries.Nodup

namespace Settled

variable {before after : Ledger}

/-- A change that makes exactly the deliveries that it makes due keeps a ledger settled. -/
theorem of_deliveries (h : Settled before) (hlater : before.scheduler.Later after.scheduler)
    (hclosed : after.scheduler.Closed) {new : List Delivery}
    (hdeliveries : after.deliveries = before.deliveries ++ new) (honce : new.Nodup)
    (hnew : ∀ delivery,
      delivery ∈ new ↔ delivery.Due after.scheduler ∧ ¬ delivery.Due before.scheduler)
    (hhanded : ∀ delivery ∈ new, ∀ label origin,
      after.scheduler.Knows (.frame delivery.frame label origin) →
        after.scheduler.Handed label delivery.link delivery.result) : Settled after where
  closed := hclosed
  handed delivery label origin hdue hframe := by
    by_cases hold : delivery.Due before.scheduler
    · -- The frame is from before as well, since it has the link.
      obtain ⟨label', origin', hframe'⟩ := Moment.frame_of_link hold.1
      obtain ⟨rfl, rfl⟩ := Moment.frame_unique hframe (hlater.knows hframe')
      exact (h.handed _ hold hframe').later hlater
    · exact hhanded delivery ((hnew delivery).mpr ⟨hdue, hold⟩) label origin hframe
  delivered delivery := by
    rw [hdeliveries, List.mem_append, h.delivered, hnew]
    constructor
    · rintro (hold | ⟨hdue, -⟩)
      · exact hold.later hlater
      · exact hdue
    · exact fun hdue => (em (delivery.Due before.scheduler)).imp_right fun hold => ⟨hdue, hold⟩
  once := by
    rw [hdeliveries, List.nodup_append]
    refine ⟨h.once, honce, fun delivery hmem other hmem' => ?_⟩
    rintro rfl
    exact ((hnew delivery).mp hmem').2 ((h.delivered delivery).mp hmem)

end Settled

namespace Scheduler

variable {s s' : Scheduler}

theorem Closed.later (h : s.Closed) (hlater : s.Later s')
    (hlinks : ∀ {frame link}, s'.Knows (.link frame link) →
      s.Knows (.link frame link) ∨ s'.HasPrefix link.stem)
    (hresults : ∀ {frame result}, s'.Knows (.result frame result) →
      s.Knows (.result frame result) ∨ s'.HasSymbol result) : s'.Closed where
  stems hlink := (hlinks hlink).elim (fun hold => (h.stems hold).later hlater) id
  results hresult := (hresults hresult).elim (fun hold => (h.results hold).later hlater) id

end Scheduler

namespace Settled

variable {before after : Ledger}

/-- What leaves the links and results as they are makes no deliveries due. -/
theorem of_sameDue (h : Settled before) (hlater : before.scheduler.Later after.scheduler)
    (hlinks : ∀ {frame link}, after.scheduler.Knows (.link frame link) ↔
      before.scheduler.Knows (.link frame link))
    (hresults : ∀ {frame result}, after.scheduler.Knows (.result frame result) ↔
      before.scheduler.Knows (.result frame result))
    (hdeliveries : after.deliveries = before.deliveries) : Settled after := by
  have hclosed : after.scheduler.Closed := h.closed.later hlater
    (fun hlink => .inl (hlinks.mp hlink)) (fun hresult => .inl (hresults.mp hresult))
  have hdue (delivery : Delivery) :
      delivery.Due after.scheduler ↔ delivery.Due before.scheduler := and_congr hlinks hresults
  have hnone : after.deliveries = before.deliveries ++ [] := by rw [hdeliveries, List.append_nil]
  exact h.of_deliveries hlater hclosed hnone List.nodup_nil (fun delivery => by simp [hdue])
    fun _ hmem => absurd hmem List.not_mem_nil

theorem of_sameStacks (h : Settled before) (hlater : before.scheduler.Later after.scheduler)
    (hstacks : SameStacks before.scheduler after.scheduler)
    (hdeliveries : after.deliveries = before.deliveries) : Settled after :=
  h.of_sameDue hlater hstacks.link_iff hstacks.result_iff hdeliveries

/-- Handing out what a change made due keeps a ledger settled. -/
theorem of_handsOut (h : Settled before) {s : Scheduler} {frame : StackId} {label : Label}
    {origin : Nat} {new : List Delivery} (hlater : before.scheduler.Later s)
    (hdistinct : s.Distinct) (hclosed : s.Closed) (hframe : s.Knows (.frame frame label origin))
    (hat : ∀ delivery ∈ new, delivery.frame = frame) (honce : new.Nodup)
    (hnew : ∀ delivery, delivery ∈ new ↔ delivery.Due s ∧ ¬ delivery.Due before.scheduler)
    (hhands : HandsOut label new { before with scheduler := s } after) : Settled after := by
  have hlater' : s.Later after.scheduler := hhands.later
  have hstacks : SameStacks s after.scheduler := hhands.sameStacks
  have hdue (delivery : Delivery) : delivery.Due after.scheduler ↔ delivery.Due s :=
    and_congr hstacks.link_iff hstacks.result_iff
  have hclosed' : after.scheduler.Closed := hclosed.later hlater'
    (fun hlink => .inl (hstacks.link_iff.mp hlink))
    (fun hresult => .inl (hstacks.result_iff.mp hresult))
  refine h.of_deliveries (hlater.trans hlater') hclosed' hhands.deliveries_eq honce
    (fun delivery => ?_) ?_
  · rw [hdue, hnew]
  · intro delivery hmem label' origin' hframe'
    rw [hat delivery hmem] at hframe'
    obtain ⟨rfl, rfl⟩ := Moment.frame_unique hframe' (hlater'.knows hframe)
    exact hhands.handed hdistinct delivery hmem

/-- A `push` of a new link makes the results of the frame due over it. -/
theorem push (h : Settled before) (htidy : Tidy before.scheduler)
    (hdistinct : before.scheduler.Distinct) (hkeys : FrameKeys before.scheduler) {label : Label}
    {caller frame : StackId} {origin : Nat} {stem : PrefixId}
    (hstem : before.scheduler.HasPrefix stem)
    (hcarries : (Operation.push label caller origin stem).Carries before frame after) :
    Settled after := by
  obtain ⟨made, linked, isNew, hmake, hlink, hhands⟩ := Operation.carries_push.mp hcarries
  have hmade := (Prod.mk.inj hmake).2
  -- The frame is there, with the links and results that it had.
  obtain ⟨hframe, hlinks, hresults⟩ : made.Knows (.frame frame label origin) ∧
      (∀ id link, made.Knows (.link id link) ↔ before.scheduler.Knows (.link id link)) ∧
      ∀ id result, made.Knows (.result id result) ↔ before.scheduler.Knows (.result id result) := by
    rcases frameFor_cases hmake with ⟨rfl, hkey⟩ | ⟨-, hlearns⟩
    · exact ⟨hkeys hkey, fun _ _ => Iff.rfl, fun _ _ => Iff.rfl⟩
    · simp [hlearns.knows]
  have hlater : before.scheduler.Later made := hmade ▸ (kept_later _).frameFor _ _ (.refl _)
  have hdistinct' : made.Distinct := hmade ▸ kept_distinct.frameFor _ _ hdistinct
  rcases link_cases hframe hlink with ⟨rfl, rfl, -⟩ | ⟨rfl, hnew, hlearns⟩
  · -- A link that is there makes nothing due.
    have hclosed : linked.Closed := h.closed.later hlater
      (fun hlink => .inl ((hlinks _ _).mp hlink)) (fun hresult => .inl ((hresults _ _).mp hresult))
    refine h.of_handsOut hlater hdistinct' hclosed hframe (by simp) List.nodup_nil
      (fun delivery => ?_) hhands
    simp [Delivery.Due, hlinks, hresults]
  · have hlinked := (Prod.mk.inj hlink).2
    have hlater' : before.scheduler.Later linked := hlater.trans hlearns.later
    have hdistinct'' : linked.Distinct := hlinked ▸ kept_distinct.link _ _ hdistinct'
    have htidy' : Tidy linked :=
      hlinked ▸ kept_tidy.link _ _ (hmade ▸ kept_tidy.frameFor _ _ htidy)
    have hclosed : linked.Closed := by
      refine h.closed.later hlater' (fun {id link} hknown => ?_) fun {id result} hknown => ?_
      · rcases (hlearns.knows _).mp hknown with hold | hmem
        · exact .inl ((hlinks _ _).mp hold)
        · cases hmem
          exact .inr (hstem.later hlater')
      · exact .inl (by simpa [hlearns.knows, hresults] using hknown)
    have hnew' : ¬ before.scheduler.Knows (.link frame ⟨caller, stem⟩) :=
      fun hold => hnew ((hlinks _ _).mpr hold)
    have hmem (result : SymbolId) : result ∈ linked.results frame ↔
        before.scheduler.Knows (.result frame result) :=
      (hlearns.knows (.result frame result)).trans (by simp [hresults])
    refine h.of_handsOut hlater' hdistinct'' hclosed (hlearns.later.knows hframe) ?_ ?_ ?_ hhands
    · simp
    · exact (htidy'.results frame).map fun _ _ heq => (Delivery.mk.inj heq).2.2
    · rintro ⟨id, link, result⟩
      simp only [if_true, List.mem_map, Array.mem_toList_iff, hmem, Delivery.mk.injEq,
        Delivery.Due, hlearns.knows, hlinks, hresults, Set.mem_singleton_iff, Fact.link.injEq,
        reduceCtorEq, or_false]
      grind

/-- A `pop` of a new result makes it due over the links of the frame. -/
theorem pop (h : Settled before) (htidy : Tidy before.scheduler)
    (hdistinct : before.scheduler.Distinct) {frame : StackId} {result : SymbolId} {answer : Unit}
    (hresult : before.scheduler.HasSymbol result)
    (hcarries : (Operation.pop frame result).Carries before answer after) : Settled after := by
  rcases Operation.carries_pop.mp hcarries with ⟨-, rfl⟩ |
    ⟨label, origin, links, known, isNew, hstack, hrecord, -, hhands⟩
  · exact h
  · have hknown := (Prod.mk.inj hrecord).2
    have hframe : before.scheduler.Knows (.frame frame label origin) := ⟨links, hstack⟩
    rcases recordResult_cases hrecord with ⟨rfl, rfl, -⟩ | ⟨rfl, hnew, hlearns⟩
    · -- A result that is there makes nothing due.
      exact h.of_handsOut (.refl _) hdistinct h.closed hframe (by simp) List.nodup_nil
        (fun delivery => by simp) hhands
    · have hlater := hlearns.later
      have hdistinct' : known.Distinct := hknown ▸ kept_distinct.recordResult _ _ hdistinct
      have hclosed : known.Closed := by
        refine h.closed.later hlater (fun {id link} hknown => ?_) fun {id result} hknown => ?_
        · exact .inl (by simpa [hlearns.knows] using hknown)
        · rcases (hlearns.knows _).mp hknown with hold | hmem
          · exact .inl hold
          · cases hmem
            exact .inr (hresult.later hlater)
      have hmem (link : Link) : link ∈ links ↔ before.scheduler.Knows (.link frame link) := by
        constructor
        · exact fun hlink => ⟨label, origin, links, hstack, hlink⟩
        · rintro ⟨label', origin', links', hstack', hlink⟩
          cases hstack.symm.trans hstack'
          exact hlink
      refine h.of_handsOut hlater hdistinct' hclosed (hlater.knows hframe) ?_ ?_ ?_ hhands
      · simp
      · exact (htidy.links hstack).map fun _ _ heq => (Delivery.mk.inj heq).2.1
      · rintro ⟨id, link, other⟩
        simp only [if_true, List.mem_map, Array.mem_toList_iff, hmem, Delivery.mk.injEq,
          Delivery.Due, hlearns.knows, Set.mem_singleton_iff, Fact.result.injEq, reduceCtorEq,
          or_false]
        grind

end Settled

/-! ## Every history -/

variable {start : Nonterminal} {opened : Scheduler} {ledger : Ledger}

theorem settled_opened {s : Scheduler} (hclosed : s.Closed)
    (hnone : ∀ frame result, ¬ s.Knows (.result frame result)) : Settled (.opened s) where
  closed := hclosed
  handed _ _ _ hdue := absurd hdue.2 (hnone _ _)
  delivered _ := ⟨fun hmem => absurd hmem List.not_mem_nil, fun hdue => absurd hdue.2 (hnone _ _)⟩
  once := List.nodup_nil

/-- Links last, and with them what they are about; results do not. -/
theorem Settled.advance (h : Settled ledger) (symbol : Option Char) :
    Settled (.opened (ledger.scheduler.advance symbol)) := by
  obtain ⟨root, -, hknows⟩ := knows_advance ledger.scheduler symbol
  have hnone (frame : StackId) (result : SymbolId) :
      ¬ (ledger.scheduler.advance symbol).Knows (.result frame result) := by
    simp [hknows, Fact.Lasts]
  refine settled_opened ⟨fun {frame link} hlink => ?_, fun hresult => absurd hresult (hnone _ _)⟩
    hnone
  have hold : ledger.scheduler.Knows (.link frame link) := by
    simpa [hknows, Fact.Lasts] using hlink
  obtain ⟨node, hnode⟩ := h.closed.stems hold
  obtain ⟨node', hnode', -⟩ :
      (ledger.scheduler.advance symbol).PrefixFrom link.stem node.first := by
    have hfrom : ledger.scheduler.PrefixFrom link.stem node.first := ⟨node, hnode, rfl⟩
    rw [prefixFrom_iff] at hfrom ⊢
    simpa [hknows, Fact.Lasts] using hfrom
  exact ⟨node', hnode'⟩

/-- A request for what is there keeps a ledger settled. -/
theorem Settled.request (h : Settled ledger) (htidy : Tidy ledger.scheduler)
    (hdistinct : ledger.scheduler.Distinct) (hkeys : FrameKeys ledger.scheduler) {α : Type}
    {operation : Operation α} {answer : α} {after : Ledger}
    (hissued : operation.Issued ledger.scheduler)
    (hcarries : operation.Carries ledger answer after) : Settled after := by
  have hlater : ledger.scheduler.Later after.scheduler :=
    (Operation.keeps (kept_later _) operation).of_leads hcarries.leads (.refl _)
  -- All but `push` and `pop` leave the stacks and their results alone, so that nothing becomes due.
  have hothers {act : Act α} (hcarries : (Plan.request (.other act)).Leads Piece.Leads ledger answer
      after) (hact : act.Keeps (SameStacks ledger.scheduler)) : Settled after := by
    obtain ⟨hleads, -, hdeliveries⟩ := (Plan.leads_request _).mp hcarries
    exact h.of_sameStacks hlater (hact.of_leads hleads ⟨rfl, rfl⟩) hdeliveries
  have hkept := keptOffStacks_sameStacks ledger.scheduler
  cases operation with
  | look read => exact hothers hcarries Act.keeps_look
  | note event => exact hothers hcarries Act.keeps_emit
  | emptyPrefix => exact hothers hcarries (Act.keeps_update fun _ => hkept.emptyPrefix)
  | append label left right => exact hothers hcarries hkept.append
  | derive symbol first child => exact hothers hcarries hkept.derive
  | scheduleNow label caller stem => exact hothers hcarries hkept.scheduleNow
  | scheduleLater frame result => exact hothers hcarries hkept.scheduleLater
  | push label caller origin stem => exact h.push htidy hdistinct hkeys hissued.2 hcarries
  | pop frame result => exact h.pop htidy hdistinct hissued.2 hcarries
  | deliver link result label => exact hothers hcarries hkept.deliver

theorem Reached.settled (h : Reached start opened ledger) : Settled ledger := by
  induction h with
  | initial =>
    refine settled_opened ⟨fun hlink => absurd hlink (knows_initial trivial), fun hresult => ?_⟩
      fun frame result hresult => ?_ <;>
      simp [Knows, Moment.Holds, Scheduler.results, Scheduler.initial, Memory.empty] at hresult
  | advance symbol h hopen ih => exact ih.advance symbol
  | request h hissued hcarries ih =>
    exact ih.request (h.law (law_tidy start)) (h.law (law_distinct start))
      (h.law (law_frameKeys start)) hissued hcarries
  | dequeue h hdequeue ih =>
    have hlearns := dequeue_learns hdequeue
    exact ih.of_sameDue hlearns.later (fun {frame link} => by simp [hlearns.knows])
      (fun {frame result} => by simp [hlearns.knows]) rfl

/-- The tasks of a generation are those that were taken out and those that are pending. -/
theorem Reached.tally (h : Reached start opened ledger) :
    ∃ carried, Tally carried ledger.taken ledger.scheduler := by
  induction h with
  | initial => exact ⟨[], .initial start⟩
  | advance symbol h hopen ih =>
    obtain ⟨carried, htally⟩ := ih
    exact ⟨_, htally.advance symbol⟩
  | @request opened before after α operation answer h hissued hcarries ih =>
    obtain ⟨carried, htally⟩ := ih
    have htaken : after.taken = before.taken := hcarries.taken_eq
    rw [htaken]
    exact ⟨carried, (Operation.keeps (Tally.kept carried _) _).of_leads hcarries.leads htally⟩
  | dequeue h hdequeue ih =>
    obtain ⟨carried, htally⟩ := ih
    exact ⟨carried, htally.dequeue hdequeue⟩

/-- A caller that is resumed was or will be resumed by a task. -/
theorem Reached.exists_resume (h : Reached start opened ledger) {label : Label} {caller : StackId}
    (hresumed : (label, caller) ∈ ledger.scheduler.memory.resumed) :
    ∃ stem, .resume label caller stem ∈ ledger.taken ++ ledger.scheduler.pending.toList := by
  obtain ⟨carried, htally⟩ := h.tally
  obtain ⟨task, htask, hkey⟩ := List.mem_filterMap.mp ((htally.resumed _).mp hresumed)
  cases task with
  | resume label' caller' stem =>
    cases hkey
    exact ⟨stem, htask⟩
  | shift frame result => cases hkey

namespace Operation

variable {before after : Ledger} {frame : StackId}

/-- After a `push` the frame is there and has the link. -/
theorem Carries.linked (hkeys : FrameKeys before.scheduler) {label : Label} {caller : StackId}
    {origin : Nat} {stem : PrefixId}
    (hcarries : (Operation.push label caller origin stem).Carries before frame after) :
    ∃ links, after.scheduler.graph.stack? frame = some (.frame label origin links) ∧
      ⟨caller, stem⟩ ∈ links := by
  obtain ⟨made, linked, isNew, hmake, hlink, hhands⟩ := carries_push.mp hcarries
  have hframe : made.Knows (.frame frame label origin) := by
    rcases frameFor_cases hmake with ⟨rfl, hkey⟩ | ⟨-, hlearns⟩
    · exact hkeys hkey
    · exact (hlearns.knows _).mpr (.inr (by simp))
  have hlinked : linked.Knows (.link frame ⟨caller, stem⟩) := by
    rcases link_cases hframe hlink with ⟨-, rfl, hold⟩ | ⟨-, -, hlearns⟩
    · exact hold
    · exact (hlearns.knows _).mpr (.inr rfl)
  have hframe' : after.scheduler.Knows (.frame frame label origin) :=
    hhands.later.knows ((Prod.mk.inj hlink).2 ▸ (kept_later _).link _ _ (.refl _) |>.knows hframe)
  obtain ⟨label', origin', links, hstack, hmem⟩ := hhands.later.knows hlinked
  obtain ⟨links', hstack'⟩ := hframe'
  cases hstack.symm.trans hstack'
  exact ⟨links, hstack, hmem⟩

/-- After a `pop` the frame has the result. -/
theorem Carries.recorded {result : SymbolId} {answer : Unit} {label : Label} {origin : Nat}
    {links : Array Link}
    (hstack : before.scheduler.graph.stack? frame = some (.frame label origin links))
    (hcarries : (Operation.pop frame result).Carries before answer after) :
    result ∈ after.scheduler.results frame := by
  rcases carries_pop.mp hcarries with ⟨hinitial, -⟩ | ⟨_, _, _, known, isNew, -, hrecord, -, hhands⟩
  · cases hstack.symm.trans hinitial
  · have hknown : known.Knows (.result frame result) := by
      rcases recordResult_cases hrecord with ⟨-, rfl, hold⟩ | ⟨-, -, hlearns⟩
      · exact hold
      · exact (hlearns.knows _).mpr (.inr rfl)
    exact hhands.later.knows hknown

end Operation

/-- To push a link of a frame of this generation again changes nothing. -/
theorem Reached.push_again (h : Reached start opened ledger) {frame : StackId} {label : Label}
    {origin : Nat} {links : Array Link} {caller : StackId} {stem : PrefixId}
    (hnew : opened.graph.stack? frame = none)
    (hstack : ledger.scheduler.graph.stack? frame = some (.frame label origin links))
    (hlink : ⟨caller, stem⟩ ∈ links) {answer : StackId} {after : Ledger}
    (hcarries : (Operation.push label caller origin stem).Carries ledger answer after) :
    answer = frame ∧ after = ledger := by
  obtain ⟨made, linked, isNew, hmake, hlinks, hhands⟩ := Operation.carries_push.mp hcarries
  have hkey : ledger.scheduler.Knows (.frameKey label origin frame) :=
    h.framesListed ⟨links, hstack⟩ hnew
  have hlink : ledger.scheduler.Knows (.link frame ⟨caller, stem⟩) :=
    ⟨label, origin, links, hstack, hlink⟩
  rcases frameFor_cases hmake with ⟨rfl, hkey'⟩ | ⟨hnone, -⟩
  · obtain rfl : answer = frame := Option.some.inj (hkey'.symm.trans hkey)
    rcases link_cases ⟨links, hstack⟩ hlinks with ⟨rfl, rfl, -⟩ | ⟨-, hnone, -⟩
    · exact ⟨rfl, handsOut_nil.mp hhands⟩
    · exact absurd hlink hnone
  · exact absurd hkey (hnone frame)

/-- To pop a result of a frame again changes nothing. -/
theorem pop_again {frame : StackId} {result : SymbolId}
    (hresult : result ∈ ledger.scheduler.results frame) {answer : Unit} {after : Ledger}
    (hcarries : (Operation.pop frame result).Carries ledger answer after) : after = ledger := by
  rcases Operation.carries_pop.mp hcarries with ⟨-, hsame⟩ |
    ⟨_, _, _, known, isNew, -, hrecord, -, hhands⟩
  · exact hsame
  · rcases recordResult_cases hrecord with ⟨rfl, rfl, -⟩ | ⟨-, hnone, -⟩
    · exact handsOut_nil.mp hhands
    · exact absurd hresult hnone

/-- Whatever requests were made, in whatever order: every result of every frame of the generation
has extended the prefix of every link of the frame, and its caller is resumed with that; `push` and
`pop` delivered each of these pairs once and no others, and to push or pop again what is there
delivers nothing. What is pushed is there afterwards, so is what is popped, and every request for
what is there is answered. -/
theorem Reached.no_result_lost (h : Reached start opened ledger) :
    (∀ frame label origin links link result,
      ledger.scheduler.graph.stack? frame = some (.frame label origin links) → link ∈ links →
      result ∈ ledger.scheduler.results frame →
        (∃ stem node cons children,
          ledger.scheduler.forest.prefixNode? link.stem = some stem ∧
          ledger.scheduler.forest.symbolNode? result = some node ∧
          ledger.scheduler.memory.conses[(label, stem.first)]? = some cons ∧
          ledger.scheduler.forest.prefixNode? cons
            = some (.cons label stem.first ledger.scheduler.current children) ∧
          ⟨label, node.first, link.stem, result⟩ ∈ children) ∧
        (label, link.caller) ∈ ledger.scheduler.memory.resumed ∧
        ∃ stem, .resume label link.caller stem
          ∈ ledger.taken ++ ledger.scheduler.pending.toList) ∧
    ledger.deliveries.Nodup ∧
    (∀ delivery, delivery ∈ ledger.deliveries ↔ ∃ label origin links,
      ledger.scheduler.graph.stack? delivery.frame = some (.frame label origin links) ∧
      delivery.link ∈ links ∧ delivery.result ∈ ledger.scheduler.results delivery.frame) ∧
    (∀ frame label origin links caller stem answer after, opened.graph.stack? frame = none →
      ledger.scheduler.graph.stack? frame = some (.frame label origin links) →
      ⟨caller, stem⟩ ∈ links →
      (Operation.push label caller origin stem).Carries ledger answer after →
        answer = frame ∧ after = ledger) ∧
    (∀ frame result answer after, result ∈ ledger.scheduler.results frame →
      (Operation.pop frame result).Carries ledger answer after → after = ledger) ∧
    (∀ label caller origin stem frame after,
      (Operation.push label caller origin stem).Carries ledger frame after →
        ∃ links, after.scheduler.graph.stack? frame = some (.frame label origin links) ∧
          ⟨caller, stem⟩ ∈ links) ∧
    (∀ frame label origin links result answer after,
      ledger.scheduler.graph.stack? frame = some (.frame label origin links) →
      (Operation.pop frame result).Carries ledger answer after →
        result ∈ after.scheduler.results frame) ∧
    (∀ (α : Type) (operation : Operation α), operation.Issued ledger.scheduler →
      ∃ answer after, operation.Carries ledger answer after) := by
  have hsettled := h.settled
  refine ⟨?_, hsettled.once, ?_, ?_, ?_, ?_, ?_, ?_⟩
  · intro frame label origin links link result hstack hlink hresult
    obtain ⟨first, split, cons, ⟨stem, hstem, rfl⟩, ⟨node, hnode, rfl⟩, hkey, ⟨children, hcons⟩,
      hsplit, hresumed⟩ : ledger.scheduler.Handed label link result :=
      hsettled.handed ⟨frame, link, result⟩
        ⟨⟨label, origin, links, hstack, hlink⟩, hresult⟩ ⟨links, hstack⟩
    obtain ⟨_, _, _, children', hcons', hmem⟩ := hsplit
    cases hcons.symm.trans hcons'
    exact ⟨⟨stem, node, cons, children, hstem, hnode, hkey, hcons, hmem⟩, hresumed,
      h.exists_resume hresumed⟩
  · intro delivery
    rw [hsettled.delivered]
    constructor
    · rintro ⟨⟨label, origin, links, hstack, hlink⟩, hresult⟩
      exact ⟨label, origin, links, hstack, hlink, hresult⟩
    · rintro ⟨label, origin, links, hstack, hlink, hresult⟩
      exact ⟨⟨label, origin, links, hstack, hlink⟩, hresult⟩
  · intro frame label origin links caller stem answer after hnew hstack hlink hcarries
    exact h.push_again hnew hstack hlink hcarries
  · intro frame result answer after hresult hcarries
    exact pop_again hresult hcarries
  · intro label caller origin stem frame after hcarries
    exact hcarries.linked (h.law (law_frameKeys start))
  · intro frame label origin links result answer after hstack hcarries
    exact hcarries.recorded hstack
  · intro α operation hissued
    exact Operation.exists_answer hsettled.closed hissued

/-! ## A history -/

theorem Scheduler.graph_advance (s : Scheduler) (symbol : Option Char) :
    (s.advance symbol).graph = s.graph := by
  cases symbol <;> simp only [advance, anchorRoot, derivationFor] <;> split <;> rfl

/-- The empty prefix is there once it was asked for. -/
theorem Operation.Carries.hasPrefix {before after : Ledger} {id : PrefixId}
    (hcarries : Operation.emptyPrefix.Carries before id after)
    (hdistinct : after.scheduler.Distinct) : after.scheduler.HasPrefix id := by
  have hmake := (Act.leads_update.mp hcarries.leads).1
  have hkey : after.scheduler.Knows (.emptyKey id) := by
    rcases emptyPrefix_cases hmake with ⟨hsame, hkey⟩ | ⟨-, hlearns⟩
    · rw [hsame]
      exact hkey
    · exact (hlearns.knows _).mpr (.inr (by simp))
  exact ⟨_, (hdistinct.listed (.empty _) id.index rfl).mpr hkey⟩

/-- After a first symbol, a caller is pushed under a frame, and the frame is given the root. -/
theorem exists_reached : ∃ ledger frame stem root links,
    Reached ⟨0⟩ ((Scheduler.initial ⟨0⟩).advance (some 'x')) ledger ∧
      ledger.scheduler.nextIndex = 1 ∧ ledger.scheduler.root = some root ∧
      ((Scheduler.initial ⟨0⟩).advance (some 'x')).graph.stack? frame = none ∧
      ledger.scheduler.graph.stack? frame = some (.frame ⟨1⟩ 0 links) ∧
      ⟨.initial, stem⟩ ∈ links ∧ root ∈ ledger.scheduler.results frame := by
  have hopened : Reached ⟨0⟩ ((Scheduler.initial ⟨0⟩).advance (some 'x'))
      (.opened ((Scheduler.initial ⟨0⟩).advance (some 'x'))) := .advance (some 'x') .initial rfl
  -- An empty prefix is asked for, and pushed for the initial stack.
  have hask : Operation.emptyPrefix.Issued ((Scheduler.initial ⟨0⟩).advance (some 'x')) := trivial
  obtain ⟨stem, asked, hasked⟩ := Operation.exists_answer hopened.settled.closed hask
  have hreached₁ := hopened.request hask hasked
  have hstem := hasked.hasPrefix (hreached₁.law (law_distinct _))
  have hpush : (Operation.push ⟨1⟩ .initial 0 stem).Issued asked.scheduler :=
    ⟨⟨_, (hreached₁.law (law_tidy _)).bottom⟩, hstem⟩
  obtain ⟨frame, pushed, hpushed⟩ := Operation.exists_answer hreached₁.settled.closed hpush
  have hreached₂ := hreached₁.request hpush hpushed
  obtain ⟨links, hframe, hlink⟩ := hpushed.linked (hreached₁.law (law_frameKeys _))
  -- The root is there, and popped for the frame.
  have hlater₁ := (Operation.keeps (kept_later _) _).of_leads hasked.leads (.refl _)
  have hlater₂ :=
    hlater₁.trans ((Operation.keeps (kept_later _) _).of_leads hpushed.leads (.refl _))
  have hnext : pushed.scheduler.nextIndex = 1 :=
    (congrArg Control.nextIndex hlater₂.control).trans (nextIndex_advance _ _)
  obtain ⟨first, root, -, -, hroot, hkey⟩ :=
    (hreached₂.law (law_rooted _)).root (hnext ▸ Nat.one_pos)
  obtain ⟨alternatives, hnode⟩ :=
    ((hreached₂.law (law_distinct _)).listed (.derivation _ first _) root.index rfl).mpr hkey
  have hpop : (Operation.pop frame root).Issued pushed.scheduler := ⟨⟨_, hframe⟩, _, hnode⟩
  obtain ⟨⟨⟩, popped, hpopped⟩ := Operation.exists_answer hreached₂.settled.closed hpop
  have hlater₃ := (Operation.keeps (kept_later _) _).of_leads hpopped.leads (.refl _)
  have hlink₂ : pushed.scheduler.Knows (.link frame ⟨.initial, stem⟩) :=
    ⟨_, _, links, hframe, hlink⟩
  have hframe₂ : pushed.scheduler.Knows (.frame frame ⟨1⟩ 0) := ⟨links, hframe⟩
  obtain ⟨label, origin, links', hstack, hlink'⟩ := hlater₃.knows hlink₂
  obtain ⟨links'', hstack'⟩ := hlater₃.knows hframe₂
  cases hstack.symm.trans hstack'
  -- Only the initial stack was there before.
  have hnew : ((Scheduler.initial ⟨0⟩).advance (some 'x')).graph.stack? frame = none := by
    rw [graph_advance]
    obtain ⟨_ | i⟩ := frame
    · cases hframe.symm.trans (hreached₂.law (law_tidy _)).bottom
    · rfl
  exact ⟨popped, frame, stem, root, links', hreached₂.request hpop hpopped,
    (congrArg Control.nextIndex hlater₃.control).trans hnext,
    (congrArg Control.root hlater₃.control).trans hroot, hnew, hstack, hlink',
    hpopped.recorded hframe⟩

/-- That root is delivered over the link of the caller, and to push or pop again changes nothing. -/
theorem no_result_lost_root : ∃ ledger frame stem root links,
    Reached ⟨0⟩ ((Scheduler.initial ⟨0⟩).advance (some 'x')) ledger ∧
      ledger.scheduler.graph.stack? frame = some (.frame ⟨1⟩ 0 links) ∧
      ⟨.initial, stem⟩ ∈ links ∧ root ∈ ledger.scheduler.results frame ∧
      (⟨1⟩, .initial) ∈ ledger.scheduler.memory.resumed ∧
      ⟨frame, ⟨.initial, stem⟩, root⟩ ∈ ledger.deliveries ∧
      (∀ answer after, (Operation.push ⟨1⟩ .initial 0 stem).Carries ledger answer after →
        answer = frame ∧ after = ledger) ∧
      ∀ answer after, (Operation.pop frame root).Carries ledger answer after → after = ledger := by
  obtain ⟨ledger, frame, stem, root, links, h, -, -, hnew, hstack, hlink, hresult⟩ := exists_reached
  obtain ⟨hhanded, -, hdelivered, hpush, hpop, -⟩ := h.no_result_lost
  exact ⟨ledger, frame, stem, root, links, h, hstack, hlink, hresult,
    (hhanded _ _ _ _ _ _ hstack hlink hresult).2.1,
    (hdelivered _).mpr ⟨_, _, links, hstack, hlink, hresult⟩,
    fun answer after hcarries => hpush _ _ _ _ _ _ _ _ hnew hstack hlink hcarries,
    fun answer after hcarries => hpop _ _ _ _ hresult hcarries⟩

end Gll
