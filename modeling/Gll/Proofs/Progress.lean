import Gll.Proofs.Handing

/-!
Requests are answered.

A request breaks off only if something it is about is not there. `push` and `pop` are about more
than their own handles, for they deliver over links and deliver results that were given earlier; if
those are there (`Scheduler.Closed`), every request for handles that are there is answered.
-/

set_option autoImplicit false

namespace Gll

namespace Scheduler

/-- What links and results are about is there. -/
structure Closed (s : Scheduler) : Prop where
  stems {frame : StackId} {link : Link} : s.Knows (.link frame link) → s.HasPrefix link.stem
  results {frame : StackId} {result : SymbolId} :
    s.Knows (.result frame result) → s.HasSymbol result

variable {before : Moment}

/-- An offer is answered, whether the task is taken or was there before. -/
theorem exists_offer (task : Task) (event : Event) (before : Moment) :
    ∃ isNew after, Act.Leads (do
      let isNew ← Act.offer task
      if isNew then return true
      Act.emit event
      return false) before isNew after := by
  let after : Moment := ⟨(offer task before.scheduler).2, before.offers ++ [task]⟩
  have hoffer : (Act.offer task).Leads before (offer task before.scheduler).1 after :=
    Act.leads_offer.mpr ⟨rfl, rfl⟩
  refine ⟨(offer task before.scheduler).1, after, Act.leads_bind.mpr ⟨_, after, hoffer, ?_⟩⟩
  cases (offer task before.scheduler).1 with
  | true => exact ⟨rfl, rfl⟩
  | false => exact Act.leads_bind.mpr ⟨(), after, Act.leads_emit.mpr rfl, rfl, rfl⟩

theorem exists_scheduleNow (label : Label) (caller : StackId) (stem : PrefixId) (before : Moment) :
    ∃ isNew after, (scheduleNow label caller stem).Leads before isNew after :=
  exists_offer _ _ before

theorem exists_scheduleLater (frame : StackId) (result : SymbolId) (before : Moment) :
    ∃ isNew after, (scheduleLater frame result).Leads before isNew after :=
  exists_offer _ _ before

theorem exists_append (label : Label) {left : PrefixId} {right : SymbolId}
    (hleft : before.scheduler.HasPrefix left) (hright : before.scheduler.HasSymbol right) :
    ∃ id after, (append label left right).Leads before id after := by
  obtain ⟨stem, hstem⟩ := hleft
  obtain ⟨symbol, hsymbol⟩ :=
    hright.later ((kept_later before.scheduler).consFor label stem.first (.refl _))
  exact ⟨_, _, leads_append.mpr ⟨stem, symbol, _, hstem, rfl, hsymbol, rfl⟩⟩

theorem exists_derive (symbol : Nonterminal) (first : Position) (child : PrefixId)
    (before : Moment) : ∃ id after, (derive symbol first child).Leads before id after :=
  ⟨_, _, leads_derive.mpr ⟨_, rfl, rfl⟩⟩

theorem exists_deliver (label : Label) {link : Link} {result : SymbolId}
    (hstem : before.scheduler.HasPrefix link.stem) (hresult : before.scheduler.HasSymbol result) :
    ∃ after, (deliver link result label).Leads before () after := by
  obtain ⟨stem, between, happend⟩ := exists_append label hstem hresult
  obtain ⟨isNew, after, hschedule⟩ := exists_scheduleNow label link.caller stem between
  exact ⟨after, leads_deliver.mpr ⟨stem, between, isNew, happend, hschedule⟩⟩

end Scheduler

open Scheduler

/-- Deliveries of results that are there over links that are there are handed out to the last. -/
theorem exists_handsOut {label : Label} {deliveries : List Delivery} {before : Ledger}
    (hthere : ∀ delivery ∈ deliveries, before.scheduler.HasPrefix delivery.link.stem ∧
      before.scheduler.HasSymbol delivery.result) :
    ∃ after, HandsOut label deliveries before after := by
  induction deliveries generalizing before with
  | nil => exact ⟨before, .nil⟩
  | cons delivery rest ih =>
    obtain ⟨hstem, hresult⟩ := hthere delivery List.mem_cons_self
    obtain ⟨m, hdeliver⟩ := exists_deliver label hstem hresult
    have hlater : before.scheduler.Later m.scheduler :=
      (kept_later _).deliver.of_leads hdeliver (.refl _)
    let between : Ledger := ⟨m, before.taken, before.deliveries ++ [delivery]⟩
    have hfirst : (Piece.deliver delivery label).Leads before () between := ⟨hdeliver, rfl, rfl⟩
    have hthere' : ∀ other ∈ rest, between.scheduler.HasPrefix other.link.stem ∧
        between.scheduler.HasSymbol other.result := fun other hmem =>
      (hthere other (List.mem_cons_of_mem _ hmem)).imp (·.later hlater) (·.later hlater)
    obtain ⟨after, hrest⟩ := ih hthere'
    exact ⟨after, .cons hfirst hrest⟩

namespace Scheduler

theorem results_frameFor (label : Label) (origin : Nat) (s : Scheduler) :
    (s.frameFor label origin).2.results = s.results := by
  rw [frameFor]
  split <;> rfl

theorem results_link (frame : StackId) (link : Link) (s : Scheduler) :
    (Scheduler.link frame link s).2.results = s.results := by
  rw [Scheduler.link]
  split <;> rfl

end Scheduler

namespace Operation

variable {before : Ledger}

theorem exists_carries_push (label : Label) (caller : StackId) (origin : Nat) {stem : PrefixId}
    (hclosed : before.scheduler.Closed) (hstem : before.scheduler.HasPrefix stem) :
    ∃ frame after, (Operation.push label caller origin stem).Carries before frame after := by
  obtain ⟨frame, made, hframe⟩ : ∃ frame made, before.scheduler.frameFor label origin
      = (frame, made) := ⟨_, _, rfl⟩
  obtain ⟨isNew, linked, hlink⟩ : ∃ isNew linked, Scheduler.link frame ⟨caller, stem⟩ made
      = (isNew, linked) := ⟨_, _, rfl⟩
  have hmade : made = (before.scheduler.frameFor label origin).2 := (congrArg Prod.snd hframe).symm
  have hlinked : linked = (Scheduler.link frame ⟨caller, stem⟩ made).2 :=
    (congrArg Prod.snd hlink).symm
  have hlater : before.scheduler.Later linked := by
    have hlater : before.scheduler.Later made := hmade ▸ (kept_later _).frameFor _ _ (.refl _)
    exact hlinked ▸ (kept_later _).link _ _ hlater
  have hresults : linked.results = before.scheduler.results := by
    rw [hlinked, results_link, hmade, results_frameFor]
  obtain ⟨after, hhands⟩ : ∃ after, HandsOut label
      (if isNew then (linked.results frame).toList.map fun result =>
        ⟨frame, ⟨caller, stem⟩, result⟩ else [])
      { before with scheduler := linked } after := by
    refine exists_handsOut fun delivery hmem => ?_
    cases isNew with
    | false => exact absurd hmem List.not_mem_nil
    | true =>
      obtain ⟨result, hresult, rfl⟩ := List.mem_map.mp hmem
      rw [hresults, Array.mem_toList_iff] at hresult
      exact ⟨hstem.later hlater, (hclosed.results hresult).later hlater⟩
  exact ⟨frame, after, carries_push.mpr ⟨made, linked, isNew, hframe, hlink, hhands⟩⟩

theorem exists_carries_pop {frame : StackId} {result : SymbolId}
    (hclosed : before.scheduler.Closed) (hframe : before.scheduler.HasStack frame)
    (hresult : before.scheduler.HasSymbol result) :
    ∃ after, (Operation.pop frame result).Carries before () after := by
  obtain ⟨stack, hstack⟩ := hframe
  cases stack with
  | initial => exact ⟨before, carries_pop.mpr (.inl ⟨hstack, rfl⟩)⟩
  | frame label origin links =>
    obtain ⟨isNew, known, hrecord⟩ : ∃ isNew known, before.scheduler.recordResult frame result
        = (isNew, known) := ⟨_, _, rfl⟩
    have hknown : known = (before.scheduler.recordResult frame result).2 :=
      (congrArg Prod.snd hrecord).symm
    have hlater : before.scheduler.Later known :=
      hknown ▸ (kept_later _).recordResult _ _ (.refl _)
    obtain ⟨after, hhands⟩ : ∃ after, HandsOut label
        (if isNew then links.toList.map fun link => ⟨frame, link, result⟩ else [])
        { before with scheduler := known } after := by
      refine exists_handsOut fun delivery hmem => ?_
      cases isNew with
      | false => exact absurd hmem List.not_mem_nil
      | true =>
        obtain ⟨link, hlink, rfl⟩ := List.mem_map.mp hmem
        have hknown : before.scheduler.Knows (.link frame link) :=
          ⟨label, origin, links, hstack, Array.mem_toList_iff.mp hlink⟩
        exact ⟨(hclosed.stems hknown).later hlater, hresult.later hlater⟩
    exact ⟨after, carries_pop.mpr
      (.inr ⟨label, origin, links, known, isNew, hstack, hrecord, hresult.later hlater, hhands⟩)⟩

/-- A request for what is there is answered. -/
theorem exists_answer {α : Type} {operation : Operation α} (hclosed : before.scheduler.Closed)
    (hissued : operation.Issued before.scheduler) :
    ∃ answer after, operation.Carries before answer after := by
  have hlift {operation : Operation α} {answer : α} {m : Moment}
      (h : operation.Leads before.toMoment answer m) :
      ∃ answer after, operation.Carries before answer after := by
    obtain ⟨after, -, hcarries⟩ := exists_carries h
    exact ⟨answer, after, hcarries⟩
  -- A request is answered if what it refers to is there, and notes and the empty prefix refer to
  -- nothing.
  cases operation with
  | look read =>
    obtain ⟨answer, hread⟩ := hissued
    exact hlift (Act.leads_look.mpr ⟨hread, rfl⟩)
  | note event =>
    have hemit : (Act.emit event).Leads before.toMoment () before.toMoment := Act.leads_emit.mpr rfl
    exact hlift hemit
  | emptyPrefix => exact hlift (m := ⟨_, before.offers⟩) (Act.leads_update.mpr ⟨rfl, rfl⟩)
  | append label left right =>
    obtain ⟨id, m, hleads⟩ := exists_append label hissued.1 hissued.2
    exact hlift hleads
  | derive symbol first child =>
    obtain ⟨id, m, hleads⟩ := exists_derive symbol first child before.toMoment
    exact hlift hleads
  | scheduleNow label caller stem =>
    obtain ⟨isNew, m, hleads⟩ := exists_scheduleNow label caller stem before.toMoment
    exact hlift hleads
  | scheduleLater frame result =>
    obtain ⟨isNew, m, hleads⟩ := exists_scheduleLater frame result before.toMoment
    exact hlift hleads
  | push label caller origin stem => exact exists_carries_push label caller origin hclosed hissued.2
  | pop frame result =>
    obtain ⟨after, hcarries⟩ := exists_carries_pop hclosed hissued.1 hissued.2
    exact ⟨(), after, hcarries⟩
  | deliver link result label =>
    obtain ⟨m, hleads⟩ := exists_deliver label hissued.2.1 hissued.2.2
    exact hlift hleads

end Operation

end Gll
