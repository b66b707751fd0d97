import Gll.Proofs.Calls
import Gll.Proofs.Founded
import Gll.Proofs.Handing

/-!
Everything in a parse rests on what was there before.

A symbol becomes a result of a frame only after a right-hand side was packed under it, and a prefix
is made only for such a result; so what was packed first under a node was there before any other
node needed it. A frame is made for a caller, so it has one. `Scheduler.Grounded` says this between
two requests. It is kept by every request about symbols that have a derivation
(`Operation.grounded`), hence by every task of a compiled grammar (`Session.Reaches.grounded`).

In the middle of a request it does not hold, a node is made first and packed then; so requests are
gone through as a whole here, and not by their elementary changes.
-/

set_option autoImplicit false

namespace Gll

namespace Scheduler

/-- Everything in the forest rests on what was there before it, every frame has a caller, and every
result has a derivation. -/
structure Grounded (s : Scheduler) : Prop where
  forest : s.forest.Grounded s.start s.first
  links ⦃id : StackId⦄ ⦃label : Label⦄ ⦃origin : Nat⦄ ⦃links : Array Link⦄ :
    s.graph.stack? id = some (.frame label origin links) → links ≠ #[]
  results ⦃frame : StackId⦄ ⦃symbol : SymbolId⦄ :
    symbol ∈ s.results frame → s.forest.IsFounded symbol

theorem kept_extends (forest : Forest) : Kept fun s => forest.Extends s.forest :=
  .of_forest (fun h hforest _ => hforest ▸ h) (fun _ h => h.trans (.addPrefix _ _))
    (fun _ _ h => h.trans (.addSymbol _ _)) (fun _ _ h => h.trans (.packSplit _ _ _))
    fun _ _ h => h.trans (.packAlternative _ _ _)

namespace Grounded

variable {s s' : Scheduler} {before after : Moment}

/-- Changes of the forest alone. -/
theorem of_forest (h : s.Grounded) (hforest : s'.forest.Grounded s.start s.first)
    (hextends : s.forest.Extends s'.forest) (hstart : s'.start = s.start)
    (hfirst : s'.first = s.first) (hgraph : s'.graph = s.graph)
    (hresults : s'.memory.results = s.memory.results) : s'.Grounded := by
  refine ⟨?_, ?_, ?_⟩
  · rw [hstart, hfirst]
    exact hforest
  · rw [hgraph]
    exact h.links
  · intro frame symbol hmem
    rw [Scheduler.results, hresults] at hmem
    exact hextends.isFounded (h.results hmem)

theorem emptyPrefix (h : s.Grounded) : s.emptyPrefix.2.Grounded := by
  rw [Scheduler.emptyPrefix]
  split
  · exact h
  · exact h.of_forest (h.forest.addEmpty _) (.addPrefix _ _) rfl rfl rfl rfl

theorem offer (h : s.Grounded) (task : Task) : (s.offer task).2.Grounded := by
  obtain ⟨_, _, _, _, heq⟩ := s.exists_offer_eq task
  rw [heq]
  exact ⟨h.forest, h.links, h.results⟩

/-- Extending a prefix by a symbol that has a derivation. -/
theorem append (h : before.scheduler.Grounded) {label : Label} {left id : PrefixId}
    {right : SymbolId} (hright : before.scheduler.forest.IsFounded right)
    (hleads : (Scheduler.append label left right).Leads before id after) :
    after.scheduler.Grounded := by
  obtain ⟨stem, symbol, made, hstem, hcons, -, rfl⟩ := leads_append.mp hleads
  have hleft := Forest.prefixNode?_lt hstem
  unfold consFor at hcons
  split at hcons
  · obtain ⟨rfl, rfl⟩ := Prod.mk.inj hcons
    exact h.of_forest (h.forest.packSplit _ _) (.packSplit _ _ _) rfl rfl rfl rfl
  · -- The prefix is new, and both parts of it were there.
    obtain ⟨rfl, rfl⟩ := Prod.mk.inj hcons
    exact h.of_forest (h.forest.packSplit_addPrefix hleft hright)
      ((Forest.Extends.addPrefix _ _).trans (.packSplit _ _ _)) rfl rfl rfl rfl

/-- Packing a right-hand side that is there. -/
theorem derive (h : before.scheduler.Grounded) {symbol : Nonterminal} {first : Position}
    {child : PrefixId} {id : SymbolId}
    (hchild : child.index < before.scheduler.forest.prefixes.size)
    (hleads : (Scheduler.derive symbol first child).Leads before id after) :
    after.scheduler.Grounded := by
  obtain ⟨made, hderivation, rfl⟩ := leads_derive.mp hleads
  unfold derivationFor at hderivation
  split at hderivation
  · obtain ⟨rfl, rfl⟩ := Prod.mk.inj hderivation
    exact h.of_forest (h.forest.packAlternative _ hchild) (.packAlternative _ _ _) rfl rfl rfl rfl
  · obtain ⟨rfl, rfl⟩ := Prod.mk.inj hderivation
    exact h.of_forest (h.forest.packAlternative_addSymbol hchild)
      ((Forest.Extends.addSymbol _ _).trans (.packAlternative _ _ _)) rfl rfl rfl rfl

theorem scheduleNow (h : before.scheduler.Grounded) {label : Label} {caller : StackId}
    {stem : PrefixId} {isNew : Bool}
    (hleads : (Scheduler.scheduleNow label caller stem).Leads before isNew after) :
    after.scheduler.Grounded := by
  obtain ⟨taken, hoffer, -⟩ := Moment.offer_of_leads hleads
  have hafter := h.offer (.resume label caller stem)
  rw [hoffer] at hafter
  exact hafter

theorem scheduleLater (h : before.scheduler.Grounded) {frame : StackId} {result : SymbolId}
    {isNew : Bool} (hleads : (Scheduler.scheduleLater frame result).Leads before isNew after) :
    after.scheduler.Grounded := by
  obtain ⟨taken, hoffer, -⟩ := Moment.offer_of_leads hleads
  have hafter := h.offer (.shift frame result)
  rw [hoffer] at hafter
  exact hafter

theorem deliver (h : before.scheduler.Grounded) {link : Link} {result : SymbolId} {label : Label}
    {answer : Unit} (hresult : before.scheduler.forest.IsFounded result)
    (hleads : (Scheduler.deliver link result label).Leads before answer after) :
    after.scheduler.Grounded := by
  obtain ⟨id, between, isNew, happend, hschedule⟩ := leads_deliver.mp hleads
  exact (h.append hresult happend).scheduleNow hschedule

theorem handsOut {before after : Ledger} {label : Label} {deliveries : List Delivery}
    (hhands : HandsOut label deliveries before after) (h : before.scheduler.Grounded)
    (hresults : ∀ delivery ∈ deliveries, before.scheduler.forest.IsFounded delivery.result) :
    after.scheduler.Grounded := by
  induction hhands with
  | nil => exact h
  | @cons delivery rest before between after hfirst hrest ih =>
    have hextends : before.scheduler.forest.Extends between.scheduler.forest :=
      (kept_extends _).deliver.of_leads hfirst.1 (.refl _)
    refine ih (h.deliver (hresults delivery List.mem_cons_self) hfirst.1) fun other hother => ?_
    exact hextends.isFounded (hresults other (List.mem_cons_of_mem _ hother))

/-- A frame that is made has no links yet; the frames before have some. -/
theorem frameFor (h : s.Grounded) {label : Label} {origin : Nat} {frame : StackId}
    {made : Scheduler} (hframe : s.frameFor label origin = (frame, made)) :
    made.forest = s.forest ∧ made.start = s.start ∧ made.first = s.first ∧
      made.memory.results = s.memory.results ∧
      ∀ ⦃id label origin links⦄, made.graph.stack? id = some (.frame label origin links) →
        links ≠ #[] ∨ id = frame ∧ links = #[] := by
  unfold Scheduler.frameFor at hframe
  split at hframe
  · obtain ⟨-, rfl⟩ := Prod.mk.inj hframe
    exact ⟨rfl, rfl, rfl, rfl, fun _ _ _ _ hstack => .inl (h.links hstack)⟩
  · obtain ⟨rfl, rfl⟩ := Prod.mk.inj hframe
    refine ⟨rfl, rfl, rfl, rfl, fun id label origin links hstack => ?_⟩
    rcases StackGraph.stack?_addFrame.mp hstack with hold | ⟨hid, hnew⟩
    · exact .inl (h.links hold)
    · cases hnew
      exact .inr ⟨hid, rfl⟩

/-- A frame is made for the caller that is linked to it. -/
theorem link (h : s.Grounded) {label : Label} {origin : Nat} {frame : StackId} (link : Link)
    {made : Scheduler} (hframe : s.frameFor label origin = (frame, made)) :
    (Scheduler.link frame link made).2.Grounded := by
  obtain ⟨hforest, hstart, hfirst, hresults, hlinks⟩ := h.frameFor hframe
  have hresults' : ∀ ⦃frame symbol⦄, symbol ∈ made.results frame →
      made.forest.IsFounded symbol := by
    intro frame symbol hmem
    rw [Scheduler.results, hresults] at hmem
    rw [hforest]
    exact h.results hmem
  have hforest' : made.forest.Grounded made.start made.first := by
    rw [hforest, hstart, hfirst]
    exact h.forest
  rw [Scheduler.link]
  split
  · refine ⟨hforest', fun id label origin links hstack => ?_, hresults'⟩
    rw [StackGraph.stack?_addLink] at hstack
    split at hstack
    · -- The frame has the new link at least.
      obtain ⟨old, -, hlink⟩ := Option.map_eq_some_iff.mp hstack
      cases old with
      | initial => cases hlink
      | frame label' origin' links' =>
        cases hlink
        have hmem : link ∈ (insertNew links' link).2 := mem_insertNew.mpr (.inr rfl)
        exact fun hempty => Array.not_mem_empty link (hempty ▸ hmem)
    · rename_i hne
      exact (hlinks hstack).resolve_right fun hnew => hne hnew.1.symm
  · rename_i hold
    refine ⟨hforest', fun id label origin links hstack => ?_, hresults'⟩
    rcases hlinks hstack with hlinked | ⟨rfl, rfl⟩
    · exact hlinked
    · -- To a frame without links any link is new.
      rw [StackGraph.isNewLink, hstack] at hold
      simp at hold

theorem recordResult (h : s.Grounded) (frame : StackId) {result : SymbolId}
    (hresult : s.forest.IsFounded result) : (s.recordResult frame result).2.Grounded := by
  simp only [Scheduler.recordResult]
  split
  · exact h
  · refine ⟨h.forest, h.links, fun other symbol hmem => ?_⟩
    simp only [Scheduler.results, Std.HashMap.getElem?_insert] at hmem
    split at hmem
    · rcases Array.mem_push.mp hmem with hold | rfl
      · exact h.results hold
      · exact hresult
    · exact h.results hmem

theorem push (h : before.scheduler.Grounded) {label : Label} {caller frame : StackId}
    {origin : Nat} {stem : PrefixId}
    (hleads : (Scheduler.push label caller origin stem).Leads before frame after) :
    after.scheduler.Grounded := by
  have hpush : (Operation.push label caller origin stem).Leads before frame after := hleads
  obtain ⟨last, rfl, hcarries⟩ := Operation.exists_ledger hpush
  obtain ⟨made, linked, isNew, hframe, hlink, hhands⟩ := Operation.carries_push.mp hcarries
  have hlinked := h.link ⟨caller, stem⟩ hframe
  rw [hlink] at hlinked
  refine handsOut hhands hlinked ?_
  intro delivery hmem
  split at hmem
  · obtain ⟨result, hresult, rfl⟩ := List.mem_map.mp hmem
    exact hlinked.results (Array.mem_toList_iff.mp hresult)
  · exact absurd hmem List.not_mem_nil

theorem pop (h : before.scheduler.Grounded) {frame : StackId} {result : SymbolId} {answer : Unit}
    (hresult : before.scheduler.forest.IsFounded result)
    (hleads : (Scheduler.pop frame result).Leads before answer after) :
    after.scheduler.Grounded := by
  have hpop : (Operation.pop frame result).Leads before answer after := hleads
  obtain ⟨last, rfl, hcarries⟩ := Operation.exists_ledger hpop
  rcases Operation.carries_pop.mp hcarries with ⟨-, hsame⟩ |
    ⟨label, origin, links, known, isNew, -, hrecord, -, hhands⟩
  · rw [hsame]
    exact h
  · have hknown := h.recordResult frame hresult
    rw [hrecord] at hknown
    have hextends : before.scheduler.forest.Extends known.forest := by
      have hkept := (kept_extends before.scheduler.forest).recordResult frame result (.refl _)
      rw [hrecord] at hkept
      exact hkept
    refine handsOut hhands hknown ?_
    intro delivery hmem
    split at hmem
    · obtain ⟨link, -, rfl⟩ := List.mem_map.mp hmem
      exact hextends.isFounded hresult
    · exact absurd hmem List.not_mem_nil

/-- Opening a generation makes the root in advance. -/
theorem advance (h : s.Grounded) (symbol : Option Char) : (s.advance symbol).Grounded := by
  -- To open a generation is to move on, then to read the symbol, then to make the root; each of the
  -- three is looked at by itself.
  have hmoved (isLast : Bool) : (s.moveTo (s.nextPosition symbol) isLast).Grounded := by
    refine ⟨⟨h.forest.stems, fun id name first last alternatives hnode => ?_⟩, h.links, ?_⟩
    · rcases h.forest.symbols id hnode with hfounded | ⟨hstart, hfirst, hnone⟩
      · exact .inl hfounded
      · exact .inr ⟨hstart, by rw [moveTo, hfirst, Option.getD_some], hnone⟩
    · intro frame symbol hmem
      simp [Scheduler.results, moveTo, Memory.empty] at hmem
  have hread {s : Scheduler} (h : s.Grounded) : s.readSymbol.Grounded := by
    refine h.of_forest (h.forest.addSymbol fun _ _ _ _ hnode => ?_) (.addSymbol _ _) rfl rfl rfl rfl
    cases hnode
  have hanchor {s : Scheduler} (h : s.Grounded) (hfirst : s.first ≠ none) :
      s.anchorRoot.Grounded := by
    obtain ⟨first, hfirst⟩ := Option.ne_none_iff_exists'.mp hfirst
    have hmade : (derivationFor s.start (s.first.getD s.current) s).2.Grounded := by
      rw [derivationFor]
      split
      · exact h
      · refine h.of_forest (h.forest.addSymbol fun _ _ _ _ hnode => ?_) (.addSymbol _ _) rfl rfl rfl
          rfl
        cases hnode
        exact ⟨rfl, by rw [hfirst, Option.getD_some], rfl⟩
    exact ⟨hmade.forest, hmade.links, hmade.results⟩
  cases symbol with
  | none => exact hanchor (hmoved true) (by simp [moveTo])
  | some c => exact hanchor (hread (hmoved false)) (by simp [readSymbol, moveTo])

theorem dequeue (h : s.Grounded) {task : Task} {rest : Scheduler}
    (hdequeue : s.dequeue? = some (task, rest)) : rest.Grounded := by
  obtain ⟨_, -, rfl⟩ := Scheduler.exists_of_dequeue? hdequeue
  exact ⟨h.forest, h.links, h.results⟩

theorem initial (start : Nonterminal) : (Scheduler.initial start).Grounded := by
  refine ⟨⟨fun id label first last children hnode => ?_,
    fun id symbol first last alternatives hnode => ?_⟩, fun id label origin links hstack => ?_,
    fun frame symbol hmem => ?_⟩
  · have hknows : (Scheduler.initial start).Knows (.cons id label first last) := ⟨children, hnode⟩
    exact absurd hknows (knows_initial trivial)
  · have hknows : (Scheduler.initial start).Knows (.derivation id symbol first last) :=
      ⟨alternatives, hnode⟩
    exact absurd hknows (knows_initial trivial)
  · have hknows : (Scheduler.initial start).Knows (.frame id label origin) := ⟨links, hstack⟩
    exact absurd hknows (knows_initial trivial)
  · simp [Scheduler.results, Scheduler.initial, Memory.empty] at hmem

end Grounded

/-- A symbol under which a right-hand side is packed has a derivation. -/
theorem isFounded_of_derive {before after : Moment} (h : before.scheduler.Grounded)
    (hdistinct : before.scheduler.Distinct) {symbol : Nonterminal} {first : Position}
    {child : PrefixId} {id : SymbolId}
    (hchild : child.index < before.scheduler.forest.prefixes.size)
    (hleads : (derive symbol first child).Leads before id after) :
    after.scheduler.forest.IsFounded id := by
  have hafter := h.derive hchild hleads
  obtain ⟨made, hderivation, rfl⟩ := leads_derive.mp hleads
  -- It is in the tables, so it is the derivation of the nonterminal that ends here.
  have hnode : made.Knows (.derivation id symbol first before.scheduler.current) := by
    rcases derivationFor_cases hderivation with ⟨hsame, hkey⟩ | ⟨-, hlearns⟩
    · rw [hsame]
      exact (hdistinct.listed (.derivation symbol first _) id.index rfl).mpr hkey
    · exact (hlearns.knows _).mpr (.inr (by simp))
  obtain ⟨alternatives, hnode⟩ := hnode
  have hpackNode := @Forest.symbolNode?_packAlternative made.forest id id child
  rw [if_pos rfl] at hpackNode
  have hnode' : made.forest.symbolNode? id = _ := hnode
  rw [hnode', Option.map_some, SymbolNode.pack?, Option.getD_some] at hpackNode
  refine Forest.isFounded_of_grounded (hafter.forest.symbols id) hpackNode fun hempty => ?_
  exact Array.not_mem_empty child (hempty ▸ mem_insertNew.mpr (.inr rfl))

end Scheduler

/-! ## Requests -/

/-- A request is about symbols that have a derivation and prefixes that are there. -/
def Operation.IsFounded {α : Type} (s : Scheduler) : Operation α → Prop
  | .append _ _ right => s.forest.IsFounded right
  | .derive _ _ child => child.index < s.forest.prefixes.size
  | .pop _ result => s.forest.IsFounded result
  | .deliver _ result _ => s.forest.IsFounded result
  | _ => True

/-- Between two requests every node rests on what was there before it. -/
theorem Operation.grounded {α : Type} {operation : Operation α} {before after : Moment} {answer : α}
    (h : before.scheduler.Grounded) (hfounded : operation.IsFounded before.scheduler)
    (hleads : operation.Leads before answer after) : after.scheduler.Grounded := by
  cases operation with
  | look read =>
    obtain ⟨-, rfl⟩ := Act.leads_look.mp hleads
    exact h
  | note event =>
    obtain rfl := Act.leads_emit.mp hleads
    exact h
  | emptyPrefix =>
    obtain ⟨hempty, -⟩ := Act.leads_update.mp hleads
    have hafter := h.emptyPrefix
    rw [hempty] at hafter
    exact hafter
  | append label left right => exact h.append hfounded hleads
  | derive symbol first child => exact h.derive hfounded hleads
  | scheduleNow label caller stem => exact h.scheduleNow hleads
  | scheduleLater frame result => exact h.scheduleLater hleads
  | push label caller origin stem => exact h.push hleads
  | pop frame result => exact h.pop hfounded hleads
  | deliver link result label => exact h.deliver hfounded hleads

/-! ## Tasks -/

namespace Routine

variable {α : Type} {before after : Moment}

/-- A routine whose requests are founded whatever the scheduler is. -/
def AlwaysFounded (routine : Routine α) : Prop :=
  Plan.Each (fun operation => ∀ s, operation.IsFounded s) routine

theorem AlwaysFounded.grounded {routine : Routine α} (hrequests : routine.AlwaysFounded)
    {answer : α} (h : before.scheduler.Grounded) (hleads : routine.Leads before answer after) :
    after.scheduler.Grounded :=
  Plan.Each.keeps (fun m : Moment => m.scheduler.Grounded)
    (fun hfounded hrequest hgrounded => Operation.grounded hgrounded (hfounded _) hrequest)
    hrequests hleads h

theorem alwaysFounded_request {operation : Operation α} (h : ∀ s, operation.IsFounded s) :
    (request operation).AlwaysFounded :=
  Plan.each_request.mpr h

theorem alwaysFounded_push (label : Label) (caller : StackId) (stem : PrefixId) :
    (push label caller stem).AlwaysFounded :=
  Plan.each_bind (alwaysFounded_request fun _ => trivial) fun _ =>
    alwaysFounded_request fun _ => trivial

end Routine

namespace Program

open Routine

variable {program : Program} {before after : Moment}

theorem alwaysFounded_seed (program : Program) : program.seed.AlwaysFounded := by
  refine Plan.each_bind (alwaysFounded_request fun _ => trivial) fun stem => ?_
  refine Plan.each_bind (alwaysFounded_push _ _ _) fun frame => ?_
  split
  · exact alwaysFounded_request fun _ => trivial
  · exact Plan.each_forEach fun entry _ =>
      Plan.each_discard (alwaysFounded_request fun _ => trivial)

theorem alwaysFounded_executeTerminal (matcher : Matcher) (label : Label) (caller : StackId)
    (stem : PrefixId) : (executeTerminal matcher label caller stem).AlwaysFounded := by
  refine Plan.each_bind (alwaysFounded_request fun _ => trivial) fun position => ?_
  refine Plan.each_bind (alwaysFounded_request fun _ => trivial) fun _ => ?_
  split
  · refine Plan.each_bind (alwaysFounded_request fun _ => trivial) fun terminal => ?_
    cases terminal with
    | none => trivial
    | some symbol =>
      refine Plan.each_bind (alwaysFounded_push _ _ _) fun frame => ?_
      exact Plan.each_discard (alwaysFounded_request fun _ => trivial)
  · trivial

theorem alwaysFounded_executeCall (program : Program) (callee : Nonterminal) (label : Label)
    (caller : StackId) (stem : PrefixId) :
    (program.executeCall callee label caller stem).AlwaysFounded := by
  refine Plan.each_bind (alwaysFounded_push _ _ _) fun frame => ?_
  split
  · exact alwaysFounded_request fun _ => trivial
  · refine Plan.each_forEach fun entry _ => ?_
    exact Plan.each_bind (alwaysFounded_request fun _ => trivial) fun _ =>
      Plan.each_discard (alwaysFounded_request fun _ => trivial)

theorem alwaysFounded_executeAccept (stem : PrefixId) : (executeAccept stem).AlwaysFounded :=
  Plan.each_bind (alwaysFounded_request fun _ => trivial) fun _ =>
    alwaysFounded_request fun _ => trivial

/-- What a completed slot gives to its caller has a derivation: it was packed before. -/
theorem executeComplete_grounded (h : before.scheduler.Grounded)
    (hdistinct : before.scheduler.Distinct) {symbol : Nonterminal} {caller : StackId}
    {stem : PrefixId} (hleads : (executeComplete symbol caller stem).Leads before () after) :
    after.scheduler.Grounded := by
  simp only [executeComplete, Routine.leads_bind, Routine.leads_look, Routine.leads_derive,
    Routine.leads_pop] at hleads
  obtain ⟨node, before, ⟨hnode, rfl⟩, id, between, hderive, hpop⟩ := hleads
  have hstem := Forest.prefixNode?_lt (Fault.unlessSome_eq_ok_iff.mp hnode)
  have hfounded := Scheduler.isFounded_of_derive h hdistinct hstem hderive
  exact (h.derive hstem hderive).pop hfounded hpop

theorem execute_grounded (h : before.scheduler.Grounded) (hdistinct : before.scheduler.Distinct)
    {label : Label} {caller : StackId} {stem : PrefixId}
    (hleads : (program.execute label caller stem).Leads before () after) :
    after.scheduler.Grounded := by
  rw [execute] at hleads
  split at hleads
  · exact absurd hleads Routine.leads_fail
  · split at hleads
    · exact (alwaysFounded_executeAccept stem).grounded h hleads
    · exact (alwaysFounded_executeTerminal _ _ _ _).grounded h hleads
    · exact (alwaysFounded_executeCall _ _ _ _ _).grounded h hleads
    · exact executeComplete_grounded h hdistinct hleads

end Program

/-! ## Sessions -/

section Calls

variable {σ : Type} {program : Program} {tracer : Tracer σ} {trace : σ} {limit : Nat}
  {session : Session σ Unit} {fed : List Char} {offers : List Task}

/-- In every state of a session, every node rests on what was there before it. -/
theorem Session.Reaches.grounded (hlaid : program.Laid)
    (h : Session.Reaches program.interpreter tracer (.initial program.interpreter trace () limit)
      fed session offers) : session.scheduler.Grounded := by
  induction h with
  | start => exact .initial _
  | @advance fed session next offers symbol _ hrun ih =>
    obtain ⟨opened, hopen, hrest⟩ := advance_eq_ok hrun
    have hopened : opened.scheduler.Grounded := (openGeneration_eq_ok hopen).2.1 ▸ ih.advance symbol
    split at hrest
    · have hseed := leads_of_perform [] hrest
      exact (Program.alwaysFounded_seed program).grounded hopened (Routine.leads_lift.mp hseed).1
    · rw [hrest]
      exact hopened
  | @work fed session taken next offers task h htake hrun ih =>
    obtain ⟨rest, fuel, hdequeue, -, rfl⟩ := takeTask_eq_ok htake
    have hrest : rest.Grounded := ih.dequeue hdequeue
    have hdistinct := (h.law (Scheduler.law_distinct program.start)).of_dequeue hdequeue
    have hleads := leads_of_perform offers hrun
    cases task with
    | resume label caller stem =>
      exact Program.execute_grounded hrest hdistinct (Program.leads_routine_resume hleads)
    | shift frame result =>
      -- What is staged is a terminal.
      refine Scheduler.Grounded.pop hrest ?_ (Program.leads_routine_shift hleads)
      rcases h.timeline hlaid (List.prefix_refl fed) fun _ => rfl with ⟨hinitial, -⟩ | htimeline
      · rw [hinitial] at hdequeue
        cases hdequeue
      · obtain ⟨carried, hunderway⟩ := htimeline.underway
        obtain ⟨hholds, -, hpending⟩ := Moment.dequeue_spec offers hdequeue
        have hmem : .shift frame result ∈ (⟨session.scheduler, offers⟩ : Moment).pending :=
          hpending ▸ List.mem_cons_self
        obtain ⟨_, _, _, _, _, _, -, -, hderivative⟩ := hunderway.due hmem
        generalize (⟨session.scheduler, offers⟩ : Moment).index = j at hderivative
        cases hderivative with
        | terminal hnode _ _ => exact .terminal ((hholds _).mpr hnode)

end Calls

end Gll
