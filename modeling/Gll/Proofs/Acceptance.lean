import Gll.Proofs.Chronicle
import Gll.Proofs.Linking
import Gll.Proofs.Telling

/-!
Two signs of acceptance.

That the start symbol derives what was read shows in the forest and in the trace: the root has a
derivation, and slot 0 was run and told so. The two come about in different ways. A derivation of
the root may be made for any frame that waits for the start symbol from the beginning of the input
on, also where a rule is recursive on the left; slot 0 is resumed only for the initial stack, by a
result of the one frame that the parse was seeded with. They agree because a frame has a result for
every derivation of what it waits for (`Stages.answered`) and gives each result to its callers
(`resumed_accept_iff`), and because what is scheduled is done, and done once (`Chronicle`).
-/

set_option autoImplicit false

namespace Gll

open Program (acceptLabel)

/-! ## What is told of slot 0 -/

/-- An event of slot 0, which is begun and then tells what was recognized. -/
def Event.isAcceptance : Event → Bool
  | descriptor label _ _ => label == acceptLabel
  | accept _ => true
  | _ => false

/-- The events of the current generation, that is those since it was opened. -/
def generationEvents (trace : Array Event) : List Event :=
  trace.toList.rtakeWhile fun event => !event.isAdvance

/-- The events of slot 0 in the current generation. -/
def acceptanceEvents (trace : Array Event) : List Event :=
  (generationEvents trace).filter Event.isAcceptance

theorem accept_mem_acceptanceEvents {trace : Array Event} {span : Span} :
    .accept span ∈ acceptanceEvents trace ↔ .accept span ∈ generationEvents trace := by
  rw [acceptanceEvents, List.mem_filter]
  exact and_iff_left rfl

/-- An event that opens a generation or is of slot 0. -/
def Event.isTurn (event : Event) : Bool := event.isAdvance || event.isAcceptance

theorem Event.outer_isTurn : Outer isTurn := by
  intro event h
  cases event with
  | advance | descriptor | accept => exact absurd h id
  | _ => rfl

/-- What is told of slot 0 when a task is done in the generation of an offset. -/
def Task.acceptance (index : Nat) : Task → List Event
  | resume label caller stem =>
    if label = acceptLabel then [.descriptor label caller stem, .accept ⟨0, index⟩] else []
  | shift _ _ => []

namespace Task

variable {index : Nat} {tasks : List Task}

theorem isAcceptance_of_mem {event : Event} (h : event ∈ tasks.flatMap (acceptance index)) :
    event.isAcceptance = true := by
  obtain ⟨task, -, hmem⟩ := List.mem_flatMap.mp h
  cases task with
  | resume label caller stem =>
    rw [acceptance] at hmem
    split at hmem
    · rename_i hlabel
      rcases List.mem_pair.mp hmem with rfl | rfl
      · exact beq_iff_eq.mpr hlabel
      · rfl
    · cases hmem
  | shift frame result => cases hmem

theorem acceptances_eq_nil
    (h : ∀ caller, (acceptLabel, caller) ∉ tasks.filterMap resumed?) :
    tasks.flatMap (acceptance index) = [] := by
  refine List.flatMap_eq_nil_iff.mpr fun task hmem => ?_
  cases task with
  | resume label caller stem =>
    rw [acceptance, if_neg]
    rintro rfl
    exact h caller (List.mem_filterMap.mpr ⟨_, hmem, rfl⟩)
  | shift frame result => rfl

/-- Among tasks of which no two are for the same label and caller, one that resumes slot 0 is the
only one that tells of it, if it is not resumed for another caller. -/
theorem acceptances_of_mem {caller : StackId} {stem : PrefixId}
    (hmem : .resume acceptLabel caller stem ∈ tasks) (honce : (tasks.filterMap resumed?).Nodup)
    (hcaller : ∀ other, (acceptLabel, other) ∈ tasks.filterMap resumed? → other = caller) :
    tasks.flatMap (acceptance index)
      = [.descriptor acceptLabel caller stem, .accept ⟨0, index⟩] := by
  obtain ⟨before, after, rfl⟩ := List.append_of_mem hmem
  have hsplit : (before ++ .resume acceptLabel caller stem :: after).filterMap resumed?
      = before.filterMap resumed? ++ (acceptLabel, caller) :: after.filterMap resumed? :=
    List.filterMap_append
  rw [hsplit] at honce hcaller
  -- Any other task that tells of slot 0 would be for the same label and caller.
  have hother (other : StackId) :
      (acceptLabel, other) ∉ before.filterMap resumed? ++ after.filterMap resumed? := by
    intro hkey
    obtain rfl := hcaller other (by
      rw [List.mem_append] at hkey
      exact List.mem_append.mpr (hkey.imp_right (List.mem_cons_of_mem _)))
    exact (List.nodup_cons.mp (List.nodup_middle.mp honce)).1 hkey
  have hbefore : before.flatMap (acceptance index) = [] :=
    acceptances_eq_nil fun other hkey => hother other (List.mem_append_left _ hkey)
  have hafter : after.flatMap (acceptance index) = [] :=
    acceptances_eq_nil fun other hkey => hother other (List.mem_append_right _ hkey)
  rw [List.flatMap_append, List.flatMap_cons, hbefore, hafter, acceptance, if_pos rfl]
  rfl

end Task

/-! ## Slot 0 -/

namespace Moment

variable {program : Program} {input : List Char} {m : Moment}

/-- Slot 0 is resumed for the initial stack, behind the start symbol over all that was read. -/
theorem Resumable.accept (hlaid : program.Laid) (hsound : m.Sound program input) {caller : StackId}
    {stem : PrefixId} {owner : Option Nonterminal} {before after : List Atom} {i : Nat}
    (h : m.Resumable program input acceptLabel caller stem owner before after i) :
    caller = .initial ∧ before = [.nonterminal program.start] ∧ i = 0 ∧
      m.Holds (.cons stem acceptLabel (.of input 0) (.of input m.index)) := by
  obtain ⟨hitem, hcaller, hcanonical⟩ := h
  cases owner with
  | some owner => exact absurd hitem hlaid.not_item_accept
  | none =>
    obtain ⟨-, hbefore, -⟩ := hitem.eq_accept
    cases hcanonical with
    | empty _ => cases hbefore
    | cons hkey =>
      cases hcaller
      exact ⟨rfl, hbefore, rfl, hsound.cons_of_key hkey⟩

theorem caller_of_resumed_accept (hlaid : program.Laid) (hsound : m.Sound program input)
    {caller : StackId} (h : m.Holds (.resumed acceptLabel caller)) : caller = .initial := by
  obtain ⟨stem, hoffered⟩ := hsound.proper h
  obtain ⟨-, owner, before, after, i, hresumable⟩ := hsound.proper hoffered
  exact (hresumable.accept hlaid hsound).1

/-- When nothing is pending, slot 0 was to be resumed exactly if the start symbol derives what is
before the current position. -/
theorem resumed_accept_iff (hlaid : program.Laid) (h : m.Timeline program input)
    (hgrounded : m.scheduler.Grounded) (hdrained : m.pending = []) :
    m.Holds (.resumed acceptLabel .initial) ↔
      input.take m.index ∈ program.rightHandSides.language program.start := by
  obtain ⟨carried, hunderway⟩ := h.underway
  have hsound := hunderway.steady.sound
  rw [Productions.take_mem_language_iff hsound.situated.index_le]
  constructor
  · intro hresumed
    obtain ⟨stem, hoffered⟩ := hsound.proper hresumed
    obtain ⟨-, owner, before, after, i, hresumable⟩ := hsound.proper hoffered
    obtain ⟨trees, hderives⟩ :=
      (hsound.stem_of_canonical hlaid hresumable.item hresumable.canonical).derives
    obtain ⟨-, rfl, rfl, -⟩ := hresumable.accept hlaid hsound
    cases hderives with
    | nonterminal hmem hfirst hrest =>
      cases hrest
      exact ⟨_, .nonterminal hmem hfirst (.nil _)⟩
  · rintro ⟨tree, htree⟩
    obtain ⟨marked, -, hmarked⟩ := Program.exists_markedDerivesTree htree
    -- The frame with which the parse was seeded has the tree among its results,
    obtain ⟨frame, links, hstack⟩ := hunderway.seeded
    have hframe : m.Holds (.frame frame acceptLabel 0) := ⟨links, hstack⟩
    obtain ⟨stages, hstages, hlast, hpending⟩ := h.exists_drained_stages hdrained
    have hitem : program.Item acceptLabel none ([] ++ [.nonterminal program.start]) [] := .accept
    rw [← hlast] at hframe
    obtain ⟨result, hresult, -⟩ :=
      hstages.answered hlaid hpending (Nat.le_refl _) hframe hitem hmarked
    rw [hlast] at hframe hresult
    -- and its link leads to the initial stack.
    obtain ⟨⟨caller, stem⟩, hmem⟩ := Array.exists_mem_of_ne_empty links (hgrounded.links hstack)
    have hlink : m.Holds (.link frame ⟨caller, stem⟩) := ⟨_, _, links, hstack, hmem⟩
    obtain ⟨-, rfl, -⟩ := Program.link_accept_of_sound hlaid hsound hframe hlink
    obtain ⟨_, _, id, _, -, hoffered⟩ := hunderway.steady.served hframe hlink hresult
    exact (hsound.proper hoffered).1

end Moment

/-! ## Tasks -/

namespace Program

variable {program : Program} {label : Label} {caller : StackId} {stem : PrefixId}

/-- Only slot 0 reports what is accepted. -/
theorem withholds_execute {owner : Option Nonterminal}
    {before after : List Atom} (hitem : program.Item label owner before after)
    (hlabel : label ≠ acceptLabel) :
    (program.execute label caller stem).Withholds Event.isTurn := by
  rw [execute]
  cases after with
  | cons atom after =>
    rw [hitem.slot?_cons]
    cases atom with
    | terminal matcher => exact withholds_executeTerminal (fun _ _ _ => rfl) matcher
    | nonterminal callee => exact withholds_executeCall callee
  | nil =>
    cases owner with
    | some symbol =>
      rw [hitem.slot?_nil]
      exact withholds_executeComplete symbol
    | none => exact absurd hitem.eq_accept.1 hlabel

/-- Slot 0 reports the span of the prefix. -/
theorem tells_of_executeAccept {world next : World (Array Event)} {node : PrefixNode}
    (h : (executeAccept stem).run .recorder world = .ok () next)
    (hnode : world.scheduler.forest.prefixNode? stem = some node) :
    Tells Event.isTurn world.trace [.accept node.span] next.trace := by
  obtain ⟨node', looked, hlook, hnote⟩ := Plan.exists_of_run_bind h
  obtain ⟨hfound, -⟩ := Routine.leads_look.mp (Routine.leads_of_run [] hlook)
  have hfound : world.scheduler.forest.prefixNode? stem = some node' :=
    Fault.unlessSome_eq_ok_iff.mp hfound
  obtain rfl := Option.some.inj (hnode.symm.trans hfound)
  have hlooked : Tells Event.isTurn world.trace [] looked.trace :=
    Operation.tells_of_request Event.outer_isTurn hlook
  exact hlooked.trans (Operation.tells_of_request Event.outer_isTurn hnote)

section Tasks

variable {input : List Char} {offers : List Task} {session next : Session (Array Event) Unit}

/-- Running a slot tells what is accepted, if it is slot 0. -/
theorem tells_of_execute (hlaid : program.Laid)
    (h : Session.perform .recorder (program.interpreter.execute label caller stem) session
      = .ok () next) (hsound : (⟨session.scheduler, offers⟩ : Moment).Sound program input)
    {owner : Option Nonterminal} {before after : List Atom} {i : Nat}
    (hresumable : (⟨session.scheduler, offers⟩ : Moment).Resumable program input label caller stem
      owner before after i) :
    Tells Event.isTurn session.trace
      (if label = acceptLabel then [.accept ⟨0, session.scheduler.index⟩] else []) next.trace := by
  by_cases hlabel : label = acceptLabel
  · subst hlabel
    -- What slot 0 reports is the span of its prefix, and that is all of the input so far.
    obtain ⟨-, -, -, children, hnode⟩ := hresumable.accept hlaid hsound
    obtain ⟨store, world, hrun, rfl⟩ := Session.perform_eq_ok h
    obtain ⟨_, between, haccept, hdone⟩ := Plan.exists_of_run_bind hrun
    obtain ⟨-, rfl⟩ := EStateM.Result.ok.inj hdone
    rw [execute, hlaid.accept] at haccept
    have htold := tells_of_executeAccept haccept hnode
    rw [PrefixNode.span, Position.offset_of, Position.offset_of] at htold
    rw [if_pos rfl]
    exact htold
  -- No other slot has anything to say of the turns of slot 0.
  · have hwithheld : Routine.Withholds Event.isTurn
        ((program.interpreter.execute label caller stem).run session.store) :=
      Plan.each_bind (withholds_execute hresumable.item hlabel) fun _ => trivial
    have htold := Session.tells_of_perform Event.outer_isTurn h
    rw [hwithheld.reported] at htold
    rw [if_neg hlabel]
    exact htold

/-- Doing a task tells of slot 0 if the task is to resume it. -/
theorem tells_of_runTask (hlaid : program.Laid) {task : Task}
    (hsound : (⟨session.scheduler, offers⟩ : Moment).Sound program input)
    (hdue : (⟨session.scheduler, offers⟩ : Moment).Due program input task)
    (h : Session.runTask program.interpreter .recorder task session = .ok () next) :
    Tells Event.isTurn session.trace (task.acceptance session.scheduler.index) next.trace := by
  cases task with
  | shift frame result =>
    have hwithheld : Routine.Withholds Event.isTurn
        ((program.interpreter.routine (.shift frame result)).run session.store) := by
      refine Plan.each_bind (Plan.each_bind (withholds_request rfl) fun node => ?_) fun _ => trivial
      exact Plan.each_bind (withholds_note rfl) fun _ => withholds_request rfl
    have htold := Session.tells_of_perform Event.outer_isTurn h
    rw [hwithheld.reported] at htold
    exact htold
  | resume label caller stem =>
    have hoffered : (⟨session.scheduler, offers⟩ : Moment).Holds
        (.offered (.resume label caller stem)) := hdue
    obtain ⟨-, owner, before, after, i, hresumable⟩ := hsound.proper hoffered
    -- That the slot is resumed is told first, and then it is run.
    rw [Session.runTask_resume] at h
    obtain ⟨_, noted, hnote, hexecute⟩ := Session.exists_of_bind_ok h
    obtain ⟨world, hrun, rfl⟩ := Session.act_eq_ok hnote
    obtain ⟨-, rfl⟩ := EStateM.Result.ok.inj hrun
    have hnoted : Tells Event.isTurn session.trace _
        (session.trace.push (.descriptor label caller stem)) := .push _ _
    have htold := hnoted.trans (tells_of_execute hlaid hexecute hsound hresumable)
    have hturn : Event.isTurn (.descriptor label caller stem) = true ↔ label = acceptLabel :=
      beq_iff_eq
    rw [Task.acceptance]
    by_cases hlabel : label = acceptLabel
    · rw [if_pos hlabel, List.filter_cons_of_pos (hturn.mpr hlabel)] at htold
      rw [if_pos hlabel]
      exact htold
    · rw [if_neg hlabel, List.filter_cons_of_neg (mt hturn.mp hlabel)] at htold
      rw [if_neg hlabel]
      exact htold

end Tasks

end Program

/-! ## The trace of a generation -/

theorem rtakeWhile_append_cons {α : Type} {p : α → Bool} (before : List α) {item : α}
    {after : List α} (hitem : p item = false) (hafter : ∀ other ∈ after, p other = true) :
    (before ++ item :: after).rtakeWhile p = after := by
  have hstop : ¬ p item = true := by simp [hitem]
  have hreverse : ∀ other ∈ after.reverse, p other = true :=
    fun other hmem => hafter other (List.mem_reverse.mp hmem)
  rw [List.rtakeWhile, List.reverse_append, List.reverse_cons, List.append_assoc,
    List.singleton_append, List.takeWhile_append_of_pos hreverse, List.takeWhile_cons_of_neg hstop,
    List.append_nil, List.reverse_reverse]

namespace Session

variable {μ : Type} {session next : Session (Array Event) μ} {events more : List Event}

/-- The trace of a session ends with its current generation, in which these events either open
a generation or are of slot 0. -/
def Recounts (session : Session (Array Event) μ) (events : List Event) : Prop :=
  ∃ earlier told, session.trace.toList
    = earlier ++ .advance session.scheduler.current :: told ∧ told.filter Event.isTurn = events

theorem Recounts.tells (h : session.Recounts events)
    (hcontrol : next.scheduler.control = session.scheduler.control)
    (htold : Tells Event.isTurn session.trace more next.trace) :
    next.Recounts (events ++ more) := by
  obtain ⟨earlier, told, htrace, rfl⟩ := h
  obtain ⟨told', hnext, rfl⟩ := htold
  have hcurrent : next.scheduler.current = session.scheduler.current :=
    congrArg Control.current hcontrol
  refine ⟨earlier, told ++ told', ?_, List.filter_append _ _⟩
  rw [hnext, htrace, hcurrent, List.append_assoc, List.cons_append]

/-- When a generation is opened, that is told last. -/
theorem recounts_of_openGeneration {symbol : Option Char}
    (h : openGeneration .recorder symbol session = .ok () next) : next.Recounts [] := by
  rw [openGeneration_eq] at h
  split at h
  · cases h
  · obtain ⟨world, hrun, rfl⟩ := act_eq_ok h
    obtain ⟨-, rfl⟩ := EStateM.Result.ok.inj hrun
    exact ⟨session.trace.toList, [], Array.toList_push, rfl⟩

/-- The events of the current generation, and those of slot 0 among them. -/
theorem Recounts.generation (h : session.Recounts events)
    (hevents : ∀ event ∈ events, event.isAcceptance = true) :
    (∃ earlier, session.trace.toList
      = earlier ++ .advance session.scheduler.current :: generationEvents session.trace) ∧
      acceptanceEvents session.trace = events := by
  obtain ⟨earlier, told, htrace, rfl⟩ := h
  -- No further generation is opened in it, or this would be among the events.
  have hno : ∀ event ∈ told, (!event.isAdvance) = true := by
    intro event hmem
    cases event with
    | advance position =>
      exact absurd (hevents _ (List.mem_filter.mpr ⟨hmem, rfl⟩)) Bool.false_ne_true
    | _ => rfl
  have hgeneration : generationEvents session.trace = told := by
    rw [generationEvents, htrace]
    exact rtakeWhile_append_cons earlier rfl hno
  refine ⟨⟨earlier, hgeneration ▸ htrace⟩, ?_⟩
  rw [acceptanceEvents, hgeneration]
  refine List.filter_congr fun event hmem => ?_
  have hnot : event.isAdvance = false := by simpa using hno event hmem
  rw [Event.isTurn, hnot, Bool.false_or]

/-- Opening a generation tells of slot 0 nothing, also when it is seeded. -/
theorem recounts_of_advance {program : Program} {symbol : Option Char}
    {session next : Session (Array Event) Unit}
    (h : Session.advance program.interpreter .recorder symbol session = .ok () next) :
    next.Recounts [] := by
  obtain ⟨opened, hopen, hrest⟩ := advance_eq_ok h
  have hopened := recounts_of_openGeneration hopen
  split at hrest
  · have hwithheld : Routine.Withholds Event.isTurn
        (program.interpreter.seed.run opened.store) :=
      Plan.each_bind program.withholds_seed fun _ => trivial
    have htold := tells_of_perform Event.outer_isTurn hrest
    rw [hwithheld.reported] at htold
    exact hopened.tells (control_of_perform hrest) htold
  · rw [hrest]
    exact hopened

/-- The trace of a drained generation or one underway tells of slot 0 what is told of it by the
tasks that were done, and these are those of a chronicle. -/
theorem Reaches.recounts {program : Program} {trace : Array Event} {limit : Nat}
    {session : Session (Array Event) Unit} {fed : List Char} {offers : List Task}
    (hlaid : program.Laid)
    (h : Reaches program.interpreter .recorder (.initial program.interpreter trace () limit) fed
      session offers) :
    ∃ past current, Session.Chronicle program.interpreter past current session ∧
      (0 < session.scheduler.nextIndex →
        session.Recounts (current.done.flatMap (Task.acceptance session.scheduler.index))) := by
  induction h with
  | start => exact ⟨_, _, .initial trace () limit, fun hopen => absurd hopen (Nat.lt_irrefl 0)⟩
  | @advance fed session next offers symbol h hrun ih =>
    obtain ⟨past, current, hchronicle, -⟩ := ih
    obtain ⟨opened, hopen, -⟩ := advance_eq_ok hrun
    -- A generation that was opened has done nothing, and nothing is told of slot 0 in it.
    have hnext := hchronicle.advance .recorder symbol (openGeneration_eq_ok hopen).1
    rw [leaves_of_ok hrun] at hnext
    refine ⟨_, _, hnext, fun _ => ?_⟩
    rw [Chapter.done_enterAll]
    exact recounts_of_advance hrun
  | @work fed session taken next offers task h htake hrun ih =>
    obtain ⟨past, current, hchronicle, hrecounts⟩ := ih
    have hnext := hchronicle.work .recorder htake
    rw [leaves_of_ok hrun] at hnext
    refine ⟨_, _, hnext, fun hopen => ?_⟩
    -- A task moves neither the position nor the index, so what was told before is told of the same
    -- generation.
    have hcontrol := (control_of_perform hrun).trans (control_of_takeTask htake)
    have hindex : next.scheduler.index = session.scheduler.index :=
      congrArg (fun control => control.current.offset) hcontrol
    have hsame : taken.scheduler.index = session.scheduler.index :=
      congrArg (fun control => control.current.offset) (control_of_takeTask htake)
    have hnextIndex : next.scheduler.nextIndex = session.scheduler.nextIndex :=
      congrArg Control.nextIndex hcontrol
    have hbegun : 0 < session.scheduler.nextIndex := hnextIndex ▸ hopen
    obtain ⟨carried, hunderway⟩ := (h.timeline_fed hlaid hbegun).underway
    obtain ⟨rest, fuel, hdequeue, -, rfl⟩ := takeTask_eq_ok htake
    obtain ⟨hsteady, hdue⟩ := hunderway.taken hdequeue
    have htold := Program.tells_of_runTask hlaid hsteady.sound hdue hrun
    rw [hsame] at htold
    rw [Chapter.done_enterAll, Chapter.finish, List.flatMap_append, List.flatMap_singleton, hindex]
    exact (hrecounts hbegun).tells hcontrol htold

end Session

namespace Program

/-! ## The two signs -/

section Calls

variable {grammar : Grammar} {program : Program} {trace : Array Event} {limit : Nat}
  {session : Session (Array Event) Unit} {fed : List Char} {offers : List Task}

/-- When nothing is pending, slot 0 was run once if it was to be resumed, and else not at all. -/
theorem acceptances_of_reaches (hlaid : program.Laid)
    (h : Session.Reaches program.interpreter .recorder (.initial program.interpreter trace () limit)
      fed session offers) (hopen : 0 < session.scheduler.nextIndex)
    (hdrained : session.scheduler.pending.isEmpty = true) :
    (∃ earlier, session.trace.toList
      = earlier ++ .advance session.scheduler.current :: generationEvents session.trace) ∧
    (acceptanceEvents session.trace = [] ∧
        ¬ session.scheduler.Knows (.resumed acceptLabel .initial) ∨
      (∃ stem, acceptanceEvents session.trace
        = [.descriptor acceptLabel .initial stem, .accept ⟨0, session.scheduler.index⟩]) ∧
        session.scheduler.Knows (.resumed acceptLabel .initial)) := by
  obtain ⟨past, current, hchronicle, hrecounts⟩ := h.recounts hlaid
  obtain ⟨carried, hunderway⟩ := (h.timeline_fed hlaid hopen).underway
  obtain ⟨honce, hresumed⟩ :=
    hchronicle.scheduler.orderly.resumed_of_drained ((Queue.isEmpty_iff _).mp hdrained)
  -- Slot 0 is resumed for the initial stack only.
  have hcaller (caller : StackId)
      (hkey : (acceptLabel, caller) ∈ current.done.filterMap Task.resumed?) :
      caller = .initial := by
    have hknown := (hresumed _).mp hkey
    exact Moment.caller_of_resumed_accept hlaid hunderway.steady.sound hknown
  obtain ⟨hgeneration, hevents⟩ :=
    (hrecounts hopen).generation fun event hmem => Task.isAcceptance_of_mem hmem
  refine ⟨hgeneration, ?_⟩
  rw [hevents]
  -- In a drained generation, what was resumed are the keys of the tasks that were done, each once.
  by_cases hknown : session.scheduler.Knows (.resumed acceptLabel .initial)
  · refine .inr ⟨?_, hknown⟩
    obtain ⟨task, hmem, hkey⟩ := List.mem_filterMap.mp ((hresumed _).mpr hknown)
    cases task with
    | resume label caller stem =>
      cases hkey
      exact ⟨stem, Task.acceptances_of_mem hmem honce hcaller⟩
    | shift frame result => cases hkey
  · refine .inl ⟨Task.acceptances_eq_nil fun caller hkey => hknown ?_, hknown⟩
    rw [← hcaller caller hkey]
    exact (hresumed _).mp hkey

/-- When nothing is pending, slot 0 was run exactly if the root has an alternative. -/
theorem signs_of_reaches (hlaid : program.Laid)
    (h : Session.Reaches program.interpreter .recorder (.initial program.interpreter trace () limit)
      fed session offers) (hopen : 0 < session.scheduler.nextIndex)
    (hdrained : session.scheduler.pending.isEmpty = true) :
    ∃ root alternatives, session.scheduler.root = some root ∧
      session.scheduler.forest.symbolNode? root = some (.nonterminal program.start (.of fed 0)
        (.of fed session.scheduler.index) alternatives) ∧
      (alternatives = #[] → acceptanceEvents session.trace = []) ∧
      (alternatives ≠ #[] → ∃ stem, acceptanceEvents session.trace
        = [.descriptor acceptLabel .initial stem, .accept ⟨0, session.scheduler.index⟩]) := by
  have htimeline := h.timeline_fed hlaid hopen
  have hnone := (Queue.isEmpty_iff _).mp hdrained
  obtain ⟨root, alternatives, hroot, hnode, hderived⟩ := root_iff_of_timeline hlaid htimeline hnone
  have hresumed := Moment.resumed_accept_iff hlaid htimeline (h.grounded hlaid) hnone
  refine ⟨root, alternatives, hroot, hnode, ?_⟩
  rcases (acceptances_of_reaches hlaid h hopen hdrained).2 with
    ⟨hevents, hnot⟩ | ⟨hevents, hknown⟩
  · exact ⟨fun _ => hevents, fun hne => absurd (hresumed.mpr (hderived.mp hne)) hnot⟩
  · exact ⟨fun hempty => absurd hempty (hderived.mpr (hresumed.mp hknown)), fun _ => hevents⟩

/-- The two signs of acceptance agree. Once a generation is drained, the events of slot 0 in it,
that is those behind the event that it was opened, are that the slot is run for the initial stack
and that it accepts all that was read, each once, if the root has an alternative, and none if not.
So a parse accepts its text if and only if something is accepted in the generation of the end of the
input. -/
theorem compile_acceptance (hcompile : Program.compile grammar = .ok program) :
    (∀ {fed : List Char} {session : Session (Array Event) Unit} {offers : List Task},
      Session.Reaches program.interpreter .recorder
          (.initial program.interpreter trace () limit) fed session offers →
        0 < session.scheduler.nextIndex → session.scheduler.pending.isEmpty = true →
      (∃ earlier, session.trace.toList
        = earlier ++ .advance session.scheduler.current :: generationEvents session.trace) ∧
      ∃ root node, session.scheduler.root = some root ∧
        session.scheduler.forest.symbolNode? root = some node ∧
        (node.alternatives = #[] → acceptanceEvents session.trace = []) ∧
        (node.alternatives ≠ #[] → ∃ stem, acceptanceEvents session.trace
          = [.descriptor acceptLabel .initial stem, .accept ⟨0, session.scheduler.index⟩])) ∧
    ∀ {text : String} {accepted : Bool} {session : Session (Array Event) Unit},
      program.parse .recorder trace limit text = .ok accepted session →
        (∃ earlier, session.trace.toList = earlier ++ .advance (.afterInput text.toList.length)
          :: generationEvents session.trace) ∧
        (accepted = true ↔ ∃ span, .accept span ∈ generationEvents session.trace) := by
  have hlaid := laid_of_compile hcompile
  constructor
  · intro fed session offers h hopen hdrained
    obtain ⟨root, alternatives, hroot, hnode, hsigns⟩ := signs_of_reaches hlaid h hopen hdrained
    exact ⟨(acceptances_of_reaches hlaid h hopen hdrained).1, root, _, hroot, hnode, hsigns⟩
  · intro text accepted session hparse
    obtain ⟨⟨offers, h⟩, hdequeue, hopen, hfinished, rfl⟩ := Session.Reaches.start.of_parse hparse
    rw [List.nil_append] at h
    have hdrained := (Queue.isEmpty_iff _).mpr (pending_eq_nil_of_dequeue? offers hdequeue)
    have hgeneration := (acceptances_of_reaches hlaid h hopen hdrained).1
    rw [current_of_isFinished (h.timeline_fed hlaid hopen) hfinished] at hgeneration
    obtain ⟨root, alternatives, hroot, hnode, hrefused, haccepted⟩ :=
      signs_of_reaches hlaid h hopen hdrained
    have hiff : session.isAccepted = true ↔ alternatives ≠ #[] :=
      isAccepted_iff hfinished hroot hnode
    refine ⟨hgeneration, hiff.trans ⟨fun hne => ?_, ?_⟩⟩
    · obtain ⟨stem, hevents⟩ := haccepted hne
      refine ⟨⟨0, session.scheduler.index⟩, ?_⟩
      rw [← accept_mem_acceptanceEvents, hevents]
      exact List.mem_cons_of_mem _ List.mem_cons_self
    · rintro ⟨span, hmem⟩ hempty
      rw [← accept_mem_acceptanceEvents, hrefused hempty] at hmem
      exact absurd hmem List.not_mem_nil

/-- Where the start symbol is recursive on the left, so that its own frames fill the root too. -/
theorem compile_acceptance_circular : ∃ program session root node stem,
    Program.compile circular = .ok program ∧
      program.parse .recorder #[] 224 "a" = .ok true session ∧
      session.scheduler.root = some root ∧
      session.scheduler.forest.symbolNode? root = some node ∧ node.alternatives ≠ #[] ∧
      acceptanceEvents session.trace
        = [.descriptor acceptLabel .initial stem, .accept ⟨0, session.scheduler.index⟩] ∧
      ∃ span, .accept span ∈ generationEvents session.trace := by
  obtain ⟨program, session, hcompile, hparse⟩ :=
    exists_parse_circular Tracer.isTotal_recorder #[]
  obtain ⟨hdrained, hparsed⟩ := compile_acceptance hcompile
  obtain ⟨⟨offers, h⟩, hdequeue, hopen, hfinished, haccepted⟩ :=
    Session.Reaches.start.of_parse hparse
  obtain ⟨-, root, node, hroot, hnode, hrefused, hevents⟩ := hdrained h hopen
    ((Queue.isEmpty_iff _).mpr (pending_eq_nil_of_dequeue? offers hdequeue))
  obtain ⟨span, hmem⟩ := (hparsed hparse).2.mp rfl
  have hne : node.alternatives ≠ #[] := by
    intro hempty
    rw [← accept_mem_acceptanceEvents, hrefused hempty] at hmem
    exact absurd hmem List.not_mem_nil
  obtain ⟨stem, hevents⟩ := hevents hne
  exact ⟨program, session, root, node, stem, hcompile, hparse, hroot, hnode, hne, hevents, span,
    hmem⟩

end Calls

end Program

end Gll
