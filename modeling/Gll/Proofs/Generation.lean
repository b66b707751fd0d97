import Gll.Proofs.Opening

/-!
The course of a generation.

From its opening until it is drained a generation is `Moment.Underway`. Beside what holds between
any two tasks, nothing that was scheduled is forgotten: a slot that was to be resumed for a caller
is pending or has been run, and a terminal that the generation before had staged is pending or has
been given to its frame. Every pending task is one that it is right to do (`Moment.Due`).

Opening a generation brings this about (`Opens.underway`, `seed_underway`) and doing a task keeps it
(`Underway.work`). So when nothing is pending, everything has been done; that is the form in which
completeness is proved from it.
-/

set_option autoImplicit false

namespace Gll

namespace Moment

section Notions

variable (program : Program) (input : List Char) (m : Moment)

/-- A task that it is right to do. -/
def Due : Task → Prop
  | .resume label caller stem => m.Holds (.offered (.resume label caller stem))
  | .shift frame result =>
    ∃ label owner before matcher after i,
      m.Answer program input frame result label owner before (.terminal matcher) after i m.index

/-- A task that has been done. -/
def Done : Task → Prop
  | .resume label caller stem => m.Covered program label caller stem
  | .shift frame result => m.Holds (.result frame result)

/-- A generation between two tasks, with the tasks that the one before it had staged. -/
structure Underway (carried : List Task) : Prop where
  steady : m.Steady program input
  seeded : ∃ frame, m.Holds (.frame frame Program.acceptLabel 0)
  due {task : Task} : task ∈ m.pending → m.Due program input task
  carried {task : Task} : task ∈ carried → task ∈ m.pending ∨ m.Done program task
  resumed {label : Label} {caller : StackId} : m.Holds (.resumed label caller) →
    ∃ stem, m.Holds (.offered (.resume label caller stem)) ∧
      (.resume label caller stem ∈ m.pending ∨ m.Done program (.resume label caller stem))

end Notions

variable {program : Program} {input : List Char} {before after : Moment} {new : Set Fact}

section Mono

variable (hholds : ∀ {fact : Fact}, before.Holds fact → after.Holds fact)
  (hcontrol : after.scheduler.control = before.scheduler.control)
include hholds hcontrol

theorem Due.mono {task : Task} (h : before.Due program input task) :
    after.Due program input task := by
  cases task with
  | resume label caller stem =>
    have hoffered : before.Holds (.offered (.resume label caller stem)) := h
    exact hholds hoffered
  | shift frame result =>
    obtain ⟨label, owner, earlier, matcher, later, i, hanswer⟩ := h
    rw [Due, index_of_control hcontrol]
    exact ⟨label, owner, earlier, matcher, later, i, hanswer.mono fun _ => hholds⟩

theorem Done.mono {task : Task} (h : before.Done program task) : after.Done program task := by
  cases task with
  | resume label caller stem => exact Covered.mono h hholds hcontrol
  | shift frame result =>
    have hresult : before.Holds (.result frame result) := h
    exact hholds hresult

end Mono

/-! ## Doing a task -/

/-- Taking a task out changes no fact. -/
theorem dequeue_spec {s rest : Scheduler} (offers : List Task) {task : Task}
    (h : s.dequeue? = some (task, rest)) :
    (∀ fact, (⟨rest, offers⟩ : Moment).Holds fact ↔ (⟨s, offers⟩ : Moment).Holds fact) ∧
      rest.control = s.control ∧
        (⟨s, offers⟩ : Moment).pending = task :: (⟨rest, offers⟩ : Moment).pending := by
  obtain ⟨pending, hqueue, rfl⟩ := Scheduler.exists_of_dequeue? h
  refine ⟨fun fact => ?_, rfl, hqueue⟩
  cases fact <;> rfl

theorem pending_of_dequeue {s rest : Scheduler} {task : Task}
    (h : s.dequeue? = some (task, rest)) : s.pending.toList = task :: rest.pending.toList :=
  (dequeue_spec [] h).2.2

theorem mem_of_dequeue {s rest : Scheduler} {task : Task} (h : s.dequeue? = some (task, rest)) :
    task ∈ s.pending.toList := by
  rw [pending_of_dequeue h]
  exact List.mem_cons_self

/-- The task that is taken out is one that it is right to do. -/
theorem Underway.taken {carried : List Task} {m : Moment} (h : m.Underway program input carried)
    {task : Task} {rest : Scheduler} (hdequeue : m.scheduler.dequeue? = some (task, rest)) :
    (⟨rest, m.offers⟩ : Moment).Steady program input ∧
      (⟨rest, m.offers⟩ : Moment).Due program input task := by
  obtain ⟨hiff, hsame, -⟩ := dequeue_spec m.offers hdequeue
  have hmem : task ∈ m.pending := mem_of_dequeue hdequeue
  have hsame' : (⟨rest, m.offers⟩ : Moment).scheduler.control = m.scheduler.control := hsame
  exact ⟨h.steady.congr hiff hsame', (h.due hmem).mono (fun {fact} => (hiff fact).mpr) hsame'⟩

/-- Doing a task leaves the parse steady, and the task is done. -/
theorem routine_sound (hlaid : program.Laid) (hsteady : before.Steady program input) {task : Task}
    (hdue : before.Due program input task) {answer : Unit × Unit}
    (h : Routine.Leads ((program.interpreter.routine task).run ()) before answer after) :
    after.Steady program input ∧ before.Grows after (Fact.newAt before.index) ∧
      after.Done program task := by
  cases task with
  | resume label caller stem =>
    have hoffered : before.Holds (.offered (.resume label caller stem)) := hdue
    obtain ⟨_, owner, earlier, later, i, hresumable⟩ := hsteady.sound.proper hoffered
    obtain ⟨hsteady', hgrows, hcovered⟩ :=
      execute_sound hlaid hsteady hresumable (Program.leads_routine_resume h)
    exact ⟨hsteady', hgrows, hcovered⟩
  | shift frame result =>
    obtain ⟨label, owner, earlier, matcher, later, i, hanswer⟩ := hdue
    obtain ⟨hsound, hgrows, hserved, hresult⟩ :=
      pop_sound hlaid hsteady.sound hsteady.served hanswer (Program.leads_routine_shift h)
    exact ⟨⟨hsound, hserved, hsteady.opened.grow hgrows (by simp)⟩, hgrows.mono (by simp), hresult⟩

/-- Doing the next task keeps a generation underway. -/
theorem Underway.work (hlaid : program.Laid) {carried : List Task} {m : Moment}
    (h : m.Underway program input carried) {task : Task} {rest : Scheduler}
    (hdequeue : m.scheduler.dequeue? = some (task, rest)) {answer : Unit × Unit}
    (hrun : Routine.Leads ((program.interpreter.routine task).run ()) ⟨rest, m.offers⟩ answer
      after) :
    after.Underway program input carried ∧ after.index = m.index ∧
      (∀ {fact : Fact}, m.Holds fact → after.Holds fact) ∧
        ∀ {id label origin}, after.Holds (.frame id label origin) →
          m.Holds (.frame id label origin) ∨ origin = m.index := by
  obtain ⟨hiff, hsame, hpending⟩ := dequeue_spec m.offers hdequeue
  obtain ⟨hsteady, hdue⟩ := h.taken hdequeue
  generalize hbefore : (⟨rest, m.offers⟩ : Moment) = before at hrun hiff hpending hsteady hdue
  have hsame : before.scheduler.control = m.scheduler.control := by
    rw [← hbefore]
    exact hsame
  have hpending : m.pending = task :: before.pending := hpending
  obtain ⟨hsteady, hgrows, hdone⟩ := routine_sound hlaid hsteady hdue hrun
  have hholds : ∀ {fact : Fact}, m.Holds fact → after.Holds fact :=
    fun {fact} hfact => hgrows.holds ((hiff fact).mpr hfact)
  have hcontrol : after.scheduler.control = m.scheduler.control := hgrows.control.trans hsame
  -- What was pending is the task that was done now, or is still pending.
  have hsettled {other : Task} (hother : other ∈ m.pending ∨ m.Done program other) :
      other ∈ after.pending ∨ after.Done program other := by
    rcases hother with hmem | hother
    · rw [hpending, List.mem_cons] at hmem
      rcases hmem with rfl | hmem
      · exact .inr hdone
      · exact .inl (hgrows.pending hmem)
    · exact .inr (hother.mono hholds hcontrol)
  have hdue' {other : Task} (hmem : other ∈ after.pending) : after.Due program input other := by
    rcases hgrows.arrived hmem with hmem | ⟨label, caller, stem, rfl, hoffered⟩
    · have hold : other ∈ m.pending := by simp [hpending, hmem]
      exact (h.due hold).mono hholds hcontrol
    · exact hoffered
  refine ⟨⟨hsteady, ?_, hdue', fun hmem => hsettled (h.carried hmem),
    fun {label caller} hresumed => ?_⟩, index_of_control hcontrol, hholds,
    fun {id label origin} hframe => ?_⟩
  · obtain ⟨frame, hframe⟩ := h.seeded
    exact ⟨frame, hholds hframe⟩
  · rcases hgrows.resumed hresumed with hold | ⟨stem, hmem⟩
    · obtain ⟨stem, hoffered, hother⟩ := h.resumed ((hiff _).mp hold)
      exact ⟨stem, hholds hoffered, hsettled hother⟩
    · exact ⟨stem, hdue' hmem, .inl hmem⟩
  · rcases hgrows.onStacks hframe trivial with hold | hnew
    · exact .inl ((hiff _).mp hold)
    · rw [Fact.frame_mem_newAt, index_of_control hsame] at hnew
      exact .inr hnew

/-! ## Opening -/

/-- The facts that last go over into the next generation, and no frames of before come with it. -/
structure Follows (before after : Moment) : Prop where
  lasts {fact : Fact} : fact.Lasts → before.Holds fact → after.Holds fact
  frames {id : StackId} {label : Label} {origin : Nat} : after.Holds (.frame id label origin) →
    origin < after.index → before.Holds (.frame id label origin)

variable {symbol : Option Char} {root : SymbolId} {node : Option SymbolId}

theorem Opens.not_resumed (h : before.Opens after symbol root node) {label : Label}
    {caller : StackId} : ¬ after.Holds (.resumed label caller) := by
  intro hresumed
  rcases (h.holds _).mp hresumed with ⟨hlasts, _⟩ | ⟨id, _, heq⟩ | heq | heq
  · exact hlasts
  · cases heq
  · cases heq
  · cases heq

/-- When a generation is drained and there is more input, the next one can be opened. -/
theorem Opens.underway (h : before.Opens after symbol root node) {carried : List Task}
    (hbefore : before.Underway program input carried)
    (hfinished : before.scheduler.isFinished = false)
    (hsymbol : symbol = input[before.scheduler.nextIndex]?) :
    after.Underway program input before.scheduler.staged.toList ∧
      after.index = before.index + 1 ∧ before.Follows after := by
  obtain ⟨⟨hsound, hserved, hopened⟩, ⟨frame, hframe⟩, -, -, -⟩ := hbefore
  have hnext := hsound.situated.nextIndex
  have hindex : after.index = before.index + 1 := h.index_eq.trans hnext
  -- The parse is not finished, so there is a symbol to read.
  have hlt : before.index < input.length := by
    rw [← not_le, ← List.getElem?_eq_none_iff, ← hsound.situated.isFinished, hfinished]
    exact Bool.false_ne_true
  refine ⟨⟨?_, ⟨frame, h.lasts trivial hframe⟩, fun {task} hmem => ?_, fun {task} hmem => .inl ?_,
    fun hresumed => absurd hresumed h.not_resumed⟩, hindex, h.lasts, fun hframe hlt => ?_⟩
  · refine h.steady hsound.situated.start ?_ hsymbol (by omega) (fun hframe => ?_)
      (h.proper hsound)
    · rw [hsound.situated.first, Option.getD_some]
    · have hle := (hsound.proper hframe).1
      omega
  · rw [h.pending, Array.mem_toList_iff] at hmem
    have hstaged : before.Holds (.staged task) := hmem
    have hproper := hsound.proper hstaged
    cases task with
    | resume label caller stem => exact absurd hproper id
    | shift frame result =>
      obtain ⟨_, label, owner, earlier, matcher, later, hanswer⟩ := hproper
      rw [Due, hindex]
      exact ⟨label, owner, earlier, matcher, later, before.index, hanswer.mono h.lasts⟩
  · rw [h.pending]
    exact hmem
  · exact (h.onStacks hframe trivial).2

/-- When the first generation has been opened, all is as it should be. -/
theorem Opens.steady_of_initial (h : before.Opens after symbol root node) {offers : List Task}
    (hbefore : before = ⟨.initial program.start, offers⟩) (hsymbol : symbol = input[0]?) :
    after.Steady program input ∧ after.index = 0 := by
  subst hbefore
  have hnone {fact : Fact} (hlasts : fact.Lasts) :
      ¬ (⟨.initial program.start, offers⟩ : Moment).Holds fact := not_holds_initial hlasts
  refine ⟨h.steady rfl ?_ hsymbol (Nat.zero_le _) (fun hframe => absurd hframe (hnone trivial))
    fun hlasts hfact => absurd hfact (hnone hlasts), h.index_eq⟩
  rw [nextPosition_eq_of hsymbol]
  rfl

/-- The first generation is underway when it has been seeded. -/
theorem Opens.underway_of_seed (h : before.Opens after symbol root node) {offers : List Task}
    {seeded : Moment} (hlaid : program.Laid)
    (hbefore : before = ⟨.initial program.start, offers⟩) (hsymbol : symbol = input[0]?)
    (hseed : program.seed.Leads after () seeded) :
    seeded.Underway program input [] ∧ seeded.index = 0 := by
  obtain ⟨hsteady, hindex⟩ := h.steady_of_initial hbefore hsymbol
  subst hbefore
  obtain ⟨hsteady', hgrows, hframe⟩ := seed_sound hlaid hsteady hindex hseed
  have hdue {task : Task} (hmem : task ∈ seeded.pending) : seeded.Due program input task := by
    rcases hgrows.arrived hmem with hmem | ⟨label, caller, stem, rfl, hoffered⟩
    · rw [h.pending] at hmem
      exact absurd hmem List.not_mem_nil
    · exact hoffered
  refine ⟨⟨hsteady', hframe, hdue, fun hmem => absurd hmem List.not_mem_nil,
    fun {label caller} hresumed => ?_⟩, (index_of_control hgrows.control).trans hindex⟩
  obtain ⟨stem, hmem⟩ := (hgrows.resumed hresumed).resolve_left h.not_resumed
  exact ⟨stem, hdue hmem, .inl hmem⟩

end Moment

end Gll
