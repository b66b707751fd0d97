import Gll.Proofs.Counting
import Gll.Proofs.Liveness
import Gll.Proofs.Parse

/-!
The fuel of a parse.

The drain of a generation goes on for as long as tasks come in, and nothing in the code counts them
beforehand. All the same it ends: the tasks that were done and those that are pending are bounded by
the slots and the offset (`Session.AtWork.resumed_le`, `Session.AtWork.shifted_le`), and every task
that is done moves from the one to the other. So a session with fuel for that many tasks drains its
generation (`Session.AtWork.drain_ends`), and one that has as much for every generation parses its
text to the end. The main theorem is `compile_budget`.

That a call comes to its end is said up to the tracer, which may refuse an event (`Session.Ends`).
-/

set_option autoImplicit false

namespace Gll

namespace Program

/-- Fuel that suffices for any generation up to an offset. -/
def generationFuel (program : Program) (index : Nat) : Nat :=
  program.slotCount * (program.slotCount * (index + 1) + 2)

theorem work_le_generationFuel (program : Program) {i n : Nat} (h : i ≤ n) :
    program.slotCount * (1 + program.slotCount * (i + 1)) + program.slotCount
      ≤ program.generationFuel n := by
  have heach : 1 + program.slotCount * (i + 1) + 1 ≤ program.slotCount * (n + 1) + 2 := by
    have := Nat.mul_le_mul_left program.slotCount (Nat.add_le_add_right h 1)
    omega
  rw [generationFuel, ← Nat.mul_succ]
  exact Nat.mul_le_mul_left _ heach

end Program

namespace Session

variable {σ μ α β : Type} {tracer : Tracer σ} {session next : Session σ μ}

/-! ## Calls that come to their end -/

/-- A call comes to its end, unless the tracer refuses an event. -/
inductive Ends (tracer : Tracer σ) (good : α → Session σ μ → Prop) :
    EStateM.Result Halt (Session σ μ) α → Prop where
  | ok {a : α} {next : Session σ μ} (h : good a next) : Ends tracer good (.ok a next)
  | refused {fault : Fault} {next : Session σ μ} (h : ¬ tracer.IsTotal) :
      Ends tracer good (.error (.fault fault) next)

namespace Ends

variable {good : α → Session σ μ → Prop} {result : EStateM.Result Halt (Session σ μ) α}

theorem ne_error (h : Ends tracer good result) (error : RunError) (next : Session σ μ) :
    result ≠ .error (.error error) next := by
  rintro rfl
  cases h

theorem exists_ok (h : Ends tracer good result) (htotal : tracer.IsTotal) :
    ∃ a next, result = .ok a next ∧ good a next := by
  cases h with
  | ok h => exact ⟨_, _, rfl, h⟩
  | refused h => exact absurd htotal h

theorem mono {wanted : α → Session σ μ → Prop} (h : Ends tracer good result)
    (hgood : ∀ {a next}, result = .ok a next → good a next → wanted a next) :
    Ends tracer wanted result := by
  cases h with
  | ok h => exact .ok (hgood rfl h)
  | refused h => exact .refused h

/-- One call after the other. -/
theorem bind {first : Call σ μ α} {rest : α → Call σ μ β} {wanted : β → Session σ μ → Prop}
    (hfirst : Ends tracer good (first session))
    (hrest : ∀ {a next}, first session = .ok a next → good a next →
      Ends tracer wanted (rest a next)) :
    Ends tracer wanted ((first >>= rest) session) := by
  change Ends tracer wanted (EStateM.bind first rest session)
  rw [EStateM.bind]
  generalize hresult : first session = result at hfirst
  cases hfirst with
  | ok h => exact hrest hresult h
  | refused h => exact .refused h

end Ends

/-- An action that leads somewhere is carried out. -/
theorem act_ends {action : Act α} {a : α} {after : Moment}
    (h : action.Leads ⟨session.scheduler, []⟩ a after) :
    Ends tracer (fun _ _ => True) (act tracer action session) := by
  rw [act]
  split
  · exact .ok trivial
  · rename_i fault world hrun
    refine .refused fun htotal => ?_
    obtain ⟨trace, hok⟩ := Act.exists_run_of_leads htotal session.world.trace h
    cases hrun.symm.trans hok

/-- A routine that leads somewhere is carried out. -/
theorem perform_ends {routine : StateT μ Routine Unit} {offers : List Task} {answer : Unit × μ}
    {after : Moment}
    (h : Routine.Leads (routine.run session.store) ⟨session.scheduler, offers⟩ answer after) :
    Ends tracer (fun _ _ => True) (perform tracer routine session) := by
  rw [perform]
  split
  · exact .ok trivial
  · rename_i fault world hrun
    refine .refused fun htotal => ?_
    obtain ⟨trace, hok⟩ := Routine.exists_run_of_leads htotal session.world.trace h
    cases hrun.symm.trans hok

/-- A generation is opened if that is not refused. -/
theorem openGeneration_ends (symbol : Option Char) (hrefusal : session.scheduler.refusal? = none) :
    Ends tracer (fun _ _ => True) (openGeneration tracer symbol session) := by
  rw [openGeneration_eq, hrefusal]
  let after : Moment := ⟨session.scheduler.advance symbol, []⟩
  have hleads : Act.Leads (do
      Act.update fun s => ((), s.advance symbol)
      Act.emit (.advance (← Act.look fun s => .ok s.current)))
      ⟨session.scheduler, []⟩ () after := by
    simp only [Act.leads_bind, Act.leads_update, Act.leads_look, Act.leads_emit]
    exact ⟨(), after, ⟨rfl, rfl⟩, _, after, ⟨rfl, rfl⟩, rfl⟩
  exact act_ends hleads

/-- A task is taken out if there is fuel for it. -/
theorem exists_takeTask (hfuel : session.scheduler.dequeue? ≠ none → 0 < session.fuel) :
    ∃ task next, takeTask session = .ok task next := by
  obtain ⟨⟨scheduler, trace⟩, store, fuel, limit⟩ := session
  simp only [takeTask]
  split
  · exact ⟨_, _, rfl⟩
  · rename_i hdequeue
    have hsome : scheduler.dequeue? ≠ none := by
      rw [hdequeue]
      exact Option.some_ne_none _
    exact absurd (hfuel hsome) (Nat.lt_irrefl 0)
  · exact ⟨_, _, rfl⟩

/-! ## The work of a generation -/

/-- Tasks are taken out and done, one after the other, from one state of a session to another. -/
inductive Works (interpreter : Interpreter μ) (tracer : Tracer σ) (opened : Session σ μ) :
    List Task → Session σ μ → Prop where
  | start : Works interpreter tracer opened [] opened
  | work {done : List Task} {task : Task} {session taken next : Session σ μ}
      (h : Works interpreter tracer opened done session)
      (htake : takeTask session = .ok (some task) taken)
      (hrun : runTask interpreter tracer task taken = .ok () next) :
      Works interpreter tracer opened (done ++ [task]) next

/-- Each task that is done costs a unit of fuel. -/
theorem Works.fuel {interpreter : Interpreter μ} {opened : Session σ μ} {done : List Task}
    (h : Works interpreter tracer opened done session) :
    session.fuel + done.length = opened.fuel := by
  induction h with
  | start => rfl
  | work h htake hrun ih =>
    obtain ⟨_, _, _, rfl⟩ := perform_eq_ok hrun
    obtain ⟨_, fuel, _, hfuel, rfl⟩ := takeTask_eq_ok htake
    rw [List.length_append, List.length_singleton]
    simp only at hfuel ⊢
    omega

section Program

variable {program : Program} {trace : σ} {limit : Nat} {fed : List Char} {offers done : List Task}
  {carried : List StackId} {session opened next : Session σ Unit}

/-- There are tasks only in a generation that is underway. -/
theorem Reaches.underway_of_mem (hlaid : program.Laid)
    (h : Reaches program.interpreter tracer (.initial program.interpreter trace () limit) fed
      session offers) {task : Task} (hmem : task ∈ session.scheduler.pending.toList) :
    ∃ carried, Moment.Underway program fed ⟨session.scheduler, offers⟩ carried := by
  rcases h.timeline hlaid (List.prefix_refl fed) fun _ => rfl with ⟨hinitial, -⟩ | htimeline
  · rw [hinitial] at hmem
    exact absurd hmem List.not_mem_nil
  · exact htimeline.underway

/-- The next task of a session can be done. -/
theorem Reaches.runTask_ends (hlaid : program.Laid) (hclosed : program.Closed)
    (h : Reaches program.interpreter tracer (.initial program.interpreter trace () limit) fed
      session offers) {task : Task} {taken : Session σ Unit}
    (htake : takeTask session = .ok (some task) taken) :
    Ends tracer (fun _ _ => True) (runTask program.interpreter tracer task taken) := by
  obtain ⟨rest, fuel, hdequeue, -, rfl⟩ := takeTask_eq_ok htake
  obtain ⟨_, hunderway⟩ := h.underway_of_mem hlaid (Moment.mem_of_dequeue hdequeue)
  obtain ⟨answer, after, hleads⟩ := hunderway.exists_work hlaid hclosed hdequeue
  exact perform_ends hleads

/-- A session at work on a generation, with the tasks of it that are done. -/
structure AtWork (program : Program) (tracer : Tracer σ) (trace : σ) (limit : Nat)
    (fed : List Char) (carried : List StackId) (done : List Task) (session : Session σ Unit) :
    Prop where
  reaches : ∃ offers, Reaches program.interpreter tracer
    (.initial program.interpreter trace () limit) fed session offers
  isOpen : 0 < session.scheduler.nextIndex
  tally : Tally carried done session.scheduler
  carried_le : carried.length ≤ program.slotCount

namespace AtWork

theorem timeline (hlaid : program.Laid)
    (h : AtWork program tracer trace limit fed carried done session) :
    ∃ offers, Moment.Timeline program fed ⟨session.scheduler, offers⟩ := by
  obtain ⟨offers, hreaches⟩ := h.reaches
  exact ⟨offers, hreaches.timeline_fed hlaid h.isOpen⟩

/-- Slots are resumed as often, and wait to be, as they have callers. -/
theorem resumed_le (hlaid : program.Laid)
    (h : AtWork program tracer trace limit fed carried done session) :
    ((done ++ session.scheduler.pending.toList).filterMap Task.resumed?).length
      ≤ program.slotCount * (1 + program.slotCount * (session.scheduler.index + 1)) := by
  obtain ⟨offers, htimeline⟩ := h.timeline hlaid
  exact htimeline.resumed_length_le hlaid h.tally

/-- No more terminals are delivered, or wait to be, than there are slots. -/
theorem shifted_le (h : AtWork program tracer trace limit fed carried done session) :
    ((done ++ session.scheduler.pending.toList).filterMap Task.shifted?).length
      ≤ program.slotCount := by
  rw [h.tally.carried]
  exact h.carried_le

theorem length_le (hlaid : program.Laid)
    (h : AtWork program tracer trace limit fed carried done session) :
    (done ++ session.scheduler.pending.toList).length
      ≤ program.slotCount * (1 + program.slotCount * (session.scheduler.index + 1))
        + program.slotCount := by
  rw [length_eq_resumed_add_shifted]
  exact Nat.add_le_add (h.resumed_le hlaid) h.shifted_le

/-- What a generation costs at most, at whatever offset up to some length it is. -/
theorem cost_le (hlaid : program.Laid)
    (h : AtWork program tracer trace limit fed carried done session) {n : Nat}
    (hlength : fed.length ≤ n) :
    program.slotCount * (1 + program.slotCount * (session.scheduler.index + 1)) + program.slotCount
      ≤ program.generationFuel n := by
  obtain ⟨offers, htimeline⟩ := h.timeline hlaid
  obtain ⟨_, hunderway⟩ := htimeline.underway
  have hindex : session.scheduler.index ≤ n :=
    Nat.le_trans hunderway.steady.sound.situated.index_le hlength
  exact program.work_le_generationFuel hindex

/-- Doing a task goes on with the same generation. -/
theorem work (h : AtWork program tracer trace limit fed carried done session) {task : Task}
    {taken : Session σ Unit} (htake : takeTask session = .ok (some task) taken)
    (hrun : runTask program.interpreter tracer task taken = .ok () next) :
    AtWork program tracer trace limit fed carried (done ++ [task]) next ∧
      next.scheduler.index = session.scheduler.index := by
  have hcontrol : next.scheduler.control = session.scheduler.control :=
    (control_of_perform hrun).trans (control_of_takeTask htake)
  obtain ⟨offers, hreaches⟩ := h.reaches
  obtain ⟨rest, fuel, hdequeue, -, rfl⟩ := takeTask_eq_ok htake
  refine ⟨⟨⟨_, hreaches.work htake hrun⟩, ?_, ?_, h.carried_le⟩, ?_⟩
  · have hnext : next.scheduler.nextIndex = session.scheduler.nextIndex :=
      congrArg Control.nextIndex hcontrol
    rw [hnext]
    exact h.isOpen
  · exact Routine.keeps (Tally.kept carried (done ++ [task])) (leads_of_perform [] hrun)
      (h.tally.dequeue hdequeue)
  · exact congrArg (fun control => control.current.offset) hcontrol

theorem works (h : AtWork program tracer trace limit fed carried [] opened)
    (hworks : Works program.interpreter tracer opened done session) :
    AtWork program tracer trace limit fed carried done session ∧
      session.scheduler.index = opened.scheduler.index := by
  induction hworks with
  | start => exact ⟨h, rfl⟩
  | work hworks htake hrun ih =>
    obtain ⟨hnext, hindex⟩ := ih.1.work htake hrun
    exact ⟨hnext, hindex.trans ih.2⟩

/-- The next task can be done. -/
theorem runTask_ends (hlaid : program.Laid) (hclosed : program.Closed)
    (h : AtWork program tracer trace limit fed carried done session) {task : Task}
    {taken : Session σ Unit} (htake : takeTask session = .ok (some task) taken) :
    Ends tracer (fun _ _ => True) (runTask program.interpreter tracer task taken) := by
  obtain ⟨offers, hreaches⟩ := h.reaches
  exact hreaches.runTask_ends hlaid hclosed htake

/-- With fuel for all that there can be to do, a generation is drained. -/
theorem drainWith_ends (hlaid : program.Laid) (hclosed : program.Closed)
    (h : AtWork program tracer trace limit fed carried [] opened)
    (hfuel : program.slotCount * (1 + program.slotCount * (opened.scheduler.index + 1))
      + program.slotCount ≤ opened.fuel) {rounds : Nat}
    (hworks : Works program.interpreter tracer opened done session)
    (hrounds : session.fuel = rounds) :
    Ends tracer (fun _ last => last.scheduler.pending.toList = [] ∧
      ∃ done, Works program.interpreter tracer opened done last)
      (drainWith program.interpreter tracer rounds session) := by
  induction rounds generalizing done session with
  | zero =>
    -- What is done has used up all the fuel, so there can be nothing more to do.
    obtain ⟨hatWork, hindex⟩ := h.works hworks
    have hlength := hatWork.length_le hlaid
    have hspent := hworks.fuel
    rw [hindex, List.length_append] at hlength
    have hnone : session.scheduler.pending.toList = [] :=
      List.eq_nil_of_length_eq_zero (by omega)
    have hdequeue : session.scheduler.dequeue? = none := dequeue?_eq_none.mpr hnone
    obtain ⟨task, taken, htake⟩ := exists_takeTask (absurd hdequeue)
    rw [drainWith, htake]
    cases task with
    | none =>
      obtain ⟨-, rfl⟩ := takeTask_eq_none htake
      exact .ok ⟨hnone, done, hworks⟩
    | some task =>
      obtain ⟨_, _, hsome, _⟩ := takeTask_eq_ok htake
      rw [hdequeue] at hsome
      cases hsome
  | succ rounds ih =>
    obtain ⟨hatWork, -⟩ := h.works hworks
    have hpositive : 0 < session.fuel := by omega
    obtain ⟨task, taken, htake⟩ := exists_takeTask fun _ => hpositive
    rw [drainWith, htake]
    cases task with
    | none =>
      obtain ⟨hdequeue, rfl⟩ := takeTask_eq_none htake
      exact .ok ⟨Program.pending_eq_nil_of_dequeue? [] hdequeue, done, hworks⟩
    | some task =>
      have hends := hatWork.runTask_ends hlaid hclosed htake
      generalize hresult : runTask program.interpreter tracer task taken = result at hends
      cases hends with
      | refused hrefused =>
        simp only [hresult]
        exact .refused hrefused
      | @ok _ next _ =>
        simp only [hresult]
        have hworks' := hworks.work htake hresult
        refine ih hworks' ?_
        obtain ⟨_, _, _, rfl⟩ := perform_eq_ok hresult
        obtain ⟨_, _, _, hsucc, rfl⟩ := takeTask_eq_ok htake
        exact Nat.succ.inj (hsucc.symm.trans hrounds)

theorem drain_ends (hlaid : program.Laid) (hclosed : program.Closed)
    (h : AtWork program tracer trace limit fed carried [] opened)
    (hfuel : program.slotCount * (1 + program.slotCount * (opened.scheduler.index + 1))
      + program.slotCount ≤ opened.fuel) :
    Ends tracer (fun _ last => last.scheduler.pending.toList = [] ∧
      ∃ done, Works program.interpreter tracer opened done last)
      (drain program.interpreter tracer opened) :=
  h.drainWith_ends hlaid hclosed hfuel .start rfl

end AtWork

/-! ## Generation after generation -/

theorem fuel_of_advance {symbol : Option Char}
    (hadvance : advance program.interpreter tracer symbol session = .ok () opened) :
    opened.fuel = session.fuel := by
  obtain ⟨between, hopen, hrest⟩ := advance_eq_ok hadvance
  obtain ⟨-, -, -, hfuel⟩ := openGeneration_eq_ok hopen
  split at hrest
  · obtain ⟨_, _, _, rfl⟩ := perform_eq_ok hrest
    exact hfuel
  · rw [hrest]
    exact hfuel

section Reaches

variable (hlaid : program.Laid) (hclosed : program.Closed)
  (h : Reaches program.interpreter tracer (.initial program.interpreter trace () limit) fed session
    offers)
include hlaid h

/-- When a generation has been opened, nothing of it is done yet. -/
theorem Reaches.atWork {symbol : Option Char}
    (hadvance : Session.advance program.interpreter tracer symbol session = .ok () opened) :
    ∃ carried, AtWork program tracer trace limit (fed ++ symbol.toList) carried [] opened := by
  obtain ⟨-, hnext, -⟩ := control_of_advance hadvance
  obtain ⟨carried, taken, htally⟩ := h.law (Tally.law program.interpreter.start)
  refine ⟨session.scheduler.staged.toList.filterMap Task.shifted?, ⟨_, h.advance hadvance⟩,
    by omega, ?_, ?_⟩
  · obtain ⟨between, hopen, hrest⟩ := advance_eq_ok hadvance
    obtain ⟨-, hmoved, -, -⟩ := openGeneration_eq_ok hopen
    have hbetween := htally.advance symbol
    rw [← hmoved] at hbetween
    split at hrest
    · exact Routine.keeps (Tally.kept _ []) (leads_of_perform [] hrest) hbetween
    · rw [hrest]
      exact hbetween
  · rcases h.timeline hlaid (List.prefix_refl fed) fun _ => rfl with ⟨hinitial, -⟩ | htimeline
    · rw [hinitial]
      exact Nat.zero_le _
    · exact htimeline.staged_length_le hlaid htally

include hclosed

/-- A generation is opened, and seeded if it is the first one, unless that is refused. -/
theorem Reaches.advance_ends (symbol : Option Char)
    (hrefusal : session.scheduler.refusal? = none) :
    Ends tracer (fun _ _ => True) (Session.advance program.interpreter tracer symbol session) := by
  rw [advance_eq]
  have hends : Ends tracer (fun _ _ => True) (openGeneration tracer symbol session) :=
    openGeneration_ends symbol hrefusal
  generalize hresult : openGeneration tracer symbol session = result at hends
  cases hends with
  | refused hrefused => exact .refused hrefused
  | @ok _ between _ =>
    simp only
    split
    · rename_i hfirst
      obtain ⟨-, hmoved, -, -⟩ := openGeneration_eq_ok hresult
      obtain ⟨root, node, hopens⟩ := Moment.opens_advance ⟨session.scheduler, offers⟩ symbol
      rw [← hmoved] at hopens
      have hnext : between.scheduler.nextIndex = session.scheduler.nextIndex + 1 :=
        congrArg Control.nextIndex hopens.control
      -- No generation but the one after a new session is the first.
      rcases h.timeline hlaid (List.prefix_refl fed) fun _ => rfl with ⟨hinitial, -⟩ | htimeline
      · have hsymbol : symbol = symbol.toList[0]? := by cases symbol <;> rfl
        obtain ⟨hsteady, -⟩ := hopens.steady_of_initial (congrArg (Moment.mk · offers) hinitial)
          hsymbol
        obtain ⟨⟨⟩, after, hseed⟩ := Moment.exists_seed hclosed hsteady.sound
        have hlifted : Routine.Leads (program.interpreter.seed.run between.store)
            ⟨between.scheduler, []⟩ ((), between.store) after :=
          Routine.leads_lift.mpr ⟨hseed, rfl⟩
        exact perform_ends hlifted
      · obtain ⟨_, hunderway⟩ := htimeline.underway
        have hindex : session.scheduler.nextIndex = _ := hunderway.steady.sound.situated.nextIndex
        rw [Scheduler.isFirstGeneration, hnext, hindex] at hfirst
        simp at hfirst
    · exact .ok trivial

/-- One generation costs no more than any generation up to its offset may. -/
theorem Reaches.feed_ends {symbol : Option Char} (n reserve : Nat)
    (hrefusal : session.scheduler.refusal? = none) (hlength : (fed ++ symbol.toList).length ≤ n)
    (hfuel : program.generationFuel n + reserve ≤ session.fuel) :
    Ends tracer (fun _ last => reserve ≤ last.fuel)
      (feed program.interpreter tracer symbol session) := by
  refine (h.advance_ends hlaid hclosed symbol hrefusal).bind fun {_ opened} hadvance _ => ?_
  obtain ⟨carried, hatWork⟩ := h.atWork hlaid hadvance
  have hcost := hatWork.cost_le hlaid hlength
  have hopened : opened.fuel = session.fuel := fuel_of_advance hadvance
  refine (hatWork.drain_ends hlaid hclosed (by omega)).mono fun {_ last} _ hgood => ?_
  obtain ⟨-, done, hworks⟩ := hgood
  obtain ⟨hlast, hsame⟩ := hatWork.works hworks
  have hdone := hlast.length_le hlaid
  have hspent := hworks.fuel
  rw [hsame, List.length_append] at hdone
  omega

/-- With fuel for it, a generation is opened and drained, if the tracer refuses nothing. -/
theorem Reaches.exists_drained {symbol : Option Char} {n : Nat} (htotal : tracer.IsTotal)
    (hrefusal : session.scheduler.refusal? = none) (hlength : (fed ++ symbol.toList).length ≤ n)
    (hfuel : program.generationFuel n ≤ session.fuel) :
    ∃ opened done last,
      Session.advance program.interpreter tracer symbol session = .ok () opened ∧
        Works program.interpreter tracer opened done last ∧
          last.scheduler.pending.isEmpty = true := by
  obtain ⟨_, opened, hadvance, -⟩ :=
    (h.advance_ends hlaid hclosed symbol hrefusal).exists_ok htotal
  obtain ⟨carried, hatWork⟩ := h.atWork hlaid hadvance
  have hcost := hatWork.cost_le hlaid hlength
  have hopened : opened.fuel = session.fuel := fuel_of_advance hadvance
  obtain ⟨_, last, -, hdrained, done, hworks⟩ :=
    (hatWork.drain_ends hlaid hclosed (by omega)).exists_ok htotal
  exact ⟨opened, done, last, hadvance, hworks, (Queue.isEmpty_iff _).mpr hdrained⟩

theorem Reaches.feedAll_ends {text : List Char} {n reserve : Nat}
    (hrefusal : session.scheduler.refusal? = none) (hlength : (fed ++ text).length ≤ n)
    (hfuel : text.length * program.generationFuel n + reserve ≤ session.fuel) :
    Ends tracer (fun _ last => reserve ≤ last.fuel ∧ last.scheduler.refusal? = none)
      (feedAll program.interpreter tracer text session) := by
  induction text generalizing fed session offers with
  | nil =>
    rw [List.length_nil, Nat.zero_mul, Nat.zero_add] at hfuel
    exact .ok ⟨hfuel, hrefusal⟩
  | cons c rest ih =>
    have hlength' : (fed ++ [c] ++ rest).length ≤ n := by
      rw [List.append_assoc]
      exact hlength
    rw [List.length_cons, Nat.succ_mul] at hfuel
    have hfirst : (fed ++ (some c).toList).length ≤ n := by
      rw [List.length_append] at hlength'
      exact Nat.le_trans (Nat.le_add_right _ _) hlength'
    refine (h.feed_ends hlaid hclosed n (rest.length * program.generationFuel n + reserve) hrefusal
      hfirst (by omega)).bind fun {_ next} hfeed hreserve => ?_
    obtain ⟨⟨offers', hreach⟩, hdequeue, -, hfinished⟩ := h.of_feed hfeed
    have hdrained : next.scheduler.pending.toList = [] :=
      Program.pending_eq_nil_of_dequeue? [] hdequeue
    exact ih hreach (refusal?_eq_none.mpr ⟨hfinished, (Queue.isEmpty_iff _).mpr hdrained⟩)
      hlength' hreserve

theorem Reaches.parse_ends {text : String} (hrefusal : session.scheduler.refusal? = none)
    (hfuel : (text.toList.length + 1) * program.generationFuel (fed ++ text.toList).length
      ≤ session.fuel) :
    Ends tracer (fun _ _ => True) (parse program.interpreter tracer text session) := by
  rw [Nat.succ_mul] at hfuel
  refine (h.feedAll_ends hlaid hclosed hrefusal (Nat.le_refl _) hfuel).bind
    fun {_ between} hfeedAll hgood => ?_
  obtain ⟨offers', hreach⟩ := h.of_feedAll hfeedAll
  refine (hreach.feed_ends hlaid hclosed (fed ++ text.toList).length 0 hgood.2 ?_ hgood.1).bind
    fun _ _ => .ok trivial
  rw [Option.toList_none, List.append_nil]

end Reaches

end Program

end Session

namespace Program

variable {grammar : Grammar} {program : Program} {σ : Type} {tracer : Tracer σ} {trace : σ}
  {limit : Nat}

/-- **A parse ends within an explicit budget.** When a generation has been opened, the slots that
are resumed in it and wait to be, and the terminals that are delivered and wait to be, are bounded
by the slots of the program and the offset; with fuel for so many tasks it is drained. With fuel for
all generations of a text, a parse does not run out of fuel or end with any other error; it comes to
its end, if the tracer refuses nothing. -/
theorem compile_budget (hcompile : Program.compile grammar = .ok program) :
    (∀ {fed : List Char} {session opened : Session σ Unit} {offers : List Task}
        {symbol : Option Char},
      Session.Reaches program.interpreter tracer (.initial program.interpreter trace () limit) fed
        session offers →
      Session.advance program.interpreter tracer symbol session = .ok () opened →
        (∀ {done : List Task} {now : Session σ Unit},
          Session.Works program.interpreter tracer opened done now →
            ((done ++ now.scheduler.pending.toList).filterMap Task.resumed?).length
                ≤ program.slotCount * (1 + program.slotCount * (opened.scheduler.index + 1)) ∧
              ((done ++ now.scheduler.pending.toList).filterMap Task.shifted?).length
                ≤ program.slotCount) ∧
          (program.slotCount * (1 + program.slotCount * (opened.scheduler.index + 1))
              + program.slotCount ≤ opened.fuel →
            (∀ error last,
              Session.drain program.interpreter tracer opened ≠ .error (.error error) last) ∧
            (tracer.IsTotal → ∃ done last,
              Session.drain program.interpreter tracer opened = .ok () last ∧
                Session.Works program.interpreter tracer opened done last ∧
                  last.scheduler.pending.isEmpty = true))) ∧
    ∀ text : String,
      (text.toList.length + 1)
          * (program.slotCount * (program.slotCount * (text.toList.length + 1) + 2)) ≤ limit →
        (∀ error last, program.parse tracer trace limit text ≠ .error (.error error) last) ∧
        (tracer.IsTotal → ∃ accepted last,
          program.parse tracer trace limit text = .ok accepted last) := by
  have hlaid := laid_of_compile hcompile
  have hclosed := closed_of_compile hcompile
  constructor
  · intro fed session opened offers symbol h hadvance
    obtain ⟨carried, hatWork⟩ := h.atWork hlaid hadvance
    constructor
    · intro done now hworks
      obtain ⟨hnow, hindex⟩ := hatWork.works hworks
      rw [← hindex]
      exact ⟨hnow.resumed_le hlaid, hnow.shifted_le⟩
    · intro hfuel
      have hends := hatWork.drain_ends hlaid hclosed hfuel
      refine ⟨hends.ne_error, fun htotal => ?_⟩
      obtain ⟨_, last, hdrain, hdrained, done, hworks⟩ := hends.exists_ok htotal
      exact ⟨done, last, hdrain, hworks, (Queue.isEmpty_iff _).mpr hdrained⟩
  · intro text hlimit
    have hends : Session.Ends tracer (fun _ _ => True) (program.parse tracer trace limit text) :=
      Session.Reaches.start.parse_ends hlaid hclosed rfl hlimit
    refine ⟨hends.ne_error, fun htotal => ?_⟩
    obtain ⟨accepted, last, hparse, -⟩ := hends.exists_ok htotal
    exact ⟨accepted, last, hparse⟩

/-- A grammar with all that makes a parse go round in circles: `S = S S | "a" | ""`, which is
recursive on the left, derives nothing, and derives itself. -/
def circular : Grammar :=
  (Grammar.empty "circular").withRule "S"
    (.choice [.sequence [.symbol "S", .symbol "S"], .literal "a", .blank])

theorem compile_budget_circular : ∃ program, Program.compile circular = .ok program ∧
    (∃ accepted last, program.parse .silent () 224 "a" = .ok accepted last) ∧
    ∃ opened done last,
      Session.advance program.interpreter .silent (some 'a')
        (.initial program.interpreter () () 224) = .ok () opened ∧
      Session.drain program.interpreter .silent opened = .ok () last ∧
      Session.Works program.interpreter .silent opened done last ∧
      last.scheduler.pending.isEmpty = true ∧ (done.filterMap Task.resumed?).length ≤ 56 ∧
      (done.filterMap Task.shifted?).length ≤ 7 := by
  obtain ⟨program, hcompile, hcount⟩ : ∃ program, Program.compile circular = .ok program ∧
      program.slotCount = 7 := ⟨_, rfl, rfl⟩
  have hstart : Session.Reaches program.interpreter .silent
      (.initial program.interpreter () () 224) [] _ [] := .start
  have hlaid := laid_of_compile hcompile
  obtain ⟨_, opened, hadvance, -⟩ :=
    (hstart.advance_ends hlaid (closed_of_compile hcompile) (some 'a') rfl).exists_ok
      Tracer.isTotal_silent
  have hindex : opened.scheduler.index = 0 := by
    obtain ⟨carried, hatWork⟩ := hstart.atWork hlaid hadvance
    obtain ⟨_, htimeline⟩ := hatWork.timeline hlaid
    obtain ⟨_, hunderway⟩ := htimeline.underway
    have hnext : opened.scheduler.nextIndex = opened.scheduler.index + 1 :=
      hunderway.steady.sound.situated.nextIndex
    have hfirst : opened.scheduler.nextIndex = 1 := (Session.control_of_advance hadvance).2.1
    omega
  have hfuel : opened.fuel = 224 := Session.fuel_of_advance hadvance
  obtain ⟨hbounded, hdrained⟩ := (compile_budget hcompile).1 hstart hadvance
  rw [hindex, hcount] at hbounded hdrained
  obtain ⟨done, last, hdrain, hworks, hempty⟩ :=
    (hdrained (by rw [hfuel]; decide)).2 Tracer.isTotal_silent
  obtain ⟨hresumed, hshifted⟩ := hbounded hworks
  rw [(Queue.isEmpty_iff _).mp hempty, List.append_nil] at hresumed hshifted
  refine ⟨program, hcompile, ((compile_budget hcompile).2 "a" ?_).2 Tracer.isTotal_silent,
    opened, done, last, hadvance, hdrain, hworks, hempty, hresumed, hshifted⟩
  rw [hcount]
  decide

/-- The alternatives of the circular grammar begin at three labels. -/
theorem compile_circular : ∃ program, Program.compile circular = .ok program ∧
    program.slotCount = 7 ∧ program.start = ⟨0⟩ ∧ program.entries = #[[⟨1⟩, ⟨4⟩, ⟨6⟩]] ∧
      program.atomsAt ⟨1⟩ = [.nonterminal ⟨0⟩, .nonterminal ⟨0⟩] ∧
        program.atomsAt ⟨4⟩ = [.terminal (.char 'a')] ∧ program.atomsAt ⟨6⟩ = [] :=
  ⟨_, rfl, rfl, rfl, rfl, rfl, rfl, rfl⟩

/-- One of them is a letter, so the start nonterminal derives the letter. -/
theorem letter_mem_circular {program : Program}
    (hcompile : Program.compile circular = .ok program) :
    program.slotCount = 7 ∧ ['a'] ∈ program.rightHandSides.language program.start := by
  obtain ⟨other, hcompile', hcount, hstart, hentries, -, hletter, -⟩ := compile_circular
  obtain rfl : program = other := Except.ok.inj (hcompile.symm.trans hcompile')
  refine ⟨hcount, ?_⟩
  refine Productions.mem_language.mpr ⟨program.atomsAt ⟨4⟩, ?_, ?_⟩
  · rw [rightHandSides, entries?, hentries, hstart]
    simp
  · rw [hletter]
    exact .terminal rfl .nil

/-- With fuel for it, whatever the start nonterminal derives is parsed and accepted. -/
theorem exists_parse_of_mem {σ : Type} {tracer : Tracer σ} (htotal : tracer.IsTotal)
    {grammar : Grammar} {program : Program} (hcompile : Program.compile grammar = .ok program)
    (text : String) (hmem : text.toList ∈ program.rightHandSides.language program.start)
    {limit : Nat}
    (hlimit : (text.toList.length + 1) * program.generationFuel text.toList.length ≤ limit)
    (trace : σ) : ∃ session, program.parse tracer trace limit text = .ok true session := by
  have hlaid := laid_of_compile hcompile
  have hends : Session.Ends tracer (fun _ _ => True) (program.parse tracer trace limit text) :=
    Session.Reaches.start.parse_ends hlaid (closed_of_compile hcompile) rfl hlimit
  obtain ⟨accepted, session, hparse, -⟩ := hends.exists_ok htotal
  obtain ⟨⟨offers, h⟩, hdequeue, hopen, hfinished, haccepted⟩ :=
    Session.Reaches.start.of_parse hparse
  have htrue : session.scheduler.isAccepted = true :=
    (isAccepted_iff_of_timeline hlaid (h.timeline_fed hlaid hopen)
      (pending_eq_nil_of_dequeue? offers hdequeue) hfinished).mpr hmem
  have haccepted' : session.scheduler.isAccepted = accepted := haccepted
  rw [htrue] at haccepted'
  exact ⟨session, haccepted' ▸ hparse⟩

/-- A letter is parsed with it and accepted, though its forest goes in circles, whatever the tracer
keeps of it. -/
theorem exists_parse_circular {σ : Type} {tracer : Tracer σ} (htotal : tracer.IsTotal) (trace : σ) :
    ∃ program session, Program.compile circular = .ok program ∧
      program.parse tracer trace 224 "a" = .ok true session := by
  obtain ⟨program, hcompile, -⟩ := compile_circular
  obtain ⟨hcount, hderived⟩ := letter_mem_circular hcompile
  have hlimit : ("a".toList.length + 1) * program.generationFuel "a".toList.length ≤ 224 := by
    unfold generationFuel
    rw [hcount]
    exact Nat.le_refl 224
  obtain ⟨session, hparse⟩ := exists_parse_of_mem htotal hcompile "a" hderived hlimit trace
  exact ⟨program, session, hcompile, hparse⟩

theorem parse_circular : ∃ program session, Program.compile circular = .ok program ∧
    program.parse .silent () 224 "a" = .ok true session :=
  exists_parse_circular Tracer.isTotal_silent ()

end Program

end Gll
