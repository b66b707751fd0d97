import Gll.Proofs.Generation
import Gll.Proofs.Laws

/-!
Tasks are done once.

Within a generation a task that was taken out of the queue may be offered again, so the queue alone
does not tell what was done. `Tally` counts both the tasks that were taken and those that are
pending: no label is resumed twice for a caller, no terminal is staged twice for a frame, and the
terminals that are delivered are those that the generation before has staged.
-/

set_option autoImplicit false

namespace Gll

/-- What is resumed by a task, and for whom. -/
def Task.resumed? : Task → Option (Label × StackId)
  | resume label caller _ => some (label, caller)
  | shift .. => none

/-- The frame to which a task delivers a terminal. -/
def Task.shifted? : Task → Option StackId
  | resume .. => none
  | shift frame _ => some frame

/-! ## The desk -/

namespace Scheduler

/-- The tasks that wait, and the sets by which the like of them are told. -/
def desk (s : Scheduler) : Queue Task × Array Task × Std.HashSet (Label × StackId) ×
    Std.HashSet StackId :=
  (s.pending, s.staged, s.memory.resumed, s.memory.shifted)

end Scheduler

/-- A step that changes which tasks wait by offering one, if at all. -/
def Step.Quiet {α : Type} : Step α → Prop
  | .update change => ∀ s, (change s).2.desk = s.desk
  | _ => True

/-- Requests change which tasks wait by offering some, if at all. -/
theorem Step.steps_quiet : Steps Step.Quiet where
  look _ := trivial
  emit _ := trivial
  offer _ := trivial
  emptyPrefix s := by
    rw [Scheduler.emptyPrefix]
    split <;> rfl
  consFor label first s := by
    rw [Scheduler.consFor]
    split <;> rfl
  derivationFor symbol first s := by
    rw [Scheduler.derivationFor]
    split <;> rfl
  packSplit _ _ _ := rfl
  packAlternative _ _ _ := rfl
  frameFor label origin s := by
    rw [Scheduler.frameFor]
    split <;> rfl
  link frame link s := by
    rw [Scheduler.link]
    split <;> rfl
  recordResult frame result s := by
    simp only [Scheduler.recordResult]
    split <;> rfl

/-! ## Tallies -/

/-- What a generation that took some tasks out has done and has yet to do. Its first tasks were
deliveries to the frames that were carried into it. -/
structure Tally (carried : List StackId) (taken : List Task) (s : Scheduler) : Prop where
  resumed (key : Label × StackId) :
    key ∈ s.memory.resumed ↔ key ∈ (taken ++ s.pending.toList).filterMap Task.resumed?
  resumedOnce : ((taken ++ s.pending.toList).filterMap Task.resumed?).Nodup
  carried : (taken ++ s.pending.toList).filterMap Task.shifted? = carried
  staged : s.staged.toList.filterMap Task.resumed? = []
  shifted (frame : StackId) :
    frame ∈ s.memory.shifted ↔ frame ∈ s.staged.toList.filterMap Task.shifted?
  shiftedOnce : (s.staged.toList.filterMap Task.shifted?).Nodup

namespace Tally

variable {carried : List StackId} {taken : List Task} {s rest : Scheduler}

theorem enqueue (h : Tally carried taken s) (label : Label) (caller : StackId) (stem : PrefixId) :
    Tally carried taken (s.enqueue label caller stem).2 := by
  rw [Scheduler.enqueue]
  split
  · exact h
  · rename_i hnew
    -- Those that were resumed are just the keys of the tasks, so this one is none of them.
    have hnew' : (label, caller) ∉ (taken ++ s.pending.toList).filterMap Task.resumed? := by
      rw [← h.resumed]
      simpa using hnew
    have hkeys : (taken ++ (s.pending.enqueue (.resume label caller stem)).toList).filterMap
        Task.resumed?
          = (taken ++ s.pending.toList).filterMap Task.resumed? ++ [(label, caller)] := by
      simp [Task.resumed?]
    refine ⟨fun key => ?_, ?_, ?_, h.staged, h.shifted, h.shiftedOnce⟩
    · rw [hkeys, List.mem_append, List.mem_singleton, ← h.resumed, Std.HashSet.mem_insert,
        beq_iff_eq, eq_comm, or_comm]
    · rw [hkeys, List.nodup_append]
      refine ⟨h.resumedOnce, List.nodup_singleton _, fun a ha b hb => ?_⟩
      rw [List.mem_singleton.mp hb]
      exact fun heq => hnew' (heq ▸ ha)
    · have hcarried := h.carried
      rw [List.filterMap_append] at hcarried
      simpa [List.filterMap_cons, Task.shifted?] using hcarried

theorem stage (h : Tally carried taken s) (frame : StackId) (result : SymbolId) :
    Tally carried taken (s.stage frame result).2 := by
  rw [Scheduler.stage]
  split
  · exact h
  · rename_i hnew
    have hnew' : frame ∉ s.staged.toList.filterMap Task.shifted? := by
      rw [← h.shifted]
      simpa using hnew
    have hframes : (s.staged.push (.shift frame result)).toList.filterMap Task.shifted?
        = s.staged.toList.filterMap Task.shifted? ++ [frame] := by
      simp [Task.shifted?]
    refine ⟨h.resumed, h.resumedOnce, h.carried, ?_, fun other => ?_, ?_⟩
    · rw [Array.toList_push, List.filterMap_append, h.staged]
      rfl
    · rw [hframes, List.mem_append, List.mem_singleton, ← h.shifted, Std.HashSet.mem_insert,
        beq_iff_eq, eq_comm, or_comm]
    · rw [hframes, List.nodup_append]
      refine ⟨h.shiftedOnce, List.nodup_singleton _, fun a ha b hb => ?_⟩
      rw [List.mem_singleton.mp hb]
      exact fun heq => hnew' (heq ▸ ha)

/-- Tasks are tallied from what is on the desk. -/
theorem of_desk (h : Tally carried taken s) (hdesk : rest.desk = s.desk) :
    Tally carried taken rest := by
  simp only [Scheduler.desk, Prod.mk.injEq] at hdesk
  obtain ⟨hpending, hstaged, hresumed, hshifted⟩ := hdesk
  refine ⟨?_, hpending ▸ h.resumedOnce, hpending ▸ h.carried, hstaged ▸ h.staged, ?_,
    hstaged ▸ h.shiftedOnce⟩
  · rw [hpending, hresumed]
    exact h.resumed
  · rw [hstaged, hshifted]
    exact h.shifted

/-- No change within a generation does away with a task or does one again. -/
theorem kept (carried : List StackId) (taken : List Task) : Kept (Tally carried taken) where
  emptyPrefix {s} h := h.of_desk (Step.steps_quiet.emptyPrefix s)
  consFor {s} label first h := h.of_desk (Step.steps_quiet.consFor label first s)
  derivationFor {s} symbol first h := h.of_desk (Step.steps_quiet.derivationFor symbol first s)
  packSplit _ _ h := h.of_desk rfl
  packAlternative _ _ h := h.of_desk rfl
  offer task h := by
    cases task with
    | resume label caller stem => exact h.enqueue label caller stem
    | shift frame result => exact h.stage frame result
  frameFor {s} label origin h := h.of_desk (Step.steps_quiet.frameFor label origin s)
  link {s} frame link h := h.of_desk (Step.steps_quiet.link frame link s)
  recordResult {s} frame result h := h.of_desk (Step.steps_quiet.recordResult frame result s)

/-- A task that is taken out still counts. -/
theorem dequeue (h : Tally carried taken s) {task : Task}
    (hdequeue : s.dequeue? = some (task, rest)) : Tally carried (taken ++ [task]) rest := by
  obtain ⟨pending, hqueue, rfl⟩ := Scheduler.exists_of_dequeue? hdequeue
  have hlist : taken ++ [task] ++ pending.toList = taken ++ s.pending.toList := by
    rw [hqueue, List.append_assoc, List.singleton_append]
  refine ⟨fun key => ?_, ?_, ?_, h.staged, h.shifted, h.shiftedOnce⟩
  · rw [hlist]
    exact h.resumed key
  · rw [hlist]
    exact h.resumedOnce
  · rw [hlist]
    exact h.carried

theorem initial (start : Nonterminal) : Tally [] [] (.initial start) := by
  constructor <;> simp [Scheduler.initial, Memory.empty, Queue.toList, Queue.empty]

/-- What was staged is carried into the next generation, and nothing else is. -/
theorem advance (h : Tally carried taken s) (symbol : Option Char) :
    Tally (s.staged.toList.filterMap Task.shifted?) [] (s.advance symbol) := by
  have hmoved (isLast : Bool) : Tally (s.staged.toList.filterMap Task.shifted?) []
      (s.moveTo (s.nextPosition symbol) isLast) := by
    constructor <;> simp [Scheduler.moveTo, Memory.empty, h.staged]
  have hanchored {s : Scheduler} {carried : List StackId} (h : Tally carried [] s) :
      Tally carried [] s.anchorRoot :=
    h.of_desk (Step.steps_quiet.derivationFor s.start (s.first.getD s.current) s)
  cases symbol with
  | none => exact hanchored (hmoved true)
  | some c => exact hanchored ((hmoved false).of_desk rfl)

/-- In every state of a parse the tasks are tallied. -/
theorem law (start : Nonterminal) : Law start fun s => ∃ carried taken, Tally carried taken s where
  toKept := .exists fun carried => .exists fun taken => kept carried taken
  initial := ⟨[], [], .initial start⟩
  advance symbol _ := fun ⟨_, _, h⟩ => ⟨_, _, h.advance symbol⟩
  dequeue hdequeue := fun ⟨_, _, h⟩ => ⟨_, _, h.dequeue hdequeue⟩

end Tally

end Gll
