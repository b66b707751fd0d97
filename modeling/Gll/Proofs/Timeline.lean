import Gll.Proofs.Generation

/-!
The generations of a parse, one after the other.

A moment has a timeline if its generation is underway and the one before it was drained and has a
timeline itself (`Moment.Timeline`). This is what every call on a session keeps. For arguments that
go from one generation to a later one, and back to the one in which a frame was made, the moments at
which the generations were left are laid side by side by offset (`Moment.Stages`).
-/

set_option autoImplicit false

namespace Gll

namespace Moment

/-- The generations up to a moment were opened one after the other, each when the one before it was
drained. -/
inductive Timeline (program : Program) (input : List Char) : Moment → Prop where
  | first {m : Moment} (hindex : m.index = 0) (hunderway : m.Underway program input []) :
      Timeline program input m
  | next {previous m : Moment} (hprevious : Timeline program input previous)
      (hdrained : previous.pending = []) (hfollows : previous.Follows m)
      (hindex : m.index = previous.index + 1)
      (hunderway : m.Underway program input previous.scheduler.staged.toList) :
      Timeline program input m

/-- The tasks that the generation before the one of an offset had staged. -/
def carriedInto (stages : Nat → Moment) : Nat → List Task
  | 0 => []
  | j + 1 => (stages j).scheduler.staged.toList

/-- The moments at which the generations were left, by offset; the last one is underway. -/
structure Stages (program : Program) (input : List Char) (stages : Nat → Moment) (k : Nat) :
    Prop where
  index {j : Nat} : j ≤ k → (stages j).index = j
  underway {j : Nat} : j ≤ k → (stages j).Underway program input (carriedInto stages j)
  drained {j : Nat} : j < k → (stages j).pending = []
  follows {j : Nat} : j < k → (stages j).Follows (stages (j + 1))

variable {program : Program} {input : List Char}

namespace Timeline

variable {m : Moment}

theorem underway (h : Timeline program input m) :
    ∃ carried, m.Underway program input carried := by
  cases h with
  | first _ hunderway => exact ⟨_, hunderway⟩
  | next _ _ _ _ hunderway => exact ⟨_, hunderway⟩

/-- Doing a task stays on the timeline. -/
theorem work (h : Timeline program input m) (hlaid : program.Laid) {task : Task} {rest : Scheduler}
    (hdequeue : m.scheduler.dequeue? = some (task, rest)) {answer : Unit × Unit} {after : Moment}
    (hrun : Routine.Leads ((program.interpreter.routine task).run ()) ⟨rest, m.offers⟩ answer
      after) : Timeline program input after := by
  cases h with
  | first hindex hunderway =>
    obtain ⟨hunderway', hindex', _, _⟩ := hunderway.work hlaid hdequeue hrun
    exact .first (hindex'.trans hindex) hunderway'
  | next hprevious hdrained hfollows hindex hunderway =>
    obtain ⟨hunderway', hindex', hholds, hframes⟩ := hunderway.work hlaid hdequeue hrun
    refine .next hprevious hdrained ⟨fun hlasts hfact => hholds (hfollows.lasts hlasts hfact),
      fun hframe hlt => ?_⟩ (hindex'.trans hindex) hunderway'
    rw [hindex'] at hlt
    rcases hframes hframe with hold | heq
    · exact hfollows.frames hold hlt
    · omega

/-- Opening a generation goes on with the timeline. -/
theorem opened (h : Timeline program input m) {after : Moment} {symbol : Option Char}
    {root : SymbolId} {node : Option SymbolId} (hopens : m.Opens after symbol root node)
    (hdrained : m.pending = []) (hfinished : m.scheduler.isFinished = false)
    (hsymbol : symbol = input[m.scheduler.nextIndex]?) : Timeline program input after := by
  obtain ⟨carried, hunderway⟩ := h.underway
  obtain ⟨hunderway', hindex, hfollows⟩ := hopens.underway hunderway hfinished hsymbol
  exact .next h hdrained hfollows hindex hunderway'

/-- The generations of a timeline, laid side by side. -/
theorem exists_stages (h : Timeline program input m) :
    ∃ stages, Stages program input stages m.index ∧ stages m.index = m := by
  -- The last moment is put at its offset, and those before it stay where they are.
  induction h with
  | @first m hindex hunderway =>
    refine ⟨fun _ => m, ⟨fun hj => ?_, fun hj => ?_, fun hj => ?_, fun hj => ?_⟩, rfl⟩
    · omega
    · obtain rfl := Nat.le_zero.mp (hindex ▸ hj)
      exact hunderway
    · omega
    · omega
  | @next previous m _ hdrained hfollows hindex hunderway ih =>
    obtain ⟨stages, hstages, hlast⟩ := ih
    have hpast {j : Nat} (hj : j ≤ previous.index) :
        Function.update stages m.index m j = stages j :=
      Function.update_of_ne (by omega) _ _
    have hcarried {j : Nat} (hj : j ≤ m.index) :
        carriedInto (Function.update stages m.index m) j = carriedInto stages j := by
      cases j with
      | zero => rfl
      | succ j => rw [carriedInto, hpast (by omega), carriedInto]
    have hnow : Function.update stages m.index m m.index = m := Function.update_self ..
    refine ⟨Function.update stages m.index m, ⟨fun {j} hj => ?_, fun {j} hj => ?_, fun {j} hj => ?_,
      fun {j} hj => ?_⟩, hnow⟩
    · by_cases hjm : j = m.index
      · rw [hjm, hnow]
      · rw [hpast (by omega)]
        exact hstages.index (by omega)
    · rw [hcarried hj]
      by_cases hjm : j = m.index
      · rw [hjm, hnow, hindex, carriedInto, hlast]
        exact hunderway
      · rw [hpast (by omega)]
        exact hstages.underway (by omega)
    · rw [hpast (by omega)]
      by_cases hjp : j = previous.index
      · rw [hjp, hlast]
        exact hdrained
      · exact hstages.drained (by omega)
    · rw [hpast (by omega)]
      by_cases hjp : j = previous.index
      · rw [hjp, ← hindex, hnow, hlast]
        exact hfollows
      · rw [hpast (by omega)]
        exact hstages.follows (by omega)

/-- When nothing is pending, nothing is in the last of them. -/
theorem exists_drained_stages (h : Timeline program input m) (hdrained : m.pending = []) :
    ∃ stages, Stages program input stages m.index ∧ stages m.index = m ∧
      (stages m.index).pending = [] := by
  obtain ⟨stages, hstages, hlast⟩ := h.exists_stages
  exact ⟨stages, hstages, hlast, hlast.symm ▸ hdrained⟩

end Timeline

/-! ## From one generation to another -/

namespace Stages

variable {stages : Nat → Moment} {k : Nat} (h : Stages program input stages k)
include h

theorem sound {j : Nat} (hj : j ≤ k) : (stages j).Sound program input :=
  (h.underway hj).steady.sound

/-- What lasts holds in all later generations. -/
theorem lasts {i j : Nat} (hij : i ≤ j) (hj : j ≤ k) {fact : Fact} (hlasts : fact.Lasts)
    (hfact : (stages i).Holds fact) : (stages j).Holds fact := by
  induction j, hij using Nat.le_induction with
  | base => exact hfact
  | succ j hij ih => exact (h.follows hj).lasts hlasts (ih (by omega))

/-- A frame was there in the generation in which it begins. -/
theorem frame_at_origin {j : Nat} (hj : j ≤ k) {id : StackId} {label : Label} {origin : Nat}
    (hframe : (stages j).Holds (.frame id label origin)) :
    (stages origin).Holds (.frame id label origin) := by
  have hle : origin ≤ j := h.index hj ▸ ((h.sound hj).proper hframe).1
  -- Going back one generation after the other, until the one in which the frame begins.
  induction j with
  | zero =>
    rw [Nat.le_zero.mp hle] at hframe ⊢
    exact hframe
  | succ j ih =>
    by_cases heq : origin = j + 1
    · rw [heq] at hframe ⊢
      exact hframe
    · refine ih (by omega) ((h.follows hj).frames hframe ?_) (by omega)
      rw [h.index hj]
      omega

variable (hlast : (stages k).pending = [])
include hlast

theorem pending_eq_nil {j : Nat} (hj : j ≤ k) : (stages j).pending = [] := by
  by_cases hjk : j = k
  · rw [hjk]
    exact hlast
  · exact h.drained (by omega)

/-- Every slot that was to be resumed has been run, with the prefix with which it was offered. -/
theorem covered (hlaid : program.Laid) {j : Nat} (hj : j ≤ k) {label : Label} {caller : StackId}
    {stem : PrefixId} (hoffered : (stages j).Holds (.offered (.resume label caller stem))) :
    (stages j).Covered program label caller stem := by
  have hsound := h.sound hj
  obtain ⟨stem', hoffered', hsettled⟩ := (h.underway hj).resumed (hsound.proper hoffered).1
  rw [h.pending_eq_nil hlast hj] at hsettled
  obtain rfl := hsound.stem_unique hlaid hoffered hoffered'
  exact hsettled.resolve_left List.not_mem_nil

/-- Every terminal that was staged has been given to its frame in the next generation. -/
theorem shifted {j : Nat} (hj : j < k) {frame : StackId} {result : SymbolId}
    (hstaged : (stages j).Holds (.staged (.shift frame result))) :
    (stages (j + 1)).Holds (.result frame result) := by
  have hmem : .shift frame result ∈ carriedInto stages (j + 1) := Array.mem_toList_iff.mpr hstaged
  have hsettled := (h.underway hj).carried hmem
  rw [h.pending_eq_nil hlast hj] at hsettled
  exact hsettled.resolve_left List.not_mem_nil

end Stages

end Moment

end Gll
