import Gll.Proofs.Change
import Gll.Proofs.Laws

/-!
What a scheduler knows, and how it comes to know it.

An elementary change teaches a scheduler at most one thing: a node or a frame together with its
entry in a table, one more split, alternative, link or result, or a task that came. `Lesson` lists
these, with what has to be unknown before. It is read off the changes once (`Kept.of_lessons`), so
that a law that is said in facts is checked lesson by lesson.

That nothing is ever taken back within a generation is the simplest of them (`Kept.of_knows`).
-/

set_option autoImplicit false

namespace Gll

namespace Scheduler

/-- A fact holds of a scheduler. -/
def Knows (s : Scheduler) (fact : Fact) : Prop := (⟨s, []⟩ : Moment).Holds fact

theorem knows_iff_holds {m : Moment} {fact : Fact} (h : ∀ task, fact ≠ .offered task) :
    m.scheduler.Knows fact ↔ m.Holds fact := by
  cases fact with
  | offered task => exact absurd rfl (h task)
  | _ => exact Iff.rfl

/-- What one elementary change may teach a scheduler. -/
inductive Lesson (s : Scheduler) : Set Fact → Prop where
  | nothing : Lesson s ∅
  | empty {id : PrefixId} (hnew : ∀ other, ¬ s.Knows (.emptyKey other)) :
      Lesson s {.empty id s.current, .emptyKey id}
  | cons {label : Label} {first : Position} {id : PrefixId}
      (hnew : ∀ other, ¬ s.Knows (.consKey label first other)) :
      Lesson s {.cons id label first s.current, .consKey label first id}
  | derivation {symbol : Nonterminal} {first : Position} {id : SymbolId}
      (hnew : ∀ other, ¬ s.Knows (.derivationKey symbol first other)) :
      Lesson s {.derivation id symbol first s.current, .derivationKey symbol first id}
  | frame {label : Label} {origin : Nat} {id : StackId}
      (hnew : ∀ other, ¬ s.Knows (.frameKey label origin other)) :
      Lesson s {.frame id label origin, .frameKey label origin id}
  | split {id : PrefixId} {child : Split} : Lesson s {.split id child}
  | alternative {id : SymbolId} {child : PrefixId} : Lesson s {.alternative id child}
  | link {frame : StackId} {link : Link} : Lesson s {.link frame link}
  | result {frame : StackId} {result : SymbolId} : Lesson s {.result frame result}
  | resumed {label : Label} {caller : StackId} (hnew : ¬ s.Knows (.resumed label caller)) :
      Lesson s {.resumed label caller}
  | staged {frame : StackId} {result : SymbolId} (hnew : ¬ s.Knows (.shifted frame)) :
      Lesson s {.shifted frame, .staged (.shift frame result)}

/-- A scheduler learns new facts, and nothing else that matters changes. -/
structure Learns (s s' : Scheduler) (new : Set Fact) : Prop where
  knows (fact : Fact) : s'.Knows fact ↔ s.Knows fact ∨ fact ∈ new
  control : s'.control = s.control

variable {s s' : Scheduler} {new : Set Fact}

theorem Learns.refl (s : Scheduler) : s.Learns s ∅ :=
  ⟨fun fact => by simp, rfl⟩

/-- What was offered is not known to the scheduler. -/
theorem Learns.of_holds {before after : Moment} {told : Set Fact}
    (hholds : ∀ fact, after.Holds fact ↔ before.Holds fact ∨ fact ∈ told)
    (hcontrol : after.scheduler.control = before.scheduler.control)
    (hnew : ∀ fact, fact ∈ new ↔ fact ∈ told ∧ ∀ task, fact ≠ .offered task) :
    before.scheduler.Learns after.scheduler new := by
  refine ⟨fun fact => ?_, hcontrol⟩
  rw [hnew]
  cases fact with
  | offered task => simp [Knows, Moment.Holds]
  | _ =>
    rw [knows_iff_holds (by simp), knows_iff_holds (by simp), hholds]
    simp

theorem Learns.of_adds {before after : Moment} (h : before.Adds after new)
    (hnew : ∀ task, .offered task ∉ new) : before.scheduler.Learns after.scheduler new :=
  .of_holds h.holds h.control fun _ =>
    ⟨fun hfact => ⟨hfact, fun task heq => hnew task (heq ▸ hfact)⟩, fun hfact => hfact.1⟩

/-! ## The elementary changes -/

theorem emptyPrefix_cases {id : PrefixId} (h : s.emptyPrefix = (id, s')) :
    (s' = s ∧ s.Knows (.emptyKey id)) ∨
      ((∀ other, ¬ s.Knows (.emptyKey other)) ∧
        s.Learns s' {.empty id s.current, .emptyKey id}) := by
  have hmake : (⟨s, []⟩ : Moment).scheduler.emptyPrefix
      = (id, (⟨s', []⟩ : Moment).scheduler) := h
  rcases Moment.emptyPrefix_cases hmake rfl with ⟨hsame, hkey⟩ | ⟨hnew, hadds⟩
  · exact .inl ⟨congrArg Moment.scheduler hsame, hkey⟩
  · exact .inr ⟨hnew, .of_adds hadds (by simp)⟩

theorem consFor_cases {label : Label} {first : Position} {id : PrefixId}
    (h : s.consFor label first = (id, s')) :
    (s' = s ∧ s.Knows (.consKey label first id)) ∨
      ((∀ other, ¬ s.Knows (.consKey label first other)) ∧
        s.Learns s' {.cons id label first s.current, .consKey label first id}) := by
  have hmake : (⟨s, []⟩ : Moment).scheduler.consFor label first
      = (id, (⟨s', []⟩ : Moment).scheduler) := h
  rcases Moment.consFor_cases hmake rfl with ⟨hsame, hkey⟩ | ⟨hnew, hadds⟩
  · exact .inl ⟨congrArg Moment.scheduler hsame, hkey⟩
  · exact .inr ⟨hnew, .of_adds hadds (by simp)⟩

theorem derivationFor_cases {symbol : Nonterminal} {first : Position} {id : SymbolId}
    (h : s.derivationFor symbol first = (id, s')) :
    (s' = s ∧ s.Knows (.derivationKey symbol first id)) ∨
      ((∀ other, ¬ s.Knows (.derivationKey symbol first other)) ∧
        s.Learns s' {.derivation id symbol first s.current, .derivationKey symbol first id}) := by
  have hmake : (⟨s, []⟩ : Moment).scheduler.derivationFor symbol first
      = (id, (⟨s', []⟩ : Moment).scheduler) := h
  rcases Moment.derivationFor_cases hmake rfl with ⟨hsame, hkey⟩ | ⟨hnew, hadds⟩
  · exact .inl ⟨congrArg Moment.scheduler hsame, hkey⟩
  · exact .inr ⟨hnew, .of_adds hadds (by simp)⟩

theorem frameFor_cases {label : Label} {origin : Nat} {id : StackId}
    (h : s.frameFor label origin = (id, s')) :
    (s' = s ∧ s.Knows (.frameKey label origin id)) ∨
      ((∀ other, ¬ s.Knows (.frameKey label origin other)) ∧
        s.Learns s' {.frame id label origin, .frameKey label origin id}) := by
  have hmake : (⟨s, []⟩ : Moment).scheduler.frameFor label origin
      = (id, (⟨s', []⟩ : Moment).scheduler) := h
  rcases Moment.frameFor_cases hmake rfl with ⟨hsame, hkey⟩ | ⟨hnew, hadds⟩
  · exact .inl ⟨congrArg Moment.scheduler hsame, hkey⟩
  · exact .inr ⟨hnew, .of_adds hadds (by simp)⟩

theorem link_cases {frame : StackId} {link : Link} {label : Label} {origin : Nat} {isNew : Bool}
    (hframe : s.Knows (.frame frame label origin)) (h : s.link frame link = (isNew, s')) :
    (isNew = false ∧ s' = s ∧ s.Knows (.link frame link)) ∨
      (isNew = true ∧ ¬ s.Knows (.link frame link) ∧ s.Learns s' {.link frame link}) := by
  have hlink : (⟨s, []⟩ : Moment).scheduler.link frame link
      = (isNew, (⟨s', []⟩ : Moment).scheduler) := h
  rcases Moment.link_cases hframe hlink rfl with ⟨hisNew, hsame, hold⟩ | ⟨hisNew, hnew, hadds⟩
  · exact .inl ⟨hisNew, congrArg Moment.scheduler hsame, hold⟩
  · exact .inr ⟨hisNew, hnew, .of_adds hadds (by simp)⟩

theorem recordResult_cases {frame : StackId} {result : SymbolId} {isNew : Bool}
    (h : s.recordResult frame result = (isNew, s')) :
    (isNew = false ∧ s' = s ∧ s.Knows (.result frame result)) ∨
      (isNew = true ∧ ¬ s.Knows (.result frame result) ∧ s.Learns s' {.result frame result}) := by
  have hrecord : (⟨s, []⟩ : Moment).scheduler.recordResult frame result
      = (isNew, (⟨s', []⟩ : Moment).scheduler) := h
  rcases Moment.recordResult_cases hrecord rfl with ⟨hisNew, hsame, hold⟩ | ⟨hisNew, hnew, hadds⟩
  · exact .inl ⟨hisNew, congrArg Moment.scheduler hsame, hold⟩
  · exact .inr ⟨hisNew, hnew, .of_adds hadds (by simp)⟩

theorem packSplit_learns_split {id : PrefixId} {label : Label} {first last : Position}
    (hcons : s.Knows (.cons id label first last)) (child : Split) :
    s.Learns (s.packSplit id child) {.split id child} := by
  have hpack : (⟨s.packSplit id child, []⟩ : Moment).scheduler
      = (⟨s, []⟩ : Moment).scheduler.packSplit id child := rfl
  exact .of_adds (Moment.packSplit_adds hcons hpack rfl) (by simp)

/-! ## Lessons -/

theorem emptyPrefix_learns (s : Scheduler) :
    ∃ new, s.Lesson new ∧ s.Learns s.emptyPrefix.2 new := by
  rcases emptyPrefix_cases (Prod.eta s.emptyPrefix).symm with ⟨hsame, -⟩ | ⟨hnew, hlearns⟩
  · rw [hsame]
    exact ⟨_, .nothing, .refl s⟩
  · exact ⟨_, .empty hnew, hlearns⟩

theorem consFor_learns (label : Label) (first : Position) (s : Scheduler) :
    ∃ new, s.Lesson new ∧ s.Learns (s.consFor label first).2 new := by
  rcases consFor_cases (Prod.eta (s.consFor label first)).symm with ⟨hsame, -⟩ | ⟨hnew, hlearns⟩
  · rw [hsame]
    exact ⟨_, .nothing, .refl s⟩
  · exact ⟨_, .cons hnew, hlearns⟩

theorem derivationFor_learns (symbol : Nonterminal) (first : Position) (s : Scheduler) :
    ∃ new, s.Lesson new ∧ s.Learns (s.derivationFor symbol first).2 new := by
  rcases derivationFor_cases (Prod.eta (s.derivationFor symbol first)).symm with
    ⟨hsame, -⟩ | ⟨hnew, hlearns⟩
  · rw [hsame]
    exact ⟨_, .nothing, .refl s⟩
  · exact ⟨_, .derivation hnew, hlearns⟩

theorem frameFor_learns (label : Label) (origin : Nat) (s : Scheduler) :
    ∃ new, s.Lesson new ∧ s.Learns (s.frameFor label origin).2 new := by
  rcases frameFor_cases (Prod.eta (s.frameFor label origin)).symm with ⟨hsame, -⟩ | ⟨hnew, hlearns⟩
  · rw [hsame]
    exact ⟨_, .nothing, .refl s⟩
  · exact ⟨_, .frame hnew, hlearns⟩

/-- To change what an array has at an index, where the change is none, is to change nothing. -/
theorem modify_eq_self {α : Type} {items : Array α} {i : Nat} {change : α → α}
    (h : ∀ item, items[i]? = some item → change item = item) : items.modify i change = items := by
  refine Array.ext_getElem? fun j => ?_
  rw [Array.getElem?_modify]
  split
  · rename_i heq
    subst heq
    cases hitem : items[i]? with
    | none => rfl
    | some item => rw [Option.map_some, h item hitem]
  · rfl

theorem packSplit_learns (id : PrefixId) (child : Split) (s : Scheduler) :
    ∃ new, s.Lesson new ∧ s.Learns (s.packSplit id child) new := by
  by_cases hcons : ∃ label first last, s.Knows (.cons id label first last)
  · obtain ⟨label, first, last, hcons⟩ := hcons
    exact ⟨_, .split, packSplit_learns_split hcons child⟩
  · -- There is only one empty prefix, so nothing is packed.
    have hsame : s.forest.packSplit id child = s.forest := by
      rw [Forest.packSplit, modify_eq_self]
      intro node hnode
      cases node with
      | empty position => rfl
      | cons label first last children => exact absurd ⟨label, first, last, children, hnode⟩ hcons
    rw [packSplit, hsame]
    exact ⟨_, .nothing, .refl s⟩

theorem packAlternative_learns (id : SymbolId) (child : PrefixId) (s : Scheduler) :
    ∃ new, s.Lesson new ∧ s.Learns (s.packAlternative id child) new := by
  by_cases hnode : ∃ symbol first last, s.Knows (.derivation id symbol first last)
  · obtain ⟨symbol, first, last, hnode⟩ := hnode
    have hpack : (⟨s.packAlternative id child, []⟩ : Moment).scheduler
        = (⟨s, []⟩ : Moment).scheduler.packAlternative id child := rfl
    have hadds := Moment.packAlternative_adds hnode hpack rfl
    exact ⟨_, .alternative, .of_adds hadds (by simp)⟩
  · -- A terminal has no alternatives, so nothing is packed.
    have hsame : s.forest.packAlternative id child = s.forest := by
      rw [Forest.packAlternative, modify_eq_self]
      intro node hsymbol
      cases node with
      | terminal position => rfl
      | nonterminal symbol first last alternatives =>
        exact absurd ⟨symbol, first, last, alternatives, hsymbol⟩ hnode
    rw [packAlternative, hsame]
    exact ⟨_, .nothing, .refl s⟩

theorem link_learns (frame : StackId) (link : Link) (s : Scheduler) :
    ∃ new, s.Lesson new ∧ s.Learns (Scheduler.link frame link s).2 new := by
  by_cases hframe : ∃ label origin, s.Knows (.frame frame label origin)
  · obtain ⟨label, origin, hframe⟩ := hframe
    rcases link_cases hframe (Prod.eta (Scheduler.link frame link s)).symm with
      ⟨-, hsame, -⟩ | ⟨-, -, hlearns⟩
    · rw [hsame]
      exact ⟨_, .nothing, .refl s⟩
    · exact ⟨_, .link, hlearns⟩
  · -- What is not a frame gets no links.
    have hold : s.graph.isNewLink frame link = false := by
      rw [StackGraph.isNewLink]
      split
      · rename_i label origin links hstack
        exact absurd ⟨label, origin, links, hstack⟩ hframe
      · rfl
    rw [Scheduler.link, hold]
    exact ⟨_, .nothing, .refl s⟩

theorem recordResult_learns (frame : StackId) (result : SymbolId) (s : Scheduler) :
    ∃ new, s.Lesson new ∧ s.Learns (s.recordResult frame result).2 new := by
  rcases recordResult_cases (Prod.eta (s.recordResult frame result)).symm with
    ⟨-, hsame, -⟩ | ⟨-, -, hlearns⟩
  · rw [hsame]
    exact ⟨_, .nothing, .refl s⟩
  · exact ⟨_, .result, hlearns⟩

/-- A task that comes is known by its key. -/
theorem offer_learns (task : Task) (s : Scheduler) :
    ∃ new, s.Lesson new ∧ s.Learns (s.offer task).2 new := by
  have hoffer : (⟨s, []⟩ : Moment).scheduler.offer task
      = ((s.offer task).1, (⟨(s.offer task).2, [task]⟩ : Moment).scheduler) := rfl
  cases task with
  | resume label caller stem =>
    rcases Moment.offer_resume_cases hoffer rfl with
      ⟨-, -, hadds⟩ | ⟨-, hnew, hholds, hcontrol, -⟩
    · exact ⟨_, .nothing, .of_holds hadds.holds hadds.control fun fact => by
        cases fact <;> simp⟩
    · exact ⟨_, .resumed hnew, .of_holds hholds hcontrol fun fact => by cases fact <;> simp⟩
  | shift frame result =>
    rcases Moment.offer_shift_cases hoffer rfl with ⟨-, -, hadds⟩ | ⟨-, hnew, hadds⟩
    · exact ⟨_, .nothing, .of_holds hadds.holds hadds.control fun fact => by
        cases fact <;> simp⟩
    · have hlesson : s.Lesson {.shifted frame, .staged (.shift frame result)} := .staged hnew
      exact ⟨_, hlesson, .of_holds hadds.holds hadds.control fun fact => by cases fact <;> simp⟩

end Scheduler

open Scheduler

variable {P : Scheduler → Prop}

/-- What no lesson breaks is broken by no elementary change. -/
theorem Kept.of_lessons (h : ∀ {s s' new}, Lesson s new → s.Learns s' new → P s → P s') :
    Kept P where
  emptyPrefix hs := by
    obtain ⟨new, hlesson, hlearns⟩ := emptyPrefix_learns _
    exact h hlesson hlearns hs
  consFor label first hs := by
    obtain ⟨new, hlesson, hlearns⟩ := consFor_learns label first _
    exact h hlesson hlearns hs
  derivationFor symbol first hs := by
    obtain ⟨new, hlesson, hlearns⟩ := derivationFor_learns symbol first _
    exact h hlesson hlearns hs
  packSplit id child hs := by
    obtain ⟨new, hlesson, hlearns⟩ := packSplit_learns id child _
    exact h hlesson hlearns hs
  packAlternative id child hs := by
    obtain ⟨new, hlesson, hlearns⟩ := packAlternative_learns id child _
    exact h hlesson hlearns hs
  offer task hs := by
    obtain ⟨new, hlesson, hlearns⟩ := offer_learns task _
    exact h hlesson hlearns hs
  frameFor label origin hs := by
    obtain ⟨new, hlesson, hlearns⟩ := frameFor_learns label origin _
    exact h hlesson hlearns hs
  link frame link hs := by
    obtain ⟨new, hlesson, hlearns⟩ := link_learns frame link _
    exact h hlesson hlearns hs
  recordResult frame result hs := by
    obtain ⟨new, hlesson, hlearns⟩ := recordResult_learns frame result _
    exact h hlesson hlearns hs

/-- Nothing is taken back within a generation, so what is positive in the facts is kept. -/
theorem Kept.of_knows (h : ∀ {s s' : Scheduler}, (∀ {fact}, s.Knows fact → s'.Knows fact) →
    s'.control = s.control → P s → P s') : Kept P :=
  .of_lessons fun _ hlearns =>
    h (fun hfact => (hlearns.knows _).mpr (.inl hfact)) hlearns.control

/-- A scheduler that is a later one of the same generation. -/
structure Scheduler.Later (s s' : Scheduler) : Prop where
  knows {fact : Fact} : s.Knows fact → s'.Knows fact
  control : s'.control = s.control

theorem Scheduler.Later.refl (s : Scheduler) : s.Later s := ⟨id, rfl⟩

theorem Scheduler.Later.trans {a b c : Scheduler} (h : a.Later b) (h' : b.Later c) : a.Later c :=
  ⟨fun hfact => h'.knows (h.knows hfact), h'.control.trans h.control⟩

theorem Scheduler.Learns.later {s s' : Scheduler} {new : Set Fact} (h : s.Learns s' new) :
    s.Later s' :=
  ⟨fun hfact => (h.knows _).mpr (.inl hfact), h.control⟩

theorem Scheduler.kept_later (s : Scheduler) : Kept s.Later :=
  .of_knows fun hknows hcontrol h => h.trans ⟨hknows, hcontrol⟩

end Gll
