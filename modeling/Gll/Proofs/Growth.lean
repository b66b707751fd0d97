import Gll.Proofs.Change

/-!
How a moment grows within a generation.

Most of what a scheduler does adds facts that no other fact waits for. Three kinds are different:
a new link has to be met by the results that its frame has, a new result by the links, and a new
frame by the slots that run on it. So `Moment.Grows` says of a change that it takes nothing back,
and names the frames, links and results that it may have brought. Everything else about it is what
the queue of tasks needs: a task that came was offered, and a slot that is newly resumed waits
there.

Growing is transitive, which is how the changes of a task are put together.
-/

set_option autoImplicit false

namespace Gll

/-- Facts on frames, their links and their results. -/
def Fact.OnStacks : Fact → Prop
  | frame .. | link .. | result .. => True
  | _ => False

/-- What may come in the generation of an offset: a frame begins where it is made. -/
def Fact.newAt (k : Nat) : Set Fact :=
  { fact | ∀ id label origin, fact = .frame id label origin → origin = k }

@[simp] theorem Fact.frame_mem_newAt {k origin : Nat} {id : StackId} {label : Label} :
    .frame id label origin ∈ newAt k ↔ origin = k := by
  constructor
  · exact fun h => h id label origin rfl
  · rintro rfl _ _ _ ⟨⟩
    rfl

@[simp] theorem Fact.link_mem_newAt {k : Nat} {frame : StackId} {link : Link} :
    .link frame link ∈ newAt k := by
  rintro _ _ _ ⟨⟩

@[simp] theorem Fact.result_mem_newAt {k : Nat} {frame : StackId} {result : SymbolId} :
    .result frame result ∈ newAt k := by
  rintro _ _ _ ⟨⟩

namespace Moment

/-- A change within a generation that takes nothing back and brings no frames, links and results but
the given ones. -/
structure Grows (before after : Moment) (new : Set Fact) : Prop where
  holds {fact : Fact} : before.Holds fact → after.Holds fact
  onStacks {fact : Fact} : after.Holds fact → fact.OnStacks → before.Holds fact ∨ fact ∈ new
  control : after.scheduler.control = before.scheduler.control
  pending {task : Task} : task ∈ before.pending → task ∈ after.pending
  /-- Tasks that came were offered, and are not for later. -/
  arrived {task : Task} : task ∈ after.pending → task ∈ before.pending ∨
    ∃ label caller stem, task = .resume label caller stem ∧ after.Holds (.offered task)
  resumed {label : Label} {caller : StackId} : after.Holds (.resumed label caller) →
    before.Holds (.resumed label caller) ∨ ∃ stem, .resume label caller stem ∈ after.pending

variable {a b c before after : Moment} {new new' : Set Fact}

namespace Grows

theorem refl (m : Moment) (new : Set Fact) : m.Grows m new where
  holds := id
  onStacks hfact _ := .inl hfact
  control := rfl
  pending := id
  arrived := .inl
  resumed := .inl

theorem trans (h : a.Grows b new) (h' : b.Grows c new) : a.Grows c new where
  holds hfact := h'.holds (h.holds hfact)
  onStacks hfact hstacks := by
    rcases h'.onStacks hfact hstacks with hfact | hnew
    · exact h.onStacks hfact hstacks
    · exact .inr hnew
  control := h'.control.trans h.control
  pending htask := h'.pending (h.pending htask)
  arrived htask := by
    rcases h'.arrived htask with htask | hnew
    · rcases h.arrived htask with htask | ⟨label, caller, stem, heq, hoffered⟩
      · exact .inl htask
      · exact .inr ⟨label, caller, stem, heq, h'.holds hoffered⟩
    · exact .inr hnew
  resumed hresumed := by
    rcases h'.resumed hresumed with hresumed | hnew
    · rcases h.resumed hresumed with hresumed | ⟨stem, htask⟩
      · exact .inl hresumed
      · exact .inr ⟨stem, h'.pending htask⟩
    · exact .inr hnew

theorem mono (h : before.Grows after new) (hsub : new ⊆ new') : before.Grows after new' where
  holds := h.holds
  onStacks hfact hstacks := (h.onStacks hfact hstacks).imp_right fun hnew => hsub hnew
  control := h.control
  pending := h.pending
  arrived := h.arrived
  resumed := h.resumed

theorem lasts (h : before.Grows after new) {fact : Fact} (_ : fact.Lasts)
    (hfact : before.Holds fact) : after.Holds fact :=
  h.holds hfact

/-- A change that brings no frames, links or results may be followed by any. -/
theorem of_empty (h : before.Grows after ∅) : before.Grows after new :=
  h.mono (Set.empty_subset new)

end Grows

/-- What only adds facts grows, unless it resumes a slot. -/
theorem Adds.grows (h : before.Adds after new)
    (hresumed : ∀ label caller, .resumed label caller ∉ new)
    (hstacks : ∀ fact ∈ new, fact.OnStacks → fact ∈ new') : before.Grows after new' where
  holds hfact := h.holds _ |>.mpr (.inl hfact)
  onStacks hfact honStacks := by
    rcases (h.holds _).mp hfact with hfact | hnew
    · exact .inl hfact
    · exact .inr (hstacks _ hnew honStacks)
  control := h.control
  pending htask := by
    rw [h.pending]
    exact htask
  arrived htask := by
    rw [h.pending] at htask
    exact .inl htask
  resumed hfact := by
    rcases (h.holds _).mp hfact with hfact | hnew
    · exact .inl hfact
    · exact absurd hnew (hresumed _ _)

end Moment

end Gll
