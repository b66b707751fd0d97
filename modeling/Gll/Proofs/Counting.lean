import Gll.Proofs.Tally
import Gll.Proofs.Timeline
import Mathlib.Data.Finset.Option
import Mathlib.Data.Finset.Prod

/-!
How much there is to do in a generation.

Frames are told apart by label and origin, not only within a generation but over a whole parse: a
frame is made in the generation of its origin, and there the tables find it
(`Moment.Timeline.frame_unique`). A program has one label for each slot, so up to an offset there
are only so many frames, and only so many callers for which a slot can be resumed. A slot is resumed
once for a caller, and a terminal is staged once for a frame; so the tasks of a generation are
bounded by the slots of the program and the offset, however the stacks are linked.
-/

set_option autoImplicit false

namespace Gll

/-- A list without repetition is no longer than a set into which its members can be mapped. -/
theorem length_le_card_of_injOn {α β : Type} [DecidableEq β] {items : List α}
    (hnodup : items.Nodup) {places : Finset β} (place : α → β)
    (hmaps : ∀ item ∈ items, place item ∈ places)
    (hinj : ∀ item ∈ items, ∀ other ∈ items, place item = place other → item = other) :
    items.length ≤ places.card := by
  have hmapped : (items.map place).Nodup := hnodup.map_on hinj
  rw [← List.length_map (f := place), ← List.toFinset_card_of_nodup hmapped]
  refine Finset.card_le_card fun b hmem => ?_
  obtain ⟨item, hitem, rfl⟩ := List.mem_map.mp (List.mem_toFinset.mp hmem)
  exact hmaps item hitem

/-- Every task resumes a slot or delivers a terminal. -/
theorem length_eq_resumed_add_shifted (tasks : List Task) :
    tasks.length
      = (tasks.filterMap Task.resumed?).length + (tasks.filterMap Task.shifted?).length := by
  induction tasks with
  | nil => rfl
  | cons task rest ih =>
    cases task with
    | resume label caller stem =>
      simp only [List.filterMap_cons, Task.resumed?, Task.shifted?, List.length_cons]
      omega
    | shift frame result =>
      simp only [List.filterMap_cons, Task.resumed?, Task.shifted?, List.length_cons]
      omega

namespace Program

variable {program : Program}

/-- The label of an item is that of a slot. -/
theorem Item.index_lt (hlaid : program.Laid) {label : Label} {owner : Option Nonterminal}
    {before after : List Atom} (h : program.Item label owner before after) :
    label.index < program.slotCount := by
  have hslot : ∃ slot, program.slot? label = some slot := by
    cases after with
    | cons atom after => exact ⟨_, h.slot?_cons⟩
    | nil =>
      cases owner with
      | some owner => exact ⟨_, h.slot?_nil⟩
      | none =>
        obtain ⟨rfl, -, -⟩ := h.eq_accept
        exact ⟨_, hlaid.accept⟩
  obtain ⟨slot, hslot⟩ := hslot
  exact (Array.getElem?_eq_some_iff.mp hslot).1

/-- The label numbers and origins that frames can have up to an offset. -/
def framePlaces (program : Program) (index : Nat) : Finset (Nat × Nat) :=
  Finset.range program.slotCount ×ˢ Finset.range (index + 1)

theorem card_framePlaces (program : Program) (index : Nat) :
    (program.framePlaces index).card = program.slotCount * (index + 1) := by
  rw [framePlaces, Finset.card_product, Finset.card_range, Finset.card_range]

end Program

/-- The label number and the origin of a frame; the initial stack has none. -/
def Stack.place? : Stack → Option (Nat × Nat)
  | initial => none
  | frame label origin _ => some (label.index, origin)

/-- The label number and the origin of a frame, if there is one of this number. -/
def Scheduler.place? (s : Scheduler) (id : StackId) : Option (Nat × Nat) :=
  (s.graph.stack? id).bind Stack.place?

namespace Moment

variable {program : Program} {input : List Char} {m : Moment}

/-- Two frames with one label and one origin are the same. -/
theorem Timeline.frame_unique (h : Timeline program input m) {id id' : StackId} {label : Label}
    {origin : Nat} (hframe : m.Holds (.frame id label origin))
    (hframe' : m.Holds (.frame id' label origin)) : id = id' := by
  obtain ⟨stages, hstages, hlast⟩ := h.exists_stages
  rw [← hlast] at hframe hframe'
  have hle : origin ≤ m.index :=
    hstages.index (Nat.le_refl _) ▸ ((hstages.sound (Nat.le_refl _)).proper hframe).1
  -- Both are in the table of the generation in which they were made.
  have hindex := hstages.index hle
  have hkey {id : StackId} (hframe : (stages m.index).Holds (.frame id label origin)) :
      (stages origin).Holds (.frameKey label origin id) :=
    ((hstages.sound hle).proper (hstages.frame_at_origin (Nat.le_refl _) hframe)).2.1 hindex.symm
  exact Option.some.inj ((hkey hframe).symm.trans (hkey hframe'))

theorem place?_of_frame {id : StackId} {label : Label} {origin : Nat}
    (hframe : m.Holds (.frame id label origin)) :
    m.scheduler.place? id = some (label.index, origin) := by
  obtain ⟨links, hstack⟩ := hframe
  rw [Scheduler.place?, hstack]
  rfl

theorem frame_of_place? {id : StackId} {place : Nat × Nat}
    (h : m.scheduler.place? id = some place) :
    ∃ label : Label, place.1 = label.index ∧ m.Holds (.frame id label place.2) := by
  obtain ⟨stack, hstack, hplace⟩ := Option.bind_eq_some_iff.mp h
  cases stack with
  | initial => cases hplace
  | frame label origin links =>
    obtain rfl := Option.some.inj hplace
    exact ⟨label, rfl, links, hstack⟩

/-- A frame has its place among those of the program. -/
theorem Sound.place?_mem (hlaid : program.Laid) (hsound : m.Sound program input) (id : StackId) :
    m.scheduler.place? id ∈ Finset.insertNone (program.framePlaces m.index) := by
  rw [Finset.mem_insertNone]
  intro place hplace
  obtain ⟨label, hlabel, hframe⟩ := frame_of_place? hplace
  obtain ⟨hle, -, _, _, _, _, hitem⟩ := hsound.proper hframe
  rw [Program.framePlaces, Finset.mem_product, Finset.mem_range, Finset.mem_range, hlabel]
  exact ⟨hitem.index_lt hlaid, Nat.lt_succ_of_le hle⟩

/-- Frames with one place are the same. -/
theorem Timeline.eq_of_place? (h : Timeline program input m) {id id' : StackId}
    {place : Nat × Nat} (hplace : m.scheduler.place? id = some place)
    (hplace' : m.scheduler.place? id' = some place) : id = id' := by
  obtain ⟨label, hlabel, hframe⟩ := frame_of_place? hplace
  obtain ⟨label', hlabel', hframe'⟩ := frame_of_place? hplace'
  obtain rfl : label = label' := by
    cases label
    cases label'
    exact congrArg Label.mk (hlabel.symm.trans hlabel')
  exact h.frame_unique hframe hframe'

variable {carried : List StackId} {taken : List Task}

/-- What a slot is resumed for, in a generation, is one of so many. -/
theorem Timeline.resumed_length_le (hlaid : program.Laid) (h : Timeline program input m)
    (htally : Tally carried taken m.scheduler) :
    ((taken ++ m.pending).filterMap Task.resumed?).length
      ≤ program.slotCount * (1 + program.slotCount * (m.index + 1)) := by
  obtain ⟨_, hunderway⟩ := h.underway
  have hsound := hunderway.steady.sound
  -- A slot that is resumed has an item, and the caller is the initial stack or a frame.
  have hkey : ∀ key ∈ (taken ++ m.pending).filterMap Task.resumed?,
      key.1.index < program.slotCount ∧
        (key.2 = .initial ∨ ∃ place, m.scheduler.place? key.2 = some place) := by
    intro key hmem
    have hresumed : m.Holds (.resumed key.1 key.2) := (htally.resumed key).mpr hmem
    obtain ⟨stem, hoffered⟩ := hsound.proper hresumed
    obtain ⟨_, _, _, _, _, hitem, hcaller, _⟩ := hsound.proper hoffered
    refine ⟨hitem.index_lt hlaid, ?_⟩
    generalize key.2 = caller at hcaller
    cases hcaller with
    | initial => exact .inl rfl
    | frame hframe _ => exact .inr ⟨_, place?_of_frame hframe⟩
  let places := Finset.range program.slotCount ×ˢ Finset.insertNone (program.framePlaces m.index)
  have hcard : places.card = program.slotCount * (1 + program.slotCount * (m.index + 1)) := by
    rw [Finset.card_product, Finset.card_range, Finset.card_insertNone, Program.card_framePlaces,
      Nat.add_comm]
  rw [← hcard]
  refine length_le_card_of_injOn htally.resumedOnce
    (fun key => (key.1.index, m.scheduler.place? key.2)) (fun key hmem => ?_)
    fun key hmem other hmem' heq => ?_
  · exact Finset.mem_product.mpr
      ⟨Finset.mem_range.mpr (hkey key hmem).1, hsound.place?_mem hlaid key.2⟩
  · obtain ⟨⟨label⟩, caller⟩ := key
    obtain ⟨⟨label'⟩, caller'⟩ := other
    obtain ⟨rfl, hplace⟩ := Prod.mk.inj heq
    have hcaller : caller = caller' := by
      rcases (hkey _ hmem).2 with hinitial | ⟨place, hsome⟩
      · rcases (hkey _ hmem').2 with hinitial' | ⟨place, hsome⟩
        · exact hinitial.trans hinitial'.symm
        · exact h.eq_of_place? (hplace.trans hsome) hsome
      · exact h.eq_of_place? hsome (hplace.symm.trans hsome)
    rw [hcaller]

/-- No more terminals are staged than the program has slots. -/
theorem Timeline.staged_length_le (hlaid : program.Laid) (h : Timeline program input m)
    (htally : Tally carried taken m.scheduler) :
    (m.scheduler.staged.toList.filterMap Task.shifted?).length ≤ program.slotCount := by
  obtain ⟨_, hunderway⟩ := h.underway
  have hsound := hunderway.steady.sound
  -- A frame to which a terminal is staged was made at the current symbol.
  have hframe : ∀ frame ∈ m.scheduler.staged.toList.filterMap Task.shifted?,
      ∃ label, label < program.slotCount ∧ m.scheduler.place? frame = some (label, m.index) := by
    intro frame hmem
    have hshifted : m.Holds (.shifted frame) := (htally.shifted frame).mpr hmem
    obtain ⟨result, hstaged⟩ := hsound.proper hshifted
    obtain ⟨-, label, _, _, _, _, hframe, hitem, _⟩ := hsound.proper hstaged
    exact ⟨label.index, hitem.index_lt hlaid, place?_of_frame hframe⟩
  rw [← Finset.card_range program.slotCount]
  refine (length_le_card_of_injOn htally.shiftedOnce m.scheduler.place?
    (fun frame hmem => ?_) fun frame hmem other hmem' heq => ?_).trans
      (Finset.card_image_le (f := fun label => some (label, m.index)))
  · obtain ⟨label, hlt, hplace⟩ := hframe frame hmem
    rw [hplace]
    exact Finset.mem_image_of_mem _ (Finset.mem_range.mpr hlt)
  · obtain ⟨label, -, hplace⟩ := hframe frame hmem
    exact h.eq_of_place? hplace (heq ▸ hplace)

end Moment

end Gll
