/-!
First-in, first-out queues. The items that leave next are in front, those that came last are at the
back in reverse order; when the front runs out, the back is turned around. So every item is moved
once, and `toList` is the queue as it is meant.
-/

set_option autoImplicit false

namespace Gll

/-- A queue of items. -/
structure Queue (α : Type) where
  front : List α
  back : List α

namespace Queue

variable {α : Type}

/-- The queue without items. -/
def empty : Queue α := ⟨[], []⟩

/-- The items in the order in which they leave. -/
def toList (queue : Queue α) : List α := queue.front ++ queue.back.reverse

/-- The queue of items in the order in which they leave. -/
def ofList (items : List α) : Queue α := ⟨items, []⟩

/-- Whether there is no item. -/
def isEmpty (queue : Queue α) : Bool := queue.front.isEmpty && queue.back.isEmpty

/-- How many items there are. -/
def size (queue : Queue α) : Nat := queue.front.length + queue.back.length

/-- Puts an item at the end. -/
def enqueue (queue : Queue α) (item : α) : Queue α := ⟨queue.front, item :: queue.back⟩

/-- The item that leaves next, and the queue without it. -/
def dequeue? : Queue α → Option (α × Queue α)
  | ⟨item :: front, back⟩ => some (item, ⟨front, back⟩)
  | ⟨[], back⟩ =>
    match back.reverse with
    | item :: front => some (item, ⟨front, []⟩)
    | [] => none

/-! ## The queue as a list -/

@[simp] theorem toList_empty : (empty : Queue α).toList = [] := rfl

@[simp] theorem toList_ofList (items : List α) : (ofList items).toList = items := by
  simp [ofList, toList]

@[simp] theorem toList_enqueue (queue : Queue α) (item : α) :
    (queue.enqueue item).toList = queue.toList ++ [item] := by
  simp [enqueue, toList]

theorem size_eq_length (queue : Queue α) : queue.size = queue.toList.length := by
  simp [size, toList]

theorem isEmpty_iff (queue : Queue α) : queue.isEmpty = true ↔ queue.toList = [] := by
  simp [isEmpty, toList]

theorem dequeue?_eq_none_iff (queue : Queue α) : queue.dequeue? = none ↔ queue.toList = [] := by
  obtain ⟨front, back⟩ := queue
  cases front with
  | cons item front => simp [dequeue?, toList]
  | nil =>
    simp only [dequeue?, toList, List.nil_append]
    split <;> simp_all

theorem toList_of_dequeue? {queue rest : Queue α} {item : α}
    (h : queue.dequeue? = some (item, rest)) : queue.toList = item :: rest.toList := by
  obtain ⟨front, back⟩ := queue
  cases front with
  | cons first front =>
    simp only [dequeue?, Option.some.injEq, Prod.mk.injEq] at h
    obtain ⟨rfl, rfl⟩ := h
    rfl
  | nil =>
    simp only [dequeue?] at h
    split at h
    · rename_i first front turned
      simp only [Option.some.injEq, Prod.mk.injEq] at h
      obtain ⟨rfl, rfl⟩ := h
      simp [toList, turned]
    · simp at h

end Queue

end Gll
