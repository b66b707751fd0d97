import Mathlib.Data.List.Forall2

/-!
Runs that come to their end.

Computations that may break off are used everywhere: looking things up, reading documents, compiling
and writing. What is said of them is mostly of this kind: if a run ended well, then each of its
steps did, with the state between them.
-/

set_option autoImplicit false

namespace Gll

/-! ## Without a state -/

theorem exists_of_bind_eq_ok {ε α β : Type} {first : Except ε α} {next : α → Except ε β} {b : β}
    (h : (first >>= next) = .ok b) : ∃ a, first = .ok a ∧ next a = .ok b := by
  cases first with
  | error error => cases h
  | ok a => exact ⟨a, rfl, h⟩

/-- What holds at first and is kept by every step holds at the end. -/
theorem foldlM_keeps {ε α β : Type} {step : α → β → Except ε α} {P : α → Prop} {items : List β}
    (hstep : ∀ a, ∀ b ∈ items, ∀ a', P a → step a b = .ok a' → P a') {first last : α}
    (hfirst : P first) (h : items.foldlM step first = .ok last) : P last := by
  induction items generalizing first with
  | nil =>
    obtain rfl := Except.ok.inj h
    exact hfirst
  | cons item items ih =>
    rw [List.foldlM_cons] at h
    obtain ⟨next, hnext, hrest⟩ := exists_of_bind_eq_ok h
    exact ih (fun a b hb => hstep a b (List.mem_cons_of_mem _ hb))
      (hstep first item List.mem_cons_self next hfirst hnext) hrest

/-- What a function gives for the items of a list, one by one. -/
theorem forall₂_of_mapM {ε α β : Type} {f : α → Except ε β} {items : List α} {results : List β}
    (h : items.mapM f = .ok results) :
    List.Forall₂ (fun item result => f item = .ok result) items results := by
  induction items generalizing results with
  | nil =>
    rw [List.mapM_nil] at h
    obtain rfl := Except.ok.inj h
    exact .nil
  | cons item rest ih =>
    rw [List.mapM_cons] at h
    obtain ⟨result, hresult, h⟩ := exists_of_bind_eq_ok h
    obtain ⟨others, hothers, h⟩ := exists_of_bind_eq_ok h
    obtain rfl := Except.ok.inj h
    exact .cons hresult (ih hothers)

theorem exists_of_forall₂ {α β : Type} {R : α → β → Prop} {as : List α} {bs : List β}
    (h : List.Forall₂ R as bs) {b : β} (hb : b ∈ bs) : ∃ a ∈ as, R a b := by
  induction h with
  | nil => exact absurd hb List.not_mem_nil
  | @cons a b' as bs hab _ ih =>
    rcases List.mem_cons.mp hb with rfl | hb
    · exact ⟨a, List.mem_cons_self, hab⟩
    · obtain ⟨a', ha', hab'⟩ := ih hb
      exact ⟨a', List.mem_cons_of_mem _ ha', hab'⟩

theorem exists_of_mem_mapM {ε α β : Type} {f : α → Except ε β} {items : List α} {results : List β}
    (h : items.mapM f = .ok results) :
    ∀ result ∈ results, ∃ item ∈ items, f item = .ok result :=
  fun _ hresult => exists_of_forall₂ (forall₂_of_mapM h) hresult

/-- The same where a result may be missing. -/
theorem exists_of_mem_mapM? {α β : Type} {f : α → Option β} {items : List α} {results : List β}
    (h : items.mapM f = some results) :
    ∀ result ∈ results, ∃ item ∈ items, f item = some result := by
  induction items generalizing results with
  | nil =>
    rw [List.mapM_nil] at h
    obtain rfl := Option.some.inj h
    exact fun _ hresult => absurd hresult List.not_mem_nil
  | cons item rest ih =>
    rw [List.mapM_cons] at h
    obtain ⟨first, hfirst, h⟩ := Option.bind_eq_some_iff.mp h
    obtain ⟨others, hothers, h⟩ := Option.bind_eq_some_iff.mp h
    obtain rfl := Option.some.inj h
    intro result hresult
    rcases List.mem_cons.mp hresult with rfl | hresult
    · exact ⟨item, List.mem_cons_self, hfirst⟩
    · obtain ⟨other, hother, hresult⟩ := ih hothers result hresult
      exact ⟨other, List.mem_cons_of_mem _ hother, hresult⟩

/-! ## With a state -/

section Runs

variable {ε τ α β : Type} {before after : τ}

theorem exists_of_run_bind {first : StateT τ (Except ε) α} {next : α → StateT τ (Except ε) β}
    {b : β} (h : (first >>= next) before = .ok (b, after)) :
    ∃ a between, first before = .ok (a, between) ∧ next a between = .ok (b, after) := by
  simp only [bind, StateT.bind, Except.bind] at h
  split at h
  · exact absurd h (by simp)
  · rename_i result hfirst
    exact ⟨result.1, result.2, hfirst, h⟩

theorem of_run_pure {a b : α} (h : (pure a : StateT τ (Except ε) α) before = .ok (b, after)) :
    a = b ∧ before = after := by
  exact Prod.mk.inj (Except.ok.inj h)

/-- What is looked up is there, and nothing changes. -/
theorem of_run_lift {outcome : Except ε α} {a : α}
    (h : (liftM outcome : StateT τ (Except ε) α) before = .ok (a, after)) :
    outcome = .ok a ∧ before = after := by
  cases outcome with
  | error error => cases h
  | ok value =>
    obtain ⟨rfl, rfl⟩ := Prod.mk.inj (Except.ok.inj h)
    exact ⟨rfl, rfl⟩

/-- Items are gone through one after the other. -/
theorem exists_of_run_forM_append {body : α → StateT τ (Except ε) Unit} {items others : List α}
    (h : (items ++ others).forM body before = .ok ((), after)) :
    ∃ between, items.forM body before = .ok ((), between) ∧
      others.forM body between = .ok ((), after) := by
  rw [List.forM_eq_forM, List.forM_append] at h
  obtain ⟨⟨⟩, between, hitems, hothers⟩ := exists_of_run_bind h
  exact ⟨between, hitems, hothers⟩

theorem exists_of_run_forM_cons {body : α → StateT τ (Except ε) Unit} {item : α} {rest : List α}
    (h : (item :: rest).forM body before = .ok ((), after)) :
    ∃ between, body item before = .ok ((), between) ∧
      rest.forM body between = .ok ((), after) := by
  rw [List.forM_eq_forM, List.forM_cons] at h
  obtain ⟨⟨⟩, between, hitem, hrest⟩ := exists_of_run_bind h
  exact ⟨between, hitem, hrest⟩

end Runs

end Gll
