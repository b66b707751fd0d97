import Gll.NameTable
import Mathlib.Data.Fintype.Pigeonhole
import Mathlib.Data.List.Nodup
import Mathlib.Tactic.Choose
import Mathlib.Tactic.Push

/-!
Tables of names.

A table keeps its names twice, by number and by name, and only `NameTable.intern` writes to either.
The two stay inverse to each other (`NameTable.Exact`), whatever is interned and however often: a
name that is there is given the number that it has, and a new one the number behind all others.

What a table is after names were interned in a row is the invariant `NameTable.Interned`. Besides
the table it keeps the numbers that were given out, as these are what callers hold on to: each is
the number of its name at any later time, and when they were given out for the first time they came
in their order, with none left out. One name more keeps it (`Interned.intern`), and hence so does
any row of them (`Interned.internAll`).

Numbers have no bound here. Words of 32 bits can stand for them as long as there are no more than
`2 ^ 32` names (`injOn_word_iff`).
-/

set_option autoImplicit false

namespace Gll

/-! ## Rows without repetitions -/

section Repetitions

variable {α : Type} [BEq α] [LawfulBEq α] {items : List α} {item : α}

theorem eraseDups_of_nodup (h : items.Nodup) : items.eraseDups = items := by
  induction items with
  | nil => rfl
  | cons first rest ih =>
    obtain ⟨hfirst, hrest⟩ := List.nodup_cons.mp h
    have hfilter : rest.filter (fun other => !other == first) = rest := by
      apply List.filter_eq_self.mpr
      intro other hother
      have hne : other ≠ first := fun heq => hfirst (heq ▸ hother)
      simp [hne]
    rw [List.eraseDups_cons, hfilter, ih hrest]

theorem eraseDups_concat_of_mem (h : item ∈ items) :
    (items ++ [item]).eraseDups = items.eraseDups := by
  rw [List.eraseDups_append, List.cons_removeAll]
  simp [h]

theorem eraseDups_concat_of_notMem (h : item ∉ items) :
    (items ++ [item]).eraseDups = items.eraseDups ++ [item] := by
  rw [List.eraseDups_append, List.cons_removeAll]
  simp [h, List.eraseDups_cons]

end Repetitions

namespace NameTable

variable {table : NameTable}

/-! ## Names and their numbers -/

/-- Interning a name that is found gives its number and leaves the table as it is. -/
theorem intern_of_find? {name : String} {id : NameId} (h : table.find? name = some id) :
    table.intern name = (id, table) := by
  rw [intern, h]

/-- A new name is given the next number, -/
theorem fst_intern_of_new {name : String} (hnew : table.find? name = none) :
    (table.intern name).1 = ⟨table.size⟩ := by
  rw [intern, hnew]

/-- and put behind the others. -/
theorem names_intern_of_new {name : String} (hnew : table.find? name = none) :
    (table.intern name).2.names.toList = table.names.toList ++ [name] := by
  rw [intern, hnew]
  exact Array.toList_push

/-- A name that is found under a number is the name of that number. -/
def Faithful (table : NameTable) : Prop :=
  ∀ ⦃name id⦄, table.find? name = some id → table.name? id = some name

theorem Faithful.index_lt (h : table.Faithful) {name : String} {id : NameId}
    (hfind : table.find? name = some id) : id.index < table.size :=
  (Array.getElem?_eq_some_iff.mp (h hfind)).1

theorem Faithful.intern (h : table.Faithful) (name : String) :
    (table.intern name).2.Faithful := by
  intro other id hfind
  cases hknown : table.find? name with
  | some known =>
    rw [intern_of_find? hknown] at hfind ⊢
    exact h hfind
  | none =>
    rw [find?_intern] at hfind
    rw [NameTable.intern, hknown] at hfind ⊢
    simp only [name?]
    split at hfind
    · rename_i heq
      obtain rfl := Option.some.inj hfind
      rw [← heq]
      simp [size]
    · have hlt : id.index < table.names.size := h.index_lt hfind
      rw [Array.getElem?_push_lt hlt]
      exact (Array.getElem?_eq_getElem hlt).symm.trans (h hfind)

/-- Of one more candidates than there are names, one is new. -/
theorem Faithful.exists_new (h : table.Faithful) {candidate : Nat → String}
    (hinjective : Function.Injective candidate) :
    ∃ i < table.size + 1, table.find? (candidate i) = none := by
  by_contra hall
  push Not at hall
  have hfound (i : Fin (table.size + 1)) :
      ∃ id : Fin table.size, table.find? (candidate i) = some ⟨id⟩ := by
    obtain ⟨id, hid⟩ := Option.ne_none_iff_exists'.mp (hall i i.2)
    exact ⟨⟨id.index, h.index_lt hid⟩, hid⟩
  choose id hid using hfound
  -- The candidates are more than the numbers, so two of them have one number, and hence are equal.
  obtain ⟨i, j, hne, heq⟩ :=
    Fintype.exists_ne_map_eq_of_card_lt id (by rw [Fintype.card_fin, Fintype.card_fin]; omega)
  have hname := (h (hid i)).symm.trans (heq ▸ h (hid j))
  exact hne (Fin.ext (hinjective (Option.some.inj hname)))

/-- A name is found under a number just if it is the name of that number. -/
def Exact (table : NameTable) : Prop :=
  ∀ name id, table.find? name = some id ↔ table.name? id = some name

theorem exact_empty : empty.Exact := by
  intro name id
  rw [find?_empty]
  exact iff_of_false (Option.some_ne_none id).symm (by simp [name?, empty])

theorem Exact.faithful (h : table.Exact) : table.Faithful :=
  fun name id hfind => (h name id).mp hfind

/-- The names that are not found are those that are not in the table. -/
theorem Exact.find?_eq_none_iff (h : table.Exact) {name : String} :
    table.find? name = none ↔ name ∉ table.names.toList := by
  constructor
  · intro hnone hmem
    obtain ⟨i, hi⟩ := List.mem_iff_getElem?.mp hmem
    have hname : table.name? ⟨i⟩ = some name := Array.getElem?_toList.symm.trans hi
    rw [(h name ⟨i⟩).mpr hname] at hnone
    cases hnone
  · intro hnot
    by_contra hfind
    obtain ⟨id, hid⟩ := Option.ne_none_iff_exists'.mp hfind
    have hname : table.names.toList[id.index]? = some name :=
      Array.getElem?_toList.trans ((h name id).mp hid)
    exact hnot (List.mem_of_getElem? hname)

theorem Exact.intern (h : table.Exact) (name : String) : (table.intern name).2.Exact := by
  intro other id
  refine ⟨fun hfind => h.faithful.intern name hfind, fun hname => ?_⟩
  cases hknown : table.find? name with
  | some known =>
    rw [intern_of_find? hknown] at hname ⊢
    exact (h other id).mpr hname
  | none =>
    rw [find?_intern]
    rw [NameTable.intern, hknown] at hname ⊢
    simp only [name?, Array.getElem?_push] at hname
    -- The number behind all others is that of the new name, and the others are those of old names.
    split at hname
    · rename_i hid
      rw [if_pos (Option.some.inj hname)]
      exact congrArg (fun index => some (NameId.mk index)) hid.symm
    · have hold : table.find? other = some id := (h other id).mpr hname
      have hne : name ≠ other := by
        rintro rfl
        rw [hknown] at hold
        cases hold
      rw [if_neg hne]
      exact hold

/-! ## Names in a row -/

/-- The table with further names. -/
def internAll (table : NameTable) (names : List String) : NameTable :=
  names.foldl (fun table name => (table.intern name).2) table

/-- The numbers that names are given when they are interned in a row. -/
def issue (table : NameTable) : List String → List NameId
  | [] => []
  | name :: rest => (table.intern name).1 :: (table.intern name).2.issue rest

theorem Exact.internAll (h : table.Exact) (names : List String) :
    (table.internAll names).Exact := by
  induction names generalizing table with
  | nil => exact h
  | cons name rest ih => exact ih (h.intern name)

/-- A name keeps its number, whatever is interned after it. -/
theorem find?_internAll_of_find? {name : String} {id : NameId} (h : table.find? name = some id)
    (later : List String) : (table.internAll later).find? name = some id := by
  induction later generalizing table with
  | nil => exact h
  | cons other rest ih => exact ih (find?_intern_of_find? h)

/-- A number keeps its name, whatever is interned after it. -/
theorem Exact.name?_internAll_of_name? (h : table.Exact) {name : String} {id : NameId}
    (hname : table.name? id = some name) (later : List String) :
    (table.internAll later).name? id = some name :=
  (h.internAll later name id).mp (find?_internAll_of_find? ((h name id).mpr hname) later)

/-- What a table is after names were interned in a row, and what they were given. -/
structure Interned (table : NameTable) (names : List String) (issued : List NameId) : Prop where
  exact : table.Exact
  /-- Each name has the place of its first occurrence. -/
  listed : table.names.toList = names.eraseDups
  /-- The numbers were given out for the first time in their order, with none left out. -/
  ordered : issued.eraseDups = (List.range table.size).map NameId.mk
  /-- Each name was given the number under which it is found. -/
  given : issued.map some = names.map table.find?

theorem interned_empty : empty.Interned [] [] := ⟨exact_empty, rfl, rfl, rfl⟩

namespace Interned

variable {names : List String} {issued : List NameId}

/-- Just the names that were interned are found. -/
theorem find?_eq_none_iff (h : table.Interned names issued) {name : String} :
    table.find? name = none ↔ name ∉ names := by
  rw [h.exact.find?_eq_none_iff, h.listed, List.mem_eraseDups]

theorem exists_id (h : table.Interned names issued) {name : String} (hname : name ∈ names) :
    ∃ id, table.find? name = some id :=
  Option.ne_none_iff_exists'.mp fun hnone => h.find?_eq_none_iff.mp hnone hname

/-- The numbers that were given out are those below the size. -/
theorem mem_issued_iff (h : table.Interned names issued) {id : NameId} :
    id ∈ issued ↔ id.index < table.size := by
  rw [← List.mem_eraseDups, h.ordered, List.mem_map]
  constructor
  · rintro ⟨i, hi, rfl⟩
    exact List.mem_range.mp hi
  · intro hlt
    exact ⟨id.index, List.mem_range.mpr hlt, rfl⟩

/-- Just the numbers that were given out have a name. -/
theorem name?_eq_none_iff (h : table.Interned names issued) {id : NameId} :
    table.name? id = none ↔ id ∉ issued := by
  rw [h.mem_issued_iff, name?, Array.getElem?_eq_none_iff, Nat.not_lt]
  rfl

theorem exists_name (h : table.Interned names issued) {id : NameId} (hid : id ∈ issued) :
    ∃ name, table.name? id = some name :=
  Option.ne_none_iff_exists'.mp fun hnone => h.name?_eq_none_iff.mp hnone hid

/-- There are as many numbers as there are different names. -/
theorem size_eq (h : table.Interned names issued) : table.size = names.eraseDups.length := by
  rw [← h.listed, Array.length_toList]
  rfl

/-- The number of a name is its place among the different names. -/
theorem find?_eq (h : table.Interned names issued) {name : String} (hname : name ∈ names) :
    table.find? name = some ⟨names.eraseDups.idxOf name⟩ := by
  rw [h.exact, name?, ← Array.getElem?_toList, h.listed]
  exact List.getElem?_idxOf (List.mem_eraseDups.mpr hname)

/-- Each name was given its place among the different names, whichever time it was interned. -/
theorem issued_eq (h : table.Interned names issued) :
    issued = names.map fun name => ⟨names.eraseDups.idxOf name⟩ := by
  have hgiven : issued.map some
      = (names.map fun name => (⟨names.eraseDups.idxOf name⟩ : NameId)).map some := by
    rw [h.given, List.map_map]
    exact List.map_congr_left fun name hname => h.find?_eq hname
  exact (Option.some_injective NameId).list_map hgiven

/-- One name more is given the number that it has, or the next one. -/
theorem intern (h : table.Interned names issued) (name : String) :
    (table.intern name).2.Interned (names ++ [name]) (issued ++ [(table.intern name).1]) := by
  -- The names before are found as they were, and this one under what it is given now.
  have hgiven : (issued ++ [(table.intern name).1]).map some
      = (names ++ [name]).map (table.intern name).2.find? := by
    have hold : names.map (table.intern name).2.find? = names.map table.find? := by
      refine List.map_congr_left fun other hother => ?_
      obtain ⟨id, hid⟩ := h.exists_id hother
      rw [hid, find?_intern_of_find? hid]
    rw [List.map_append, List.map_append, h.given, hold, List.map_singleton, List.map_singleton,
      find?_intern, if_pos rfl]
  cases hknown : table.find? name with
  | some id =>
    -- Neither the name nor its number is new in its row, so no first occurrence is added.
    have hname : name ∈ names := by
      by_contra hnot
      rw [h.find?_eq_none_iff.mpr hnot] at hknown
      cases hknown
    have hid : id ∈ issued := h.mem_issued_iff.mpr (h.exact.faithful.index_lt hknown)
    refine ⟨h.exact.intern name, ?_, ?_, hgiven⟩
    · rw [intern_of_find? hknown, h.listed, eraseDups_concat_of_mem hname]
    · rw [intern_of_find? hknown, eraseDups_concat_of_mem hid, h.ordered]
  | none =>
    -- Both are new, as the numbers that were given out are those below the size.
    have hname : name ∉ names := h.find?_eq_none_iff.mp hknown
    have hnext : (table.intern name).1 = ⟨table.size⟩ := fst_intern_of_new hknown
    have hid : (table.intern name).1 ∉ issued := by
      rw [hnext, h.mem_issued_iff]
      exact Nat.lt_irrefl _
    refine ⟨h.exact.intern name, ?_, ?_, hgiven⟩
    · rw [names_intern_of_new hknown, h.listed, eraseDups_concat_of_notMem hname]
    · have hsize := (find?_intern_of_new hknown).2
      rw [eraseDups_concat_of_notMem hid, h.ordered, hsize, List.range_succ, List.map_append, hnext]
      rfl

/-- Further names in a row. -/
theorem internAll (h : table.Interned names issued) (later : List String) :
    (table.internAll later).Interned (names ++ later) (issued ++ table.issue later) := by
  induction later generalizing table names issued with
  | nil =>
    rw [List.append_nil, issue, List.append_nil]
    exact h
  | cons name rest ih =>
    have hrest := ih (h.intern name)
    rw [List.append_assoc, List.append_assoc] at hrest
    exact hrest

end Interned

/-- What comes of interning names in a row when there is no name at first. -/
theorem interned (names : List String) :
    (empty.internAll names).Interned names (empty.issue names) :=
  interned_empty.internAll names

/-- Different names stand in the table as they came. -/
theorem names_internAll_of_nodup {names : List String} (h : names.Nodup) :
    (empty.internAll names).names.toList = names :=
  (interned names).listed.trans (eraseDups_of_nodup h)

/-- **Interning makes a bijection, and lets it grow.** Whatever names are interned in a row, and at
whatever point one looks: the numbers that were given out are those below the size, which counts the
different names; they were first given out in their order; each name was given its place among the
different names in the order in which they first occur, and is found under that number. Two names
that are found under one number are the same, a number under which a name is found has that name,
and a number that was given out has a name that is found under it; other names are not found, and
other numbers have no name. None of this changes when more names are interned, and to intern a name
again gives its number and changes nothing at all. -/
theorem growing_bijection (names later : List String) :
    let table := empty.internAll names
    let issued := empty.issue names
    let grown := empty.internAll (names ++ later)
    issued.eraseDups = (List.range table.size).map NameId.mk ∧
    table.size = names.eraseDups.length ∧
    issued = names.map (fun name => ⟨names.eraseDups.idxOf name⟩) ∧
    issued.map some = names.map table.find? ∧
    (∀ name other id, table.find? name = some id → table.find? other = some id →
      name = other) ∧
    (∀ name id, table.find? name = some id → table.name? id = some name) ∧
    (∀ id ∈ issued, ∃ name, table.name? id = some name ∧ table.find? name = some id) ∧
    (∀ name, table.find? name = none ↔ name ∉ names) ∧
    (∀ id, table.name? id = none ↔ id ∉ issued) ∧
    (∀ id ∈ issued, grown.name? id = table.name? id) ∧
    (∀ name ∈ names, grown.find? name = table.find? name) ∧
    ∀ name ∈ names, ∃ id, table.find? name = some id ∧ table.intern name = (id, table) := by
  intro table issued grown
  have h : table.Interned names issued := interned names
  have hgrown : grown = table.internAll later := List.foldl_append
  refine ⟨h.ordered, h.size_eq, h.issued_eq, h.given, ?_, h.exact.faithful, ?_,
    fun name => h.find?_eq_none_iff, fun id => h.name?_eq_none_iff, ?_, ?_, ?_⟩
  · intro name other id hname hother
    exact Option.some.inj ((h.exact.faithful hname).symm.trans (h.exact.faithful hother))
  · intro id hid
    obtain ⟨name, hname⟩ := h.exists_name hid
    exact ⟨name, hname, (h.exact name id).mpr hname⟩
  · intro id hid
    obtain ⟨name, hname⟩ := h.exists_name hid
    rw [hgrown, h.exact.name?_internAll_of_name? hname later, hname]
  · intro name hname
    obtain ⟨id, hid⟩ := h.exists_id hname
    rw [hgrown, find?_internAll_of_find? hid later, hid]
  · intro name hname
    obtain ⟨id, hid⟩ := h.exists_id hname
    exact ⟨id, hid, intern_of_find? hid⟩

/-- Two names, one of them twice, and later a new one. -/
theorem growing_bijection_repeated :
    let table := empty.internAll ["b", "a", "b"]
    let grown := empty.internAll ["b", "a", "b", "c"]
    table.size = 2 ∧ empty.issue ["b", "a", "b"] = [⟨0⟩, ⟨1⟩, ⟨0⟩] ∧
      table.find? "b" = some ⟨0⟩ ∧ (∀ other, table.find? other = some ⟨0⟩ → "b" = other) ∧
      table.name? ⟨0⟩ = some "b" ∧ table.find? "c" = none ∧ table.name? ⟨2⟩ = none ∧
      grown.name? ⟨0⟩ = some "b" ∧ grown.find? "b" = some ⟨0⟩ ∧
        table.intern "b" = (⟨0⟩, table) := by
  intro table grown
  obtain ⟨-, hsize, hissued, hgiven, hsame, hname, -, hother, hbeyond, hkeptName, hkeptNumber,
    hagain⟩ := growing_bijection ["b", "a", "b"] ["c"]
  have hissued : empty.issue ["b", "a", "b"] = [⟨0⟩, ⟨1⟩, ⟨0⟩] := hissued.trans (by decide)
  rw [hissued] at hgiven
  have hzero : table.find? "b" = some ⟨0⟩ := (List.cons.inj hgiven).1.symm
  have hb : table.name? ⟨0⟩ = some "b" := hname "b" ⟨0⟩ hzero
  obtain ⟨id, hid, hintern⟩ := hagain "b" (by decide)
  obtain rfl : id = ⟨0⟩ := Option.some.inj (hid.symm.trans hzero)
  refine ⟨hsize.trans (by decide), hissued, hzero, fun other => hsame "b" other ⟨0⟩ hzero, hb,
    (hother "c").mpr (by decide), (hbeyond ⟨2⟩).mpr ?_, (hkeptName ⟨0⟩ ?_).trans hb,
    (hkeptNumber "b" (by decide)).trans hzero, hintern⟩
  · rw [hissued]
    decide
  · rw [hissued]
    decide

end NameTable

end Gll
