import Gll.Proofs.Rendering
import Gll.Proofs.Runs

/-!
Reading back what was rendered.
-/

set_option autoImplicit false

namespace Gll

namespace Json

/-! ## Values without a fault -/

mutual

theorem IsPlain.faultWithin {levels : Nat} : {value : Json} → value.IsPlain →
    value.depth ≤ levels → value.faultWithin levels = none
  | null, _, _ | bool _, _, _ | string _, _, _ => rfl
  | number .outOfRange, h, _ => absurd rfl h
  | number (.unsigned _), _, _ | number (.negative _), _, _ | number (.float _ _), _, _ => rfl
  | unfinishedNumber, h, _ | unpaired _, h, _ | flawed _, h, _ => False.elim h
  | array items flaw, h, hdepth => by
    obtain ⟨rfl, hitems⟩ := h
    rw [depth] at hdepth
    rw [Json.faultWithin, if_neg (by omega), ArePlainItems.faultOfItems hitems (by omega)]
    rfl
  | object members flaw, h, hdepth => by
    obtain ⟨rfl, hmembers⟩ := h
    rw [depth] at hdepth
    rw [Json.faultWithin, if_neg (by omega), ArePlainMembers.faultOfMembers hmembers (by omega)]
    rfl

theorem ArePlainItems.faultOfItems {levels : Nat} : {items : List Json} → ArePlainItems items →
    depthOfItems items ≤ levels → Json.faultOfItems levels items = none
  | [], _, _ => rfl
  | item :: rest, h, hdepth => by
    rw [depthOfItems] at hdepth
    rw [Json.faultOfItems, IsPlain.faultWithin h.1 (by omega),
      ArePlainItems.faultOfItems h.2 (by omega)]
    rfl

theorem ArePlainMembers.faultOfMembers {levels : Nat} : {members : List (Option String × Json)} →
    ArePlainMembers members → depthOfMembers members ≤ levels →
    Json.faultOfMembers levels members = none
  | [], _, _ => rfl
  | (none, _) :: _, h, _ => absurd rfl h.1
  | (some _, value) :: rest, h, hdepth => by
    rw [depthOfMembers] at hdepth
    rw [Json.faultOfMembers, IsPlain.faultWithin h.2.1 (by omega),
      ArePlainMembers.faultOfMembers h.2.2 (by omega)]
    rfl

end

theorem faultOfItems_eq_none {levels : Nat} {items : List Json}
    (h : ∀ item ∈ items, item.faultWithin levels = none) : faultOfItems levels items = none := by
  induction items with
  | nil => rfl
  | cons item items ih =>
    obtain ⟨hitem, hitems⟩ := List.forall_mem_cons.mp h
    rw [faultOfItems, hitem, ih hitems]
    rfl

theorem faultOfMembers_eq_none {levels : Nat} {members : List (Option String × Json)}
    (h : ∀ member ∈ members, member.1 ≠ none ∧ member.2.faultWithin levels = none) :
    faultOfMembers levels members = none := by
  induction members with
  | nil => rfl
  | cons member members ih =>
    obtain ⟨⟨hkey, hvalue⟩, hmembers⟩ := List.forall_mem_cons.mp h
    obtain ⟨_ | key, value⟩ := member
    · exact absurd rfl hkey
    rw [faultOfMembers, hvalue, ih hmembers]
    rfl

theorem SpellsMoreItems.each {items : List Json} {text : List Char}
    (h : SpellsMoreItems items text) : ∀ item ∈ items, ∃ text, Spells item text := by
  induction items generalizing text with
  | nil => exact fun item hitem => absurd hitem List.not_mem_nil
  | cons item items ih =>
    cases h with
    | cons hbefore hitem hafter hmore =>
      exact List.forall_mem_cons.mpr ⟨⟨_, hitem⟩, ih hmore⟩

theorem SpellsItems.each {items : List Json} {text : List Char} (h : SpellsItems items text) :
    ∀ item ∈ items, ∃ text, Spells item text := by
  cases h with
  | nil => exact fun item hitem => absurd hitem List.not_mem_nil
  | cons hbefore hitem hafter hmore => exact List.forall_mem_cons.mpr ⟨⟨_, hitem⟩, hmore.each⟩

theorem SpellsMember.value {member : Option String × Json} {text : List Char}
    (h : SpellsMember member text) : ∃ text, Spells member.2 text := by
  cases h with
  | text _ _ _ hvalue => exact ⟨_, hvalue⟩
  | unpaired _ _ _ _ hvalue => exact ⟨_, hvalue⟩

theorem SpellsMoreMembers.each {members : List (Option String × Json)} {text : List Char}
    (h : SpellsMoreMembers members text) : ∀ member ∈ members, ∃ text, Spells member.2 text := by
  induction members generalizing text with
  | nil => exact fun member hmember => absurd hmember List.not_mem_nil
  | cons member members ih =>
    cases h with
    | cons hbefore hmember hafter hmore =>
      exact List.forall_mem_cons.mpr ⟨hmember.value, ih hmore⟩

theorem SpellsMembers.each {members : List (Option String × Json)} {text : List Char}
    (h : SpellsMembers members text) : ∀ member ∈ members, ∃ text, Spells member.2 text := by
  cases h with
  | nil => exact fun member hmember => absurd hmember List.not_mem_nil
  | cons hbefore hmember hafter hmore => exact List.forall_mem_cons.mpr ⟨hmember.value, hmore.each⟩

mutual

/-- A value that a text spells has no flaw, so that it can be skipped. -/
theorem flawWhenSkipped_of_spells : {value : Json} → (∃ text, Spells value text) →
    value.flawWhenSkipped = none
  | null, _ | bool _, _ | number _, _ | string _, _ => rfl
  | unfinishedNumber, h => by
    obtain ⟨text, h⟩ := h
    cases h
  | flawed _, h => by
    obtain ⟨text, h⟩ := h
    cases h
  | unpaired flaw, h => by
    obtain ⟨text, h⟩ := h
    cases h
    rfl
  | array items flaw, h => by
    obtain ⟨text, h⟩ := h
    cases h with
    | array hitems =>
      rw [flawWhenSkipped, flawOfItems_of_spells hitems.each]
      rfl
  | object members flaw, h => by
    obtain ⟨text, h⟩ := h
    cases h with
    | object hmembers =>
      rw [flawWhenSkipped, flawOfMembers_of_spells hmembers.each]
      rfl

theorem flawOfItems_of_spells : {items : List Json} →
    (∀ item ∈ items, ∃ text, Spells item text) → flawOfItems items = none
  | [], _ => rfl
  | item :: rest, h => by
    have h := List.forall_mem_cons.mp h
    rw [flawOfItems, flawWhenSkipped_of_spells h.1, flawOfItems_of_spells h.2]
    rfl

theorem flawOfMembers_of_spells : {members : List (Option String × Json)} →
    (∀ member ∈ members, ∃ text, Spells member.2 text) → flawOfMembers members = none
  | [], _ => rfl
  | (_, value) :: rest, h => by
    have h := List.forall_mem_cons.mp h
    rw [flawOfMembers, flawWhenSkipped_of_spells h.1, flawOfMembers_of_spells h.2]
    rfl

end

/-! ## Looking for members -/

/-- The members that have a key. -/
def withKey (key : String) (members : List (Option String × Json)) : List (Option String × Json) :=
  members.filter fun member => member.1 = some key

theorem withKey_cons_eq (key : String) (value : Json) (members : List (Option String × Json)) :
    withKey key ((some key, value) :: members) = (some key, value) :: withKey key members :=
  List.filter_cons_of_pos (decide_eq_true rfl)

theorem withKey_cons_ne {key : String} {member : Option String × Json} (h : member.1 ≠ some key)
    (members : List (Option String × Json)) :
    withKey key (member :: members) = withKey key members :=
  List.filter_cons_of_neg (by simpa using h)

/-- Listed members with a known key are those among the fields. -/
theorem Lists.withKey {known : List String} {allowed : Json → Prop}
    {fields : List (String × Json)} {members : List (Option String × Json)}
    (h : Lists known allowed fields members) (key : String) (hkey : key ∈ known) :
    (Json.withKey key members).Perm
      ((fields.filter fun field => field.1 = key).map fun field => (some field.1, field.2)) := by
  obtain ⟨extras, hperm, hextras⟩ := h
  have hfilter := hperm.filter fun member => decide (member.1 = some key)
  have hnone : extras.filter (fun extra => decide (extra.1 = key)) = [] := by
    rw [List.filter_eq_nil_iff]
    intro extra hextra heq
    have heq : extra.1 = key := of_decide_eq_true heq
    rw [← heq] at hkey
    exact (hextras extra hextra).1 hkey
  rw [List.filter_map] at hfilter
  have hcomp : ((fun member : Option String × Json => decide (member.1 = some key)) ∘
      fun field : String × Json => (some field.1, field.2))
        = fun field => decide (field.1 = key) := by
    funext field
    simp
  rw [hcomp, List.filter_append, hnone, List.append_nil] at hfilter
  exact hfilter

theorem Lists.depth_le {known : List String} {allowed : Json → Prop}
    {fields : List (String × Json)} {members : List (Option String × Json)}
    (h : Lists known allowed fields members) {field : String × Json} (hfield : field ∈ fields) :
    field.2.depth ≤ depthOfMembers members := by
  obtain ⟨extras, hperm, -⟩ := h
  have hmember : (some field.1, field.2) ∈ members := by
    rw [hperm.mem_iff]
    exact List.mem_map_of_mem (List.mem_append_left _ hfield)
  exact depth_le_of_member hmember

theorem Lists.key_ne_none {known : List String} {allowed : Json → Prop}
    {fields : List (String × Json)} {members : List (Option String × Json)}
    (h : Lists known allowed fields members) {member : Option String × Json}
    (hmember : member ∈ members) : member.1 ≠ none := by
  obtain ⟨extras, hperm, -⟩ := h
  obtain ⟨field, -, rfl⟩ := List.mem_map.mp (hperm.mem_iff.mp hmember)
  exact Option.some_ne_none _

theorem RendersOptional.key {key : String} {text : Option String} {fields : List (String × Json)}
    (h : RendersOptional key text fields) : ∀ field ∈ fields, field.1 = key := by
  cases h with
  | missing => exact fun field hfield => absurd hfield List.not_mem_nil
  | null | given => exact List.forall_mem_singleton.mpr rfl

end Json

/-! ## Taking fields -/

/-- What is found under a key when the members are looked through: nothing and all stays as it was,
or one value that is read well, where nothing was before. -/
def Takes {α : Type} (key : String) (read : Json → Except GrammarError α) (old : Option α)
    (members : List (Option String × Json)) (new : Option α) : Prop :=
  (Json.withKey key members = [] ∧ new = old) ∨
    (old = none ∧ ∃ value result, Json.withKey key members = [(some key, value)] ∧
      read value = .ok result ∧ new = some result)

section

variable {α : Type} {key : String} {read : Json → Except GrammarError α} {old new : Option α}
  {members : List (Option String × Json)}

theorem Takes.nil (h : Takes key read old [] new) : new = old := by
  rcases h with ⟨-, rfl⟩ | ⟨-, value, result, hkey, -⟩
  · rfl
  · exact absurd hkey (List.cons_ne_nil _ _).symm

/-- A member with another key makes no difference. -/
theorem Takes.cons_ne {member : Option String × Json}
    (h : Takes key read old (member :: members) new) (hne : member.1 ≠ some key) :
    Takes key read old members new := by
  unfold Takes at h
  rw [Json.withKey_cons_ne hne] at h
  exact h

/-- The member with the key is taken, and there is no other. -/
theorem Takes.cons_eq {value : Json} (h : Takes key read old ((some key, value) :: members) new) :
    ∃ result, takeField key old (read value) = .ok (some result) ∧
      Takes key read (some result) members new := by
  unfold Takes at h
  rw [Json.withKey_cons_eq] at h
  rcases h with ⟨hkey, -⟩ | ⟨rfl, value', result, hkey, hread, rfl⟩
  · exact absurd hkey (List.cons_ne_nil _ _)
  · obtain ⟨hvalue, hrest⟩ := List.cons.inj hkey
    obtain rfl : value = value' := (Prod.mk.inj hvalue).2
    refine ⟨result, ?_, .inl ⟨hrest, rfl⟩⟩
    rw [takeField, hread]
    rfl

theorem Takes.foldlM (h : Takes key read old members new) :
    members.foldlM (fun value (member : Option String × Json) =>
      if member.1 = some key then takeField key value (read member.2) else .ok value) old
      = .ok new := by
  induction members generalizing old with
  | nil => rw [h.nil]; rfl
  | cons member members ih =>
    rw [List.foldlM_cons]
    by_cases heq : member.1 = some key
    · obtain ⟨_, value⟩ := member
      obtain rfl := heq
      obtain ⟨result, htake, hrest⟩ := h.cons_eq
      rw [if_pos rfl, htake]
      exact ih hrest
    · rw [if_neg heq]
      exact ih (h.cons_ne heq)

end

/-- A field that may be missing or `null` is taken if it is there and is not `null`. -/
theorem Json.RendersOptional.takes {key : String} {text : Option String}
    {fields : List (String × Json)} {members : List (Option String × Json)}
    (h : Json.RendersOptional key text fields)
    (hperm : (Json.withKey key members).Perm
      ((fields.filter fun field => field.1 = key).map fun field => (some field.1, field.2))) :
    ∃ new, Takes key Json.asOptionalText none members new ∧ new.join = text := by
  cases h with
  | missing => exact ⟨none, .inl ⟨hperm.eq_nil, rfl⟩, rfl⟩
  | null =>
    rw [List.filter_cons, if_pos (decide_eq_true rfl)] at hperm
    exact ⟨some none, .inr ⟨rfl, .null, none, hperm.eq_singleton, rfl, rfl⟩, rfl⟩
  | given text =>
    rw [List.filter_cons, if_pos (decide_eq_true rfl)] at hperm
    exact ⟨some (some text), .inr ⟨rfl, .string text, some text, hperm.eq_singleton, rfl, rfl⟩, rfl⟩

/-- The type of a rule is taken from among its members, and the others are kept. -/
theorem readMembers_of_takes (nested : Bool) {levels : Nat} {old new : Option RuleType}
    {members : List (Option String × Json)} (h : Takes "type" (readType nested) old members new)
    (hfaultless : ∀ member ∈ members, member.1 ≠ none ∧ member.2.faultWithin levels = none) :
    readMembers nested levels old members
      = .ok (new, members.filter fun member => member.1 ≠ some "type") := by
  induction members generalizing old with
  | nil => rw [h.nil]; rfl
  | cons member members ih =>
    obtain ⟨⟨hkey, hfault⟩, hothers⟩ := List.forall_mem_cons.mp hfaultless
    obtain ⟨_ | key, value⟩ := member
    · exact absurd rfl hkey
    rw [readMembers]
    by_cases heq : key = "type"
    · obtain rfl := heq
      obtain ⟨type, htake, hmembers⟩ := h.cons_eq
      rw [if_pos rfl, htake, List.filter_cons_of_neg (by simp)]
      exact ih hmembers hothers
    · have hne : some key ≠ some "type" := fun hsame => heq (Option.some.inj hsame)
      rw [if_neg heq, hfault, ih (h.cons_ne hne) hothers, List.filter_cons,
        if_pos (decide_eq_true hne)]
      rfl

theorem readOnlyField_of_takes {α : Type} {type : RuleType} {key : String}
    {read : Json → Except GrammarError α} {members : List (Option String × Json)} {result : α}
    (h : Takes key read none members (some result)) :
    readOnlyField type key read (.named members) = .ok result := by
  rw [readOnlyField, h.foldlM]
  rfl

/-- Looking for the source and the flags of a pattern at once finds what looking for each finds. -/
theorem foldlM_of_takes {members : List (Option String × Json)} {oldSource source : Option String}
    {oldFlags flags : Option (Option String)}
    (hsource : Takes "value" (Json.asText "a string") oldSource members source)
    (hflags : Takes "flags" Json.asOptionalText oldFlags members flags) :
    members.foldlM
      (fun (fields : Option String × Option (Option String)) (member : Option String × Json) =>
        if member.1 = some "value" then do
          return (← takeField "value" fields.1 (member.2.asText "a string"), fields.2)
        else if member.1 = some "flags" then do
          return (fields.1, ← takeField "flags" fields.2 member.2.asOptionalText)
        else .ok fields) (oldSource, oldFlags)
      = Except.ok (ε := GrammarError) (source, flags) := by
  -- Member by member: each is taken by the one whose key it has, and skipped by the other.
  induction members generalizing oldSource oldFlags with
  | nil => rw [hsource.nil, hflags.nil]; rfl
  | cons member members ih =>
    rw [List.foldlM_cons]
    obtain ⟨key, value⟩ := member
    by_cases hvalue : key = some "value"
    · obtain rfl := hvalue
      obtain ⟨result, htake, hrest⟩ := hsource.cons_eq
      rw [if_pos rfl, htake]
      exact ih hrest (hflags.cons_ne (by simp))
    by_cases hflag : key = some "flags"
    · obtain rfl := hflag
      obtain ⟨result, htake, hrest⟩ := hflags.cons_eq
      rw [if_neg (by simp), if_pos rfl, htake]
      exact ih (hsource.cons_ne (by simp)) hrest
    · rw [if_neg hvalue, if_neg hflag]
      exact ih (hsource.cons_ne hvalue) (hflags.cons_ne hflag)

theorem readPatternFields_of_takes {members : List (Option String × Json)} {source : String}
    {flags : Option (Option String)}
    (hsource : Takes "value" (Json.asText "a string") none members (some source))
    (hflags : Takes "flags" Json.asOptionalText none members flags) :
    readPatternFields (.named members) = .ok (source, flags.join) := by
  rw [readPatternFields, foldlM_of_takes hsource hflags]
  rfl

/-! ## Rules -/

namespace Rule

section

variable {type : String} {known : List String} {fields : List (String × Json)}
  {members : List (Option String × Json)}

/-- The type of a rendered rule is where it is looked for. -/
theorem HasMembers.takesType (h : HasMembers type known fields members)
    (hfields : ∀ field ∈ fields, field.1 ≠ "type") {nested : Bool} {result : RuleType}
    (hread : RuleType.ofName? type = some result) :
    Takes "type" (readType nested) none members (some result) := by
  have hperm := Json.Lists.withKey h "type" List.mem_cons_self
  have hothers : fields.filter (fun field => decide (field.1 = "type")) = [] := by
    rw [List.filter_eq_nil_iff]
    exact fun field hfield heq => hfields field hfield (of_decide_eq_true heq)
  rw [List.filter_cons, if_pos (decide_eq_true rfl), hothers] at hperm
  refine .inr ⟨rfl, .string type, result, hperm.eq_singleton, ?_, rfl⟩
  rw [readType, hread]

/-- Looking among the members that are left for a known key finds a field that has it. -/
theorem HasMembers.withKey (h : HasMembers type known fields members) (key : String)
    (hkey : key ∈ known) (hne : key ≠ "type") :
    (Json.withKey key (members.filter fun member => member.1 ≠ some "type")).Perm
      ((fields.filter fun field => field.1 = key).map fun field => (some field.1, field.2)) := by
  have hperm := Json.Lists.withKey h key (List.mem_cons_of_mem _ hkey)
  rw [List.filter_cons_of_neg (by simpa using hne.symm)] at hperm
  have hsame : Json.withKey key (members.filter fun member => member.1 ≠ some "type")
      = Json.withKey key members := by
    unfold Json.withKey
    rw [List.filter_filter]
    apply List.filter_congr
    intro member _
    by_cases heq : member.1 = some key
    · simp [heq, hne]
    · simp [heq]
  rw [hsame]
  exact hperm

/-- The one field of a key is taken. -/
theorem HasMembers.takes {α : Type} (h : HasMembers type known fields members) {key : String}
    {read : Json → Except GrammarError α} {value : Json} {result : α} (hkey : key ∈ known)
    (hne : key ≠ "type")
    (hfields : fields.filter (fun field => decide (field.1 = key)) = [(key, value)])
    (hread : read value = .ok result) :
    Takes key read none (members.filter fun member => member.1 ≠ some "type") (some result) := by
  have hperm := h.withKey key hkey hne
  rw [hfields] at hperm
  exact .inr ⟨rfl, value, result, hperm.eq_singleton, hread, rfl⟩

/-- A rule with one field is read by what that field is read as. -/
theorem HasMembers.readOnlyField {α : Type} {key : String} {value : Json} {result : α}
    (h : HasMembers type [key] [(key, value)] members) (kind : RuleType)
    (read : Json → Except GrammarError α) (hread : read value = .ok result)
    (hne : key ≠ "type") :
    Gll.readOnlyField kind key read (.named (members.filter fun member => member.1 ≠ some "type"))
      = .ok result := by
  apply readOnlyField_of_takes
  apply h.takes List.mem_cons_self hne _ hread
  rw [List.filter_cons, if_pos (decide_eq_true rfl), List.filter_nil]

/-- The source and the flags of a rendered pattern are read. -/
theorem HasMembers.readPatternFields {source : String} {flags : Option String}
    (hflags : Json.RendersOptional "flags" flags fields)
    (h : HasMembers type ["value", "flags"] (("value", .string source) :: fields) members) :
    Gll.readPatternFields (.named (members.filter fun member => member.1 ≠ some "type"))
      = .ok (source, flags) := by
  have hnone : fields.filter (fun field => decide (field.1 = "value")) = [] := by
    rw [List.filter_eq_nil_iff]
    intro field hfield heq
    rw [hflags.key field hfield] at heq
    exact absurd (of_decide_eq_true heq) (by decide)
  have hsource : Takes "value" (Json.asText "a string") none
      (members.filter fun member => member.1 ≠ some "type") (some source) :=
    h.takes (by simp) (by decide) (by rw [List.filter_cons, if_pos (decide_eq_true rfl), hnone]) rfl
  have hperm := h.withKey "flags" (by simp) (by decide)
  rw [List.filter_cons, if_neg (show ¬ decide ("value" = "flags") = true by decide)] at hperm
  obtain ⟨new, htakes, hjoin⟩ := hflags.takes hperm
  rw [readPatternFields_of_takes hsource htakes, hjoin]

theorem HasMembers.depth_le (h : HasMembers type known fields members)
    {field : String × Json} (hfield : field ∈ fields) :
    field.2.depth ≤ Json.depthOfMembers members :=
  Json.Lists.depth_le h (List.mem_cons_of_mem _ hfield)

/-- The members of a rendered rule, which is no deeper than allowed, are free of faults. -/
theorem HasMembers.faultless (h : HasMembers type known fields members) {levels : Nat}
    (hfields : ∀ field ∈ fields, field.2.depth ≤ levels → field.2.faultWithin levels = none)
    (hdepth : Json.depthOfMembers members ≤ levels) :
    ∀ member ∈ members, member.1 ≠ none ∧ member.2.faultWithin levels = none := by
  intro member hmember
  have hlevels := Nat.le_trans (Json.depth_le_of_member hmember) hdepth
  obtain ⟨extras, hperm, hextras⟩ := h
  obtain ⟨field, hfield, rfl⟩ := List.mem_map.mp (hperm.mem_iff.mp hmember)
  refine ⟨Option.some_ne_none _, ?_⟩
  rcases List.mem_append.mp hfield with hfield | hextra
  · rcases List.mem_cons.mp hfield with rfl | hfield
    · rfl
    · exact hfields field hfield hlevels
  · exact (hextras field hextra).2.faultWithin hlevels

/-- The object of a rendered rule is split into its type and its other members. -/
theorem HasMembers.readShape (h : HasMembers type known fields members) {levels : Nat}
    (result : RuleType) (hread : RuleType.ofName? type = some result)
    (htype : ∀ field ∈ fields, field.1 ≠ "type")
    (hfields : ∀ field ∈ fields, field.2.depth ≤ levels → field.2.faultWithin levels = none)
    (hdepth : Json.depthOfMembers members ≤ levels) (nested : Bool) :
    Gll.readShape nested (levels + 1) (.object members none)
      = .ok (result, .named (members.filter fun member => member.1 ≠ some "type")) := by
  have hmembers := readMembers_of_takes nested (h.takesType htype hread)
    (h.faultless hfields hdepth)
  simp only [Gll.readShape, Nat.succ_ne_zero, if_false, Nat.add_sub_cancel]
  rw [hmembers]
  rfl

/-- The object of a rendered rule, which is no deeper than allowed, has no fault. -/
theorem HasMembers.faultWithin (h : HasMembers type known fields members) {levels : Nat}
    (hfields : ∀ field ∈ fields, field.2.depth ≤ levels → field.2.faultWithin levels = none)
    (hdepth : (Json.object members none).depth ≤ levels + 1) :
    (Json.object members none).faultWithin (levels + 1) = none := by
  rw [Json.depth] at hdepth
  rw [Json.faultWithin, if_neg (Nat.succ_ne_zero _), Nat.add_sub_cancel,
    Json.faultOfMembers_eq_none (h.faultless hfields (by omega))]
  rfl

end

theorem ofName?_of_mem_wrappers {type : String} (h : type ∈ wrappers) :
    ∃ remark, RuleType.ofName? type = some (.remark remark) := by
  simp only [wrappers, List.mem_cons, List.not_mem_nil, or_false] at h
  rcases h with rfl | rfl | rfl | rfl | rfl | rfl | rfl | rfl | rfl <;> exact ⟨_, rfl⟩

theorem faultWithin_string {levels : Nat} {key text : String} :
    ∀ field ∈ [(key, Json.string text)], field.2.depth ≤ levels →
      field.2.faultWithin levels = none :=
  List.forall_mem_singleton.mpr fun _ => rfl

theorem faultWithin_optional {levels : Nat} {key : String} {text : Option String}
    {fields : List (String × Json)} (h : Json.RendersOptional key text fields) :
    ∀ field ∈ fields, field.2.depth ≤ levels → field.2.faultWithin levels = none := by
  cases h with
  | missing => exact fun field hfield => absurd hfield List.not_mem_nil
  | null => exact List.forall_mem_singleton.mpr fun _ => rfl
  | given => exact faultWithin_string

theorem faultWithin_list {levels : Nat} (key : String) {rules : List Rule} {items : List Json}
    (hitems : List.Forall₂ Renders rules items)
    (h : ∀ (levels' : Nat) (rule : Rule) (item : Json), levels' < levels → rule.Renders item →
      item.depth ≤ levels' → item.faultWithin levels' = none) :
    ∀ field ∈ [(key, Json.array items none)], field.2.depth ≤ levels →
      field.2.faultWithin levels = none := by
  refine List.forall_mem_singleton.mpr fun hdepth => ?_
  rw [Json.depth] at hdepth
  rw [Json.faultWithin, if_neg (by omega), Json.faultOfItems_eq_none]
  · rfl
  intro item hitem
  obtain ⟨rule, -, hrenders⟩ := exists_of_forall₂ hitems hitem
  have hlevels := Json.depth_le_of_item hitem
  exact h (levels - 1) rule item (by omega) hrenders (by omega)

/-- A rendering that is not too deep has no fault. -/
theorem Renders.faultWithin {levels : Nat} {rule : Rule} {value : Json} (h : rule.Renders value)
    (hdepth : value.depth ≤ levels) : value.faultWithin levels = none := by
  induction levels using Nat.strongRecOn generalizing rule value with
  | ind levels ih =>
    cases levels with
    | zero => cases h <;> exact absurd hdepth (Nat.not_succ_le_zero _)
    | succ levels =>
      have hlist {rules : List Rule} {items : List Json}
          (hitems : List.Forall₂ Renders rules items) :=
        faultWithin_list "members" hitems fun levels' rule item hlt hrenders =>
          ih levels' (Nat.lt_succ_of_lt hlt) hrenders
      cases h with
      | blank h => exact h.faultWithin (fun field hfield => absurd hfield List.not_mem_nil) hdepth
      | literal h | symbol h => exact h.faultWithin faultWithin_string hdepth
      | pattern hflags h =>
        exact h.faultWithin (List.forall_mem_cons.mpr ⟨fun _ => rfl, faultWithin_optional hflags⟩)
          hdepth
      | sequence hitems h | choice hitems h => exact h.faultWithin (hlist hitems) hdepth
      | star hcontent h | plus hcontent h | wrapped _ hcontent h =>
        exact h.faultWithin
          (List.forall_mem_singleton.mpr (ih levels (Nat.lt_succ_self _) hcontent)) hdepth

/-- Rendered rules in a list are read one after the other. -/
theorem mapM_readRule {levels : Nat} {rules : List Rule} {items : List Json}
    (hitems : List.Forall₂ Renders rules items)
    (h : ∀ rule item, Renders rule item → item ∈ items → Gll.readRule levels true item = .ok rule) :
    items.mapM (Gll.readRule levels true) = .ok rules := by
  induction hitems with
  | nil => rfl
  | @cons rule item rules items hrenders _ ih =>
    rw [List.mapM_cons, h rule item hrenders List.mem_cons_self,
      ih fun rule item hrenders hmem => h rule item hrenders (List.mem_cons_of_mem _ hmem)]
    rfl

/-- A rendered rule is read back. -/
theorem Renders.readRule {levels : Nat} {rule : Rule} {value : Json} (h : rule.Renders value)
    (hdepth : value.depth ≤ levels) (nested : Bool) :
    Gll.readRule levels nested value = .ok rule := by
  induction levels generalizing rule value nested with
  | zero => cases h <;> exact absurd hdepth (Nat.not_succ_le_zero _)
  | succ levels ih =>
    -- The rules in a list are not as deep as the rule.
    have hfaultless {rules : List Rule} {items : List Json}
        (hitems : List.Forall₂ Renders rules items) :=
      faultWithin_list "members" hitems fun levels' rule item (_ : levels' < levels) hrenders =>
        hrenders.faultWithin
    have hmapM {rules : List Rule} {items : List Json}
        (hitems : List.Forall₂ Renders rules items)
        (hlevels : (Json.array items none).depth ≤ levels) :
        items.mapM (Gll.readRule levels true) = .ok rules := by
      rw [Json.depth] at hlevels
      refine mapM_readRule hitems fun rule item hrenders hitem => ih hrenders ?_ true
      have hitem := Json.depth_le_of_item hitem
      omega
    have hcontent {key : String} {content : Rule} {value : Json} (h : content.Renders value) :
        ∀ field ∈ [(key, value)], field.2.depth ≤ levels → field.2.faultWithin levels = none :=
      List.forall_mem_singleton.mpr h.faultWithin
    cases h with
    | blank h =>
      rw [Gll.readRule, h.readShape _ rfl (by simp)
        (fun field hfield => absurd hfield List.not_mem_nil) (Nat.le_of_succ_le_succ hdepth)]
      rfl
    | literal h | symbol h =>
      rw [Gll.readRule, h.readShape _ rfl (by simp) faultWithin_string
        (Nat.le_of_succ_le_succ hdepth)]
      show Gll.readOnlyField _ _ _ _ >>= _ = _
      rw [h.readOnlyField _ (Json.asText "a string") rfl (by decide)]
      rfl
    | pattern hflags h =>
      have hshape := h.readShape .pattern rfl
        (List.forall_mem_cons.mpr ⟨show "value" ≠ "type" by decide, fun field hfield => by
          rw [hflags.key field hfield]; decide⟩)
        (List.forall_mem_cons.mpr ⟨fun _ => rfl, faultWithin_optional hflags⟩)
        (Nat.le_of_succ_le_succ hdepth) nested
      rw [Gll.readRule, hshape]
      show Gll.readPatternFields _ >>= _ = _
      rw [h.readPatternFields hflags]
      rfl
    | sequence hitems h | choice hitems h =>
      have hlevels := h.depth_le List.mem_cons_self
      rw [Gll.readRule, h.readShape _ rfl (by simp) (hfaultless hitems)
        (Nat.le_of_succ_le_succ hdepth)]
      show Gll.readOnlyField _ _ _ _ >>= _ = _
      rw [h.readOnlyField]
      · rfl
      · exact hmapM hitems (Nat.le_trans hlevels (Nat.le_of_succ_le_succ hdepth))
      · decide
    | star hrenders h | plus hrenders h =>
      have hlevels := h.depth_le List.mem_cons_self
      rw [Gll.readRule, h.readShape _ rfl (by simp) (hcontent hrenders)
        (Nat.le_of_succ_le_succ hdepth)]
      show Gll.readOnlyField _ _ _ _ >>= _ = _
      rw [h.readOnlyField]
      · rfl
      · exact ih hrenders (Nat.le_trans hlevels (Nat.le_of_succ_le_succ hdepth)) true
      · decide
    | wrapped htype hrenders h =>
      obtain ⟨remark, hremark⟩ := ofName?_of_mem_wrappers htype
      have hlevels := h.depth_le List.mem_cons_self
      rw [Gll.readRule, h.readShape _ hremark (by simp) (hcontent hrenders)
        (Nat.le_of_succ_le_succ hdepth)]
      show Gll.readOnlyField (.remark remark) "content" (Gll.readRule levels true) (.named _) = _
      rw [h.readOnlyField]
      · exact ih hrenders (Nat.le_trans hlevels (Nat.le_of_succ_le_succ hdepth)) true
      · decide

end Rule

/-! ## Grammars -/

namespace Grammar

/-- The table that definitions make after some are made. -/
def defineAll (rules : RuleTable) (definitions : List (String × Rule)) : RuleTable :=
  definitions.foldl (fun rules definition => defineIn definition.1 definition.2 rules) rules

theorem foldl_withRule (grammar : Grammar) (definitions : List (String × Rule)) :
    definitions.foldl (fun grammar definition => grammar.withRule definition.1 definition.2) grammar
      = { grammar with
          rules := (defineAll ⟨grammar.rules, grammar.nodup⟩ definitions).1
          nodup := (defineAll ⟨grammar.rules, grammar.nodup⟩ definitions).2 } := by
  induction definitions generalizing grammar with
  | nil => rfl
  | cons definition definitions ih => exact ih (grammar.withRule definition.1 definition.2)

/-- The grammar of definitions has the table that they make. -/
theorem ofDefinitions_eq (name : String) (start : Option String)
    (definitions : List (String × Rule)) :
    ofDefinitions name start definitions
      = ⟨name, start, (defineAll ⟨[], List.nodup_nil⟩ definitions).1,
          (defineAll ⟨[], List.nodup_nil⟩ definitions).2⟩ := by
  unfold ofDefinitions
  rw [foldl_withRule]
  cases start <;> rfl

/-- Rendered definitions are read back in their order. -/
theorem readRules_of_renders {levels : Nat} {definitions : List (String × Rule)}
    {table : List (Option String × Json)}
    (htable : List.Forall₂ (fun definition member =>
      member.1 = some definition.1 ∧ definition.2.Renders member.2) definitions table)
    (hdepth : Json.depthOfMembers table ≤ levels) (rules : RuleTable) :
    readRules levels rules table = .ok (defineAll rules definitions) := by
  induction htable generalizing rules with
  | nil => rfl
  | @cons definition member definitions table hmember _ ih =>
    obtain ⟨key, value⟩ := member
    obtain ⟨hkey, hrenders⟩ := hmember
    obtain rfl : key = some definition.1 := hkey
    rw [Json.depthOfMembers] at hdepth
    rw [readRules, hrenders.readRule (Nat.le_trans (Nat.le_max_left _ _) hdepth) false]
    exact ih (Nat.le_trans (Nat.le_max_right _ _) hdepth) (defineIn definition.1 definition.2 rules)

/-- The fields of a grammar are taken from among its members, and the others are skipped. -/
theorem readFields_of_takes {levels : Nat} {old new : Fields}
    {members : List (Option String × Json)}
    (hname : Takes "name" (Json.asText "a string") old.name members new.name)
    (hstart : Takes "start" Json.asOptionalText old.start members new.start)
    (hrules : Takes "rules" (readRuleTable levels) old.rules members new.rules)
    (hskipped : ∀ member ∈ members, member.1 ≠ none ∧ member.2.flawWhenSkipped = none) :
    readFields levels old members = .ok new := by
  -- Member by member: its key says which field takes it, and the others skip it.
  induction members generalizing old with
  | nil =>
    obtain ⟨name, start, rules⟩ := old
    obtain rfl := hname.nil
    obtain rfl := hstart.nil
    obtain rfl := hrules.nil
    rfl
  | cons member members ih =>
    obtain ⟨⟨hkey, hflaw⟩, hothers⟩ := List.forall_mem_cons.mp hskipped
    obtain ⟨_ | key, value⟩ := member
    · exact absurd rfl hkey
    have hne {other : String} (h : key ≠ other) : some key ≠ some other :=
      fun heq => h (Option.some.inj heq)
    rw [readFields]
    by_cases heq : key = "name"
    · obtain rfl := heq
      obtain ⟨result, htake, hrest⟩ := hname.cons_eq
      rw [if_pos rfl, htake]
      exact ih hrest (hstart.cons_ne (by simp)) (hrules.cons_ne (by simp)) hothers
    rw [if_neg heq]
    by_cases heq' : key = "start"
    · obtain rfl := heq'
      obtain ⟨result, htake, hrest⟩ := hstart.cons_eq
      rw [if_pos rfl, htake]
      exact ih (hname.cons_ne (by simp)) hrest (hrules.cons_ne (by simp)) hothers
    rw [if_neg heq']
    by_cases heq'' : key = "rules"
    · obtain rfl := heq''
      obtain ⟨result, htake, hrest⟩ := hrules.cons_eq
      rw [if_pos rfl, htake]
      exact ih (hname.cons_ne (by simp)) (hstart.cons_ne (by simp)) hrest hothers
    · rw [if_neg heq'', hflaw]
      exact ih (hname.cons_ne (hne heq)) (hstart.cons_ne (hne heq')) (hrules.cons_ne (hne heq''))
        hothers

/-- The rendered table is read back. -/
theorem readRuleTable_of_renders {levels : Nat} {definitions : List (String × Rule)}
    {table : List (Option String × Json)}
    (htable : List.Forall₂ (fun definition member =>
      member.1 = some definition.1 ∧ definition.2.Renders member.2) definitions table)
    (hdepth : (Json.object table none).depth ≤ levels) :
    readRuleTable levels (.object table none)
      = .ok (defineAll ⟨[], List.nodup_nil⟩ definitions) := by
  rw [Json.depth] at hdepth
  simp only [readRuleTable, show levels ≠ 0 by omega, if_false]
  rw [readRules_of_renders htable (by omega)]
  rfl

/-- A rendered grammar is read back. -/
theorem Renders.readGrammar {name : String} {start : Option String}
    {definitions : List (String × Rule)} {value : Json} (h : Renders name start definitions value)
    (hdepth : value.depth ≤ maxLevels) {text : List Char} (hspells : value.Spells text) :
    Grammar.readGrammar value = .ok (ofDefinitions name start definitions) := by
  cases h with
  | @mk startFields table members hstart htable h =>
    have hskipped : ∀ member ∈ members, member.2.flawWhenSkipped = none := by
      cases hspells with
      | object hmembers =>
        exact fun member hmember => Json.flawWhenSkipped_of_spells (hmembers.each member hmember)
    -- The fields under the keys of the name, of the rules and of the start rule.
    have hstartKey := hstart.key
    have hnot {key : String} (hne : key ≠ "start") :
        startFields.filter (fun field => decide (field.1 = key)) = [] := by
      rw [List.filter_eq_nil_iff]
      intro field hfield heq
      rw [hstartKey field hfield] at heq
      exact hne (of_decide_eq_true heq).symm
    have hname := h.withKey "name" (by simp)
    have hrules := h.withKey "rules" (by simp)
    have hstartMembers := h.withKey "start" (by simp)
    simp only [List.filter_cons, decide_true, if_true, hnot, ne_eq, String.reduceEq,
      not_false_eq_true, decide_false, Bool.false_eq_true, if_false, List.map_cons,
      List.map_nil] at hname hrules hstartMembers
    have htable : Takes "rules" (readRuleTable (maxLevels - 1)) none members
        (some (defineAll ⟨[], List.nodup_nil⟩ definitions)) := by
      refine .inr ⟨rfl, .object table none, _, hrules.eq_singleton, ?_, rfl⟩
      apply readRuleTable_of_renders htable
      have hlevels : (Json.object table none).depth ≤ Json.depthOfMembers members :=
        h.depth_le (List.mem_cons_of_mem _ List.mem_cons_self)
      rw [Json.depth] at hdepth
      exact Nat.le_trans hlevels (Nat.le_sub_one_of_lt hdepth)
    obtain ⟨new, htakes, hjoin⟩ := hstart.takes hstartMembers
    have hfields := @readFields_of_takes (maxLevels - 1) ⟨none, none, none⟩
      ⟨some name, new, some (defineAll ⟨[], List.nodup_nil⟩ definitions)⟩ members
      (.inr ⟨rfl, .string name, name, hname.eq_singleton, rfl, rfl⟩) htakes htable
      fun member hmember => ⟨h.key_ne_none hmember, hskipped member hmember⟩
    rw [ofDefinitions_eq, ← hjoin]
    unfold Grammar.readGrammar
    simp only [hfields]
    rfl

/-- A text that renders a grammar is read back. -/
theorem Renders.ofText {name : String} {start : Option String}
    {definitions : List (String × Rule)} {value : Json} {text : String}
    (h : Renders name start definitions value) (hdepth : value.depth ≤ maxLevels)
    (htext : value.SpellsText text) :
    Grammar.ofText text = .ok (ofDefinitions name start definitions) := by
  have hread := htext.read
  cases htext with
  | mk hbefore hspells hafter =>
    unfold Grammar.ofText
    rw [hread]
    simp only [h.readGrammar hdepth hspells]
    rfl

end Grammar

end Gll
