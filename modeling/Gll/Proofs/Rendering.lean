import Gll.Grammar.Reading
import Gll.Proofs.Spelling
import Mathlib.Data.List.Forall2

/-!
Grammars as JSON values, from the side of the writer.

A rule is an object whose `type` names its kind, and a grammar is an object with a name, rules in
the order of their definition and perhaps a start rule. The members of an object come in any order,
and others that mean nothing may stand between them (`Json.Lists`). A rule may also be wrapped in
objects that only say something about it. All the values that render a rule are described by
`Rule.Renders`, and those that render a grammar by `Grammar.Renders`.

Every wrapper and every rule inside a rule is a level deeper in the document. How deep a rendering
of a rule has to be is the rule's number of levels (`Rule.levels`); one that deep, and a text of it,
there always is.
-/

set_option autoImplicit false

namespace Gll

namespace Json

/-! ## Nesting -/

mutual

/-- How many arrays and objects are nested in one another. -/
def depth : Json → Nat
  | array items _ => depthOfItems items + 1
  | object members _ => depthOfMembers members + 1
  | _ => 0

/-- The depth of the deepest item. -/
def depthOfItems : List Json → Nat
  | [] => 0
  | item :: rest => max item.depth (depthOfItems rest)

/-- The depth of the deepest member. -/
def depthOfMembers : List (Option String × Json) → Nat
  | [] => 0
  | (_, value) :: rest => max value.depth (depthOfMembers rest)

end

theorem depth_le_of_item {items : List Json} {item : Json} (h : item ∈ items) :
    item.depth ≤ depthOfItems items := by
  induction items with
  | nil => exact absurd h List.not_mem_nil
  | cons other rest ih =>
    rw [depthOfItems]
    rcases List.mem_cons.mp h with rfl | h
    · exact Nat.le_max_left _ _
    · exact Nat.le_trans (ih h) (Nat.le_max_right _ _)

theorem depth_le_of_member {members : List (Option String × Json)} {member : Option String × Json}
    (h : member ∈ members) : member.2.depth ≤ depthOfMembers members := by
  induction members with
  | nil => exact absurd h List.not_mem_nil
  | cons other rest ih =>
    obtain ⟨key, value⟩ := other
    rw [depthOfMembers]
    rcases List.mem_cons.mp h with rfl | h
    · exact Nat.le_max_left _ _
    · exact Nat.le_trans (ih h) (Nat.le_max_right _ _)

/-! ## Plain values -/

mutual

/-- A value whose strings are texts and whose numbers are in range. -/
def IsPlain : Json → Prop
  | null | bool _ | string _ => True
  | number value => value ≠ .outOfRange
  | unfinishedNumber | unpaired _ | flawed _ => False
  | array items flaw => flaw = none ∧ ArePlainItems items
  | object members flaw => flaw = none ∧ ArePlainMembers members

/-- Plain items. -/
def ArePlainItems : List Json → Prop
  | [] => True
  | item :: rest => item.IsPlain ∧ ArePlainItems rest

/-- Plain members, whose keys are texts too. -/
def ArePlainMembers : List (Option String × Json) → Prop
  | [] => True
  | (key, value) :: rest => key ≠ none ∧ value.IsPlain ∧ ArePlainMembers rest

end

/-! ## Members -/

/-- The members of an object in any order: they are the given fields and others, whose keys are not
among the known ones and whose values are allowed. -/
def Lists (known : List String) (allowed : Json → Prop) (fields : List (String × Json))
    (members : List (Option String × Json)) : Prop :=
  ∃ extras : List (String × Json),
    members.Perm ((fields ++ extras).map fun field => (some field.1, field.2)) ∧
    ∀ extra ∈ extras, extra.1 ∉ known ∧ allowed extra.2

/-- A field that may be missing or `null`. -/
inductive RendersOptional (key : String) : Option String → List (String × Json) → Prop where
  | missing : RendersOptional key none []
  | null : RendersOptional key none [(key, .null)]
  | given (text : String) : RendersOptional key (some text) [(key, .string text)]

end Json

/-! ## Rules -/

namespace Rule

/-- The names of the wrappers. -/
def wrappers : List String :=
  ["FIELD", "ALIAS", "TOKEN", "IMMEDIATE_TOKEN", "PREC", "PREC_LEFT", "PREC_RIGHT", "PREC_DYNAMIC",
    "RESERVED"]

/-- The members of the object of a rule: its type, its fields in any order, and others. -/
def HasMembers (type : String) (known : List String) (fields : List (String × Json))
    (members : List (Option String × Json)) : Prop :=
  Json.Lists ("type" :: known) Json.IsPlain (("type", .string type) :: fields) members

/-- The values that render a rule. -/
inductive Renders : Rule → Json → Prop where
  | blank {members : List (Option String × Json)} (h : HasMembers "BLANK" [] [] members) :
      Renders .blank (.object members none)
  | literal {text : String} {members : List (Option String × Json)}
      (h : HasMembers "STRING" ["value"] [("value", .string text)] members) :
      Renders (.literal text) (.object members none)
  | pattern {source : String} {flags : Option String} {fields : List (String × Json)}
      {members : List (Option String × Json)} (hflags : Json.RendersOptional "flags" flags fields)
      (h : HasMembers "PATTERN" ["value", "flags"] (("value", .string source) :: fields) members) :
      Renders (.pattern source flags) (.object members none)
  | symbol {name : String} {members : List (Option String × Json)}
      (h : HasMembers "SYMBOL" ["name"] [("name", .string name)] members) :
      Renders (.symbol name) (.object members none)
  | sequence {rules : List Rule} {items : List Json} {members : List (Option String × Json)}
      (hitems : List.Forall₂ Renders rules items)
      (h : HasMembers "SEQ" ["members"] [("members", .array items none)] members) :
      Renders (.sequence rules) (.object members none)
  | choice {rules : List Rule} {items : List Json} {members : List (Option String × Json)}
      (hitems : List.Forall₂ Renders rules items)
      (h : HasMembers "CHOICE" ["members"] [("members", .array items none)] members) :
      Renders (.choice rules) (.object members none)
  | star {content : Rule} {value : Json} {members : List (Option String × Json)}
      (hcontent : Renders content value)
      (h : HasMembers "REPEAT" ["content"] [("content", value)] members) :
      Renders (.star content) (.object members none)
  | plus {content : Rule} {value : Json} {members : List (Option String × Json)}
      (hcontent : Renders content value)
      (h : HasMembers "REPEAT1" ["content"] [("content", value)] members) :
      Renders (.plus content) (.object members none)
  | wrapped {content : Rule} {value : Json} {members : List (Option String × Json)} {type : String}
      (htype : type ∈ wrappers) (hcontent : Renders content value)
      (h : HasMembers type ["content"] [("content", value)] members) :
      Renders content (.object members none)

mutual

/-- How deep the renderings of a rule are at least. -/
def levels : Rule → Nat
  | blank | literal _ | pattern _ _ | symbol _ => 1
  | sequence members | choice members => levelsOfAll members + 2
  | star content | plus content => content.levels + 1

/-- The levels of the deepest rule. -/
def levelsOfAll : List Rule → Nat
  | [] => 0
  | rule :: rest => max rule.levels (levelsOfAll rest)

end

end Rule

/-! ## Grammars -/

namespace Grammar

/-- The grammar that definitions make one after the other, with a start rule if one is given. -/
def ofDefinitions (name : String) (start : Option String) (definitions : List (String × Rule)) :
    Grammar :=
  let grammar := definitions.foldl (fun grammar definition =>
    grammar.withRule definition.1 definition.2) (empty name)
  match start with
  | some start => grammar.withStart start
  | none => grammar

/-- The values that render a name, a start rule and definitions, the latter in their order. -/
inductive Renders (name : String) (start : Option String) (definitions : List (String × Rule)) :
    Json → Prop where
  | mk {startFields : List (String × Json)} {table members : List (Option String × Json)}
      (hstart : Json.RendersOptional "start" start startFields)
      (htable : List.Forall₂ (fun definition member =>
        member.1 = some definition.1 ∧ definition.2.Renders member.2) definitions table)
      (h : Json.Lists ["name", "start", "rules"] (fun _ => True)
        (("name", .string name) :: ("rules", .object table none) :: startFields) members) :
      Renders name start definitions (.object members none)

end Grammar

/-! ## Writing -/

namespace Json

/-- A character that stands for itself in a string. -/
def IsLiteral (c : Char) : Prop := 0x20 ≤ c.toNat ∧ c ≠ '"' ∧ c ≠ '\\'

instance (c : Char) : Decidable (IsLiteral c) := inferInstanceAs (Decidable (_ ∧ _))

/-- The digit of a value below sixteen. -/
theorem isHexDigit (value : Nat) (h : value < 16) : IsHexDigit value (Nat.digitChar value) :=
  ⟨h, .inl rfl⟩

theorem exists_spellsCode {code : Nat} (h : code < 0x10000) : ∃ text, SpellsCode code text := by
  have hcode := SpellsCode.mk (isHexDigit (code / 4096) (by omega))
    (isHexDigit (code / 256 % 16) (by omega)) (isHexDigit (code / 16 % 16) (by omega))
    (isHexDigit (code % 16) (by omega))
  rw [show ((code / 4096 * 16 + code / 256 % 16) * 16 + code / 16 % 16) * 16 + code % 16 = code by
    omega] at hcode
  exact ⟨_, hcode⟩

/-- Every character can be written: as it is, or else by its number. -/
theorem exists_spellsChar (c : Char) : ∃ text, SpellsChar c text := by
  by_cases hplain : IsLiteral c
  · exact ⟨[c], .plain hplain.1 hplain.2.1 hplain.2.2⟩
  · have hlt : c.toNat < 0x10000 := by
      by_contra hlarge
      apply hplain
      refine ⟨by omega, ?_, ?_⟩ <;> (intro heq; rw [heq] at hlarge; exact hlarge (by decide))
    obtain ⟨text, h⟩ := exists_spellsCode hlt
    exact ⟨_, .code h⟩

theorem exists_spellsChars (cs : List Char) : ∃ text, SpellsChars cs text := by
  induction cs with
  | nil => exact ⟨[], .nil⟩
  | cons c cs ih =>
    obtain ⟨text, hc⟩ := exists_spellsChar c
    obtain ⟨rest, h⟩ := ih
    exact ⟨_, .cons hc h⟩

/-- Characters that stand for themselves. -/
def areLiteral (cs : List Char) : Bool := cs.all fun c => decide (IsLiteral c)

theorem spellsChars_self {cs : List Char} (h : areLiteral cs = true) : SpellsChars cs cs := by
  induction cs with
  | nil => exact .nil
  | cons c cs ih =>
    rw [areLiteral, List.all_cons, Bool.and_eq_true, decide_eq_true_eq] at h
    obtain ⟨⟨hprintable, hquote, hslash⟩, hcs⟩ := h
    exact .cons (.plain hprintable hquote hslash) (ih hcs)

/-- A text of characters that stand for themselves is written in quotes. -/
theorem spells_self (text : String) (h : areLiteral text.toList = true) :
    Spells (.string text) ('"' :: (text.toList ++ ['"'])) := by
  have hspells := Spells.string (spellsChars_self h)
  rw [String.ofList_toList] at hspells
  exact hspells

theorem spellsMember_self (key : String) (h : areLiteral key.toList = true) {value : Json}
    {text : List Char} (hvalue : Spells value text) :
    SpellsMember (some key, value) ('"' :: (key.toList ++ '"' :: ':' :: ' ' :: text)) := by
  have hafter : Blanks [' '] := List.forall_mem_singleton.mpr (by decide)
  have hmember := SpellsMember.text (spellsChars_self h) blanks_nil hafter hvalue
  rw [String.ofList_toList] at hmember
  exact hmember

/-- Every text can be written. -/
theorem exists_spells_string (text : String) : ∃ spelling, Spells (.string text) spelling := by
  obtain ⟨spelling, h⟩ := exists_spellsChars text.toList
  have hspells := Spells.string h
  rw [String.ofList_toList] at hspells
  exact ⟨_, hspells⟩

theorem exists_spellsMoreItems {items : List Json} (h : ∀ item ∈ items, ∃ text, Spells item text) :
    ∃ text, SpellsMoreItems items text := by
  induction items with
  | nil => exact ⟨[], .nil⟩
  | cons item items ih =>
    obtain ⟨⟨text, hitem⟩, hitems⟩ := List.forall_mem_cons.mp h
    obtain ⟨more, hmore⟩ := ih hitems
    exact ⟨_, .cons blanks_nil hitem blanks_nil hmore⟩

/-- An array of what can be written can be written. -/
theorem exists_spells_array {items : List Json} (h : ∀ item ∈ items, ∃ text, Spells item text) :
    ∃ text, Spells (.array items none) text := by
  cases items with
  | nil => exact ⟨_, .array (.nil blanks_nil)⟩
  | cons item items =>
    obtain ⟨⟨text, hitem⟩, hitems⟩ := List.forall_mem_cons.mp h
    obtain ⟨more, hmore⟩ := exists_spellsMoreItems hitems
    exact ⟨_, .array (.cons blanks_nil hitem blanks_nil hmore)⟩

/-- The object of some fields, in their order. -/
def ofFields (fields : List (String × Json)) : Json :=
  .object (fields.map fun field => (some field.1, field.2)) none

theorem exists_spellsMember {field : String × Json} (h : ∃ text, Spells field.2 text) :
    ∃ text, SpellsMember (some field.1, field.2) text := by
  obtain ⟨keyText, hkey⟩ := exists_spellsChars field.1.toList
  obtain ⟨text, hvalue⟩ := h
  have hmember := SpellsMember.text hkey blanks_nil blanks_nil hvalue
  rw [String.ofList_toList] at hmember
  exact ⟨_, hmember⟩

theorem exists_spellsMoreMembers {fields : List (String × Json)}
    (h : ∀ field ∈ fields, ∃ text, Spells field.2 text) :
    ∃ text, SpellsMoreMembers (fields.map fun field => (some field.1, field.2)) text := by
  induction fields with
  | nil => exact ⟨[], .nil⟩
  | cons field fields ih =>
    obtain ⟨hfield, hfields⟩ := List.forall_mem_cons.mp h
    obtain ⟨text, hmember⟩ := exists_spellsMember hfield
    obtain ⟨more, hmore⟩ := ih hfields
    exact ⟨_, .cons blanks_nil hmember blanks_nil hmore⟩

/-- An object of what can be written can be written. -/
theorem exists_spells_ofFields {fields : List (String × Json)}
    (h : ∀ field ∈ fields, ∃ text, Spells field.2 text) :
    ∃ text, Spells (ofFields fields) text := by
  cases fields with
  | nil => exact ⟨_, .object (.nil blanks_nil)⟩
  | cons field fields =>
    obtain ⟨hfield, hfields⟩ := List.forall_mem_cons.mp h
    obtain ⟨text, hmember⟩ := exists_spellsMember hfield
    obtain ⟨more, hmore⟩ := exists_spellsMoreMembers hfields
    exact ⟨_, .object (.cons blanks_nil hmember blanks_nil hmore)⟩

/-- A value that can be written and is no deeper than some levels. -/
def IsWritable (levels : Nat) (value : Json) : Prop :=
  value.depth ≤ levels ∧ ∃ text, Spells value text

theorem IsWritable.mono {levels levels' : Nat} {value : Json} (h : IsWritable levels value)
    (hle : levels ≤ levels') : IsWritable levels' value :=
  ⟨Nat.le_trans h.1 hle, h.2⟩

theorem isWritable_string (levels : Nat) (text : String) : IsWritable levels (.string text) :=
  ⟨Nat.zero_le _, exists_spells_string text⟩

theorem depthOfItems_le {items : List Json} {levels : Nat}
    (h : ∀ item ∈ items, item.depth ≤ levels) : depthOfItems items ≤ levels := by
  induction items with
  | nil => exact Nat.zero_le _
  | cons item items ih =>
    obtain ⟨hitem, hitems⟩ := List.forall_mem_cons.mp h
    exact Nat.max_le.mpr ⟨hitem, ih hitems⟩

theorem depthOfMembers_le {fields : List (String × Json)} {levels : Nat}
    (h : ∀ field ∈ fields, field.2.depth ≤ levels) :
    depthOfMembers (fields.map fun field => (some field.1, field.2)) ≤ levels := by
  induction fields with
  | nil => exact Nat.zero_le _
  | cons field fields ih =>
    obtain ⟨hfield, hfields⟩ := List.forall_mem_cons.mp h
    exact Nat.max_le.mpr ⟨hfield, ih hfields⟩

theorem isWritable_array {levels : Nat} {items : List Json}
    (h : ∀ item ∈ items, IsWritable levels item) : IsWritable (levels + 1) (.array items none) :=
  ⟨Nat.succ_le_succ (depthOfItems_le fun item hitem => (h item hitem).1),
    exists_spells_array fun item hitem => (h item hitem).2⟩

theorem isWritable_ofFields {levels : Nat} (fields : List (String × Json))
    (h : ∀ field ∈ fields, IsWritable levels field.2) :
    IsWritable (levels + 1) (ofFields fields) :=
  ⟨Nat.succ_le_succ (depthOfMembers_le fun field hfield => (h field hfield).1),
    exists_spells_ofFields fun field hfield => (h field hfield).2⟩

/-- A field that may be missing has a writable rendering. -/
theorem exists_rendersOptional (key : String) (text : Option String) :
    ∃ fields, RendersOptional key text fields ∧ ∀ field ∈ fields, IsWritable 0 field.2 := by
  cases text with
  | none => exact ⟨[], .missing, fun field hfield => absurd hfield List.not_mem_nil⟩
  | some text =>
    exact ⟨_, .given text, List.forall_mem_singleton.mpr (isWritable_string 0 text)⟩

/-- The fields themselves are a list of them without others. -/
theorem lists_self (known : List String) (allowed : Json → Prop) (fields : List (String × Json)) :
    Lists known allowed fields (fields.map fun field => (some field.1, field.2)) := by
  refine ⟨[], ?_, fun extra hextra => absurd hextra List.not_mem_nil⟩
  rw [List.append_nil]

end Json

namespace Rule

theorem levels_le_of_mem {rules : List Rule} {rule : Rule} (h : rule ∈ rules) :
    rule.levels ≤ levelsOfAll rules := by
  induction rules with
  | nil => exact absurd h List.not_mem_nil
  | cons other rest ih =>
    rw [levelsOfAll]
    rcases List.mem_cons.mp h with rfl | h
    · exact Nat.le_max_left _ _
    · exact Nat.le_trans (ih h) (Nat.le_max_right _ _)

/-- If each rule of a list has a writable rendering, they have a list of writable renderings. -/
theorem exists_renders_all {levels : Nat} {rules : List Rule}
    (h : ∀ rule ∈ rules, ∃ value, Renders rule value ∧ value.IsWritable levels) :
    ∃ items, List.Forall₂ Renders rules items ∧ ∀ item ∈ items, item.IsWritable levels := by
  induction rules with
  | nil => exact ⟨[], .nil, fun item hitem => absurd hitem List.not_mem_nil⟩
  | cons rule rules ih =>
    obtain ⟨⟨value, hrenders, hvalue⟩, hrules⟩ := List.forall_mem_cons.mp h
    obtain ⟨items, hitems, hwritable⟩ := ih hrules
    exact ⟨value :: items, .cons hrenders hitems, List.forall_mem_cons.mpr ⟨hvalue, hwritable⟩⟩

/-- The object of a type and its fields has these as its members, and can be written if they can. -/
theorem object_of_fields (type : String) (known : List String) (fields : List (String × Json))
    {levels : Nat} (h : ∀ field ∈ fields, field.2.IsWritable levels) :
    ∃ members, HasMembers type known fields members ∧
      (Json.object members none).IsWritable (levels + 1) :=
  ⟨_, Json.lists_self _ _ _, Json.isWritable_ofFields (("type", .string type) :: fields)
    (List.forall_mem_cons.mpr ⟨Json.isWritable_string levels type, h⟩)⟩

/-- An object of a type with one field. -/
theorem object_of_field (type key : String) {value : Json} {levels : Nat}
    (h : value.IsWritable levels) :
    ∃ members, HasMembers type [key] [(key, value)] members ∧
      (Json.object members none).IsWritable (levels + 1) :=
  object_of_fields type [key] [(key, value)] (List.forall_mem_singleton.mpr h)

/-- A rule has a writable rendering that is no deeper than the rule's levels. -/
theorem exists_renders (rule : Rule) :
    ∃ value, Renders rule value ∧ value.IsWritable rule.levels := by
  generalize hlevels : rule.levels = levels
  -- On the levels, since a member of a list can be more than one level below it.
  induction levels using Nat.strongRecOn generalizing rule with
  | ind levels ih =>
    have hlist (rules : List Rule) (hlt : levelsOfAll rules < levels) :
        ∃ items, List.Forall₂ Renders rules items ∧
          (Json.array items none).IsWritable (levelsOfAll rules + 1) := by
      have heach : ∀ rule ∈ rules,
          ∃ value, Renders rule value ∧ value.IsWritable (levelsOfAll rules) := by
        intro rule hrule
        have hle := levels_le_of_mem hrule
        obtain ⟨value, hrenders, hvalue⟩ := ih rule.levels (Nat.lt_of_le_of_lt hle hlt) rule rfl
        exact ⟨value, hrenders, hvalue.mono hle⟩
      obtain ⟨items, hitems, hwritable⟩ := exists_renders_all heach
      exact ⟨items, hitems, Json.isWritable_array hwritable⟩
    subst hlevels
    cases rule with
    | blank =>
      have hnone : ∀ field ∈ ([] : List (String × Json)), field.2.IsWritable 0 :=
        fun field hfield => absurd hfield List.not_mem_nil
      obtain ⟨members, hmembers, hwritable⟩ := object_of_fields "BLANK" [] [] hnone
      exact ⟨_, .blank hmembers, hwritable⟩
    | literal text =>
      obtain ⟨members, hmembers, hwritable⟩ :=
        object_of_field "STRING" "value" (Json.isWritable_string 0 text)
      exact ⟨_, .literal hmembers, hwritable⟩
    | pattern source flags =>
      obtain ⟨fields, hflags, hfields⟩ := Json.exists_rendersOptional "flags" flags
      obtain ⟨members, hmembers, hwritable⟩ := object_of_fields "PATTERN" ["value", "flags"]
        (("value", .string source) :: fields)
        (List.forall_mem_cons.mpr ⟨Json.isWritable_string 0 source, hfields⟩)
      exact ⟨_, .pattern hflags hmembers, hwritable⟩
    | symbol name =>
      obtain ⟨members, hmembers, hwritable⟩ :=
        object_of_field "SYMBOL" "name" (Json.isWritable_string 0 name)
      exact ⟨_, .symbol hmembers, hwritable⟩
    | sequence rules =>
      obtain ⟨items, hitems, harray⟩ := hlist rules (by rw [levels]; omega)
      obtain ⟨members, hmembers, hwritable⟩ := object_of_field "SEQ" "members" harray
      exact ⟨_, .sequence hitems hmembers, hwritable⟩
    | choice rules =>
      obtain ⟨items, hitems, harray⟩ := hlist rules (by rw [levels]; omega)
      obtain ⟨members, hmembers, hwritable⟩ := object_of_field "CHOICE" "members" harray
      exact ⟨_, .choice hitems hmembers, hwritable⟩
    | star content =>
      obtain ⟨value, hrenders, hvalue⟩ := ih content.levels (Nat.lt_succ_self _) content rfl
      obtain ⟨members, hmembers, hwritable⟩ := object_of_field "REPEAT" "content" hvalue
      exact ⟨_, .star hrenders hmembers, hwritable⟩
    | plus content =>
      obtain ⟨value, hrenders, hvalue⟩ := ih content.levels (Nat.lt_succ_self _) content rfl
      obtain ⟨members, hmembers, hwritable⟩ := object_of_field "REPEAT1" "content" hvalue
      exact ⟨_, .plus hrenders hmembers, hwritable⟩

end Rule

namespace Grammar

/-- Definitions whose rules are not too deep have a writable table. -/
theorem exists_table {levels : Nat} {definitions : List (String × Rule)}
    (h : ∀ definition ∈ definitions, definition.2.levels ≤ levels) :
    ∃ fields : List (String × Json), List.Forall₂ (fun definition member =>
        member.1 = some definition.1 ∧ definition.2.Renders member.2) definitions
        (fields.map fun field => (some field.1, field.2)) ∧
      ∀ field ∈ fields, field.2.IsWritable levels := by
  induction definitions with
  | nil => exact ⟨[], .nil, fun field hfield => absurd hfield List.not_mem_nil⟩
  | cons definition definitions ih =>
    obtain ⟨hdefinition, hdefinitions⟩ := List.forall_mem_cons.mp h
    obtain ⟨value, hrenders, hvalue⟩ := definition.2.exists_renders
    obtain ⟨fields, htable, hfields⟩ := ih hdefinitions
    exact ⟨(definition.1, value) :: fields, .cons ⟨rfl, hrenders⟩ htable,
      List.forall_mem_cons.mpr ⟨hvalue.mono hdefinition, hfields⟩⟩

/-- Definitions whose rules are not too deep have a writable rendering. -/
theorem exists_renders (name : String) (start : Option String) {levels : Nat}
    {definitions : List (String × Rule)}
    (h : ∀ definition ∈ definitions, definition.2.levels ≤ levels) :
    ∃ value, Renders name start definitions value ∧ value.IsWritable (levels + 2) := by
  obtain ⟨table, htable, htableWritable⟩ := exists_table h
  obtain ⟨startFields, hstart, hstartWritable⟩ := Json.exists_rendersOptional "start" start
  refine ⟨_, .mk hstart htable (Json.lists_self _ _ _), Json.isWritable_ofFields _ ?_⟩
  refine List.forall_mem_cons.mpr ⟨Json.isWritable_string _ name, List.forall_mem_cons.mpr
    ⟨Json.isWritable_ofFields _ htableWritable, fun field hfield => ?_⟩⟩
  exact (hstartWritable field hfield).mono (Nat.zero_le _)

end Grammar

end Gll
