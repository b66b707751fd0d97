import Gll.Proofs.Decoding
import Gll.Proofs.Interning

/-!
Which grammars have a document.

Reading a document nests no deeper than the reader allows, and neither do the rules that come out of
it: what is read inside so many levels has no more levels than that (`Grammar.levels_of_ofText`). A
rule that is nested deeper has no document, although it can be built. All others do have one.

Definitions of one name are one rule. Its place is that of the first of them, its content that of
the last.
-/

set_option autoImplicit false

namespace Gll

/-! ## What is read is no deeper than allowed -/

namespace Json

mutual

/-- A value without a fault is no deeper than allowed. -/
theorem depth_of_faultWithin {levels : Nat} : {value : Json} → value.faultWithin levels = none →
    value.depth ≤ levels
  | null, _ | bool _, _ | string _, _ | number _, _ | unfinishedNumber, _ | unpaired _, _ |
      flawed _, _ => Nat.zero_le _
  | array items flaw, h => by
    rw [faultWithin] at h
    by_cases hlevels : levels = 0
    · rw [if_pos hlevels] at h
      cases h
    · rw [if_neg hlevels, Option.or_eq_none_iff] at h
      have hitems := depth_of_faultOfItems h.1
      rw [depth]
      omega
  | object members flaw, h => by
    rw [faultWithin] at h
    by_cases hlevels : levels = 0
    · rw [if_pos hlevels] at h
      cases h
    · rw [if_neg hlevels, Option.or_eq_none_iff] at h
      have hmembers := depth_of_faultOfMembers h.1
      rw [depth]
      omega

theorem depth_of_faultOfItems {levels : Nat} : {items : List Json} →
    faultOfItems levels items = none → depthOfItems items ≤ levels
  | [], _ => Nat.zero_le _
  | item :: rest, h => by
    rw [faultOfItems, Option.or_eq_none_iff] at h
    exact Nat.max_le.mpr ⟨depth_of_faultWithin h.1, depth_of_faultOfItems h.2⟩

theorem depth_of_faultOfMembers {levels : Nat} : {members : List (Option String × Json)} →
    faultOfMembers levels members = none → depthOfMembers members ≤ levels
  | [], _ => Nat.zero_le _
  | (none, _) :: _, h => by cases h
  | (some _, value) :: rest, h => by
    rw [faultOfMembers, Option.or_eq_none_iff] at h
    exact Nat.max_le.mpr ⟨depth_of_faultWithin h.1, depth_of_faultOfMembers h.2⟩

end

end Json

theorem of_unlessFlaw_eq_ok {α : Type} {flaw : Option Json.Flaw} {result : Except GrammarError α}
    {a : α} (h : Json.unlessFlaw flaw result = .ok a) : flaw = none ∧ result = .ok a := by
  cases flaw with
  | none => exact ⟨rfl, h⟩
  | some flaw => cases h

theorem exists_of_takeField_eq_ok {α : Type} {key : String} {old new : Option α}
    {value : Except GrammarError α} (h : takeField key old value = .ok new) :
    ∃ a, value = .ok a ∧ new = some a := by
  cases old with
  | some old => cases h
  | none =>
    obtain ⟨a, ha, hnew⟩ := exists_of_bind_eq_ok h
    exact ⟨a, ha, (Except.ok.inj hnew).symm⟩

/-! ### Rules -/

/-- The values of the fields of a rule. -/
def RuleFields.values : RuleFields → List Json
  | named members => members.map Prod.snd
  | ordered items => items

/-- What a rule's only field gives was read from one of its values. -/
theorem exists_of_readOnlyField_eq_ok {α : Type} {type : RuleType} {key : String}
    {read : Json → Except GrammarError α} {fields : RuleFields} {a : α}
    (h : readOnlyField type key read fields = .ok a) :
    ∃ value ∈ fields.values, read value = .ok a := by
  cases fields with
  | named members =>
    obtain ⟨found, hfold, hrequire⟩ := exists_of_bind_eq_ok h
    have hfound : found = some a := by
      cases found with
      | none => cases hrequire
      | some found => rw [Except.ok.inj hrequire]
    -- Whatever was found on the way was read from one of the members.
    refine foldlM_keeps (P := fun found => ∀ a, found = some a →
      ∃ value ∈ members.map Prod.snd, read value = .ok a) ?_
      (by intro a ha; cases ha) hfold a hfound
    intro old member hmember new hold hstep
    by_cases heq : member.1 = some key
    · rw [if_pos heq] at hstep
      obtain ⟨a, hread, rfl⟩ := exists_of_takeField_eq_ok hstep
      intro a' ha'
      exact ⟨member.2, List.mem_map_of_mem hmember, by rw [hread, Option.some.inj ha']⟩
    · rw [if_neg heq] at hstep
      obtain rfl := Except.ok.inj hstep
      exact hold
  | ordered items =>
    cases items with
    | nil => cases h
    | cons first rest =>
      obtain ⟨a', hread, hrest⟩ := exists_of_bind_eq_ok h
      refine ⟨first, List.mem_cons_self, ?_⟩
      cases rest with
      | nil => rw [hread, Except.ok.inj hrest]
      | cons second rest => cases hrest

/-- A value that names a type is not nested. -/
theorem depth_of_readType {nested : Bool} {value : Json} {type : RuleType}
    (h : readType nested value = .ok type) : value.depth = 0 := by
  cases value with
  | array | object => cases h
  | _ => rfl

/-- The members of a rule are no deeper than allowed, and those that are kept are among them. -/
theorem depth_of_readMembers {nested : Bool} {levels : Nat} {old new : Option RuleType}
    {members kept : List (Option String × Json)}
    (h : readMembers nested levels old members = .ok (new, kept)) :
    Json.depthOfMembers members ≤ levels ∧ ∀ member ∈ kept, member ∈ members := by
  induction members generalizing old kept with
  | nil =>
    obtain ⟨-, rfl⟩ := Prod.mk.inj (Except.ok.inj h)
    exact ⟨Nat.zero_le _, fun member hmember => hmember⟩
  | cons member members ih =>
    obtain ⟨_ | key, value⟩ := member
    · rw [readMembers] at h
      cases h
    rw [readMembers] at h
    -- A member that names the type is flat; any other one is kept, after a look at how deep it is.
    by_cases heq : key = "type"
    · rw [if_pos heq] at h
      obtain ⟨type, htake, hrest⟩ := exists_of_bind_eq_ok h
      obtain ⟨type, hread, -⟩ := exists_of_takeField_eq_ok htake
      obtain ⟨hdepth, hkept⟩ := ih hrest
      refine ⟨Nat.max_le.mpr ⟨?_, hdepth⟩, fun member hmember => List.mem_cons_of_mem _
        (hkept member hmember)⟩
      rw [depth_of_readType hread]
      exact Nat.zero_le _
    · rw [if_neg heq] at h
      obtain ⟨hfault, h⟩ := of_unlessFlaw_eq_ok h
      obtain ⟨⟨type, kept'⟩, hrest, h⟩ := exists_of_bind_eq_ok h
      obtain ⟨rfl, rfl⟩ := Prod.mk.inj (Except.ok.inj h)
      obtain ⟨hdepth, hkept⟩ := ih hrest
      refine ⟨Nat.max_le.mpr ⟨Json.depth_of_faultWithin hfault, hdepth⟩, ?_⟩
      exact List.forall_mem_cons.mpr ⟨List.mem_cons_self, fun member hmember =>
        List.mem_cons_of_mem _ (hkept member hmember)⟩

/-- A rule is no deeper than allowed, and its fields are less deep. -/
theorem depth_of_readShape {nested : Bool} {levels : Nat} {value : Json} {type : RuleType}
    {fields : RuleFields} (h : readShape nested levels value = .ok (type, fields)) :
    value.depth ≤ levels ∧ 0 < value.depth ∧
      ∀ field ∈ fields.values, field.depth < value.depth := by
  cases value with
  | object members flaw =>
    simp only [readShape] at h
    by_cases hlevels : levels = 0
    · rw [if_pos hlevels] at h
      cases h
    rw [if_neg hlevels] at h
    obtain ⟨⟨type', kept⟩, hread, h⟩ := exists_of_bind_eq_ok h
    obtain ⟨-, h⟩ := of_unlessFlaw_eq_ok h
    obtain ⟨_, -, h⟩ := exists_of_bind_eq_ok h
    obtain ⟨-, rfl⟩ := Prod.mk.inj (Except.ok.inj h)
    obtain ⟨hdepth, hkept⟩ := depth_of_readMembers hread
    rw [Json.depth]
    refine ⟨by omega, Nat.succ_pos _, fun field hfield => ?_⟩
    obtain ⟨member, hmember, rfl⟩ := List.mem_map.mp hfield
    exact Nat.lt_succ_of_le (Json.depth_le_of_member (hkept member hmember))
  | array items flaw =>
    simp only [readShape] at h
    by_cases hlevels : levels = 0
    · rw [if_pos hlevels] at h
      cases h
    rw [if_neg hlevels] at h
    cases items with
    | nil => cases (of_unlessFlaw_eq_ok h).2
    | cons first rest =>
      obtain ⟨type', hread, h⟩ := exists_of_bind_eq_ok h
      obtain ⟨hfault, h⟩ := of_unlessFlaw_eq_ok h
      obtain ⟨-, rfl⟩ := Prod.mk.inj (Except.ok.inj h)
      -- The first item is the type, which is flat, so the depth is that of the others.
      have hdepth := Json.depth_of_faultOfItems (Option.or_eq_none_iff.mp hfault).1
      have hfirst := depth_of_readType hread
      rw [Json.depth, Json.depthOfItems, hfirst]
      refine ⟨by omega, Nat.succ_pos _, fun field hfield => ?_⟩
      exact Nat.lt_succ_of_le
        (Nat.le_trans (Json.depth_le_of_item hfield) (Nat.le_max_right _ _))
  | _ => cases h

namespace Rule

theorem levelsOfAll_le {rules : List Rule} {levels : Nat}
    (h : ∀ rule ∈ rules, rule.levels ≤ levels) : levelsOfAll rules ≤ levels := by
  induction rules with
  | nil => exact Nat.zero_le _
  | cons rule rules ih =>
    obtain ⟨hrule, hrules⟩ := List.forall_mem_cons.mp h
    exact Nat.max_le.mpr ⟨hrule, ih hrules⟩

/-- A rule that is read has no more levels than the value it is read from. -/
theorem levels_le_depth {levels : Nat} {nested : Bool} {value : Json} {rule : Rule}
    (h : readRule levels nested value = .ok rule) : rule.levels ≤ value.depth := by
  -- By induction on the levels that are allowed: what is inside a rule was read with one level
  -- less.
  induction levels generalizing nested value rule with
  | zero =>
    obtain ⟨⟨type, fields⟩, hshape, -⟩ := exists_of_bind_eq_ok h
    have hdepth := depth_of_readShape hshape
    omega
  | succ levels ih =>
    obtain ⟨⟨type, fields⟩, hshape, h⟩ := exists_of_bind_eq_ok h
    obtain ⟨-, hpos, hfields⟩ := depth_of_readShape hshape
    have hcontent {type : RuleType} {key : String} {content : Rule}
        (h : readOnlyField type key (readRule levels true) fields = .ok content) :
        content.levels < value.depth := by
      obtain ⟨inner, hinner, hread⟩ := exists_of_readOnlyField_eq_ok h
      exact Nat.lt_of_le_of_lt (ih hread) (hfields inner hinner)
    have hlist {type : RuleType} {key : String} {rules : List Rule}
        {read : Json → Except GrammarError (List Rule)}
        (hread : ∀ inner rules, read inner = .ok rules → ∃ items flaw,
          inner = .array items flaw ∧ items.mapM (readRule levels true) = .ok rules)
        (h : readOnlyField type key read fields = .ok rules) :
        levelsOfAll rules + 2 ≤ value.depth := by
      obtain ⟨inner, hinner, h⟩ := exists_of_readOnlyField_eq_ok h
      obtain ⟨items, flaw, rfl, hitems⟩ := hread inner rules h
      have hlt := hfields _ hinner
      rw [Json.depth] at hlt
      refine Nat.le_trans (Nat.succ_le_succ (Nat.succ_le_succ ?_)) hlt
      apply levelsOfAll_le
      intro rule hrule
      obtain ⟨item, hitem, hread⟩ := exists_of_mem_mapM hitems rule hrule
      exact Nat.le_trans (ih hread) (Json.depth_le_of_item hitem)
    cases type with
    | blank | literal | pattern | symbol =>
      obtain ⟨_, -, h⟩ := exists_of_bind_eq_ok h
      obtain rfl := Except.ok.inj h
      exact hpos
    | sequence | choice =>
      obtain ⟨_, hread, h⟩ := exists_of_bind_eq_ok h
      obtain rfl := Except.ok.inj h
      refine hlist (fun inner rules hinner => ?_) hread
      cases inner with
      | array items flaw => exact ⟨items, flaw, rfl, hinner⟩
      | _ => cases hinner
    | star | plus =>
      obtain ⟨_, hread, h⟩ := exists_of_bind_eq_ok h
      obtain rfl := Except.ok.inj h
      exact hcontent hread
    | remark remark => exact Nat.le_of_lt (hcontent h)

/-- A rule that is read inside so many levels has no more of them. -/
theorem levels_of_readRule {levels : Nat} {nested : Bool} {value : Json} {rule : Rule}
    (h : readRule levels nested value = .ok rule) : rule.levels ≤ levels := by
  have hlevels := levels_le_depth h
  cases levels with
  | zero =>
    obtain ⟨⟨type, fields⟩, hshape, -⟩ := exists_of_bind_eq_ok h
    exact Nat.le_trans hlevels (depth_of_readShape hshape).1
  | succ levels =>
    obtain ⟨⟨type, fields⟩, hshape, -⟩ := exists_of_bind_eq_ok h
    exact Nat.le_trans hlevels (depth_of_readShape hshape).1

end Rule

/-! ### Grammars -/

namespace Grammar

/-- Rules with no more than so many levels. -/
def Within (levels : Nat) (rules : List (String × Rule)) : Prop :=
  ∀ rule ∈ rules, rule.2.levels ≤ levels

theorem within_define {levels : Nat} {rules : List (String × Rule)} (h : Within levels rules)
    (name : String) {rule : Rule} (hrule : rule.levels ≤ levels) :
    Within levels (define name rule rules) := by
  induction rules with
  | nil => exact List.forall_mem_singleton.mpr hrule
  | cons other rest ih =>
    obtain ⟨hother, hrest⟩ := List.forall_mem_cons.mp h
    rw [define]
    split
    · exact List.forall_mem_cons.mpr ⟨hrule, hrest⟩
    · exact List.forall_mem_cons.mpr ⟨hother, ih hrest⟩

theorem within_readRules {levels : Nat} {rules rules' : RuleTable}
    {members : List (Option String × Json)} (h : readRules levels rules members = .ok rules')
    (hrules : Within levels rules.1) : Within levels rules'.1 := by
  induction members generalizing rules with
  | nil =>
    obtain rfl := Except.ok.inj h
    exact hrules
  | cons member members ih =>
    obtain ⟨_ | name, value⟩ := member
    · rw [readRules] at h
      cases h
    rw [readRules] at h
    obtain ⟨rule, hread, hrest⟩ := exists_of_bind_eq_ok h
    exact ih hrest (within_define hrules name (Rule.levels_of_readRule hread))

theorem within_readRuleTable {levels : Nat} {value : Json} {rules : RuleTable}
    (h : readRuleTable levels value = .ok rules) : Within (levels - 1) rules.1 := by
  cases value with
  | object members flaw =>
    simp only [readRuleTable] at h
    by_cases hlevels : levels = 0
    · rw [if_pos hlevels] at h
      cases h
    rw [if_neg hlevels] at h
    obtain ⟨rules', hread, h⟩ := exists_of_bind_eq_ok h
    obtain rfl := Except.ok.inj (of_unlessFlaw_eq_ok h).2
    exact within_readRules hread fun rule hrule => absurd hrule List.not_mem_nil
  | _ => cases h

theorem within_readFields {levels : Nat} {old new : Fields} {members : List (Option String × Json)}
    (h : readFields levels old members = .ok new)
    (hold : ∀ rules, old.rules = some rules → Within (levels - 1) rules.1) :
    ∀ rules, new.rules = some rules → Within (levels - 1) rules.1 := by
  induction members generalizing old with
  | nil =>
    obtain rfl := Except.ok.inj h
    exact hold
  | cons member members ih =>
    obtain ⟨_ | key, value⟩ := member
    · rw [readFields] at h
      cases h
    rw [readFields] at h
    by_cases hname : key = "name"
    · rw [if_pos hname] at h
      obtain ⟨name, -, hrest⟩ := exists_of_bind_eq_ok h
      exact ih hrest hold
    rw [if_neg hname] at h
    by_cases hstart : key = "start"
    · rw [if_pos hstart] at h
      obtain ⟨start, -, hrest⟩ := exists_of_bind_eq_ok h
      exact ih hrest hold
    rw [if_neg hstart] at h
    by_cases hrules : key = "rules"
    · rw [if_pos hrules] at h
      obtain ⟨taken, htake, hrest⟩ := exists_of_bind_eq_ok h
      obtain ⟨table, hread, rfl⟩ := exists_of_takeField_eq_ok htake
      -- Only the member with the rules gives any.
      refine ih hrest fun rules heq => ?_
      obtain rfl : table = rules := Option.some.inj heq
      exact within_readRuleTable hread
    · rw [if_neg hrules] at h
      exact ih (of_unlessFlaw_eq_ok h).2 hold

theorem exists_of_nextItem_eq_ok {α : Type} {read : Json → Except GrammarError α} {missing : Nat}
    {flaw : Option Json.Flaw} {items rest : List Json} {a : α}
    (h : nextItem read missing flaw items = .ok (a, rest)) : ∃ item, read item = .ok a := by
  cases items with
  | nil => cases (of_unlessFlaw_eq_ok h).2
  | cons item items =>
    obtain ⟨a', hread, h⟩ := exists_of_bind_eq_ok h
    obtain ⟨rfl, -⟩ := Prod.mk.inj (Except.ok.inj h)
    exact ⟨item, hread⟩

theorem of_requireField_eq_ok {α : Type} {key : String} {value : Option α} {a : α}
    (h : requireField key value = .ok a) : value = some a := by
  cases value with
  | none => cases h
  | some value => rw [Except.ok.inj h]

/-- The rules of a grammar are two levels inside its document. -/
theorem within_readGrammar {value : Json} {grammar : Grammar}
    (h : readGrammar value = .ok grammar) : Within 125 grammar.rules := by
  cases value with
  | object members flaw =>
    simp only [readGrammar] at h
    obtain ⟨fields, hfields, h⟩ := exists_of_bind_eq_ok h
    obtain ⟨-, h⟩ := of_unlessFlaw_eq_ok h
    obtain ⟨name, -, h⟩ := exists_of_bind_eq_ok h
    obtain ⟨rules, hrules, h⟩ := exists_of_bind_eq_ok h
    obtain rfl := Except.ok.inj h
    exact within_readFields hfields (fun rules hnone => by cases hnone) rules
      (of_requireField_eq_ok hrules)
  | array items flaw =>
    -- In a row the rules are the last item, with or without a start before them.
    have hend (name : String) (start : Option String) (items : List Json)
        (h : (do
          let next ← nextItem (readRuleTable (maxLevels - 1)) 2 flaw items
          if next.2.isEmpty then Json.unlessFlaw flaw (.ok ⟨name, start, next.1.1, next.1.2⟩)
          else .error (.flaw .malformed)) = Except.ok grammar) : Within 125 grammar.rules := by
      obtain ⟨⟨rules, rest⟩, hrules, h⟩ := exists_of_bind_eq_ok h
      obtain ⟨item, hread⟩ := exists_of_nextItem_eq_ok hrules
      cases rest with
      | nil =>
        obtain rfl := Except.ok.inj (of_unlessFlaw_eq_ok h).2
        exact within_readRuleTable hread
      | cons => cases h
    simp only [readGrammar] at h
    obtain ⟨⟨name, items⟩, -, h⟩ := exists_of_bind_eq_ok h
    split at h
    · exact hend name none [] h
    · obtain ⟨⟨start, items⟩, -, h⟩ := exists_of_bind_eq_ok h
      exact hend name start items h
  | _ => cases h

/-- No rule of a grammar that is read has more than 125 levels. -/
theorem within_ofText {text : String} {grammar : Grammar} (h : ofText text = .ok grammar) :
    Within 125 grammar.rules := by
  unfold ofText at h
  simp only at h
  split at h
  · rename_i grammar' hread
    split at h
    · cases h
    · obtain rfl := Except.ok.inj h
      exact within_readGrammar hread
  · cases h

/-! ## Names that are defined again -/

theorem names_define (name : String) (rule : Rule) (rules : List (String × Rule)) :
    (define name rule rules).map Prod.fst
      = if name ∈ rules.map Prod.fst then rules.map Prod.fst else rules.map Prod.fst ++ [name] := by
  induction rules with
  | nil => rfl
  | cons other rest ih =>
    obtain ⟨other, old⟩ := other
    rw [define]
    by_cases heq : other = name
    · simp [heq]
    · have hne : name ≠ other := fun hsame => heq hsame.symm
      rw [if_neg heq, List.map_cons, ih, List.map_cons]
      by_cases hmem : name ∈ rest.map Prod.fst
      · rw [if_pos hmem, if_pos (List.mem_cons_of_mem _ hmem)]
      · rw [if_neg hmem, if_neg fun h => (List.mem_cons.mp h).elim hne hmem]
        rfl

theorem lookup_cons (name other : String) (rule : Rule) (rules : List (String × Rule)) :
    List.lookup other ((name, rule) :: rules)
      = if other = name then some rule else rules.lookup other := by
  rw [List.lookup_cons]
  by_cases heq : other = name
  · simp [heq]
  · rw [if_neg heq, beq_eq_false_iff_ne.mpr heq]

theorem lookup_define (name : String) (rule : Rule) (rules : List (String × Rule))
    (other : String) : (define name rule rules).lookup other
      = if other = name then some rule else rules.lookup other := by
  induction rules with
  | nil => exact lookup_cons name other rule []
  | cons first rest ih =>
    obtain ⟨first, old⟩ := first
    rw [define, lookup_cons]
    by_cases heq : first = name
    · rw [if_pos heq, lookup_cons, heq]
      by_cases hother : other = name
      · rw [if_pos hother, if_pos hother]
      · rw [if_neg hother, if_neg hother, if_neg hother]
    · rw [if_neg heq, lookup_cons, ih]
      by_cases hfirst : other = first
      · rw [if_pos hfirst, if_pos hfirst, if_neg (hfirst ▸ heq)]
      · rw [if_neg hfirst, if_neg hfirst]

/-- Every name has the place of its first definition. -/
theorem names_defineAll (rules : RuleTable) (definitions : List (String × Rule)) :
    (defineAll rules definitions).1.map Prod.fst
      = (rules.1.map Prod.fst ++ definitions.map Prod.fst).eraseDups := by
  induction definitions generalizing rules with
  | nil =>
    rw [List.map_nil, List.append_nil, eraseDups_of_nodup rules.2]
    rfl
  | cons definition definitions ih =>
    show (defineAll (defineIn definition.1 definition.2 rules) definitions).1.map Prod.fst = _
    rw [ih]
    show ((define definition.1 definition.2 rules.1).map Prod.fst ++ _).eraseDups = _
    rw [names_define]
    split
    · rename_i hmem
      rw [List.eraseDups_append, List.eraseDups_append, List.map_cons, List.cons_removeAll]
      simp [hmem]
    · rw [List.append_assoc]
      rfl

/-- Every name has the content of its last definition. -/
theorem lookup_defineAll (rules : RuleTable) (definitions : List (String × Rule)) (name : String) :
    (defineAll rules definitions).1.lookup name
      = (definitions.reverse.lookup name).or (rules.1.lookup name) := by
  induction definitions generalizing rules with
  | nil => rfl
  | cons definition definitions ih =>
    show (defineAll (defineIn definition.1 definition.2 rules) definitions).1.lookup name = _
    rw [ih]
    show Option.or _ ((define definition.1 definition.2 rules.1).lookup name) = _
    rw [lookup_define, List.reverse_cons, List.lookup_append, Option.or_assoc, lookup_cons]
    by_cases heq : name = definition.1
    · rw [if_pos heq, if_pos heq]
      rfl
    · rw [if_neg heq, if_neg heq]
      rfl

theorem define_of_not_mem {name : String} {rule : Rule} {rules : List (String × Rule)}
    (h : name ∉ rules.map Prod.fst) : define name rule rules = rules ++ [(name, rule)] := by
  induction rules with
  | nil => rfl
  | cons other rest ih =>
    obtain ⟨hne, hrest⟩ := not_or.mp fun hmem => h (List.mem_cons.mpr hmem)
    rw [define, if_neg (Ne.symm hne), ih hrest]
    rfl

/-- Definitions of different names are the table that they make. -/
theorem defineAll_of_nodup (rules : RuleTable) (definitions : List (String × Rule))
    (h : ((rules.1 ++ definitions).map Prod.fst).Nodup) :
    (defineAll rules definitions).1 = rules.1 ++ definitions := by
  induction definitions generalizing rules with
  | nil => rw [List.append_nil]; rfl
  | cons definition definitions ih =>
    have hnot : definition.1 ∉ rules.1.map Prod.fst := by
      rw [List.map_append, List.map_cons, List.nodup_append] at h
      exact fun hmem => h.2.2 _ hmem _ List.mem_cons_self rfl
    have hdefine : (defineIn definition.1 definition.2 rules).1 = rules.1 ++ [definition] :=
      define_of_not_mem hnot
    show (defineAll (defineIn definition.1 definition.2 rules) definitions).1 = _
    rw [ih, hdefine, List.append_assoc]
    · rfl
    · rw [hdefine, List.append_assoc]
      exact h

/-- A grammar is made by its own rules. -/
theorem ofDefinitions_rules (grammar : Grammar) :
    ofDefinitions grammar.name grammar.start grammar.rules = grammar := by
  have hrules := defineAll_of_nodup ⟨[], List.nodup_nil⟩ grammar.rules grammar.nodup
  rw [ofDefinitions_eq]
  obtain ⟨name, start, rules, nodup⟩ := grammar
  congr 1

/-! ## Decoding -/

/-- Decoding a document gives the grammar that its definitions make, whatever the order of the
members in its objects, whatever else they hold, however its rules are wrapped and however it is
spelled. Each name has the place of its first definition and the content of its last. The grammars
that some document decodes to are those whose rules have no more than 125 levels. -/
theorem ofText_of_renders :
    (∀ (name : String) (start : Option String) (definitions : List (String × Rule)) (value : Json)
      (text : String), Renders name start definitions value → value.depth ≤ 127 →
      value.SpellsText text → ofText text = .ok (ofDefinitions name start definitions)) ∧
    (∀ (name : String) (start : Option String) (definitions : List (String × Rule)),
      (ofDefinitions name start definitions).rules.map Prod.fst
        = (definitions.map Prod.fst).eraseDups ∧
      ∀ other, (ofDefinitions name start definitions).rules.lookup other
        = definitions.reverse.lookup other) ∧
    ∀ grammar : Grammar, (∃ name start definitions value text,
      Renders name start definitions value ∧ value.depth ≤ 127 ∧ value.SpellsText text ∧
        ofText text = .ok grammar) ↔ ∀ rule ∈ grammar.rules, rule.2.levels ≤ 125 := by
  refine ⟨fun name start definitions value text h hdepth htext => h.ofText hdepth htext,
    fun name start definitions => ?_, fun grammar => ⟨?_, fun h => ?_⟩⟩
  · rw [ofDefinitions_eq]
    refine ⟨names_defineAll _ definitions, fun other => ?_⟩
    have hlookup := lookup_defineAll ⟨[], List.nodup_nil⟩ definitions other
    rw [List.lookup_nil, Option.or_none] at hlookup
    exact hlookup
  · rintro ⟨name, start, definitions, value, text, -, -, -, h⟩
    exact within_ofText h
  · obtain ⟨value, hrenders, hdepth, spelling, hspells⟩ :=
      exists_renders grammar.name grammar.start h
    have htext := Json.SpellsText.mk Json.blanks_nil hspells Json.blanks_nil
    have hread := hrenders.ofText hdepth htext
    rw [ofDefinitions_rules] at hread
    exact ⟨_, _, _, value, _, hrenders, hdepth, htext, hread⟩

/-- A document with a wrapped rule, an escape, a member that means nothing and a name that is
defined again. -/
theorem ofText_of_renders_wrapped : ∃ (value : Json) (text : String),
    text = "\x7b\"rules\": \x7b\"a\": \x7b\"content\": \x7b\"name\": \"\\u0062\","
      ++ "\"type\": \"SYMBOL\"\x7d,\"type\": \"FIELD\"\x7d,\"a\": \x7b\"type\": \"BLANK\"\x7d\x7d,"
      ++ "\"x\": null,\"name\": \"g\"\x7d" ∧
    Renders "g" none [("a", .symbol "b"), ("a", .blank)] value ∧ value.depth ≤ 127 ∧
    value.SpellsText text ∧
    ofText text = .ok (ofDefinitions "g" none [("a", .symbol "b"), ("a", .blank)]) := by
  have hlast {member : Option String × Json} {text : List Char}
      (h : Json.SpellsMember member text) :=
    Json.SpellsMoreMembers.cons Json.blanks_nil h Json.blanks_nil .nil
  -- The spelling, from the inside out.
  have hb : Json.Spells (.string "b") ['"', '\\', 'u', '0', '0', '6', '2', '"'] :=
    .string (.cons (.code (c := 'b') (.mk (Json.isHexDigit 0 (by decide))
      (Json.isHexDigit 0 (by decide)) (Json.isHexDigit 6 (by decide))
      (Json.isHexDigit 2 (by decide)))) .nil)
  have htype (type : String) (h : Json.areLiteral type.toList = true) :=
    Json.spellsMember_self "type" (by decide) (Json.spells_self type h)
  have hsymbol := Json.Spells.object (.cons Json.blanks_nil
    (Json.spellsMember_self "name" (by decide) hb) Json.blanks_nil
    (hlast (htype "SYMBOL" (by decide))))
  have hfield := Json.Spells.object (.cons Json.blanks_nil
    (Json.spellsMember_self "content" (by decide) hsymbol) Json.blanks_nil
    (hlast (htype "FIELD" (by decide))))
  have hblank := Json.Spells.object (.cons Json.blanks_nil (htype "BLANK" (by decide))
    Json.blanks_nil .nil)
  have htable := Json.Spells.object (.cons Json.blanks_nil
    (Json.spellsMember_self "a" (by decide) hfield) Json.blanks_nil
    (hlast (Json.spellsMember_self "a" (by decide) hblank)))
  have hdocument := Json.Spells.object (.cons Json.blanks_nil
    (Json.spellsMember_self "rules" (by decide) htable) Json.blanks_nil
    (.cons Json.blanks_nil (Json.spellsMember_self "x" (by decide) .null) Json.blanks_nil
      (hlast (Json.spellsMember_self "name" (by decide) (Json.spells_self "g" (by decide))))))
  have htext := Json.SpellsText.mk Json.blanks_nil hdocument Json.blanks_nil
  -- The same value as a rendering.
  have hsymbolRule : Rule.Renders (.symbol "b")
      (.object [(some "name", .string "b"), (some "type", .string "SYMBOL")] none) :=
    .symbol ⟨[], .swap _ _ _, by simp⟩
  have hfieldRule : Rule.Renders (.symbol "b") (.object [(some "content",
      .object [(some "name", .string "b"), (some "type", .string "SYMBOL")] none),
        (some "type", .string "FIELD")] none) :=
    .wrapped (by decide) hsymbolRule ⟨[], .swap _ _ _, by simp⟩
  have hblankRule : Rule.Renders .blank (.object [(some "type", .string "BLANK")] none) :=
    .blank ⟨[], .refl _, by simp⟩
  have hrenders : Renders "g" none [("a", .symbol "b"), ("a", .blank)] _ :=
    .mk .missing (List.Forall₂.cons (b := (some "a", _)) ⟨rfl, hfieldRule⟩
        (List.Forall₂.cons (b := (some "a", _)) ⟨rfl, hblankRule⟩ .nil))
      ⟨[("x", .null)], .trans (.cons _ (.swap _ _ _)) (.swap _ _ _), by simp⟩
  have hread := ofText_of_renders.1 "g" none [("a", .symbol "b"), ("a", .blank)] _ _ hrenders
    (by decide) htext
  exact ⟨_, _, by decide +kernel, hrenders, by decide, htext, hread⟩

theorem levels_iterate_star (count : Nat) : (Rule.star^[count] .blank).levels = count + 1 := by
  induction count with
  | zero => rfl
  | succ count ih => rw [Function.iterate_succ_apply', Rule.levels, ih]

/-- No document decodes to a grammar with a hundred and twenty-five repetitions inside one another,
though it can be built. And a member of a rule that means nothing must be a text all the same if it
is a string. -/
theorem ofText_nested_or_unpaired :
    (¬ ∃ text, ofText text = .ok (ofDefinitions "g" none [("r", Rule.star^[125] .blank)])) ∧
    ofText ("\x7b\"name\": \"g\", \"rules\": \x7b\"r\": \x7b\"type\": \"BLANK\", "
      ++ "\"x\": \"\\ud800\"\x7d\x7d\x7d") = .error (.flaw .malformed) := by
  constructor
  · rintro ⟨text, h⟩
    have hlevels : (Rule.star^[125] .blank).levels ≤ 125 :=
      within_ofText h ("r", Rule.star^[125] .blank) List.mem_cons_self
    rw [levels_iterate_star] at hlevels
    exact absurd hlevels (by decide)
  · cbv

end Grammar

end Gll
