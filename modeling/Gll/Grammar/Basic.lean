/-!
Context-free grammars whose right-hand sides are expressions: literals and patterns, references to
other rules, sequences, choices and repetitions.

The rules of a grammar are in the order of their definition. Defining a name again replaces its
rule and keeps its place, so that a name has one rule and the order of names never changes.
-/

set_option autoImplicit false

namespace Gll

/-- A rule expression. -/
inductive Rule where
  /-- The empty string. -/
  | blank
  /-- The characters of a text, one after the other. -/
  | literal (text : String)
  /-- One character that a regular expression matches, under the given flags. -/
  | pattern (source : String) (flags : Option String)
  /-- What the rule of this name stands for. -/
  | symbol (name : String)
  /-- The members one after the other. -/
  | sequence (members : List Rule)
  /-- Any one of the members. -/
  | choice (members : List Rule)
  /-- The content any number of times. -/
  | star (content : Rule)
  /-- The content at least once. -/
  | plus (content : Rule)
deriving Repr

/-- The content or nothing. -/
def Rule.optional (content : Rule) : Rule := .choice [content, .blank]

/-- Rules by name, of which no name has two, in order of definition. -/
abbrev RuleTable := { rules : List (String × Rule) // (rules.map Prod.fst).Nodup }

/-- Named rules in order of definition, and the name of the rule to start with, if one is given. -/
structure Grammar where
  name : String
  start : Option String
  rules : List (String × Rule)
  /-- No name has two rules. -/
  nodup : (rules.map Prod.fst).Nodup
deriving Repr

namespace Grammar

/-- The grammar without rules. -/
def empty (name : String) : Grammar := ⟨name, none, [], List.nodup_nil⟩

/-- Puts a rule in the place of the one with its name, or at the end if there is none. -/
def define (name : String) (rule : Rule) : List (String × Rule) → List (String × Rule)
  | [] => [(name, rule)]
  | (other, old) :: rest =>
    if other = name then (name, rule) :: rest else (other, old) :: define name rule rest

theorem mem_names_define (name : String) (rule : Rule) (rules : List (String × Rule))
    (other : String) :
    other ∈ (define name rule rules).map Prod.fst ↔ other = name ∨ other ∈ rules.map Prod.fst := by
  induction rules with
  | nil => simp [define]
  | cons head rest ih =>
    rw [define]
    split
    · rename_i h
      simp [h]
    · simp only [List.map_cons, List.mem_cons, ih]
      constructor
      · rintro (h | h | h) <;> simp [h]
      · rintro (h | h | h) <;> simp [h]

/-- Defining a rule leaves every name with one rule. -/
theorem nodup_names_define (name : String) (rule : Rule) (rules : List (String × Rule))
    (h : (rules.map Prod.fst).Nodup) : ((define name rule rules).map Prod.fst).Nodup := by
  induction rules with
  | nil => simp [define]
  | cons head rest ih =>
    rw [List.map_cons, List.nodup_cons] at h
    rw [define]
    split
    · rename_i heq
      rw [List.map_cons, List.nodup_cons, ← heq]
      exact h
    · rename_i hne
      rw [List.map_cons, List.nodup_cons]
      refine ⟨fun hmem => ?_, ih h.2⟩
      rcases (mem_names_define name rule rest _).mp hmem with heq | hold
      · exact hne heq
      · exact h.1 hold

/-- A rule table with a further or another rule. -/
def defineIn (name : String) (rule : Rule) (rules : RuleTable) : RuleTable :=
  ⟨define name rule rules.1, nodup_names_define name rule rules.1 rules.2⟩

/-- The grammar with a further or another rule. -/
def withRule (grammar : Grammar) (name : String) (rule : Rule) : Grammar :=
  { grammar with
    rules := define name rule grammar.rules
    nodup := nodup_names_define name rule grammar.rules grammar.nodup }

/-- The grammar with a start rule. -/
def withStart (grammar : Grammar) (name : String) : Grammar :=
  { grammar with start := some name }

/-- The name of the rule to start with: the given one, else that of the first rule. -/
def startRule? (grammar : Grammar) : Option String :=
  grammar.start <|> (grammar.rules.head?.map Prod.fst)

/-- The place of a name among the rules. -/
def indexOf? (grammar : Grammar) (name : String) : Option Nat :=
  grammar.rules.findIdx? fun rule => rule.1 == name

end Grammar

end Gll
