import Gll.Pattern
import Gll.Proofs.Fates

/-!
Patterns and the sources that they are compiled from.

The text that is compiled for a source is the source in a group, before the end of the text. For
most sources this is transparent: the pattern is compiled if and only if the source is an expression
by itself, and it matches the characters that the source matches from beginning to end. Since the
text is put together without a look at the source, there are three exceptions (`Pattern.Misread`):
the source closes the group itself, the source ends in a comment, or the source is nested as deeply
as possible. Then exactly one of the source and the pattern can be compiled.
-/

set_option autoImplicit false

namespace Gll

namespace Regex

open Reader

/-! ## Expressions by themselves -/

/-- The tree that a text writes down, however deeply it is nested. -/
def tree? (text : String) : Option Tree := (readTree ⟨text.toList, false⟩).map Prod.fst

theorem parse?_eq_some_iff {text : String} {tree : Tree} :
    parse? text = some tree ↔ tree? text = some tree ∧ tree.depth ≤ maxDepth := by
  unfold parse? tree?
  cases readTree ⟨text.toList, false⟩ with
  | none => simp
  | some found =>
    obtain ⟨read, cursor⟩ := found
    simp only [Option.map_some, Option.some.injEq]
    split
    · next hdepth =>
      constructor
      · intro h
        obtain rfl := Option.some.inj h
        exact ⟨rfl, hdepth⟩
      · rintro ⟨rfl, -⟩
        rfl
    · next hdepth =>
      constructor
      · intro h
        cases h
      · rintro ⟨rfl, h⟩
        exact absurd h hdepth

/-- The meaning of the regular expression that a text writes down, with some flags in force from the
beginning. -/
def compileUnder (flags : Flags) (text : String) : Except RegexError Expr :=
  match (parse? text).bind fun tree => tree.resolve flags with
  | none => .error .invalid
  | some (expr, _) => if expr.usesUnicodeWords then .error .unicodeWordBoundary else .ok expr

theorem compileUnder_initial (text : String) : compileUnder .initial text = compile text := rfl

theorem compileUnder_eq_ok_iff {flags : Flags} {text : String} {expr : Expr} :
    compileUnder flags text = .ok expr ↔
      ∃ tree after, parse? text = some tree ∧ tree.resolve flags = some (expr, after) ∧
        expr.usesUnicodeWords = false := by
  have hbind : compileUnder flags text = .ok expr ↔
      ∃ after, ((parse? text).bind fun tree => tree.resolve flags) = some (expr, after) ∧
        expr.usesUnicodeWords = false := by
    unfold compileUnder
    cases (parse? text).bind fun tree => tree.resolve flags with
    | none => simp
    | some found =>
      cases hwords : found.1.usesUnicodeWords <;> grind
  rw [hbind]
  constructor
  · rintro ⟨after, hfound, hwords⟩
    obtain ⟨tree, htree, hresolve⟩ := Option.bind_eq_some_iff.mp hfound
    exact ⟨tree, after, htree, hresolve, hwords⟩
  · rintro ⟨tree, after, htree, hresolve, hwords⟩
    exact ⟨after, Option.bind_eq_some_iff.mpr ⟨tree, htree, hresolve⟩, hwords⟩

/-- Whether an expression has a match that begins before the character and ends after it. -/
def Expr.matchesWhole (expr : Expr) (c : Char) : Bool := (expr.reach c).fromBefore.after

/-! ## Expressions in a group before the end of the text -/

/-- An expression and the end of the text. -/
def enclosedExpr (expr : Expr) : Expr := .concatenation [expr, .look .stop]

theorem depth_enclosedTree (settings : FlagSettings) (tree : Tree) :
    (enclosedTree settings tree).depth = tree.depth + 2 := by
  simp [enclosedTree, Tree.depth, Tree.depthOfParts]

theorem resolve_enclosedTree (settings : FlagSettings) (tree : Tree) (flags : Flags) :
    (enclosedTree settings tree).resolve flags =
      (tree.resolve (flags.apply settings)).map fun found => (enclosedExpr found.1, flags) := by
  unfold enclosedTree
  rw [Tree.resolve, Tree.resolveAll, Tree.resolve]
  cases tree.resolve (flags.apply settings) with
  | none => rfl
  | some found =>
    obtain ⟨content, after⟩ := found
    rfl

theorem usesUnicodeWords_enclosedExpr (expr : Expr) :
    (enclosedExpr expr).usesUnicodeWords = expr.usesUnicodeWords := by
  simp [enclosedExpr, Expr.usesUnicodeWords, Expr.anyUsesUnicodeWords]

/-- The end of the text after an expression leaves only matches of the whole character. -/
theorem matchesAtStart_enclosedExpr (expr : Expr) (c : Char) :
    (enclosedExpr expr).matchesAtStart c = expr.matchesWhole c := by
  unfold Expr.matchesAtStart Expr.matchesWhole enclosedExpr
  simp only [Expr.reach, Expr.reachAll]
  generalize expr.reach c = reach
  obtain ⟨⟨before, after⟩, fromAfter⟩ := reach
  cases before <;> cases after <;> rfl

end Regex

namespace Pattern

open Regex Regex.Reader

/-- The flags that a source is read with. -/
def settings (caseInsensitive : Bool) : FlagSettings :=
  if caseInsensitive then [(.caseInsensitive, true)] else []

/-- The flags that are in force at the beginning of a source. -/
def flags (caseInsensitive : Bool) : Flags := { Flags.initial with caseInsensitive }

theorem apply_settings (caseInsensitive : Bool) :
    Flags.initial.apply (settings caseInsensitive) = flags caseInsensitive := by
  cases caseInsensitive <;> rfl

theorem toList_wrap (caseInsensitive : Bool) (source : String) :
    (wrap caseInsensitive source).toList =
      (if caseInsensitive then ['(', '?', 'i', ':'] else ['(', '?', ':']) ++
        (source.toList ++ ')' :: ending) := by
  unfold wrap
  rw [String.toList_append, String.toList_append, List.append_assoc]
  cases caseInsensitive <;> rfl

theorem readTree_wrap (caseInsensitive : Bool) (source : String) :
    readTree ⟨(wrap caseInsensitive source).toList, false⟩ =
      readAll (Reading.start.within (settings caseInsensitive))
        ⟨source.toList ++ ')' :: ending, false⟩ := by
  have hopen : readPart .start '('
      ⟨(if caseInsensitive then ['(', '?', 'i', ':'] else ['(', '?', ':']) ++
        (source.toList ++ ')' :: ending), false⟩ =
      some (Reading.start.within (settings caseInsensitive),
        ⟨source.toList ++ ')' :: ending, false⟩) := by
    cases caseInsensitive <;> rfl
  rw [toList_wrap]
  show readAll .start _ = _
  rw [readAll_eq, bind_of_some (bumpSpace_eq _ false)]
  cases caseInsensitive with
  | true => exact (readOn_cons _ _ _ _).trans (bind_of_some hopen)
  | false => exact (readOn_cons _ _ _ _).trans (bind_of_some hopen)

theorem tree?_eq (text : String) :
    tree? text = (readAll .start ⟨text.toList, false⟩).map Prod.fst := rfl

theorem tree?_wrap (caseInsensitive : Bool) (source : String) :
    tree? (wrap caseInsensitive source) =
      (readAll (Reading.start.within (settings caseInsensitive))
        ⟨source.toList ++ ')' :: ending, false⟩).map Prod.fst := by
  unfold tree?
  rw [readTree_wrap]

theorem tree?_closing (text : String) :
    tree? (text ++ ")") = (readAll .start ⟨text.toList ++ [')'], false⟩).map Prod.fst := by
  rw [tree?_eq, String.toList_append]
  rfl

/-- A source with a parenthesis that has no group of its own is no expression. -/
theorem tree?_unbalanced {before : String} (hbefore : (tree? before).isSome)
    (hclosing : tree? (before ++ ")") = none) (after : String) :
    tree? (before ++ ")" ++ after) = none := by
  rw [tree?_eq, Option.isSome_map] at hbefore
  rw [tree?_closing, Option.map_eq_none_iff] at hclosing
  have h := readAll_unbalanced hbefore hclosing after.toList
  rw [tree?_eq, String.toList_append, String.toList_append, List.append_assoc,
    Option.map_eq_none_iff]
  exact h

/-! ## Sources that are read otherwise -/

/-- A source by itself can be used. -/
def CompilesAlone (caseInsensitive : Bool) (source : String) : Prop :=
  ∃ expr, compileUnder (flags caseInsensitive) source = .ok expr

/-- A source in its group can be used. -/
def CompilesWrapped (caseInsensitive : Bool) (source : String) : Prop :=
  ∃ expr, Regex.compile (wrap caseInsensitive source) = .ok expr

/-- A source that is read otherwise in the group than by itself. -/
inductive Misread (caseInsensitive : Bool) (source : String) : Prop
  /-- A parenthesis of the source closes the group. -/
  | closes (before after : String) (hsource : source = before ++ ")" ++ after)
      (hbefore : (tree? before).isSome) (hclosing : tree? (before ++ ")") = none)
      (hwrapped : CompilesWrapped caseInsensitive source)
  /-- The parenthesis that closes the group belongs to a comment of the source. -/
  | comment (halone : CompilesAlone caseInsensitive source)
      (hclosing : (tree? (source ++ ")")).isSome)
  /-- With the group around it the source is nested too deeply. -/
  | deep (tree : Tree) (halone : CompilesAlone caseInsensitive source)
      (htree : tree? source = some tree) (hdepth : maxDepth < tree.depth + 2)

section

variable {caseInsensitive : Bool} {source : String}

theorem not_compilesAlone (h : tree? source = none) : ¬ CompilesAlone caseInsensitive source := by
  rintro ⟨expr, hexpr⟩
  obtain ⟨tree, after, htree, -⟩ := compileUnder_eq_ok_iff.mp hexpr
  rw [(parse?_eq_some_iff.mp htree).1] at h
  cases h

theorem not_compilesWrapped (h : tree? (wrap caseInsensitive source) = none) :
    ¬ CompilesWrapped caseInsensitive source := by
  rintro ⟨expr, hexpr⟩
  rw [← compileUnder_initial] at hexpr
  obtain ⟨tree, after, htree, -⟩ := compileUnder_eq_ok_iff.mp hexpr
  rw [(parse?_eq_some_iff.mp htree).1] at h
  cases h

/-- What the source means in the group, if it is read there as it is by itself. -/
theorem compile_wrap_eq_ok_iff {tree : Tree} {expr : Expr} (halone : tree? source = some tree)
    (hwrapped : tree? (wrap caseInsensitive source) =
      some (enclosedTree (settings caseInsensitive) tree)) :
    Regex.compile (wrap caseInsensitive source) = .ok expr ↔
      tree.depth + 2 ≤ maxDepth ∧
        ∃ content, compileUnder (flags caseInsensitive) source = .ok content ∧
          expr = enclosedExpr content := by
  rw [← compileUnder_initial, compileUnder_eq_ok_iff]
  simp only [compileUnder_eq_ok_iff, parse?_eq_some_iff, halone, hwrapped]
  constructor
  · rintro ⟨_, after, ⟨⟨⟩, hdepth⟩, hresolve, hwords⟩
    rw [depth_enclosedTree] at hdepth
    rw [resolve_enclosedTree, apply_settings] at hresolve
    obtain ⟨found, hfound, heq⟩ := Option.map_eq_some_iff.mp hresolve
    obtain ⟨rfl, rfl⟩ := Prod.mk.inj heq
    rw [usesUnicodeWords_enclosedExpr] at hwords
    exact ⟨hdepth, found.1, ⟨tree, found.2, ⟨rfl, by omega⟩, hfound, hwords⟩, rfl⟩
  · rintro ⟨hdepth, content, ⟨_, after, ⟨⟨⟩, -⟩, hresolve, hwords⟩, rfl⟩
    refine ⟨_, .initial, ⟨rfl, ?_⟩, ?_, ?_⟩
    · rw [depth_enclosedTree]
      exact hdepth
    · rw [resolve_enclosedTree, apply_settings, hresolve]
      rfl
    · rw [usesUnicodeWords_enclosedExpr]
      exact hwords

variable (caseInsensitive source)

/-- What becomes of a source in its group. -/
theorem tree?_wrap_cases :
    (∃ tree, tree? source = some tree ∧
      tree? (wrap caseInsensitive source) =
        some (enclosedTree (settings caseInsensitive) tree) ∧ tree? (source ++ ")") = none) ∨
    (tree? source).isSome ∧ tree? (wrap caseInsensitive source) = none ∧
      (tree? (source ++ ")")).isSome ∨
    tree? source = none ∧ tree? (wrap caseInsensitive source) = none ∨
    tree? source = none ∧ ∃ before after, source = before ++ ")" ++ after ∧
      (tree? before).isSome ∧ tree? (before ++ ")") = none := by
  rw [tree?_wrap, tree?_closing, tree?_eq]
  -- One case for each fate of a source.
  cases fate_readAll (settings caseInsensitive) .start source.toList false with
  | same halone hwrapped hclosing =>
    refine Or.inl ⟨_, congrArg (Option.map Prod.fst) halone,
      congrArg (Option.map Prod.fst) hwrapped, congrArg (Option.map Prod.fst) hclosing⟩
  | comment halone hwrapped hclosing =>
    refine Or.inr (Or.inl ⟨?_, congrArg (Option.map Prod.fst) hwrapped, ?_⟩)
    · exact (Option.isSome_map).trans halone
    · exact (Option.isSome_map).trans hclosing
  | fault halone hwrapped =>
    exact Or.inr (Or.inr (Or.inl ⟨congrArg (Option.map Prod.fst) halone,
      congrArg (Option.map Prod.fst) hwrapped⟩))
  | @closes before after halone hsource hbefore hclosing =>
    refine Or.inr (Or.inr (Or.inr ⟨congrArg (Option.map Prod.fst) halone, String.ofList before,
      String.ofList after, ?_, ?_, ?_⟩))
    · rw [← String.toList_inj, hsource]
      simp
    · rw [tree?_eq, String.toList_ofList]
      exact (Option.isSome_map).trans hbefore
    · rw [tree?_closing, String.toList_ofList]
      exact congrArg (Option.map Prod.fst) hclosing

variable {caseInsensitive source}

theorem exists_tree_of_compilesAlone (h : CompilesAlone caseInsensitive source) :
    ∃ tree, tree? source = some tree ∧ tree.depth ≤ maxDepth := by
  obtain ⟨expr, hexpr⟩ := h
  obtain ⟨tree, after, htree, -⟩ := compileUnder_eq_ok_iff.mp hexpr
  exact ⟨tree, parse?_eq_some_iff.mp htree⟩

/-- Sources that are read otherwise can be used by themselves and not in the group, or the other way
around. -/
theorem Misread.not_iff (h : Misread caseInsensitive source) :
    ¬ (CompilesWrapped caseInsensitive source ↔ CompilesAlone caseInsensitive source) := by
  intro hiff
  cases h with
  | closes before after hsource hbefore hclosing hwrapped =>
    subst hsource
    exact not_compilesAlone (tree?_unbalanced hbefore hclosing after) (hiff.mp hwrapped)
  | comment halone hclosing =>
    refine not_compilesWrapped ?_ (hiff.mpr halone)
    obtain ⟨tree, htree, -⟩ := exists_tree_of_compilesAlone halone
    rcases tree?_wrap_cases caseInsensitive source with
      ⟨_, -, -, hnone⟩ | ⟨-, hwrapped, -⟩ | ⟨-, hwrapped⟩ | ⟨hnone, -⟩
    · rw [hnone] at hclosing
      cases hclosing
    · exact hwrapped
    · exact hwrapped
    · rw [htree] at hnone
      cases hnone
  -- The group adds to the depth, so what just fits by itself is too deep in it.
  | deep tree halone htree hdepth =>
    obtain ⟨expr, hexpr⟩ := hiff.mpr halone
    rcases tree?_wrap_cases caseInsensitive source with
      ⟨found, hfound, hwrapped, -⟩ | ⟨-, hwrapped, -⟩ | ⟨-, hwrapped⟩ | ⟨hnone, -⟩
    · obtain rfl := Option.some.inj (htree.symm.trans hfound)
      have hle := ((compile_wrap_eq_ok_iff htree hwrapped).mp hexpr).1
      omega
    · exact not_compilesWrapped hwrapped ⟨expr, hexpr⟩
    · exact not_compilesWrapped hwrapped ⟨expr, hexpr⟩
    · rw [htree] at hnone
      cases hnone

/-- A source that is not read otherwise can be used in the group if and only if it can be used by
itself, and it means the same. -/
theorem compile_wrap_of_not_misread (h : ¬ Misread caseInsensitive source) {expr : Expr} :
    Regex.compile (wrap caseInsensitive source) = .ok expr ↔
      ∃ content, compileUnder (flags caseInsensitive) source = .ok content ∧
        expr = enclosedExpr content := by
  -- In the first case both are read alike, in the third neither is read. In the others the source
  -- is misread if it can be used at all.
  rcases tree?_wrap_cases caseInsensitive source with
    ⟨tree, htree, hwrapped, -⟩ | ⟨-, hwrapped, hclosing⟩ | ⟨hnone, hwrapped⟩ |
      ⟨hnone, before, after, hsource, hbefore, hclosing⟩
  · rw [compile_wrap_eq_ok_iff htree hwrapped]
    refine and_iff_right_of_imp ?_
    rintro ⟨content, hcontent, -⟩
    refine Nat.le_of_not_lt fun hdepth => h ?_
    exact .deep tree ⟨content, hcontent⟩ htree hdepth
  · constructor
    · intro hexpr
      exact absurd ⟨expr, hexpr⟩ (not_compilesWrapped hwrapped)
    · rintro ⟨content, hcontent, -⟩
      exact absurd (.comment ⟨content, hcontent⟩ hclosing) h
  · constructor
    · intro hexpr
      exact absurd ⟨expr, hexpr⟩ (not_compilesWrapped hwrapped)
    · rintro ⟨content, hcontent, -⟩
      exact absurd ⟨content, hcontent⟩ (not_compilesAlone hnone)
  · constructor
    · intro hexpr
      exact absurd (.closes before after hsource hbefore hclosing ⟨expr, hexpr⟩) h
    · rintro ⟨content, hcontent, -⟩
      exact absurd ⟨content, hcontent⟩ (not_compilesAlone hnone)

end

/-! ## Patterns -/

/-- Whether a pattern ignores case. -/
def ignoresCase (flags : Option String) : Bool := (flags.getD "").toList.contains 'i'

/-- Whether all flags of a pattern are known. -/
def KnownFlags (flags : Option String) : Prop := ∀ c ∈ (flags.getD "").toList, c = 'i'

/-- A source is compiled if and only if its flags are known and it can be used by itself, and then
it matches the characters that it matches by itself from beginning to end. -/
def Faithful (source : String) (flags : Option String) : Prop :=
  ((∃ pattern, compile source flags = .ok pattern) ↔
    KnownFlags flags ∧ CompilesAlone (ignoresCase flags) source) ∧
  ∀ pattern expr, compile source flags = .ok pattern →
    compileUnder (Pattern.flags (ignoresCase flags)) source = .ok expr →
      ∀ c, pattern.matchesChar c = expr.matchesWhole c

theorem compile_eq_ok_iff {source : String} {flags : Option String} {pattern : Pattern} :
    compile source flags = .ok pattern ↔ KnownFlags flags ∧
      ∃ expr, Regex.compile (wrap (ignoresCase flags) source) = .ok expr ∧
        pattern = ⟨source, ignoresCase flags, expr⟩ := by
  unfold compile KnownFlags ignoresCase
  generalize (flags.getD "").toList = letters
  by_cases hknown : ∀ c ∈ letters, c = 'i'
  · have hall : letters.all (· == 'i') = true :=
      List.all_eq_true.mpr fun c hc => beq_iff_eq.mpr (hknown c hc)
    have hcase : (!letters.isEmpty) = letters.contains 'i' := by
      cases letters with
      | nil => rfl
      | cons c letters =>
        obtain rfl := hknown c List.mem_cons_self
        rfl
    simp only [hall, if_true, hcase]
    cases Regex.compile (wrap (letters.contains 'i') source) with
    | error error => simp
    | ok expr =>
      constructor
      · rintro ⟨⟩
        exact ⟨hknown, expr, rfl, rfl⟩
      · rintro ⟨-, _, ⟨⟩, rfl⟩
        rfl
  · have hall : letters.all (· == 'i') = false := by
      refine Bool.eq_false_iff.mpr fun hall => hknown fun c hc => ?_
      exact beq_iff_eq.mp (List.all_eq_true.mp hall c hc)
    simp [hall, hknown]

/-- Wrapping a source is transparent if and only if its flags are not known or it is not read
otherwise in the group. -/
theorem faithful_iff (source : String) (flags : Option String) :
    Faithful source flags ↔ (KnownFlags flags → ¬ Misread (ignoresCase flags) source) := by
  have hcompiles : (∃ pattern, compile source flags = .ok pattern) ↔
      KnownFlags flags ∧ CompilesWrapped (ignoresCase flags) source := by
    constructor
    · rintro ⟨pattern, hpattern⟩
      obtain ⟨hknown, expr, hexpr, -⟩ := compile_eq_ok_iff.mp hpattern
      exact ⟨hknown, expr, hexpr⟩
    · rintro ⟨hknown, expr, hexpr⟩
      exact ⟨_, compile_eq_ok_iff.mpr ⟨hknown, expr, hexpr, rfl⟩⟩
  unfold Faithful
  rw [hcompiles]
  constructor
  · rintro ⟨hiff, -⟩ hknown hmisread
    exact hmisread.not_iff ((and_congr_right_iff.mp hiff) hknown)
  · intro h
    refine ⟨and_congr_right fun hknown => ?_, fun pattern expr hpattern hexpr c => ?_⟩
    · constructor
      · rintro ⟨expr, hexpr⟩
        obtain ⟨content, hcontent, -⟩ := (compile_wrap_of_not_misread (h hknown)).mp hexpr
        exact ⟨content, hcontent⟩
      · rintro ⟨content, hcontent⟩
        exact ⟨_, (compile_wrap_of_not_misread (h hknown)).mpr ⟨content, hcontent, rfl⟩⟩
    · obtain ⟨hknown, whole, hwhole, rfl⟩ := compile_eq_ok_iff.mp hpattern
      obtain ⟨content, hcontent, rfl⟩ := (compile_wrap_of_not_misread (h hknown)).mp hwhole
      obtain rfl := Except.ok.inj (hcontent.symm.trans hexpr)
      exact matchesAtStart_enclosedExpr content c

theorem not_faithful_of_isOk_ne {source : String}
    (h : (compile source none).isOk ≠ (compileUnder (Pattern.flags false) source).isOk) :
    ¬ Faithful source none := by
  rintro ⟨hiff, -⟩
  cases hwrapped : compile source none with
  | error error =>
    cases halone : compileUnder (Pattern.flags false) source with
    | error fault =>
      rw [hwrapped, halone] at h
      exact h rfl
    | ok expr =>
      have hknown : KnownFlags none := fun c hc => absurd hc List.not_mem_nil
      obtain ⟨pattern, hpattern⟩ := hiff.mpr ⟨hknown, expr, halone⟩
      rw [hpattern] at hwrapped
      cases hwrapped
  | ok pattern =>
    obtain ⟨-, expr, hexpr⟩ := hiff.mp ⟨pattern, hwrapped⟩
    have halone : compileUnder (Pattern.flags false) source = .ok expr := hexpr
    rw [hwrapped, halone] at h
    exact h rfl

/-- A source may close the group before it opens another one, and a comment at its end may take the
parenthesis of the group: the one is compiled, though it is no expression, and the other is not,
though it is one. -/
theorem not_faithful_alternation_comment :
    ¬ Faithful "a)|(?:b" none ∧ ¬ Faithful "(?x)#" none :=
  ⟨not_faithful_of_isOk_ne (by decide +kernel), not_faithful_of_isOk_ne (by decide +kernel)⟩

end Pattern

end Gll
