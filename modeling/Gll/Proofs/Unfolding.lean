import Gll.Proofs.Outlines
import Gll.Proofs.Runs

/-!
What an outline says, line by line.

An outline is a list of lines. Here every line is taken for what it says (`Forest.Entry`): that a
symbol is written out, that it was written out above, which right-hand side comes next, and so on.
`Entry.line` is the text of that, and `Forest.Unfolds` is the grammar by which entries follow one
another: below the entry of a derivation that is written out there is all of it, each of its
right-hand sides with all the ways to build it, and below nothing else is there anything.

The grammar leaves one choice, which is whether a derivation is written out or only named. That
choice is made by tags. They are given out in the order in which the derivations that need one are
written out, so an account of the entries so far is enough to tell them (`Forest.TagsInOrder`).

What is said here is about any outline that was written, for whatever counts and with however much
fuel (`exists_entries_of_writeSymbol`). That one is written at all is said elsewhere, and so is that
the right derivations are written out, for which the counts have to be right.
-/

set_option autoImplicit false

namespace Gll

open Text

namespace Forest

/-! ## Entries -/

/-- What a line of an outline says. -/
inductive Remark where
  /-- A terminal. -/
  | terminal (id : SymbolId) (position : Position)
  /-- A derivation that is written out here, with its tag if it has one. -/
  | written (id : SymbolId) (tag : Option Nat) (alternatives : List PrefixId)
  /-- A derivation that is written out above. -/
  | again (id : SymbolId) (tag : Nat)
  /-- One of several right-hand sides of the derivation above. -/
  | rightHandSide (child : PrefixId)
  /-- A prefix that is built in several ways. -/
  | fork (id : PrefixId)
  /-- One of the ways to build the prefix above. -/
  | split (position : Position)

/-- A line of an outline, as far to the right as its depth says. -/
structure Entry where
  depth : Nat
  remark : Remark

namespace Entry

/-- The symbol of which an entry is. -/
def symbol? (entry : Entry) : Option SymbolId :=
  match entry.remark with
  | .terminal id _ | .written id _ _ | .again id _ => some id
  | .rightHandSide _ | .fork _ | .split _ => none

/-- The derivation that is written out at an entry. -/
def written? (entry : Entry) : Option SymbolId :=
  match entry.remark with
  | .written id _ _ => some id
  | _ => none

/-- The tag that an entry shows. -/
def tag? (entry : Entry) : Option Nat :=
  match entry.remark with
  | .written _ tag _ => tag
  | .again _ tag => some tag
  | _ => none

theorem remark_of_written? {entry : Entry} {id : SymbolId} (h : entry.written? = some id) :
    ∃ tag alternatives, entry.remark = .written id tag alternatives := by
  obtain ⟨depth, remark⟩ := entry
  cases remark with
  | written other tag alternatives =>
    obtain rfl := Option.some.inj h
    exact ⟨tag, alternatives, rfl⟩
  | terminal | again | rightHandSide | fork | split => cases h

theorem symbol?_of_written? {entry : Entry} {id : SymbolId} (h : entry.written? = some id) :
    entry.symbol? = some id := by
  obtain ⟨tag, alternatives, hremark⟩ := entry.remark_of_written? h
  rw [symbol?, hremark]

end Entry

/-! ## Texts -/

/-- A tag as it is shown, after the head of a derivation. -/
def tagText : Option Nat → Styled
  | none => []
  | some tag => plain (" #" ++ toString tag)

/-- The head of a derivation: its nonterminal and its span. -/
def headText (forest : Forest) (program : Program) (id : SymbolId) : Except Fault Styled := do
  let node ← forest.symbolNode id
  let symbol ← (Fault.unknownSymbol id).unlessSome node.nonterminal?
  return withSpan (paint .name (← program.name symbol)) node.span

/-- The text of a remark. -/
def Remark.text (forest : Forest) (program : Program) : Remark → Except Fault Styled
  | .terminal _ position =>
    return withSpan (paint .terminal (terminalText position)) (SymbolNode.terminal position).span
  | .written id tag alternatives => do
    let head := (← forest.headText program id) ++ tagText tag
    match alternatives with
    | [] => return head
    | [child] => return head ++ plain " " ++ (← forest.production program child)
    | _ => return head ++ plain " " ++ paint .alarm "ambiguous"
  | .again id tag => do
    return (← forest.headText program id) ++ tagText (some tag) ++ plain " (see above)"
  | .rightHandSide child => forest.production program child
  | .fork id => do
    return withSpan (plain "prefix") (← forest.prefixNode id).span ++ plain " "
      ++ paint .alarm "ambiguous"
  | .split position => return plain ("split " ++ toString position.offset)

/-- The line of an entry. -/
def Entry.line (forest : Forest) (program : Program) (entry : Entry) : Except Fault Styled := do
  return plain (spaces (2 * entry.depth)) ++ (← entry.remark.text forest program)

/-! ## Parts of an outline -/

/-- What a part of an outline shows. -/
inductive Part where
  | symbol (id : SymbolId)
  | stem (id : PrefixId)
  /-- All that is packed under a derivation. -/
  | alternatives (children : List PrefixId)
  /-- Some of several right-hand sides. -/
  | rightHandSides (children : List PrefixId)
  /-- Some of several ways to build a prefix. -/
  | splits (children : List Split)

/-- The entries of a part of an outline from a depth on. -/
inductive Unfolds (forest : Forest) : Nat → Part → List Entry → Prop where
  | terminal {depth : Nat} {id : SymbolId} {position : Position}
      (hnode : forest.symbolNode? id = some (.terminal position)) :
      Unfolds forest depth (.symbol id) [⟨depth, .terminal id position⟩]
  | again {depth : Nat} {id : SymbolId} {symbol : Nonterminal} {first last : Position}
      {alternatives : Array PrefixId} {tag : Nat}
      (hnode : forest.symbolNode? id = some (.nonterminal symbol first last alternatives)) :
      Unfolds forest depth (.symbol id) [⟨depth, .again id tag⟩]
  | written {depth : Nat} {id : SymbolId} {symbol : Nonterminal} {first last : Position}
      {alternatives : Array PrefixId} {tag : Option Nat} {below : List Entry}
      (hnode : forest.symbolNode? id = some (.nonterminal symbol first last alternatives))
      (hbelow : Unfolds forest depth (.alternatives alternatives.toList) below) :
      Unfolds forest depth (.symbol id) (⟨depth, .written id tag alternatives.toList⟩ :: below)
  | noAlternative {depth : Nat} : Unfolds forest depth (.alternatives []) []
  | alternative {depth : Nat} {child : PrefixId} {below : List Entry}
      (hbelow : Unfolds forest (depth + 1) (.stem child) below) :
      Unfolds forest depth (.alternatives [child]) below
  | alternatives {depth : Nat} {children : List PrefixId} {below : List Entry}
      (hseveral : 1 < children.length)
      (hbelow : Unfolds forest (depth + 1) (.rightHandSides children) below) :
      Unfolds forest depth (.alternatives children) below
  | noRightHandSide {depth : Nat} : Unfolds forest depth (.rightHandSides []) []
  | rightHandSide {depth : Nat} {child : PrefixId} {rest : List PrefixId}
      {below others : List Entry} (hbelow : Unfolds forest (depth + 1) (.stem child) below)
      (hrest : Unfolds forest depth (.rightHandSides rest) others) :
      Unfolds forest depth (.rightHandSides (child :: rest))
        (⟨depth, .rightHandSide child⟩ :: (below ++ others))
  | noChild {depth : Nat} {id : PrefixId} {node : PrefixNode}
      (hnode : forest.prefixNode? id = some node) (hchildren : node.children.toList = []) :
      Unfolds forest depth (.stem id) []
  | child {depth : Nat} {id : PrefixId} {node : PrefixNode} {child : Split}
      {before entries : List Entry} (hnode : forest.prefixNode? id = some node)
      (hchildren : node.children.toList = [child])
      (hleft : Unfolds forest depth (.stem child.left) before)
      (hright : Unfolds forest depth (.symbol child.right) entries) :
      Unfolds forest depth (.stem id) (before ++ entries)
  | fork {depth : Nat} {id : PrefixId} {node : PrefixNode} {below : List Entry}
      (hnode : forest.prefixNode? id = some node) (hseveral : 1 < node.children.toList.length)
      (hbelow : Unfolds forest (depth + 1) (.splits node.children.toList) below) :
      Unfolds forest depth (.stem id) (⟨depth, .fork id⟩ :: below)
  | noSplit {depth : Nat} : Unfolds forest depth (.splits []) []
  | split {depth : Nat} {child : Split} {rest : List Split} {before entries others : List Entry}
      (hleft : Unfolds forest (depth + 1) (.stem child.left) before)
      (hright : Unfolds forest (depth + 1) (.symbol child.right) entries)
      (hrest : Unfolds forest depth (.splits rest) others) :
      Unfolds forest depth (.splits (child :: rest))
        (⟨depth, .split child.split⟩ :: (before ++ entries ++ others))

/-! ## Tags -/

/-- The derivations that are written out, in order. -/
def written (entries : List Entry) : List SymbolId := entries.filterMap Entry.written?

/-- The derivations with several references that are written out, in order. -/
def shared (counts : Counts) (entries : List Entry) : List SymbolId :=
  (written entries).filter fun id => 1 < counts.getD id 0

/-- The tag of an entry is right, when the given derivations have got theirs before. A derivation
with several references is written out with the next tag if it has none, and named by its tag if it
has one; one without needs no tag and is always written out. -/
def Entry.TagFits (counts : Counts) (given : List SymbolId) (entry : Entry) : Prop :=
  match entry.remark with
  | .written id tag _ =>
    if 1 < counts.getD id 0 then id ∉ given ∧ tag = some (given.length + 1) else tag = none
  | .again id tag => 1 < counts.getD id 0 ∧ id ∈ given ∧ tag = given.idxOf id + 1
  | _ => True

/-- The tags of entries are right, one after the other. -/
def TagsInOrder (counts : Counts) : List SymbolId → List Entry → Prop
  | _, [] => True
  | given, entry :: rest =>
    entry.TagFits counts given ∧ TagsInOrder counts (given ++ shared counts [entry]) rest

/-- The table has the tags of the given derivations. -/
structure Numbers (tags : Std.HashMap SymbolId Nat) (given : List SymbolId) : Prop where
  size : tags.size = given.length
  get (id : SymbolId) : tags[id]? = if id ∈ given then some (given.idxOf id + 1) else none

theorem Numbers.empty : Numbers ∅ [] where
  size := Std.HashMap.size_empty
  get id := by simp

theorem Numbers.mem_iff {tags : Std.HashMap SymbolId Nat} {given : List SymbolId}
    (h : Numbers tags given) {id : SymbolId} : id ∈ tags ↔ id ∈ given := by
  rw [Std.HashMap.mem_iff_isSome_getElem?, h.get]
  split <;> simp_all

/-- A tag is given out. -/
theorem Numbers.insert {tags : Std.HashMap SymbolId Nat} {given : List SymbolId}
    (h : Numbers tags given) {id : SymbolId} (hnew : id ∉ given) :
    Numbers (tags.insert id (tags.size + 1)) (given ++ [id]) where
  size := by
    have hnew : id ∉ tags := fun hmem => hnew (h.mem_iff.mp hmem)
    rw [Std.HashMap.size_insert, if_neg hnew, h.size, List.length_append, List.length_singleton]
  get other := by
    rw [Std.HashMap.getElem?_insert, h.get]
    by_cases heq : other = id
    · subst heq
      simp [h.size, List.idxOf_append_of_notMem hnew]
    · by_cases hmem : other ∈ given
      · simp [Ne.symm heq, hmem, List.idxOf_append_of_mem hmem]
      · simp [heq, Ne.symm heq, hmem]

variable {program : Program} {forest : Forest} {counts : Counts}

@[simp] theorem written_append (entries others : List Entry) :
    written (entries ++ others) = written entries ++ written others :=
  List.filterMap_append

@[simp] theorem shared_append (entries others : List Entry) :
    shared counts (entries ++ others) = shared counts entries ++ shared counts others := by
  simp [shared]

theorem shared_written {id : SymbolId} (hcount : 1 < counts.getD id 0) (depth : Nat)
    (tag : Option Nat) (alternatives : List PrefixId) :
    shared counts [⟨depth, .written id tag alternatives⟩] = [id] :=
  List.filter_cons_of_pos (decide_eq_true hcount)

theorem shared_written_of_not {id : SymbolId} (hcount : ¬ 1 < counts.getD id 0) (depth : Nat)
    (tag : Option Nat) (alternatives : List PrefixId) :
    shared counts [⟨depth, .written id tag alternatives⟩] = [] :=
  List.filter_cons_of_neg fun h => hcount (of_decide_eq_true h)

theorem tagFits_written {id : SymbolId} {given : List SymbolId} {depth : Nat} {tag : Option Nat}
    {alternatives : List PrefixId} (hcount : 1 < counts.getD id 0) :
    Entry.TagFits counts given ⟨depth, .written id tag alternatives⟩ ↔
      id ∉ given ∧ tag = some (given.length + 1) := by
  change (if 1 < counts.getD id 0 then _ else _) ↔ _
  rw [if_pos hcount]

theorem tagFits_written_of_not {id : SymbolId} {given : List SymbolId} {depth : Nat}
    {tag : Option Nat} {alternatives : List PrefixId} (hcount : ¬ 1 < counts.getD id 0) :
    Entry.TagFits counts given ⟨depth, .written id tag alternatives⟩ ↔ tag = none := by
  change (if 1 < counts.getD id 0 then _ else _) ↔ _
  rw [if_neg hcount]

/-- A derivation that has its tag is named by it. -/
theorem Numbers.tagFits_again {tags : Std.HashMap SymbolId Nat} {given : List SymbolId}
    (h : Numbers tags given) {id : SymbolId} {known : Nat} (hcount : 1 < counts.getD id 0)
    (hget : tags[id]? = some known) (depth : Nat) :
    Entry.TagFits counts given ⟨depth, .again id known⟩ := by
  rw [h.get] at hget
  by_cases hmem : id ∈ given
  · rw [if_pos hmem] at hget
    exact ⟨hcount, hmem, (Option.some.inj hget).symm⟩
  · rw [if_neg hmem] at hget
    cases hget

/-- A derivation with several references that has no tag is written out with the next one. -/
theorem Numbers.written {tags : Std.HashMap SymbolId Nat} {given : List SymbolId}
    (h : Numbers tags given) {id : SymbolId} (hcount : 1 < counts.getD id 0)
    (hget : tags[id]? = none) (depth : Nat) (alternatives : List PrefixId) :
    Numbers (tags.insert id (tags.size + 1))
        (given ++ shared counts [⟨depth, .written id (some (tags.size + 1)) alternatives⟩]) ∧
      Entry.TagFits counts given ⟨depth, .written id (some (tags.size + 1)) alternatives⟩ := by
  have hnew : id ∉ given := by
    rw [← h.mem_iff, Std.HashMap.mem_iff_isSome_getElem?, hget]
    exact Bool.false_ne_true
  rw [shared_written hcount, tagFits_written hcount, ← h.size]
  exact ⟨h.insert hnew, hnew, rfl⟩

/-- A derivation without several references is written out without a tag. -/
theorem Numbers.written_of_not {tags : Std.HashMap SymbolId Nat} {given : List SymbolId}
    (h : Numbers tags given) {id : SymbolId} (hcount : ¬ 1 < counts.getD id 0) (depth : Nat)
    (alternatives : List PrefixId) :
    Numbers tags (given ++ shared counts [⟨depth, .written id none alternatives⟩]) ∧
      Entry.TagFits counts given ⟨depth, .written id none alternatives⟩ := by
  rw [shared_written_of_not hcount, List.append_nil, tagFits_written_of_not hcount]
  exact ⟨h, rfl⟩

theorem tagsInOrder_append {given : List SymbolId} {entries others : List Entry} :
    TagsInOrder counts given (entries ++ others) ↔
      TagsInOrder counts given entries ∧
        TagsInOrder counts (given ++ shared counts entries) others := by
  induction entries generalizing given with
  | nil => simp [TagsInOrder, shared, written]
  | cons entry rest ih =>
    have hshared : shared counts (entry :: rest) = shared counts [entry] ++ shared counts rest :=
      shared_append [entry] rest
    rw [List.cons_append, TagsInOrder, ih, TagsInOrder, hshared, and_assoc, List.append_assoc]

/-! ## What was written -/

variable (program forest counts) in
/-- Lines were written, and these are the lines of entries with the tags that they should have. -/
def Shown (entries : List Entry) (before after : Outline) : Prop :=
  ∃ lines, entries.mapM (Entry.line forest program) = .ok lines ∧
    after.lines.toList = before.lines.toList ++ lines ∧
      ∀ given, Numbers before.tags given →
        Numbers after.tags (given ++ shared counts entries) ∧ TagsInOrder counts given entries

namespace Shown

variable {entries others : List Entry} {before between after : Outline}

theorem nil (outline : Outline) : Shown program forest counts [] outline outline :=
  ⟨[], rfl, by simp, fun given hgiven => ⟨by simpa [shared, written] using hgiven, trivial⟩⟩

theorem append (h : Shown program forest counts entries before between)
    (h' : Shown program forest counts others between after) :
    Shown program forest counts (entries ++ others) before after := by
  obtain ⟨lines, hlines, hsame, htags⟩ := h
  obtain ⟨lines', hlines', hsame', htags'⟩ := h'
  refine ⟨lines ++ lines', ?_, ?_, fun given hgiven => ?_⟩
  · rw [List.mapM_append, hlines, hlines']
    rfl
  · rw [hsame', hsame, List.append_assoc]
  · obtain ⟨hbetween, htagged⟩ := htags given hgiven
    obtain ⟨hafter, htagged'⟩ := htags' _ hbetween
    rw [shared_append, ← List.append_assoc]
    exact ⟨hafter, tagsInOrder_append.mpr ⟨htagged, htagged'⟩⟩

/-- A line was written; the tags may have changed before that. -/
theorem line {entry : Entry} {text : Styled} {depth : Nat}
    (hrun : Outline.write depth text between = .ok ((), after))
    (htext : entry.remark.text forest program = .ok text) (hdepth : entry.depth = depth)
    (hlines : between.lines = before.lines)
    (htags : ∀ given, Numbers before.tags given →
      Numbers between.tags (given ++ shared counts [entry]) ∧ entry.TagFits counts given) :
    Shown program forest counts [entry] before after := by
  obtain ⟨-, rfl⟩ := Prod.mk.inj (Except.ok.inj hrun)
  refine ⟨[plain (spaces (2 * depth)) ++ text], ?_, by simp [hlines], fun given hgiven => ?_⟩
  · rw [List.mapM_cons, Entry.line, htext, hdepth]
    rfl
  · exact ⟨(htags given hgiven).1, (htags given hgiven).2, trivial⟩

/-- A line was written that is not about a derivation. -/
theorem remark {entry : Entry} {text : Styled} {depth : Nat}
    (hrun : Outline.write depth text before = .ok ((), after))
    (htext : entry.remark.text forest program = .ok text) (hdepth : entry.depth = depth)
    (hplain : ∀ given, shared counts [entry] = [] ∧ entry.TagFits counts given) :
    Shown program forest counts [entry] before after := by
  refine .line hrun htext hdepth rfl fun given hgiven => ?_
  rw [(hplain given).1, List.append_nil]
  exact ⟨hgiven, (hplain given).2⟩

end Shown

variable (program forest counts) in
/-- A part of an outline was written. -/
def Unfolded (depth : Nat) (part : Part) (before after : Outline) : Prop :=
  ∃ entries, forest.Unfolds depth part entries ∧ Shown program forest counts entries before after

variable (program forest counts) in
/-- With so many steps nothing but the entries of a symbol are written for it. -/
def SymbolsUnfold (steps : Nat) : Prop :=
  ∀ {depth : Nat} {id : SymbolId} {before after : Outline},
    forest.writeSymbol program counts steps depth id before = .ok ((), after) →
      Unfolded program forest counts depth (.symbol id) before after

variable (program forest counts) in
/-- With so many steps, when a tag was given out or is not needed, the entry of a derivation is
written and nothing but the entries of what is packed under it. -/
def AlternativesUnfold (steps : Nat) : Prop :=
  ∀ (tag : Option Nat) (before between : Outline) {depth : Nat} {id : SymbolId} {head : Styled}
    {children : List PrefixId} {after : Outline}, forest.headText program id = .ok head →
    between.lines = before.lines →
    (∀ given, Numbers before.tags given →
      Numbers between.tags (given ++ shared counts [⟨depth, .written id tag children⟩]) ∧
        Entry.TagFits counts given ⟨depth, .written id tag children⟩) →
    forest.writeAlternatives program counts steps depth (head ++ tagText tag) children between
        = .ok ((), after) →
      ∃ below, forest.Unfolds depth (.alternatives children) below ∧
        Shown program forest counts (⟨depth, .written id tag children⟩ :: below) before after

variable (program forest counts) in
/-- With so many steps nothing but the entries of a prefix are written for it. -/
def PrefixesUnfold (steps : Nat) : Prop :=
  ∀ {depth : Nat} {id : PrefixId} {before after : Outline},
    forest.writePrefix program counts steps depth id before = .ok ((), after) →
      Unfolded program forest counts depth (.stem id) before after

section Writing

variable {steps depth : Nat} {before between after : Outline}

/-- Along a chain, the prefix at which it stops is written, and the symbols that it passed. -/
theorem SymbolsUnfold.chain (h : SymbolsUnfold program forest counts steps) (depth : Nat)
    {fuel : Nat} {id : PrefixId} {rest symbols : List SymbolId}
    {stop : Option (PrefixId × PrefixNode)}
    (hchain : forest.chain fuel id rest = .ok (stop, symbols)) :
    (∀ last node, stop = some (last, node) →
      forest.prefixNode? last = some node ∧ 1 < node.children.toList.length) ∧
    ∃ passed, symbols = passed ++ rest ∧ ∀ {before between after : Outline},
      (stop = none → before = between) →
      (∀ last node, stop = some (last, node) →
        Unfolded program forest counts depth (.stem last) before between) →
      passed.forM (forest.writeSymbol program counts steps depth) between = .ok ((), after) →
        Unfolded program forest counts depth (.stem id) before after := by
  induction fuel generalizing id rest with
  | zero => cases hchain
  | succ fuel ih =>
    rw [Forest.chain] at hchain
    obtain ⟨node, hread, hchain⟩ := exists_of_bind_eq_ok hchain
    have hnode := Fault.unlessSome_eq_ok_iff.mp hread
    rcases hchildren : node.children.toList with _ | ⟨child, _ | ⟨second, others⟩⟩
    · rw [hchildren] at hchain
      obtain ⟨rfl, rfl⟩ := Prod.mk.inj (Except.ok.inj hchain)
      refine ⟨?_, [], rfl, fun hsame _ hrun => ?_⟩
      · intro last node hstop
        cases hstop
      obtain ⟨-, rfl⟩ := of_run_pure hrun
      obtain rfl := hsame rfl
      exact ⟨[], .noChild hnode hchildren, .nil _⟩
    · rw [hchildren] at hchain
      obtain ⟨hstop, passed, rfl, hunfolded⟩ := ih hchain
      refine ⟨hstop, passed ++ [child.right], by simp, fun hsame hbelow hrun => ?_⟩
      obtain ⟨between', hpassed, hright⟩ := exists_of_run_forM_append hrun
      obtain ⟨after', hone, hnil⟩ := exists_of_run_forM_cons hright
      obtain ⟨-, rfl⟩ := of_run_pure hnil
      obtain ⟨entries, hentries, hshown⟩ := hunfolded hsame hbelow hpassed
      obtain ⟨others, hothers, hshown'⟩ := h hone
      exact ⟨entries ++ others, .child hnode hchildren hentries hothers, hshown.append hshown'⟩
    · rw [hchildren] at hchain
      obtain ⟨rfl, rfl⟩ := Prod.mk.inj (Except.ok.inj hchain)
      refine ⟨fun last node' hstop => ?_, [], rfl, fun _ hbelow hrun => ?_⟩
      · obtain ⟨rfl, rfl⟩ := Prod.mk.inj (Option.some.inj hstop)
        exact ⟨hnode, by simp [hchildren]⟩
      · obtain ⟨-, rfl⟩ := of_run_pure hrun
        exact hbelow id node rfl

/-- The symbols of a prefix that it takes several ways to build are those of each way. -/
theorem unfolded_splits (hsymbols : SymbolsUnfold program forest counts steps)
    (hprefixes : PrefixesUnfold program forest counts steps) {children : List Split}
    (hrun : (children.forM fun child => do
      Outline.write depth (plain ("split " ++ toString child.split.offset))
      forest.writePrefix program counts steps (depth + 1) child.left
      forest.writeSymbol program counts steps (depth + 1) child.right : Write Unit) before
        = .ok ((), after)) :
    Unfolded program forest counts depth (.splits children) before after := by
  induction children generalizing before with
  | nil =>
    obtain ⟨-, rfl⟩ := of_run_pure hrun
    exact ⟨[], .noSplit, .nil _⟩
  | cons child rest ih =>
    obtain ⟨written, hone, hrest⟩ := exists_of_run_forM_cons hrun
    obtain ⟨_, headed, hhead, hone⟩ := exists_of_run_bind hone
    obtain ⟨_, between, hleft, hright⟩ := exists_of_run_bind hone
    obtain ⟨entries, hentries, hshown⟩ := hprefixes hleft
    obtain ⟨entries', hentries', hshown'⟩ := hsymbols hright
    obtain ⟨others, hothers, hshownRest⟩ := ih hrest
    refine ⟨_, .split hentries hentries' hothers, ?_⟩
    have hsplit : Shown program forest counts [⟨depth, .split child.split⟩] before headed :=
      .remark hhead rfl rfl fun _ => ⟨rfl, trivial⟩
    exact hsplit.append ((hshown.append hshown').append hshownRest)

/-- Several right-hand sides are written one below the other. -/
theorem unfolded_rightHandSides (hprefixes : PrefixesUnfold program forest counts steps)
    {children : List PrefixId}
    (hrun : (children.forM fun child => do
      Outline.write depth (← forest.production program child)
      forest.writePrefix program counts steps (depth + 1) child : Write Unit) before
        = .ok ((), after)) :
    Unfolded program forest counts depth (.rightHandSides children) before after := by
  induction children generalizing before with
  | nil =>
    obtain ⟨-, rfl⟩ := of_run_pure hrun
    exact ⟨[], .noRightHandSide, .nil _⟩
  | cons child rest ih =>
    obtain ⟨written, hone, hrest⟩ := exists_of_run_forM_cons hrun
    obtain ⟨text, _, hlift, hone⟩ := exists_of_run_bind hone
    obtain ⟨htext, rfl⟩ := of_run_lift hlift
    obtain ⟨_, headed, hhead, hbelow⟩ := exists_of_run_bind hone
    obtain ⟨entries, hentries, hshown⟩ := hprefixes hbelow
    obtain ⟨others, hothers, hshownRest⟩ := ih hrest
    refine ⟨_, .rightHandSide hentries hothers, ?_⟩
    have hside : Shown program forest counts [⟨depth, .rightHandSide child⟩] before headed :=
      .remark hhead htext rfl fun _ => ⟨rfl, trivial⟩
    exact hside.append (hshown.append hshownRest)

theorem PrefixesUnfold.succ (hsymbols : SymbolsUnfold program forest counts steps)
    (hprefixes : PrefixesUnfold program forest counts steps) :
    PrefixesUnfold program forest counts (steps + 1) := by
  intro depth id before after hrun
  rw [writePrefix] at hrun
  obtain ⟨⟨stop, symbols⟩, _, hlift, hrun⟩ := exists_of_run_bind hrun
  obtain ⟨hchain, rfl⟩ := of_run_lift hlift
  obtain ⟨hstop, passed, hpassed, hunfolded⟩ := hsymbols.chain depth hchain
  rw [List.append_nil] at hpassed
  subst hpassed
  cases stop with
  | none => exact hunfolded (fun _ => rfl) (fun _ _ hsome => by cases hsome) hrun
  | some last =>
    obtain ⟨last, node⟩ := last
    obtain ⟨hnode, hseveral⟩ := hstop last node rfl
    obtain ⟨_, headed, hhead, hrun⟩ := exists_of_run_bind hrun
    obtain ⟨_, between, hsplits, hrow⟩ := exists_of_run_bind hrun
    refine hunfolded (fun hnone => by cases hnone) (fun last' node' hsome => ?_) hrow
    obtain ⟨rfl, rfl⟩ := Prod.mk.inj (Option.some.inj hsome)
    obtain ⟨entries, hentries, hshown⟩ := unfolded_splits hsymbols hprefixes hsplits
    have htext : Remark.text forest program (.fork last) = .ok
        (withSpan (plain "prefix") node.span ++ plain " " ++ paint .alarm "ambiguous") := by
      have hread : forest.prefixNode last = .ok node := Fault.unlessSome_eq_ok_iff.mpr hnode
      rw [Remark.text, hread]
      rfl
    have hfork : Shown program forest counts [⟨depth, .fork last⟩] before headed :=
      .remark hhead htext rfl fun _ => ⟨rfl, trivial⟩
    exact ⟨_, .fork hnode hseveral hentries, hfork.append hshown⟩

theorem AlternativesUnfold.succ (hprefixes : PrefixesUnfold program forest counts steps) :
    AlternativesUnfold program forest counts (steps + 1) := by
  intro tag before between depth id head children after hhead hlines htags hrun
  match children with
  | [] =>
    refine ⟨[], .noAlternative, .line hrun ?_ rfl hlines htags⟩
    rw [Remark.text, hhead]
    rfl
  | [child] =>
    rw [writeAlternatives] at hrun
    obtain ⟨text, _, hlift, hrun⟩ := exists_of_run_bind hrun
    obtain ⟨htext, rfl⟩ := of_run_lift hlift
    obtain ⟨_, headed, hline, hbelow⟩ := exists_of_run_bind hrun
    obtain ⟨entries, hentries, hshown⟩ := hprefixes hbelow
    refine ⟨entries, .alternative hentries, .append (.line hline ?_ rfl hlines htags) hshown⟩
    simp only [Remark.text, hhead, bind, Except.bind, htext]
    rfl
  | first :: second :: rest =>
    rw [writeAlternatives] at hrun
    · obtain ⟨_, headed, hline, hbelow⟩ := exists_of_run_bind hrun
      obtain ⟨entries, hentries, hshown⟩ := unfolded_rightHandSides hprefixes hbelow
      refine ⟨entries, .alternatives (by simp) hentries,
        .append (.line hline ?_ rfl hlines htags) hshown⟩
      rw [Remark.text, hhead]
      rfl
    · simp
    · simp

theorem SymbolsUnfold.succ (halternatives : AlternativesUnfold program forest counts steps) :
    SymbolsUnfold program forest counts (steps + 1) := by
  intro depth id before after hrun
  rw [writeSymbol] at hrun
  obtain ⟨node, _, hlift, hrun⟩ := exists_of_run_bind hrun
  obtain ⟨hread, rfl⟩ := of_run_lift hlift
  have hnode : forest.symbolNode? id = some node := Fault.unlessSome_eq_ok_iff.mp hread
  cases node with
  | terminal position =>
    exact ⟨_, .terminal hnode, .remark hrun rfl rfl fun _ => ⟨rfl, trivial⟩⟩
  | nonterminal symbol first last alternatives =>
    obtain ⟨name, _, hlift, hrun⟩ := exists_of_run_bind hrun
    obtain ⟨hname, rfl⟩ := of_run_lift hlift
    have hhead : forest.headText program id = .ok (withSpan (paint .name name)
        (SymbolNode.nonterminal symbol first last alternatives).span) := by
      rw [headText, hread]
      simp only [SymbolNode.nonterminal?, Fault.unlessSome, bind, Except.bind, hname]
      rfl
    by_cases hcount : 1 < counts.getD id 0
    · rw [if_pos hcount] at hrun
      obtain ⟨⟨tag, isKnown⟩, between, htag, hrun⟩ := exists_of_run_bind hrun
      rw [Outline.tagOf] at htag
      cases hget : before.tags[id]? with
      | some known =>
        rw [hget] at htag
        obtain ⟨hknown, rfl⟩ := Prod.mk.inj (Except.ok.inj htag)
        obtain ⟨rfl, rfl⟩ := Prod.mk.inj hknown
        have htext : Remark.text forest program (.again id known) = .ok (withSpan
            (paint .name name) (SymbolNode.nonterminal symbol first last alternatives).span
              ++ tagText (some known) ++ plain " (see above)") := by
          rw [Remark.text, hhead]
          rfl
        -- No derivation is written out here, so no tag is given out.
        refine ⟨_, .again hnode, .line hrun htext rfl rfl fun given hgiven => ⟨?_, ?_⟩⟩
        · exact (List.append_nil given).symm ▸ hgiven
        · exact hgiven.tagFits_again hcount hget depth
      | none =>
        rw [hget] at htag
        obtain ⟨hnew, rfl⟩ := Prod.mk.inj (Except.ok.inj htag)
        obtain ⟨rfl, rfl⟩ := Prod.mk.inj hnew
        obtain ⟨below, hbelow, hshown⟩ := halternatives (some (before.tags.size + 1)) before
          ⟨before.tags.insert id (before.tags.size + 1), before.lines⟩ hhead rfl
          (fun _ hgiven => hgiven.written hcount hget depth alternatives.toList) hrun
        exact ⟨_, .written hnode hbelow, hshown⟩
    · rw [if_neg hcount, ← List.append_nil (withSpan _ _)] at hrun
      obtain ⟨below, hbelow, hshown⟩ := halternatives none before before hhead rfl
        (fun _ hgiven => hgiven.written_of_not hcount depth alternatives.toList) hrun
      exact ⟨_, .written hnode hbelow, hshown⟩

variable (program forest counts steps) in
/-- However many steps there are, what is written are entries. -/
theorem writing_unfolds :
    SymbolsUnfold program forest counts steps ∧
      AlternativesUnfold program forest counts steps ∧
        PrefixesUnfold program forest counts steps := by
  induction steps with
  | zero =>
    refine ⟨fun hrun => ?_, fun _ _ _ _ _ _ _ _ _ _ _ hrun => ?_, fun hrun => ?_⟩ <;> cases hrun
  | succ steps ih =>
    obtain ⟨hsymbols, halternatives, hprefixes⟩ := ih
    exact ⟨SymbolsUnfold.succ halternatives, AlternativesUnfold.succ hprefixes,
      PrefixesUnfold.succ hsymbols hprefixes⟩

end Writing

/-- An outline is the lines of the entries of its root, with tags from 1 on. -/
theorem exists_entries_of_writeSymbol {steps : Nat} {root : SymbolId} {outline : Outline}
    (hrun : forest.writeSymbol program counts steps 0 root Outline.empty = .ok ((), outline)) :
    ∃ entries, forest.Unfolds 0 (.symbol root) entries ∧ TagsInOrder counts [] entries ∧
      entries.mapM (Entry.line forest program) = .ok outline.lines.toList := by
  obtain ⟨entries, hentries, lines, hlines, hsame, htags⟩ :=
    (writing_unfolds program forest counts steps).1 hrun
  refine ⟨entries, hentries, (htags [] .empty).2, ?_⟩
  rw [hlines, hsame]
  rfl

end Forest

end Gll
