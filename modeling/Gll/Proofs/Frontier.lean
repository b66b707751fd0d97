import Gll.Proofs.Multiplicity
import Gll.Proofs.Runs
import Gll.Proofs.Sharing

/-!
The outline of an unambiguous forest spells the input.

Where nothing is ambiguous, an outline is its only tree, line by line, but for what is cut short:
a derivation to which several references lead is written out at the first of them only. If every
such entry is taken for all that its derivation covers, then what the entries stand for is, one
after the other, the leaves of the tree (`Unfolds.flatMap_covers`), and these are the offsets of the
input in order, each of them once.

So an entry that is cut short covers nothing. For whatever it covered could be reached from the
root, as a leaf of the tree, and would have an entry of its own (`Outlined.mem_iff`) beside the one
that covers it. Hence the entries of terminals alone are all offsets in order
(`Outlined.terminals_eq`), and their lines say the symbols that were read (`compile_spells`).
-/

set_option autoImplicit false

namespace Gll

open Relation (ReflTransGen)
open Text

theorem Tree.leavesOfRow_singleton (tree : Tree) : Tree.leavesOfRow [tree] = tree.leaves := by
  rw [leavesOfRow, leavesOfRow, List.append_nil]

theorem Tree.leavesOfRow_append (left right : List Tree) :
    Tree.leavesOfRow (left ++ right) = Tree.leavesOfRow left ++ Tree.leavesOfRow right := by
  induction left with
  | nil => rfl
  | cons tree rest ih => rw [List.cons_append, leavesOfRow, leavesOfRow, ih, List.append_assoc]

theorem toList_eq_singleton {α : Type} {items : Array α} {item : α} (hmem : item ∈ items)
    (hsize : ¬ 1 < items.size) : items.toList = [item] := by
  rw [← Array.mem_toList_iff] at hmem
  rw [← Array.length_toList] at hsize
  match hitems : items.toList with
  | [] => exact absurd (hitems ▸ hmem) List.not_mem_nil
  | [other] =>
    rw [hitems, List.mem_singleton] at hmem
    rw [hmem]
  | _ :: _ :: _ => simp [hitems] at hsize

namespace Forest

variable {program : Program} {forest : Forest} {root : SymbolId} {counts : Counts}

/-! ## The only tree -/

/-- Where nothing is ambiguous, one right-hand side is packed under a derivation, -/
theorem IsUnambiguous.toList_alternatives {id : SymbolId} (h : forest.IsUnambiguous (.symbol id))
    {symbol : Nonterminal} {first last : Position} {alternatives : Array PrefixId}
    {child : PrefixId}
    (hnode : forest.symbolNode? id = some (.nonterminal symbol first last alternatives))
    (hchild : child ∈ alternatives) : alternatives.toList = [child] := by
  have hself := h.self
  rw [isAmbiguous, isAmbiguousSymbol, hnode] at hself
  exact toList_eq_singleton hchild (of_decide_eq_false hself)

/-- and one split under a prefix. -/
theorem IsUnambiguous.toList_children {id : PrefixId} (h : forest.IsUnambiguous (.stem id))
    {label : Label} {first last : Position} {children : Array Split} {child : Split}
    (hnode : forest.prefixNode? id = some (.cons label first last children))
    (hchild : child ∈ children) : children.toList = [child] := by
  have hself := h.self
  rw [isAmbiguous, isAmbiguousPrefix, hnode] at hself
  exact toList_eq_singleton hchild (of_decide_eq_false hself)

/-- The offsets that a symbol covers. -/
def cover (forest : Forest) (id : SymbolId) : List Nat :=
  match forest.symbolNode? id with
  | some node => List.range' node.span.start (node.span.stop - node.span.start)
  | none => []

/-- The offsets for which an entry stands: a derivation that is written out above is not written out
below its entry, so this one stands for all of it. -/
def Entry.covers (forest : Forest) (entry : Entry) : List Nat :=
  match entry.remark with
  | .terminal _ position => [position.offset]
  | .again id _ => forest.cover id
  | .written .. | .rightHandSide _ | .fork _ | .split _ => []

/-- The trees of a part below which nothing is ambiguous. -/
def Part.HasTrees (forest : Forest) (trees : List Tree) : Part → Prop
  | .symbol id => forest.IsUnambiguous (.symbol id) ∧ forest.Trees (.symbol id) trees
  | .stem id => forest.IsUnambiguous (.stem id) ∧ forest.Trees (.stem id) trees
  | .alternatives children => ∃ child, children = [child] ∧
      forest.IsUnambiguous (.stem child) ∧ forest.Trees (.stem child) trees
  | .rightHandSides _ | .splits _ => False

/-- The trees of a derivation are those of its only right-hand side, -/
theorem Part.HasTrees.exists_of_derivation {id : SymbolId} {trees : List Tree}
    (h : (Part.symbol id).HasTrees forest trees) {symbol : Nonterminal} {first last : Position}
    {alternatives : Array PrefixId}
    (hnode : forest.symbolNode? id = some (.nonterminal symbol first last alternatives)) :
    ∃ below, trees = [.node symbol below] ∧
      (Part.alternatives alternatives.toList).HasTrees forest below := by
  obtain ⟨hclear, htrees⟩ := h
  cases htrees with
  | terminal hnode' => cases hnode.symm.trans hnode'
  | nonterminal hnode' hchild htrees =>
    cases hnode.symm.trans hnode'
    exact ⟨_, rfl, _, hclear.toList_alternatives hnode hchild,
      hclear.of_refers (.alternative hnode hchild), htrees⟩

/-- and those of a prefix come from its only split, if it is not empty. -/
theorem Part.HasTrees.cases_of_stem {id : PrefixId} {trees : List Tree}
    (h : (Part.stem id).HasTrees forest trees) {node : PrefixNode}
    (hnode : forest.prefixNode? id = some node) :
    (node.children.toList = [] ∧ trees = []) ∨
      ∃ child left right, node.children.toList = [child] ∧ trees = left ++ right ∧
        (Part.stem child.left).HasTrees forest left ∧
          (Part.symbol child.right).HasTrees forest right := by
  obtain ⟨hclear, htrees⟩ := h
  cases htrees with
  | empty hnode' =>
    cases hnode.symm.trans hnode'
    exact .inl ⟨rfl, rfl⟩
  | cons hnode' hchild hleft hright =>
    cases hnode.symm.trans hnode'
    exact .inr ⟨_, _, _, hclear.toList_children hnode hchild, rfl,
      ⟨hclear.of_refers (.left hnode hchild), hleft⟩,
      ⟨hclear.of_refers (.right hnode hchild), hright⟩⟩

/-- Taken for what they stand for, the entries of a part are the leaves of its only tree. -/
theorem Unfolds.flatMap_covers
    (hcover : ∀ {id : SymbolId} {tree : Tree}, forest.IsDerivation id → forest.HasTree id tree →
      tree.leaves = forest.cover id)
    {depth : Nat} {part : Part} {entries : List Entry} (h : forest.Unfolds depth part entries)
    {trees : List Tree} (htrees : part.HasTrees forest trees) :
    entries.flatMap (Entry.covers forest) = Tree.leavesOfRow trees := by
  induction h generalizing trees with
  | terminal hnode =>
    obtain ⟨-, htrees⟩ := htrees
    cases htrees with
    | terminal hnode' =>
      cases hnode.symm.trans hnode'
      rfl
    | nonterminal hnode' => cases hnode.symm.trans hnode'
  | again hnode =>
    -- Nothing is written out here, so the entry has to stand for the whole tree.
    obtain ⟨below, rfl, -⟩ := htrees.exists_of_derivation hnode
    rw [List.flatMap_singleton, Tree.leavesOfRow_singleton, hcover ⟨_, _, _, _, hnode⟩ htrees.2]
    rfl
  | written hnode _ ih =>
    obtain ⟨below, rfl, hbelow⟩ := htrees.exists_of_derivation hnode
    rw [List.flatMap_cons, ih hbelow, Tree.leavesOfRow_singleton, Tree.leaves]
    rfl
  | noAlternative =>
    obtain ⟨child, heq, -⟩ := htrees
    cases heq
  | alternative _ ih =>
    obtain ⟨child, heq, hclear, htrees⟩ := htrees
    obtain rfl := (List.cons.inj heq).1
    exact ih ⟨hclear, htrees⟩
  | alternatives hseveral _ _ =>
    obtain ⟨child, rfl, -⟩ := htrees
    exact absurd hseveral (Nat.lt_irrefl 1)
  | noRightHandSide | rightHandSide | noSplit | split => exact htrees.elim
  | noChild hnode hchildren =>
    obtain ⟨-, rfl⟩ | ⟨child, _, _, hone, -⟩ := htrees.cases_of_stem hnode
    · rfl
    · cases hchildren.symm.trans hone
  | child hnode hchildren _ _ ih ih' =>
    obtain ⟨hnil, -⟩ | ⟨child, left, right, hone, rfl, hleft, hright⟩ := htrees.cases_of_stem hnode
    · cases hchildren.symm.trans hnil
    · cases hchildren.symm.trans hone
      rw [List.flatMap_append, Tree.leavesOfRow_append, ih hleft, ih' hright]
  | fork hnode hseveral _ _ =>
    obtain ⟨hnil, -⟩ | ⟨child, _, _, hone, -⟩ := htrees.cases_of_stem hnode
    · rw [hnil] at hseveral
      exact absurd hseveral (Nat.not_lt_zero 1)
    · rw [hone] at hseveral
      exact absurd hseveral (Nat.lt_irrefl 1)

/-- A leaf of a tree is a terminal that can be reached. -/
theorem Trees.exists_terminal {node : NodeId} {trees : List Tree} (h : forest.Trees node trees)
    {offset : Nat} (hoffset : offset ∈ Tree.leavesOfRow trees) :
    ∃ id position, ReflTransGen forest.Refers node (.symbol id) ∧
      forest.symbolNode? id = some (.terminal position) ∧ position.offset = offset := by
  induction h with
  | @terminal id position hnode =>
    rw [Tree.leavesOfRow_singleton, Tree.leaves, List.mem_singleton] at hoffset
    exact ⟨id, position, .refl, hnode, hoffset.symm⟩
  | nonterminal hnode hchild _ ih =>
    rw [Tree.leavesOfRow_singleton, Tree.leaves] at hoffset
    obtain ⟨id, position, hreach, hterminal⟩ := ih hoffset
    exact ⟨id, position, .head (.alternative hnode hchild) hreach, hterminal⟩
  | empty _ => cases hoffset
  | cons hnode hchild _ _ ih ih' =>
    rw [Tree.leavesOfRow_append, List.mem_append] at hoffset
    rcases hoffset with hoffset | hoffset
    · obtain ⟨id, position, hreach, hterminal⟩ := ih hoffset
      exact ⟨id, position, .head (.left hnode hchild) hreach, hterminal⟩
    · obtain ⟨id, position, hreach, hterminal⟩ := ih' hoffset
      exact ⟨id, position, .head (.right hnode hchild) hreach, hterminal⟩

/-! ## The terminals -/

/-- The position of the terminal of an entry. -/
def Entry.terminal? (entry : Entry) : Option Position :=
  match entry.remark with
  | .terminal _ position => some position
  | _ => none

/-- The terminals of which there are entries, in order. -/
def terminals (entries : List Entry) : List Position := entries.filterMap Entry.terminal?

/-- Whatever is reached and is a terminal has an entry as one. -/
theorem Outlined.mem_terminals {entries : List Entry} (h : forest.Outlined root counts entries)
    {id : SymbolId} {position : Position}
    (hreach : ReflTransGen forest.Refers (.symbol root) (.symbol id))
    (hnode : forest.symbolNode? id = some (.terminal position)) : position ∈ terminals entries := by
  obtain ⟨entry, hentry, hsymbol⟩ := List.mem_filterMap.mp ((h.mem_iff id).mpr hreach)
  refine List.mem_filterMap.mpr ⟨entry, hentry, ?_⟩
  have hfits := h.unfolds.fits entry hentry
  obtain ⟨depth, remark⟩ := entry
  cases remark with
  | terminal other position' =>
    obtain rfl := Option.some.inj hsymbol
    have hnode' : forest.symbolNode? other = some (.terminal position') := hfits
    cases hnode.symm.trans hnode'
    rfl
  | written other | again other =>
    obtain rfl := Option.some.inj hsymbol
    obtain ⟨_, _, _, _, hnode'⟩ := hfits
    cases hnode.symm.trans hnode'
  | rightHandSide | fork | split => cases hsymbol

theorem terminals_sublist (forest : Forest) (entries : List Entry) :
    ((terminals entries).map Position.offset).Sublist
      (entries.flatMap (Entry.covers forest)) := by
  induction entries with
  | nil => exact .slnil
  | cons entry rest ih =>
    have hsplit : terminals (entry :: rest) = entry.terminal?.toList ++ terminals rest :=
      List.filterMap_append (l := [entry]) ..
    rw [hsplit, List.map_append, List.flatMap_cons]
    refine .append ?_ ih
    obtain ⟨depth, remark⟩ := entry
    cases remark with
    | terminal id position => exact .refl _
    | written | again | rightHandSide | fork | split => exact List.nil_sublist _

/-- The entries of terminals are those of all offsets, in order. -/
theorem Outlined.terminals_eq {entries : List Entry} (h : forest.Outlined root counts entries)
    (hcover : ∀ {id : SymbolId} {tree : Tree}, forest.IsDerivation id → forest.HasTree id tree →
      tree.leaves = forest.cover id)
    (hclear : forest.IsUnambiguous (.symbol root)) {tree : Tree} (htree : forest.HasTree root tree)
    (hnodup : tree.leaves.Nodup) : (terminals entries).map Position.offset = tree.leaves := by
  have hleaves := Tree.leavesOfRow_singleton tree
  have hall : entries.flatMap (Entry.covers forest) = tree.leaves :=
    (h.unfolds.flatMap_covers hcover ⟨hclear, htree⟩).trans hleaves
  have hsublist := terminals_sublist forest entries
  rw [hall] at hsublist
  refine hsublist.eq_of_length_le (hnodup.subperm fun offset hoffset => ?_).length_le
  obtain ⟨id, position, hreach, hnode, rfl⟩ := Trees.exists_terminal htree (hleaves ▸ hoffset)
  exact List.mem_map_of_mem (h.mem_terminals hreach hnode)

/-! ## The lines of terminals -/

/-- Whether a line is that of a terminal: behind the spaces in front it begins with one. -/
def isTerminalLine (text : Styled) : Bool :=
  decide (text[1]?.bind Piece.role = some .terminal)

/-- The text of a terminal. -/
def terminalLine (position : Position) : Styled :=
  withSpan (paint .terminal (terminalText position)) (SymbolNode.terminal position).span

theorem Remark.text_of_terminal? {entry : Entry} {position : Position}
    (h : entry.terminal? = some position) :
    entry.remark.text forest program = .ok (terminalLine position) := by
  obtain ⟨depth, remark⟩ := entry
  cases remark with
  | terminal id position' =>
    obtain rfl := Option.some.inj h
    rfl
  | written | again | rightHandSide | fork | split => cases h

theorem exists_of_headText {id : SymbolId} {head : Styled}
    (h : forest.headText program id = .ok head) :
    ∃ name rest, head = ⟨some .name, name⟩ :: rest := by
  obtain ⟨node, -, h⟩ := exists_of_bind_eq_ok h
  obtain ⟨symbol, -, h⟩ := exists_of_bind_eq_ok h
  obtain ⟨name, -, h⟩ := exists_of_bind_eq_ok h
  obtain rfl := Except.ok.inj h
  exact ⟨name, _, rfl⟩

theorem exists_of_production {id : PrefixId} {text : Styled}
    (h : forest.production program id = .ok text) :
    ∃ piece rest, text = piece :: rest ∧ piece.role = none := by
  obtain ⟨node, -, h⟩ := exists_of_bind_eq_ok h
  split at h
  · obtain rfl := Except.ok.inj h
    exact ⟨_, _, rfl, rfl⟩
  · obtain ⟨text, -, h⟩ := exists_of_bind_eq_ok h
    obtain rfl := Except.ok.inj h
    exact ⟨_, _, rfl, rfl⟩

/-- The text of what is not a terminal does not begin with one. -/
theorem Remark.exists_of_text {entry : Entry} {text : Styled}
    (h : entry.remark.text forest program = .ok text) (hnone : entry.terminal? = none) :
    ∃ piece rest, text = piece :: rest ∧ piece.role ≠ some .terminal := by
  obtain ⟨depth, remark⟩ := entry
  cases remark with
  | terminal => cases hnone
  -- The text of a derivation begins with its head, and that with a name.
  | written id tag alternatives =>
    obtain ⟨head, hhead, h⟩ := exists_of_bind_eq_ok h
    obtain ⟨name, rest, rfl⟩ := exists_of_headText hhead
    dsimp only at h
    split at h
    · obtain rfl := Except.ok.inj h
      exact ⟨_, _, rfl, by simp⟩
    · obtain ⟨production, -, h⟩ := exists_of_bind_eq_ok h
      obtain rfl := Except.ok.inj h
      exact ⟨_, _, rfl, by simp⟩
    · obtain rfl := Except.ok.inj h
      exact ⟨_, _, rfl, by simp⟩
  | again id tag =>
    obtain ⟨head, hhead, h⟩ := exists_of_bind_eq_ok h
    obtain ⟨name, rest, rfl⟩ := exists_of_headText hhead
    obtain rfl := Except.ok.inj h
    exact ⟨_, _, rfl, by simp⟩
  | rightHandSide child =>
    obtain ⟨piece, rest, rfl, hrole⟩ := exists_of_production h
    exact ⟨piece, rest, rfl, by simp [hrole]⟩
  | fork id =>
    obtain ⟨node, -, h⟩ := exists_of_bind_eq_ok h
    obtain rfl := Except.ok.inj h
    exact ⟨_, _, rfl, by simp⟩
  | split position =>
    obtain rfl := Except.ok.inj h
    exact ⟨_, _, rfl, by simp⟩

/-- The lines that are those of terminals are the texts of the terminals, in order. -/
theorem filter_isTerminalLine {entries : List Entry} {lines : List Styled}
    (h : entries.mapM (Entry.line forest program) = .ok lines) :
    (lines.filter isTerminalLine).map (List.drop 1) = (terminals entries).map terminalLine := by
  -- Entry by entry: its line is kept just if the entry is of a terminal.
  induction entries generalizing lines with
  | nil =>
    obtain rfl := Except.ok.inj h
    rfl
  | cons entry rest ih =>
    rw [List.mapM_cons] at h
    obtain ⟨line, hline, h⟩ := exists_of_bind_eq_ok h
    obtain ⟨others, hothers, h⟩ := exists_of_bind_eq_ok h
    obtain rfl := Except.ok.inj h
    obtain ⟨text, htext, hline⟩ := exists_of_bind_eq_ok hline
    obtain rfl := Except.ok.inj hline
    cases hterminal : entry.terminal? with
    | none =>
      obtain ⟨piece, pieces, rfl, hrole⟩ := Remark.exists_of_text htext hterminal
      have hno : isTerminalLine (plain (spaces (2 * entry.depth)) ++ piece :: pieces) = false :=
        decide_eq_false hrole
      rw [List.filter_cons_of_neg (by simp [hno]), ih hothers, terminals, terminals,
        List.filterMap_cons_none hterminal]
    | some position =>
      obtain rfl := Except.ok.inj (htext.symm.trans (Remark.text_of_terminal? hterminal))
      have hyes :
          isTerminalLine (plain (spaces (2 * entry.depth)) ++ terminalLine position) = true :=
        decide_eq_true rfl
      rw [List.filter_cons_of_pos hyes, List.map_cons, ih hothers, terminals, terminals,
        List.filterMap_cons_some hterminal, List.map_cons]
      rfl

end Forest

namespace Moment

variable {program : Program} {input : List Char} {m : Moment}

/-- The leaves of the trees of a derivation are what it covers. -/
theorem Sound.leaves_eq_cover (hlaid : program.Laid) (hsound : m.Sound program input)
    {id : SymbolId} {tree : Tree} (hid : m.scheduler.forest.IsDerivation id)
    (htree : m.scheduler.forest.HasTree id tree) : tree.leaves = m.scheduler.forest.cover id := by
  obtain ⟨symbol, first, last, alternatives, hnode⟩ := hid
  have hderivation : m.Holds (.derivation id symbol first last) := ⟨alternatives, hnode⟩
  obtain ⟨i, j, -, rfl, rfl, -⟩ := hsound.proper hderivation
  have hleaves := (hsound.derivesTree hlaid hderivation htree).leavesOfRow
  rw [Tree.leavesOfRow_singleton] at hleaves
  rw [hleaves, Forest.cover, hnode]
  simp [SymbolNode.span]

/-- A terminal in an outline is at the position of its offset. -/
theorem Sound.eq_of_mem_terminals (hsound : m.Sound program input) {entries : List Forest.Entry}
    (hfits : ∀ entry ∈ entries, entry.Fits m.scheduler.forest) {position : Position}
    (hposition : position ∈ Forest.terminals entries) : position = .of input position.offset := by
  obtain ⟨⟨depth, remark⟩, hentry, hterminal⟩ := List.mem_filterMap.mp hposition
  cases remark with
  | terminal id position' =>
    obtain rfl := Option.some.inj hterminal
    have hnode : m.Holds (.terminal id position') := hfits _ hentry
    obtain ⟨i, -, rfl⟩ := hsound.proper hnode
    rw [Position.offset_of]
  | written | again | rightHandSide | fork | split => cases hterminal

end Moment

/-- The lines of the symbols of a text, each with its span. -/
def spelled (text : List Char) : List Styled :=
  text.zipIdx.map fun (char, i) => Forest.withSpan (paint .terminal (quotedChar char)) ⟨i, i + 1⟩

theorem map_terminalLine_range (input : List Char) :
    (List.range' 0 input.length).map (fun i => Forest.terminalLine (.of input i))
      = spelled input := by
  refine List.ext_getElem (by simp [spelled]) fun i hi hi' => ?_
  have hlt : i < input.length := by simpa using hi
  have hposition : Position.of input i = .symbol input[i] i := by
    rw [Position.of, List.getElem?_eq_getElem hlt]
  simp [spelled, hposition, Forest.terminalLine, Forest.terminalText, Position.char?,
    SymbolNode.span, Position.offset]

namespace Program

/-- If nothing that can be reached from the root is ambiguous, and its references can be counted,
the lines of terminals in its outline spell what was read. -/
def Spells (program : Program) (fed : List Char) (s : Scheduler) : Prop :=
  ∃ root, s.root = some root ∧
    (s.forest.IsUnambiguous (.symbol root) → s.forest.CountsFit root →
      ∃ lines, s.forest.outline program root = .ok lines ∧
        (lines.filter Forest.isTerminalLine).map (List.drop 1) = spelled fed)

variable {program : Program}

theorem spells_of_sound {input : List Char} {m : Moment} (hwhole : program.Whole)
    (hsound : m.Sound program input) (hgrounded : m.scheduler.Grounded)
    (haccepted : m.scheduler.isAccepted = true) : program.Spells input m.scheduler := by
  have hfinished := isFinished_of_isAccepted haccepted
  obtain ⟨root, hroot, alternatives, hnode⟩ := exists_root hsound
  refine ⟨root, hroot, fun hclear hfits => ?_⟩
  obtain ⟨_, entries, lines, -, -, hlines, hentries, houtlined⟩ :=
    (hsound.navigable hwhole).exists_outlined hwhole hnode hfits
  refine ⟨lines, hlines, ?_⟩
  have hindex : m.index = input.length := by
    have hle := List.getElem?_eq_none_iff.mp (hsound.situated.isFinished.mp hfinished)
    exact Nat.le_antisymm hsound.situated.index_le hle
  -- The root has a right-hand side, so it has a tree over all of the input.
  have hne : alternatives ≠ #[] := (isAccepted_iff hfinished hroot hnode).mp haccepted
  obtain ⟨tree, hfirst, -, hleaves, -⟩ :=
    (productive_of_sound hwhole.laid hsound hgrounded).tree hnode hne
  have htree : m.scheduler.forest.HasTree root tree := Forest.hasTree_of_firstTreeOf
    (fun htrees => Forest.trees_of_firstTrees htrees) (hfirst _ (Nat.le_refl _))
  rw [Position.offset_of, Position.offset_of, Nat.sub_zero, hindex] at hleaves
  have hoffsets : (Forest.terminals entries).map Position.offset
      = List.range' 0 input.length := by
    rw [← hleaves]
    exact houtlined.terminals_eq (hsound.leaves_eq_cover hwhole.laid) hclear htree
      (hleaves ▸ List.nodup_range')
  have hterminals : (Forest.terminals entries).map Forest.terminalLine
      = (Forest.terminals entries).map fun position =>
        Forest.terminalLine (.of input position.offset) :=
    List.map_congr_left fun position hposition => congrArg Forest.terminalLine
      (hsound.eq_of_mem_terminals houtlined.unfolds.fits hposition)
  calc (lines.filter Forest.isTerminalLine).map (List.drop 1)
      = (Forest.terminals entries).map Forest.terminalLine := Forest.filter_isTerminalLine hentries
    _ = ((Forest.terminals entries).map Position.offset).map
        fun i => Forest.terminalLine (.of input i) := by
      rw [hterminals, List.map_map]
      rfl
    _ = spelled input := by rw [hoffsets, map_terminalLine_range]

section Calls

variable {grammar : Grammar} {σ : Type} {tracer : Tracer σ} {trace : σ} {limit : Nat}

/-- If no node that can be reached from the root of an accepted input is ambiguous, then the lines
of terminals in the outline of the root are, from the first to the last, those of the symbols of the
input in order, each with its own span. So it is for whatever was fed to a session that accepts,
and for every text that is parsed and accepted; there is no outline only where a count of references
does not fit its word. -/
theorem compile_spells (hcompile : Program.compile grammar = .ok program) :
    (∀ {fed : List Char} {session : Session σ Unit} {offers : List Task},
      Session.Reaches program.interpreter tracer (.initial program.interpreter trace () limit)
        fed session offers → session.isAccepted = true →
          program.Spells fed session.scheduler) ∧
    ∀ {text : String} {session : Session σ Unit},
      program.parse tracer trace limit text = .ok true session →
        program.Spells text.toList session.scheduler := by
  have hwhole := whole_of_compile hcompile
  have hreached {fed : List Char} {session : Session σ Unit} {offers : List Task}
      (h : Session.Reaches program.interpreter tracer (.initial program.interpreter trace () limit)
        fed session offers) (haccepted : session.isAccepted = true) :
      program.Spells fed session.scheduler := by
    rcases h.initial_or_sound hwhole.laid with hinitial | hsound
    · rw [Session.isAccepted, hinitial] at haccepted
      cases haccepted
    · exact spells_of_sound hwhole hsound (h.grounded hwhole.laid) haccepted
  refine ⟨hreached, fun {text session} hparse => ?_⟩
  obtain ⟨⟨offers, h⟩, -, -, -, haccepted⟩ := Session.Reaches.start.of_parse hparse
  rw [List.nil_append] at h
  exact hreached h haccepted

end Calls

/-- A grammar in which nothing is ambiguous and yet a derivation is referred to twice: `S = E E "a"`
and `E = ""`. -/
def hollow : Grammar :=
  ((Grammar.empty "hollow").withRule "S"
    (.sequence [.symbol "E", .symbol "E", .literal "a"])).withRule "E" .blank

theorem compile_hollow : ∃ program, Program.compile hollow = .ok program ∧
    program.slotCount = 6 ∧ program.start = ⟨0⟩ ∧ program.entries = #[[⟨1⟩], [⟨5⟩]] ∧
      program.atomsAt ⟨1⟩ = [.nonterminal ⟨1⟩, .nonterminal ⟨1⟩, .terminal (.char 'a')] ∧
        program.atomsAt ⟨5⟩ = [] :=
  ⟨_, rfl, rfl, rfl, rfl, rfl, rfl⟩

/-- There is one tree of a letter. -/
theorem existsUnique_hollow {program : Program} (hcompile : Program.compile hollow = .ok program) :
    program.EmptyUnique ∧ ∃! tree, program.MarkedDerivesTree ['a'] program.start 0 1 tree := by
  obtain ⟨program', hcompile', -, hstart, hentries, hrow, hnothing⟩ := compile_hollow
  obtain rfl := Except.ok.inj (hcompile.symm.trans hcompile')
  have hlabels : program.entries? ⟨0⟩ = some [⟨1⟩] ∧ program.entries? ⟨1⟩ = some [⟨5⟩] := by
    unfold entries?
    rw [hentries]
    exact ⟨rfl, rfl⟩
  refine ⟨fun symbol labels entry entry' hfound hentry hentry' _ _ => ?_, ?_⟩
  · have hmem : labels ∈ program.entries := Array.mem_of_getElem? hfound
    rw [hentries] at hmem
    have hsingle : labels = [⟨1⟩] ∨ labels = [⟨5⟩] := by simpa using hmem
    rcases hsingle with rfl | rfl <;>
      rw [List.mem_singleton.mp hentry, List.mem_singleton.mp hentry']
  · have hblank : program.MarkedDerives ['a'] (program.atomsAt ⟨5⟩) 0 0 [] := by
      rw [hnothing]
      exact .nil 0
    -- What comes of the nonterminal that derives nothing is this tree and nothing else.
    have hinvert {atoms : List Atom} {i j : Nat} {trees : List MarkedTree}
        (h : program.MarkedDerives ['a'] (.nonterminal ⟨1⟩ :: atoms) i j trees) :
        ∃ rest, trees = .node ⟨1⟩ ⟨5⟩ [] :: rest ∧ program.MarkedDerives ['a'] atoms i j rest := by
      cases h with
      | nonterminal hfound hentry hfirst hrest =>
        obtain rfl := Option.some.inj (hlabels.2.symm.trans hfound)
        obtain rfl := List.mem_singleton.mp hentry
        rw [hnothing] at hfirst
        cases hfirst
        exact ⟨_, rfl, hrest⟩
    rw [hstart]
    refine ⟨.node ⟨0⟩ ⟨1⟩ [.node ⟨1⟩ ⟨5⟩ [], .node ⟨1⟩ ⟨5⟩ [], .leaf 0], ?_, fun tree htree => ?_⟩
    · refine markedDerivesTree_iff.mpr ⟨_, ⟨1⟩, _, hlabels.1, List.mem_singleton_self _, rfl, ?_⟩
      rw [hrow]
      exact .nonterminal hlabels.2 (List.mem_singleton_self _) hblank
        (.nonterminal hlabels.2 (List.mem_singleton_self _) hblank (.terminal rfl rfl (.nil 1)))
    · obtain ⟨labels, entry, children, hfound, hentry, rfl, hall⟩ := markedDerivesTree_iff.mp htree
      obtain rfl := Option.some.inj (hlabels.1.symm.trans hfound)
      obtain rfl := List.mem_singleton.mp hentry
      rw [hrow] at hall
      obtain ⟨_, rfl, hlater⟩ := hinvert hall
      obtain ⟨_, rfl, hlast⟩ := hinvert hlater
      cases hlast with
      | terminal _ _ hrest =>
        cases hrest
        rfl

/-- A letter is spelled by the outline of its forest, in which nothing is ambiguous. -/
theorem compile_spells_hollow : ∃ program session root lines,
    Program.compile hollow = .ok program ∧ program.parse .silent () 168 "a" = .ok true session ∧
      session.scheduler.root = some root ∧
        session.scheduler.forest.IsUnambiguous (.symbol root) ∧
          session.scheduler.forest.CountsFit root ∧
            session.scheduler.forest.outline program root = .ok lines ∧
              (lines.filter Forest.isTerminalLine).map (List.drop 1)
                = [Forest.withSpan (paint .terminal "'a'") ⟨0, 1⟩] := by
  obtain ⟨program, hcompile, hcount, -, hentries, -⟩ := compile_hollow
  obtain ⟨hempty, hunique⟩ := existsUnique_hollow hcompile
  have hlaid := laid_of_compile hcompile
  have hmem : "a".toList ∈ program.rightHandSides.language program.start := by
    obtain ⟨tree, htree, -⟩ := hunique
    exact (Productions.take_mem_language_iff (Nat.le_refl 1)).mpr ⟨_, htree.erase⟩
  have hlimit : ("a".toList.length + 1) * program.generationFuel "a".toList.length ≤ 168 := by
    unfold generationFuel
    rw [hcount]
    exact Nat.le_refl 168
  obtain ⟨session, hparse⟩ :=
    exists_parse_of_mem Tracer.isTotal_silent hcompile "a" hmem hlimit ()
  obtain ⟨⟨offers, h⟩, hdequeue, hopen, -, haccepted⟩ := Session.Reaches.start.of_parse hparse
  obtain ⟨root, hroot, hiff⟩ := showsAmbiguity_of_timeline hlaid hempty (h.timeline_fed hlaid hopen)
    (pending_eq_nil_of_dequeue? offers hdequeue)
    (h.grounded hlaid) (h.law (Scheduler.law_distinct program.start))
    (h.law (law_tidy program.start)) haccepted
  obtain ⟨root', hroot', hspells⟩ := (compile_spells hcompile).2 hparse
  obtain rfl := Option.some.inj (hroot.symm.trans hroot')
  have hbound : program.countBound "a".toList.length < UInt32.size := by
    rw [countBound, hcount, nonterminalCount, hentries]
    decide
  have hfits := compile_countsFit hcompile h hbound root
  obtain ⟨lines, hlines, hspelled⟩ := hspells (hiff.mp hunique) hfits
  exact ⟨program, session, root, lines, hcompile, hparse, hroot, hiff.mp hunique, hfits, hlines,
    hspelled⟩

end Program

end Gll
