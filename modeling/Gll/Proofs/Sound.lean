import Gll.Proofs.Growth
import Gll.Proofs.Layout

/-!
What the facts of a parse mean.

A parse of a compiled grammar keeps one invariant, fact by fact: every node, link, result and task
is what its place says. `Moment.Proper` says it for each kind of fact, in terms of dotted items and
of the derivations of the input, and a moment is `Sound` if all its facts are proper. Four notions
are used throughout.

| | |
|---|---|
| `Moment.Caller` | what waits for a nonterminal from an offset on: a frame, or the initial stack |
| `Moment.Stem` | a prefix node over what is before the dot of an item, between two offsets |
| `Moment.Derivative` | a symbol node over one atom, between two offsets |
| `Moment.Canonical` | the prefix the tables of this generation have for an item and an offset |

The last one is what makes it right to tell tasks apart by label and caller alone. The caller fixes
the offset at which the callee begins, the label fixes what is before the dot, and for these two
there is one prefix in a generation.

All four are positive in the facts, so they are kept by every change that takes nothing back
(`Proper.mono`), and only the new facts of a change have to be looked at (`Sound.of_new`).
-/

set_option autoImplicit false

namespace Gll

/-! ## Positions of an input -/

/-- The position at an offset of the input, that is at a symbol or behind the last one. -/
def Position.of (input : List Char) (i : Nat) : Position :=
  match input[i]? with
  | some c => .symbol c i
  | none => .afterInput i

@[simp] theorem Position.offset_of (input : List Char) (i : Nat) :
    (Position.of input i).offset = i := by
  rw [Position.of]
  split <;> rfl

@[simp] theorem Position.char?_of (input : List Char) (i : Nat) :
    (Position.of input i).char? = input[i]? := by
  rw [Position.of]
  split <;> simp_all [Position.char?]

theorem Position.of_inj {input : List Char} {i j : Nat}
    (h : Position.of input i = Position.of input j) : i = j := by
  rw [← Position.offset_of input i, h, Position.offset_of]

namespace Moment

/-! ## Places of a parse -/

/-- The offset of the current position. -/
def index (m : Moment) : Nat := m.scheduler.index

section Notions

variable (program : Program) (input : List Char) (m : Moment)

/-- A stack waits for a nonterminal that begins at an offset. The initial stack waits for the item
that nobody owns. -/
inductive Caller : StackId → Option Nonterminal → Nat → Prop where
  | initial : Caller .initial none 0
  | frame {id : StackId} {label : Label} {origin : Nat} {owner : Option Nonterminal}
      {before after : List Atom} {callee : Nonterminal}
      (hframe : m.Holds (.frame id label origin))
      (hitem : program.Item label owner (before ++ [.nonterminal callee]) after) :
      Caller id (some callee) origin

/-- A prefix node over some atoms between two offsets, which a parse goes on from at the label
`next`. -/
inductive Stem (next : Label) : List Atom → PrefixId → Nat → Nat → Prop where
  | empty {id : PrefixId} {i : Nat} (hnode : m.Holds (.empty id (.of input i))) :
      Stem next [] id i i
  | cons {label : Label} {owner : Option Nonterminal} {before after : List Atom} {atom : Atom}
      {id : PrefixId} {i j : Nat} (hnext : label.next = next)
      (hitem : program.Item label owner (before ++ [atom]) after)
      (hnode : m.Holds (.cons id label (.of input i) (.of input j)))
      (hderives : ∃ trees, program.rightHandSides.Derives input (before ++ [atom]) i j trees) :
      Stem next (before ++ [atom]) id i j

/-- A symbol node over an atom between two offsets. -/
inductive Derivative : Atom → SymbolId → Nat → Nat → Prop where
  | terminal {matcher : Matcher} {id : SymbolId} {c : Char} {i : Nat}
      (hnode : m.Holds (.terminal id (.of input i))) (hchar : input[i]? = some c)
      (haccepts : matcher.accepts c = true) : Derivative (.terminal matcher) id i (i + 1)
  | nonterminal {callee : Nonterminal} {id : SymbolId} {child : PrefixId} {i j : Nat}
      (hnode : m.Holds (.derivation id callee (.of input i) (.of input j)))
      (halternative : m.Holds (.alternative id child))
      (hderives : ∃ tree, program.rightHandSides.DerivesTree input callee i j tree) :
      Derivative (.nonterminal callee) id i j

/-- The prefix of an item and an offset in this generation. -/
inductive Canonical (label : Label) : List Atom → Nat → PrefixId → Prop where
  | empty {id : PrefixId} (hkey : m.Holds (.emptyKey id)) : Canonical label [] m.index id
  | cons {before : List Atom} {atom : Atom} {i : Nat} {id : PrefixId}
      (hkey : m.Holds (.consKey label (.of input i) id)) : Canonical label (before ++ [atom]) i id

/-- A slot that may be resumed for a caller with a prefix. -/
structure Resumable (label : Label) (caller : StackId) (stem : PrefixId)
    (owner : Option Nonterminal) (before after : List Atom) (i : Nat) : Prop where
  item : program.Item label owner before after
  caller : m.Caller program caller owner i
  canonical : m.Canonical input label before i stem

/-- A symbol node over the atom for which a frame waits, that ends at the given offset. -/
structure Answer (frame : StackId) (result : SymbolId) (label : Label)
    (owner : Option Nonterminal) (before : List Atom) (atom : Atom) (after : List Atom)
    (i j : Nat) : Prop where
  frame : m.Holds (.frame frame label i)
  item : program.Item label owner (before ++ [atom]) after
  derivative : m.Derivative program input atom result i j

/-- What a fact means. -/
def Proper : Fact → Prop
  | .frame id label origin =>
    origin ≤ m.index ∧ (origin = m.index → m.Holds (.frameKey label origin id)) ∧
      ∃ owner before atom after, program.Item label owner (before ++ [atom]) after
  | .link frame ⟨caller, stem⟩ =>
    ∃ label owner before atom after i j, m.Holds (.frame frame label j) ∧
      program.Item label owner (before ++ [atom]) after ∧ m.Caller program caller owner i ∧
        m.Stem program input label before stem i j
  | .empty _ position => ∃ i ≤ m.index, position = .of input i
  | .cons _ label first last =>
    ∃ owner before atom after i, ∃ j ≤ m.index, first = .of input i ∧ last = .of input j ∧
      program.Item label owner (before ++ [atom]) after ∧
        (∃ caller, m.Caller program caller owner i) ∧
          ∃ trees, program.rightHandSides.Derives input (before ++ [atom]) i j trees
  | .split id ⟨label, split, left, right⟩ =>
    ∃ owner before atom after i l j, m.Holds (.cons id label (.of input i) (.of input j)) ∧
      program.Item label owner (before ++ [atom]) after ∧ split = .of input l ∧
        m.Stem program input label before left i l ∧ m.Derivative program input atom right l j
  | .terminal _ position => ∃ i ≤ m.index, position = .of input i
  | .derivation id symbol first last =>
    ∃ i, ∃ j ≤ m.index, first = .of input i ∧ last = .of input j ∧
      (j = m.index → m.Holds (.derivationKey symbol first id)) ∧
        (symbol = program.start ∧ i = 0 ∨ ∃ caller, m.Caller program caller (some symbol) i)
  | .alternative id child =>
    ∃ symbol label before i j, m.Holds (.derivation id symbol (.of input i) (.of input j)) ∧
      program.Item label (some symbol) before [] ∧ m.Stem program input label.next before child i j
  | .frameKey label origin id => m.Holds (.frame id label origin) ∧ origin = m.index
  | .emptyKey id => m.Holds (.empty id (.of input m.index))
  | .consKey label first id => m.Holds (.cons id label first (.of input m.index))
  | .derivationKey symbol first id => m.Holds (.derivation id symbol first (.of input m.index))
  | .result frame symbol =>
    ∃ label owner before atom after i,
      m.Answer program input frame symbol label owner before atom after i m.index
  | .resumed label caller => ∃ stem, m.Holds (.offered (.resume label caller stem))
  | .shifted frame => ∃ result, m.Holds (.staged (.shift frame result))
  | .staged (.resume ..) => False
  | .staged (.shift frame result) =>
    m.scheduler.terminal = some result ∧ ∃ label owner before matcher after,
      m.Answer program input frame result label owner before (.terminal matcher) after m.index
        (m.index + 1)
  | .offered (.resume label caller stem) =>
    m.Holds (.resumed label caller) ∧ ∃ owner before after i,
      m.Resumable program input label caller stem owner before after i
  | .offered (.shift frame result) => m.Holds (.staged (.shift frame result))

/-- What of a moment does not change in a generation. -/
structure Situated : Prop where
  start : m.scheduler.start = program.start
  first : m.scheduler.first = some (.of input 0)
  nextIndex : m.scheduler.nextIndex = m.index + 1
  isFinished : m.scheduler.isFinished = true ↔ input[m.index]? = none
  index_le : m.index ≤ input.length
  current : m.scheduler.current = .of input m.index
  exists_terminal {c : Char} : input[m.index]? = some c → ∃ id, m.scheduler.terminal = some id
  terminal {id : SymbolId} : m.scheduler.terminal = some id →
    m.Holds (.terminal id m.scheduler.current)
  root : ∃ id, m.scheduler.root = some id ∧
    m.Holds (.derivationKey program.start (.of input 0) id)

/-- All is as it should be. -/
structure Sound : Prop where
  situated : m.Situated program input
  proper {fact : Fact} : m.Holds fact → m.Proper program input fact

end Notions

variable {program : Program} {input : List Char} {m before after : Moment}

/-! ## Nothing is taken back -/

section Mono

variable (hholds : ∀ {fact : Fact}, before.Holds fact → after.Holds fact)
  (hcontrol : after.scheduler.control = before.scheduler.control)

theorem current_of_control (hcontrol : after.scheduler.control = before.scheduler.control) :
    after.scheduler.current = before.scheduler.current :=
  congrArg Control.current hcontrol

theorem index_of_control (hcontrol : after.scheduler.control = before.scheduler.control) :
    after.index = before.index :=
  congrArg Position.offset (current_of_control hcontrol)

section Lasting

variable (hlasts : ∀ {fact : Fact}, fact.Lasts → before.Holds fact → after.Holds fact)
include hlasts

theorem Caller.mono {id : StackId} {owner : Option Nonterminal} {i : Nat}
    (h : before.Caller program id owner i) : after.Caller program id owner i := by
  cases h with
  | initial => exact .initial
  | frame hframe hitem => exact .frame (hlasts trivial hframe) hitem

theorem Stem.mono {next : Label} {atoms : List Atom} {id : PrefixId} {i j : Nat}
    (h : before.Stem program input next atoms id i j) :
    after.Stem program input next atoms id i j := by
  cases h with
  | empty hnode => exact .empty (hlasts trivial hnode)
  | cons hnext hitem hnode hderives => exact .cons hnext hitem (hlasts trivial hnode) hderives

theorem Derivative.mono {atom : Atom} {id : SymbolId} {i j : Nat}
    (h : before.Derivative program input atom id i j) :
    after.Derivative program input atom id i j := by
  cases h with
  | terminal hnode hchar haccepts => exact .terminal (hlasts trivial hnode) hchar haccepts
  | nonterminal hnode halternative hderives =>
    exact .nonterminal (hlasts trivial hnode) (hlasts trivial halternative) hderives

theorem Answer.mono {frame : StackId} {result : SymbolId} {label : Label}
    {owner : Option Nonterminal} {earlier : List Atom} {atom : Atom} {later : List Atom} {i j : Nat}
    (h : before.Answer program input frame result label owner earlier atom later i j) :
    after.Answer program input frame result label owner earlier atom later i j :=
  ⟨hlasts trivial h.frame, h.item, h.derivative.mono hlasts⟩

end Lasting

include hholds
include hcontrol

theorem Canonical.mono {label : Label} {atoms : List Atom} {i : Nat} {id : PrefixId}
    (h : before.Canonical input label atoms i id) : after.Canonical input label atoms i id := by
  cases h with
  | empty hkey =>
    rw [← index_of_control hcontrol]
    exact .empty (hholds hkey)
  | cons hkey => exact .cons (hholds hkey)

theorem Resumable.mono {label : Label} {caller : StackId} {stem : PrefixId}
    {owner : Option Nonterminal} {earlier later : List Atom} {i : Nat}
    (h : before.Resumable program input label caller stem owner earlier later i) :
    after.Resumable program input label caller stem owner earlier later i :=
  ⟨h.item, h.caller.mono (fun _ => hholds), h.canonical.mono hholds hcontrol⟩

/-- A fact that is proper stays so when nothing is taken back. -/
theorem Proper.mono {fact : Fact} (h : before.Proper program input fact) :
    after.Proper program input fact := by
  have hindex := index_of_control hcontrol
  -- One case for each kind of fact. All are positive in the facts, and what they say of the current
  -- offset stays since the parse does not move.
  cases fact with
  | frame id label origin =>
    obtain ⟨hle, hkey, hitem⟩ := h
    simp only [Proper, hindex]
    exact ⟨hle, fun heq => hholds (hkey heq), hitem⟩
  | link frame link =>
    obtain ⟨label, owner, earlier, atom, later, i, j, hframe, hitem, hcaller, hstem⟩ := h
    exact ⟨label, owner, earlier, atom, later, i, j, hholds hframe, hitem,
      hcaller.mono (fun _ => hholds), hstem.mono fun _ => hholds⟩
  | empty id position =>
    simp only [Proper, hindex]
    exact h
  | cons id label first last =>
    obtain ⟨owner, earlier, atom, later, i, j, hle, hfirst, hlast, hitem, ⟨caller, hcaller⟩,
      hderives⟩ := h
    simp only [Proper, hindex]
    exact ⟨owner, earlier, atom, later, i, j, hle, hfirst, hlast, hitem,
      ⟨caller, hcaller.mono fun _ => hholds⟩, hderives⟩
  | split id child =>
    obtain ⟨owner, earlier, atom, later, i, l, j, hcons, hitem, hsplit, hstem, hderivative⟩ := h
    exact ⟨owner, earlier, atom, later, i, l, j, hholds hcons, hitem, hsplit,
      hstem.mono (fun _ => hholds), hderivative.mono fun _ => hholds⟩
  | terminal id position =>
    simp only [Proper, hindex]
    exact h
  | derivation id symbol first last =>
    obtain ⟨i, j, hle, hfirst, hlast, hkey, hcaller⟩ := h
    simp only [Proper, hindex]
    refine ⟨i, j, hle, hfirst, hlast, fun hj => hholds (hkey hj), ?_⟩
    exact hcaller.imp_right fun ⟨caller, hcaller⟩ => ⟨caller, hcaller.mono fun _ => hholds⟩
  | alternative id child =>
    obtain ⟨symbol, label, earlier, i, j, hnode, hitem, hstem⟩ := h
    exact ⟨symbol, label, earlier, i, j, hholds hnode, hitem, hstem.mono fun _ => hholds⟩
  | frameKey label origin id =>
    simp only [Proper, hindex]
    exact ⟨hholds h.1, h.2⟩
  | emptyKey id =>
    simp only [Proper, hindex]
    exact hholds h
  | consKey label first id =>
    simp only [Proper, hindex]
    exact hholds h
  | derivationKey symbol first id =>
    simp only [Proper, hindex]
    exact hholds h
  | result frame symbol =>
    obtain ⟨label, owner, earlier, atom, later, i, hanswer⟩ := h
    simp only [Proper, hindex]
    exact ⟨label, owner, earlier, atom, later, i, hanswer.mono fun _ => hholds⟩
  | resumed label caller =>
    obtain ⟨stem, hoffered⟩ := h
    exact ⟨stem, hholds hoffered⟩
  | shifted frame =>
    obtain ⟨result, hstaged⟩ := h
    exact ⟨result, hholds hstaged⟩
  | staged task =>
    cases task with
    | resume label caller stem => exact h
    | shift frame result =>
      obtain ⟨hterminal, label, owner, earlier, matcher, later, hanswer⟩ := h
      simp only [Proper, hindex]
      exact ⟨(congrArg Control.terminal hcontrol).trans hterminal, label, owner, earlier, matcher,
        later, hanswer.mono fun _ => hholds⟩
  | offered task =>
    cases task with
    | resume label caller stem =>
      obtain ⟨hresumed, owner, earlier, later, i, hresumable⟩ := h
      exact ⟨hholds hresumed, owner, earlier, later, i, hresumable.mono hholds hcontrol⟩
    | shift frame result =>
      have hstaged : before.Holds (.staged (.shift frame result)) := h
      exact hholds hstaged

theorem Situated.mono (h : before.Situated program input) : after.Situated program input := by
  have hindex := index_of_control hcontrol
  have hcurrent := current_of_control hcontrol
  have hterminal : after.scheduler.terminal = before.scheduler.terminal :=
    congrArg Control.terminal hcontrol
  constructor
  · exact (congrArg Control.start hcontrol).trans h.start
  · exact (congrArg Control.first hcontrol).trans h.first
  · rw [hindex]
    exact (congrArg Control.nextIndex hcontrol).trans h.nextIndex
  · have hfinished : after.scheduler.isFinished = before.scheduler.isFinished :=
      congrArg Control.isFinished hcontrol
    rw [hindex, hfinished]
    exact h.isFinished
  · rw [hindex]
    exact h.index_le
  · rw [hindex, hcurrent]
    exact h.current
  · intro c
    rw [hindex, hterminal]
    exact h.exists_terminal
  · intro id
    rw [hterminal, hcurrent]
    exact fun hid => hholds (h.terminal hid)
  · obtain ⟨id, hroot, hkey⟩ := h.root
    exact ⟨id, (congrArg Control.root hcontrol).trans hroot, hholds hkey⟩

end Mono

/-- Only the new facts of a change have to be looked at. -/
theorem Sound.of_new {new : Set Fact} (hsound : before.Sound program input)
    (hholds : ∀ fact, after.Holds fact ↔ before.Holds fact ∨ fact ∈ new)
    (hcontrol : after.scheduler.control = before.scheduler.control)
    (hnew : ∀ fact ∈ new, after.Proper program input fact) : after.Sound program input where
  situated := hsound.situated.mono (fun hfact => (hholds _).mpr (.inl hfact)) hcontrol
  proper hfact := by
    rcases (hholds _).mp hfact with hfact | hmem
    · exact (hsound.proper hfact).mono (fun hfact => (hholds _).mpr (.inl hfact)) hcontrol
    · exact hnew _ hmem

/-- What holds of every pass of a loop that starts from a sound moment holds of the loop; and what a
pass brings about for its own item holds of all items in the end. -/
theorem sound_of_forEach {ε : Type → Type 1}
    {single : {γ : Type} → ε γ → Moment → γ → Moment → Prop} {β : Type} {items : List β}
    {body : β → Plan ε Unit} (Done : β → Moment → Prop)
    (hsound : before.Sound program input)
    (hmono : ∀ item a b, a.Grows b ∅ → Done item a → Done item b)
    (hbody : ∀ item ∈ items, ∀ a b, before.Grows a ∅ → a.Sound program input →
      (body item).Leads single a () b → b.Sound program input ∧ a.Grows b ∅ ∧ Done item b)
    (h : (Plan.forEach items body).Leads single before () after) :
    after.Sound program input ∧ before.Grows after ∅ ∧ ∀ item ∈ items, Done item after := by
  -- The passes are sound only if the loop began so; that is why it is carried as an implication.
  obtain ⟨⟨hgrows, hkeep⟩, hdone⟩ := Plan.leads_forEach h
    (fun a b => a.Grows b ∅ ∧ (a.Sound program input → b.Sound program input)) Done
    (fun m => ⟨.refl m ∅, id⟩)
    (fun h h' => ⟨h.1.trans h'.1, fun hsound => h'.2 (h.2 hsound)⟩)
    (fun h hdone => hmono _ _ _ h.1 hdone) (by
      rintro item hitem a b ⟨hgrows, hkeep⟩ hleads
      obtain ⟨hsound', hgrows', hdone⟩ := hbody item hitem a b hgrows (hkeep hsound) hleads
      exact ⟨⟨hgrows', fun _ => hsound'⟩, hdone⟩)
  exact ⟨hkeep hsound, hgrows, hdone⟩

/-! ## Reading off -/

theorem Stem.derives {next : Label} {atoms : List Atom} {id : PrefixId} {i j : Nat}
    (h : m.Stem program input next atoms id i j) :
    ∃ trees, program.rightHandSides.Derives input atoms i j trees := by
  cases h with
  | empty hnode => exact ⟨[], .nil i⟩
  | cons hnext hitem hnode hderives => exact hderives

/-- A prefix over a whole right-hand side stands for derivation trees of its owner. -/
theorem Stem.derivesTree {label next : Label} {symbol : Nonterminal} {atoms : List Atom}
    {id : PrefixId} {i j : Nat} (h : m.Stem program input next atoms id i j)
    (hitem : program.Item label (some symbol) atoms []) :
    ∃ tree, program.rightHandSides.DerivesTree input symbol i j tree := by
  obtain ⟨trees, hderives⟩ := h.derives
  have hmem := hitem.mem_rightHandSides
  rw [List.append_nil] at hmem
  exact ⟨_, Productions.derivesTree_iff.mpr ⟨atoms, hmem, trees, rfl, hderives⟩⟩

theorem Derivative.derives {atom : Atom} {id : SymbolId} {i j : Nat}
    (h : m.Derivative program input atom id i j) :
    ∃ tree, program.rightHandSides.Derives input [atom] i j [tree] := by
  cases h with
  | terminal hnode hchar haccepts => exact ⟨_, Productions.derives_terminal hchar haccepts⟩
  | nonterminal hnode halternative hderives => exact hderives

theorem Stem.first {next : Label} {atoms : List Atom} {id : PrefixId} {i j : Nat}
    {node : PrefixNode} (h : m.Stem program input next atoms id i j)
    (hnode : m.scheduler.forest.prefixNode id = .ok node) : node.first = .of input i := by
  have hlook : m.scheduler.forest.prefixNode? id = some node := Fault.unlessSome_eq_ok_iff.mp hnode
  cases h with
  | empty hempty =>
    rw [Holds, hlook] at hempty
    cases hempty
    rfl
  | cons hnext hitem hcons hderives =>
    obtain ⟨children, hcons⟩ := hcons
    rw [hlook] at hcons
    cases hcons
    rfl

theorem Derivative.first {atom : Atom} {id : SymbolId} {i j : Nat} {node : SymbolNode}
    (h : m.Derivative program input atom id i j)
    (hnode : m.scheduler.forest.symbolNode id = .ok node) : node.first = .of input i := by
  have hlook : m.scheduler.forest.symbolNode? id = some node := Fault.unlessSome_eq_ok_iff.mp hnode
  cases h with
  | terminal hterminal hchar haccepts =>
    rw [Holds, hlook] at hterminal
    cases hterminal
    rfl
  | nonterminal hderivation halternative hderives =>
    obtain ⟨alternatives, hderivation⟩ := hderivation
    rw [hlook] at hderivation
    cases hderivation
    rfl

theorem Sound.empty_of_key (hsound : m.Sound program input) {id : PrefixId}
    (h : m.Holds (.emptyKey id)) : m.Holds (.empty id (.of input m.index)) :=
  hsound.proper h

theorem Sound.cons_of_key (hsound : m.Sound program input) {label : Label} {first : Position}
    {id : PrefixId} (h : m.Holds (.consKey label first id)) :
    m.Holds (.cons id label first (.of input m.index)) :=
  hsound.proper h

theorem Sound.derivation_of_key (hsound : m.Sound program input) {symbol : Nonterminal}
    {first : Position} {id : SymbolId} (h : m.Holds (.derivationKey symbol first id)) :
    m.Holds (.derivation id symbol first (.of input m.index)) :=
  hsound.proper h

/-- The canonical prefix of an item covers what is before its dot, up to the current position. -/
theorem Sound.stem_of_canonical (hlaid : program.Laid) (hsound : m.Sound program input)
    {label : Label} {owner : Option Nonterminal} {before after : List Atom} {i : Nat}
    {id : PrefixId} (hitem : program.Item label owner before after)
    (h : m.Canonical input label before i id) :
    m.Stem program input label.next before id i m.index := by
  cases h with
  | empty hkey => exact .empty (hsound.empty_of_key hkey)
  | cons hkey =>
    have hnode := hsound.cons_of_key hkey
    obtain ⟨owner', before', atom', after', i', j', _, hi, hj, hitem', _, hderives⟩ :=
      hsound.proper hnode
    obtain rfl := Position.of_inj hi
    obtain rfl := Position.of_inj hj
    obtain ⟨_, hatoms, _⟩ := hlaid.item_unique hitem hitem'
    rw [← hatoms] at hderives
    exact .cons rfl hitem hnode hderives

theorem Canonical.unique {label : Label} {atoms : List Atom} {i : Nat} {id id' : PrefixId}
    (h : m.Canonical input label atoms i id) (h' : m.Canonical input label atoms i id') :
    id = id' := by
  generalize heq : atoms = atoms' at h'
  cases h with
  | empty hkey =>
    cases h' with
    | empty hkey' => exact emptyKey_unique hkey hkey'
    | cons => simp at heq
  | cons hkey =>
    cases h' with
    | empty => simp at heq
    | cons hkey' => exact consKey_unique hkey hkey'

/-- For a caller and a label there is one prefix in a generation. -/
theorem Sound.stem_unique (hlaid : program.Laid) (hsound : m.Sound program input) {label : Label}
    {caller : StackId} {stem stem' : PrefixId}
    (h : m.Holds (.offered (.resume label caller stem)))
    (h' : m.Holds (.offered (.resume label caller stem'))) : stem = stem' := by
  obtain ⟨_, owner, before, after, i, hitem, hcaller, hcanonical⟩ := hsound.proper h
  obtain ⟨_, owner', before', after', i', hitem', hcaller', hcanonical'⟩ := hsound.proper h'
  -- The label fixes the item and the caller fixes the offset, so both are canonical for the same.
  obtain ⟨rfl, rfl, rfl⟩ := hlaid.item_unique hitem hitem'
  have hi : i = i' := by
    cases hcaller with
    | initial =>
      cases hcaller'
      rfl
    | frame hframe _ =>
      cases hcaller' with
      | frame hframe' _ => exact (frame_unique hframe hframe').2
  subst hi
  exact hcanonical.unique hcanonical'

end Moment

end Gll
