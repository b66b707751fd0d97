import Gll.Proofs.Work

/-!
What the opening of a generation does.

The memory of the old generation is dropped, and with it all facts about tables, results and tasks.
What lasts is the forest and the graph of stacks. Two nodes are made, that of the current symbol, if
there is one, and the root; and the staged tasks become the pending ones (`Moment.Opens`).

The input is fixed beforehand here: a generation is opened with the symbol that the input has at the
offset, or with its end. So the positions of earlier generations need no second look. That every
sequence of calls is of this form, for the input that it feeds, is said where calls are.
-/

set_option autoImplicit false

namespace Gll

namespace Moment

/-- The effect of opening a generation. -/
structure Opens (before after : Moment) (symbol : Option Char) (root : SymbolId)
    (node : Option SymbolId) : Prop where
  control : after.scheduler.control =
    { start := before.scheduler.start
      first := some (before.scheduler.first.getD (before.scheduler.nextPosition symbol))
      root := some root
      nextIndex := before.scheduler.nextIndex + 1
      isFinished := symbol.isNone
      current := before.scheduler.nextPosition symbol
      terminal := node }
  isSome_node : node.isSome = symbol.isSome
  holds (fact : Fact) : after.Holds fact ↔ (fact.Lasts ∧ before.Holds fact) ∨
    (∃ id, node = some id ∧ fact = .terminal id (before.scheduler.nextPosition symbol)) ∨
      fact ∈ ({.derivation root before.scheduler.start
          (before.scheduler.first.getD (before.scheduler.nextPosition symbol))
          (before.scheduler.nextPosition symbol),
        .derivationKey before.scheduler.start
          (before.scheduler.first.getD (before.scheduler.nextPosition symbol)) root} : Set Fact)
  pending : after.pending = before.scheduler.staged.toList

theorem holds_moveTo {s : Scheduler} (offers : List Task) {position : Position} {isLast : Bool}
    (fact : Fact) : (⟨s.moveTo position isLast, []⟩ : Moment).Holds fact ↔
      fact.Lasts ∧ (⟨s, offers⟩ : Moment).Holds fact := by
  cases fact with
  | frame id label origin => exact ⟨fun h => ⟨trivial, h⟩, fun h => h.2⟩
  | link frame link => exact ⟨fun h => ⟨trivial, h⟩, fun h => h.2⟩
  | empty id position => exact ⟨fun h => ⟨trivial, h⟩, fun h => h.2⟩
  | cons id label first last => exact ⟨fun h => ⟨trivial, h⟩, fun h => h.2⟩
  | split id child => exact ⟨fun h => ⟨trivial, h⟩, fun h => h.2⟩
  | terminal id position => exact ⟨fun h => ⟨trivial, h⟩, fun h => h.2⟩
  | derivation id symbol first last => exact ⟨fun h => ⟨trivial, h⟩, fun h => h.2⟩
  | alternative id child => exact ⟨fun h => ⟨trivial, h⟩, fun h => h.2⟩
  | _ => simp [Holds, Scheduler.moveTo, Memory.empty, Fact.Lasts, Scheduler.results]

theorem holds_readSymbol {s : Scheduler} {offers : List Task} (fact : Fact) :
    (⟨s.readSymbol, offers⟩ : Moment).Holds fact ↔ (⟨s, offers⟩ : Moment).Holds fact ∨
      fact = .terminal (s.forest.addSymbol (.terminal s.current)).1 s.current := by
  cases fact with
  | terminal id position => simp [Holds, Scheduler.readSymbol, Forest.symbolNode?_addSymbol]
  | derivation id symbol first last =>
    simp [Holds, Scheduler.readSymbol, Forest.symbolNode?_addSymbol]
  | alternative id child => simp [Holds, Scheduler.readSymbol, Forest.symbolNode?_addSymbol]
  | _ => simp only [reduceCtorEq, or_false]; rfl

theorem holds_setRoot {s : Scheduler} {offers : List Task} {root : Option SymbolId} (fact : Fact) :
    (⟨{ s with root }, offers⟩ : Moment).Holds fact ↔ (⟨s, offers⟩ : Moment).Holds fact := by
  cases fact <;> rfl

/-- The root is new in a generation that has just been opened. -/
theorem anchorRoot_spec (s : Scheduler) (offers : List Task)
    (hnew : s.memory.derivations[(s.start, s.first.getD s.current)]? = none) :
    ∃ root, s.anchorRoot.control = { s.control with root := some root } ∧
      (⟨s.anchorRoot, offers⟩ : Moment).pending = (⟨s, offers⟩ : Moment).pending ∧
        ∀ fact, (⟨s.anchorRoot, offers⟩ : Moment).Holds fact ↔ (⟨s, offers⟩ : Moment).Holds fact ∨
          fact ∈ ({.derivation root s.start (s.first.getD s.current) s.current,
            .derivationKey s.start (s.first.getD s.current) root} : Set Fact) := by
  obtain ⟨root, made, hmade⟩ : ∃ root made,
      s.derivationFor s.start (s.first.getD s.current) = (root, made) := ⟨_, _, rfl⟩
  have hanchor : s.anchorRoot = { made with root := some root } := by
    rw [Scheduler.anchorRoot, hmade]
  let before : Moment := ⟨s, offers⟩
  let after : Moment := ⟨made, offers⟩
  have hoffers : after.offers = before.offers := rfl
  have hfor : before.scheduler.derivationFor s.start (s.first.getD s.current)
      = (root, after.scheduler) := hmade
  -- The tables are empty, so the root cannot have been found.
  rcases derivationFor_cases hfor hoffers with ⟨_, hkey⟩ | ⟨_, hadds⟩
  · rw [Holds, hnew] at hkey
    cases hkey
  · refine ⟨root, ?_, ?_, fun fact => ?_⟩
    · rw [hanchor]
      exact congrArg (fun control => { control with root := some root }) hadds.control
    · rw [hanchor]
      exact hadds.pending
    · rw [hanchor, holds_setRoot]
      exact hadds.holds fact

theorem opens_advance (before : Moment) (symbol : Option Char) :
    ∃ root node, before.Opens ⟨before.scheduler.advance symbol, []⟩ symbol root node := by
  obtain ⟨s, offers⟩ := before
  -- A symbol is read, which makes a node for it, before the root is made; at the end of the input
  -- there is none to read.
  cases symbol with
  | none =>
    obtain ⟨root, hcontrol, hpending, hholds⟩ :=
      anchorRoot_spec (s.moveTo (s.nextPosition none) true) []
        (by simp [Scheduler.moveTo, Memory.empty])
    refine ⟨root, none, hcontrol, rfl, fun fact => ?_, hpending.trans ?_⟩
    · refine (hholds fact).trans ?_
      rw [holds_moveTo offers]
      simp [Scheduler.moveTo]
    · simp [pending, Scheduler.moveTo]
  | some c =>
    obtain ⟨root, hcontrol, hpending, hholds⟩ := anchorRoot_spec
      (s.moveTo (s.nextPosition (some c)) false).readSymbol []
      (by simp [Scheduler.readSymbol, Scheduler.moveTo, Memory.empty])
    refine ⟨root, some _, hcontrol, rfl, fun fact => ?_, hpending.trans ?_⟩
    · refine (hholds fact).trans ?_
      rw [holds_readSymbol, holds_moveTo offers, or_assoc]
      simp [Scheduler.readSymbol, Scheduler.moveTo, Forest.addSymbol]
    · simp [pending, Scheduler.readSymbol, Scheduler.moveTo]

/-! ## What is proper in the new generation -/

variable {program : Program} {input : List Char} {before after : Moment} {symbol : Option Char}
  {root : SymbolId} {node : Option SymbolId}

theorem Opens.lasts (h : before.Opens after symbol root node) {fact : Fact} (hlasts : fact.Lasts)
    (hfact : before.Holds fact) : after.Holds fact :=
  (h.holds fact).mpr (.inl ⟨hlasts, hfact⟩)

/-- A frame, a link or a result is not new in a generation that has just been opened. -/
theorem Opens.onStacks (h : before.Opens after symbol root node) {fact : Fact}
    (hfact : after.Holds fact) (hstacks : fact.OnStacks) : fact.Lasts ∧ before.Holds fact := by
  rcases (h.holds fact).mp hfact with hold | ⟨id, _, rfl⟩ | rfl | rfl
  · exact hold
  · cases hstacks
  · cases hstacks
  · cases hstacks

theorem nextPosition_eq_of {s : Scheduler} (hsymbol : symbol = input[s.nextIndex]?) :
    s.nextPosition symbol = .of input s.nextIndex := by
  rw [hsymbol, Position.of]
  cases input[s.nextIndex]? <;> rfl

theorem Opens.index_eq (h : before.Opens after symbol root node) :
    after.index = before.scheduler.nextIndex := by
  have hcurrent := congrArg Control.current h.control
  have hoffset := congrArg Position.offset hcurrent
  refine hoffset.trans ?_
  cases symbol <;> rfl

/-- If what lasts is proper, a generation that has just been opened is as it should be. -/
theorem Opens.steady (h : before.Opens after symbol root node)
    (hstart : before.scheduler.start = program.start)
    (hfirst : before.scheduler.first.getD (before.scheduler.nextPosition symbol) = .of input 0)
    (hsymbol : symbol = input[before.scheduler.nextIndex]?)
    (hle : before.scheduler.nextIndex ≤ input.length)
    (hframes : ∀ {id label origin}, before.Holds (.frame id label origin) →
      origin < before.scheduler.nextIndex)
    (hproper : ∀ {fact : Fact}, fact.Lasts → before.Holds fact → after.Proper program input fact) :
    after.Steady program input := by
  have hindex := h.index_eq
  have hcontrol := h.control
  have hholds := h.holds
  rw [nextPosition_eq_of hsymbol, ← hindex] at hfirst
  simp only [nextPosition_eq_of hsymbol, ← hindex, hfirst, hstart] at hcontrol hholds
  have hcurrent : after.scheduler.current = .of input after.index :=
    congrArg Control.current hcontrol
  have hroot : after.Holds (.derivationKey program.start (.of input 0) root) :=
    (hholds _).mpr (.inr (.inr (.inr rfl)))
  have hderivation :
      after.Holds (.derivation root program.start (.of input 0) (.of input after.index)) :=
    (hholds _).mpr (.inr (.inr (.inl rfl)))
  -- Results and frames of this generation there are none yet, so nothing is left to be served or
  -- opened.
  refine ⟨⟨?_, fun {fact} hfact => ?_⟩, ?_, ?_⟩
  · constructor
    · exact congrArg Control.start hcontrol
    · exact congrArg Control.first hcontrol
    · exact congrArg Control.nextIndex hcontrol
    · have hfinished : after.scheduler.isFinished = symbol.isNone :=
        congrArg Control.isFinished hcontrol
      rw [hfinished, hsymbol, hindex, Option.isNone_iff_eq_none]
    · rw [hindex]
      exact hle
    · exact hcurrent
    · intro c hc
      have hterminal : after.scheduler.terminal = node := congrArg Control.terminal hcontrol
      have hsome := h.isSome_node
      rw [hsymbol, ← hindex, hc] at hsome
      rw [hterminal]
      exact Option.isSome_iff_exists.mp hsome
    · intro id hid
      have hterminal : after.scheduler.terminal = node := congrArg Control.terminal hcontrol
      rw [hterminal] at hid
      rw [hcurrent]
      exact (hholds _).mpr (.inr (.inl ⟨id, hid, rfl⟩))
    · exact ⟨root, congrArg Control.root hcontrol, hroot⟩
  · rcases (hholds fact).mp hfact with ⟨hlasts, hold⟩ | ⟨id, _, rfl⟩ | rfl | rfl
    · exact hproper hlasts hold
    · exact ⟨after.index, Nat.le_refl _, rfl⟩
    · exact ⟨0, after.index, Nat.le_refl _, rfl, rfl, fun _ => hroot, .inl ⟨rfl, rfl⟩⟩
    · exact hderivation
  · intro frame label origin link result _ _ hresult
    exact absurd (h.onStacks hresult trivial).1 id
  · intro frame label owner earlier later callee hframe _
    have hlt := hframes (h.onStacks hframe trivial).2
    rw [hindex] at hlt
    exact absurd hlt (Nat.lt_irrefl _)

/-- What lasts is proper in the next generation, if it was. -/
theorem Opens.proper (h : before.Opens after symbol root node) (hsound : before.Sound program input)
    {fact : Fact} (hlasts : fact.Lasts) (hfact : before.Holds fact) :
    after.Proper program input fact := by
  have hindex : after.index = before.index + 1 := h.index_eq.trans hsound.situated.nextIndex
  have hproper := hsound.proper hfact
  -- What the current offset bounds is bounded by the next one; the generation's own does not last.
  cases fact with
  | frame id label origin =>
    obtain ⟨hle, _, hitem⟩ := hproper
    exact ⟨by omega, fun heq => by omega, hitem⟩
  | link frame link =>
    obtain ⟨label, owner, earlier, atom, later, i, j, hframe, hitem, hcaller, hstem⟩ := hproper
    exact ⟨label, owner, earlier, atom, later, i, j, h.lasts trivial hframe, hitem,
      hcaller.mono h.lasts, hstem.mono h.lasts⟩
  | empty id position =>
    obtain ⟨i, hle, hposition⟩ := hproper
    exact ⟨i, by omega, hposition⟩
  | cons id label first last =>
    obtain ⟨owner, earlier, atom, later, i, j, hle, hfirst, hlast, hitem, ⟨caller, hcaller⟩,
      hderives⟩ := hproper
    exact ⟨owner, earlier, atom, later, i, j, by omega, hfirst, hlast, hitem,
      ⟨caller, hcaller.mono h.lasts⟩, hderives⟩
  | split id child =>
    obtain ⟨owner, earlier, atom, later, i, l, j, hcons, hitem, hsplit, hstem, hderivative⟩ :=
      hproper
    exact ⟨owner, earlier, atom, later, i, l, j, h.lasts trivial hcons, hitem, hsplit,
      hstem.mono h.lasts, hderivative.mono h.lasts⟩
  | terminal id position =>
    obtain ⟨i, hle, hposition⟩ := hproper
    exact ⟨i, by omega, hposition⟩
  | derivation id symbol first last =>
    obtain ⟨i, j, hle, hfirst, hlast, _, hcaller⟩ := hproper
    exact ⟨i, j, by omega, hfirst, hlast, fun heq => by omega,
      hcaller.imp_right fun ⟨caller, hcaller⟩ => ⟨caller, hcaller.mono h.lasts⟩⟩
  | alternative id child =>
    obtain ⟨symbol, label, earlier, i, j, hnode, hitem, hstem⟩ := hproper
    exact ⟨symbol, label, earlier, i, j, h.lasts trivial hnode, hitem, hstem.mono h.lasts⟩
  | _ => exact absurd hlasts id

/-- Before anything was read there is nothing but the initial stack. -/
theorem not_holds_initial {start : Nonterminal} {offers : List Task} {fact : Fact}
    (hlasts : fact.Lasts) : ¬ (⟨.initial start, offers⟩ : Moment).Holds fact := by
  intro h
  cases fact with
  | frame id label origin =>
    obtain ⟨links, hstack⟩ := h
    obtain ⟨-, hframe⟩ := StackGraph.stack?_empty.mp hstack
    cases hframe
  | link id link =>
    obtain ⟨label, origin, links, hstack, -⟩ := h
    obtain ⟨-, hframe⟩ := StackGraph.stack?_empty.mp hstack
    cases hframe
  | empty id position => simp [Holds, Scheduler.initial] at h
  | cons id label first last => simp [Holds, Scheduler.initial] at h
  | split id child => simp [Holds, Scheduler.initial] at h
  | terminal id position => simp [Holds, Scheduler.initial] at h
  | derivation id symbol first last => simp [Holds, Scheduler.initial] at h
  | alternative id child => simp [Holds, Scheduler.initial] at h
  | _ => exact hlasts

end Moment

end Gll
