import Gll.Proofs.Checked
import Gll.Proofs.Outlines
import Gll.Proofs.Showing
import Gll.Proofs.Size
import Gll.Stack.Dot

/-!
A parse of a compiled grammar meets no fault, and what it made can be shown unless that is too much.

Every handle that is used in a parse is one that was handed out, every label that is run or returned
to is one of the program, and everything is of the kind as which it is taken. That is said of any
session of a compiled grammar that a user can come to, whatever was fed to it, however little fuel
there was and however the calls ended, if only its tracers show the events of the program. From
there on every call, carried out with all the checks, is the plain one and halts with nothing but an
error that is meant for the user; and what the session has made can be shown, every derivation of
the forest as an outline and the stacks as a graph (`Program.compile_faultless`).

Most numbers do not wrap around here, so it is also said how large they get. A label is at most the
number of slots, and no offset is larger than the number of derivations (`Scheduler.Numbered`). The
exception are the references that are counted for an outline, in words of 32 bits. They can be far
more than there are nodes, and just when there are too many of one node for its word, there is no
outline but a fault. If they fit, they are no more than the outline has lines.
-/

set_option autoImplicit false

namespace Gll

variable {program : Program}

/-! ## The numbers of a parse -/

namespace Scheduler

/-- For every position that was opened there is a derivation, and no span reaches further than the
positions do. -/
structure Numbered (s : Scheduler) : Prop where
  opened : s.nextIndex ≤ s.forest.symbols.size
  current : s.current.offset ≤ s.nextIndex
  span : ∀ node ∈ s.forest.symbols, node.span.stop ≤ s.nextIndex

namespace Numbered

variable {s : Scheduler}

theorem addDerivation (h : s.Numbered) (symbol : Nonterminal) (first : Position) : Numbered
    { s with forest := (s.forest.addSymbol (.nonterminal symbol first s.current #[])).2 } := by
  refine ⟨?_, h.current, forall_mem_push h.span h.current⟩
  have hopened := h.opened
  simp only [Forest.addSymbol, Array.size_push]
  omega

theorem packAlternative (h : s.Numbered) (id : SymbolId) (child : PrefixId) :
    (s.packAlternative id child).Numbered := by
  refine ⟨?_, h.current, ?_⟩
  · simp only [Scheduler.packAlternative, Forest.packAlternative, Array.size_modify]
    exact h.opened
  · simp only [Scheduler.packAlternative, Forest.packAlternative]
    refine forall_mem_modify h.span fun node hnode => ?_
    cases node <;> exact hnode

theorem of_same {s' : Scheduler} (h : s.Numbered) (hforest : s'.forest = s.forest)
    (hcontrol : s'.control = s.control) : s'.Numbered := by
  have hnext : s'.nextIndex = s.nextIndex := congrArg Control.nextIndex hcontrol
  have hcurrent : s'.current = s.current := congrArg Control.current hcontrol
  refine ⟨?_, ?_, ?_⟩
  · rw [hforest, hnext]
    exact h.opened
  · rw [hcurrent, hnext]
    exact h.current
  · rw [hforest, hnext]
    exact h.span

theorem kept : Kept Numbered :=
  .of_forest of_same (fun _ h => ⟨h.opened, h.current, h.span⟩)
    (fun symbol first h => h.addDerivation symbol first)
    (fun _ _ h => ⟨h.opened, h.current, h.span⟩) fun id child h => h.packAlternative id child

/-- A generation that has just been opened knows no derivation, so its root is a new one. -/
theorem anchorRoot (hnew : s.memory.derivations = ∅)
    (hopened : s.nextIndex ≤ s.forest.symbols.size + 1) (hcurrent : s.current.offset ≤ s.nextIndex)
    (hspan : ∀ node ∈ s.forest.symbols, node.span.stop ≤ s.nextIndex) : s.anchorRoot.Numbered := by
  have hnone : s.memory.derivations[(s.start, s.first.getD s.current)]? = none := by
    rw [hnew]
    exact Std.HashMap.getElem?_empty
  have hroot : s.anchorRoot.forest = (s.forest.addSymbol
      (.nonterminal s.start (s.first.getD s.current) s.current #[])).2 := by
    simp only [Scheduler.anchorRoot, Scheduler.derivationFor, hnone]
  have hcontrol : s.anchorRoot.nextIndex = s.nextIndex ∧ s.anchorRoot.current = s.current := by
    simp only [Scheduler.anchorRoot, Scheduler.derivationFor, hnone, and_self]
  refine ⟨?_, ?_, ?_⟩
  · rw [hroot, hcontrol.1, Forest.addSymbol, Array.size_push]
    exact hopened
  · rw [hcontrol.1, hcontrol.2]
    exact hcurrent
  · rw [hroot, hcontrol.1]
    exact forall_mem_push hspan hcurrent

theorem advance (h : s.Numbered) (symbol : Option Char) : (s.advance symbol).Numbered := by
  have hspan : ∀ node ∈ s.forest.symbols, node.span.stop ≤ s.nextIndex + 1 :=
    fun node hnode => Nat.le_succ_of_le (h.span node hnode)
  cases symbol with
  | none => exact anchorRoot rfl (Nat.succ_le_succ h.opened) (Nat.le_succ _) hspan
  | some char =>
    have hopened : s.nextIndex + 1 ≤ (s.forest.symbols.push (.terminal
        (.symbol char s.nextIndex))).size + 1 := by
      rw [Array.size_push]
      exact Nat.le_succ_of_le (Nat.succ_le_succ h.opened)
    exact anchorRoot rfl hopened (Nat.le_succ _) (forall_mem_push hspan (Nat.le_refl _))

theorem law (start : Nonterminal) : Law start Numbered where
  toKept := kept
  initial := ⟨Nat.le_refl 0, Nat.le_refl 0, by simp [Scheduler.initial, Forest.empty]⟩
  advance symbol _ h := h.advance symbol
  dequeue {s rest} task hdequeue h := by
    obtain ⟨_, -, rfl⟩ := Scheduler.exists_of_dequeue? hdequeue
    exact ⟨h.opened, h.current, h.span⟩

end Numbered

end Scheduler

/-! ## What a parse has made -/

namespace Moment

variable {input : List Char} {m : Moment}

/-- Stems are there, and have a rank below that of what they go on with. -/
theorem Stem.exists_node {next : Label} {atoms : List Atom} {id : PrefixId} {i j : Nat}
    (h : m.Stem program input next atoms id i j) :
    ∃ node, m.scheduler.forest.prefixNode? id = some node ∧ node.rank ≤ next.index := by
  cases h with
  | empty hnode => exact ⟨_, hnode, Nat.zero_le _⟩
  | cons hnext _ hnode _ =>
    obtain ⟨children, hnode⟩ := hnode
    subst hnext
    exact ⟨_, hnode, Nat.le_refl _⟩

/-- The forest of a parse can be gone through. -/
theorem Sound.navigable (hwhole : program.Whole) (hsound : m.Sound program input) :
    m.scheduler.forest.Navigable program := by
  -- What a split refers to is there, and the prefix on its left is shorter.
  have hsplit {id : PrefixId} {node : PrefixNode} {child : Split}
      (hnode : m.scheduler.forest.prefixNode? id = some node) (hchild : child ∈ node.children) :
      (∃ left, m.scheduler.forest.prefixNode? child.left = some left ∧ left.rank < node.rank) ∧
        m.scheduler.HasSymbol child.right := by
    cases node with
    | empty position => exact absurd hchild (Array.not_mem_empty child)
    | cons label first last children =>
      have hfact : m.Holds (.split id child) := ⟨label, first, last, children, hnode, hchild⟩
      obtain ⟨_, _, _, _, _, _, _, hcons, -, -, hstem, hderivative⟩ := hsound.proper hfact
      obtain ⟨rfl, -, -⟩ := cons_unique ⟨children, hnode⟩ hcons
      obtain ⟨left, hleft, hrank⟩ := hstem.exists_node
      exact ⟨⟨left, hleft, Nat.lt_succ_of_le hrank⟩, hderivative.hasSymbol⟩
  refine ⟨fun hnode hchild => (hsplit hnode hchild).1, fun hnode hchild => (hsplit hnode hchild).2,
    fun {id node child} hnode hchild => ?_, fun {id node label} hnode hlabel => ?_,
    fun {id node symbol} hnode hsymbol => ?_⟩
  · cases node with
    | terminal position => exact absurd hchild (Array.not_mem_empty child)
    | nonterminal symbol first last alternatives =>
      have hfact : m.Holds (.alternative id child) :=
        ⟨symbol, first, last, alternatives, hnode, hchild⟩
      obtain ⟨_, _, _, _, _, -, -, hstem⟩ := hsound.proper hfact
      obtain ⟨below, hbelow, -⟩ := hstem.exists_node
      exact ⟨below, hbelow⟩
  · cases node with
    | empty position => cases hlabel
    | cons label' first last children =>
      obtain rfl := Option.some.inj hlabel
      have hfact : m.Holds (.cons id label' first last) := ⟨children, hnode⟩
      obtain ⟨_, _, _, _, _, _, -, -, -, hitem, -⟩ := hsound.proper hfact
      exact hitem.index_lt hwhole.laid
  · cases node with
    | terminal position => cases hsymbol
    | nonterminal symbol' first last alternatives =>
      obtain rfl := Option.some.inj hsymbol
      have hfact : m.Holds (.derivation id symbol' first last) := ⟨alternatives, hnode⟩
      -- A derivation is that of the start, or it was called.
      obtain ⟨_, _, -, -, -, -, ⟨rfl, -⟩ | ⟨caller, hcaller⟩⟩ := hsound.proper hfact
      · exact hwhole.start_lt
      · exact hcaller.callee_lt hwhole

end Moment

namespace Session

section Attended

variable {σ : Type} {tracer : Tracer σ} {limit : Nat} {session : Session σ Unit}

/-- A session in which nothing was read yet is as it was, and any other makes sense. -/
theorem Reaches.initial_or_sound (hlaid : program.Laid) {trace : σ} {fed : List Char}
    {offers : List Task} (h : Reaches program.interpreter tracer
      (.initial program.interpreter trace () limit) fed session offers) :
    session.scheduler = .initial program.start ∨
      Moment.Sound program fed ⟨session.scheduler, offers⟩ := by
  rcases h.timeline hlaid (List.prefix_refl fed) fun _ => rfl with ⟨hinitial, -⟩ | htimeline
  · exact .inl hinitial
  · obtain ⟨_, hunderway⟩ := htimeline.underway
    exact .inr hunderway.steady.sound

/-- The forest of a session can be gone through. -/
theorem Reaches.navigable (hwhole : program.Whole) {trace : σ} {fed : List Char}
    {offers : List Task} (h : Reaches program.interpreter tracer
      (.initial program.interpreter trace () limit) fed session offers) :
    session.scheduler.forest.Navigable program := by
  rcases h.initial_or_sound hwhole.laid with hinitial | hsound
  · have hprefix {id : PrefixId} {node : PrefixNode} :
        session.scheduler.forest.prefixNode? id ≠ some node := by
      simp [hinitial, Scheduler.initial]
    have hsymbol {id : SymbolId} {node : SymbolNode} :
        session.scheduler.forest.symbolNode? id ≠ some node := by
      simp [hinitial, Scheduler.initial]
    exact ⟨fun hnode _ => absurd hnode hprefix, fun hnode _ => absurd hnode hprefix,
      fun hnode _ => absurd hnode hsymbol, fun hnode _ => absurd hnode hprefix,
      fun hnode _ => absurd hnode hsymbol⟩
  · exact hsound.navigable hwhole

theorem Attended.navigable (hwhole : program.Whole) (h : Attended program limit session) :
    session.scheduler.forest.Navigable program := by
  obtain ⟨fed, offers, hreaches⟩ := h.reaches
  have hunseen : session.unseen.scheduler.forest.Navigable program := hreaches.navigable hwhole
  exact hunseen

theorem Attended.hasPrefix (hlaid : program.Laid) (h : Attended program limit session)
    {frame : StackId} {link : Link} (hlink : session.scheduler.Knows (.link frame link)) :
    session.scheduler.HasPrefix link.stem := by
  obtain ⟨fed, offers, hreaches⟩ := h.reaches
  rcases hreaches.initial_or_sound hlaid with hinitial | hsound
  · have hinitial : session.scheduler = .initial program.start := hinitial
    rw [hinitial] at hlink
    exact absurd hlink (Scheduler.knows_initial trivial)
  · exact hsound.closed.stems hlink

/-! ## The stacks as a graph -/

section Dot

variable {spans : Option Forest} {id : StackId} {stack : Stack} {link : Link}
  (hwhole : program.Whole) (h : Attended program limit session)
  (hspans : ∀ forest ∈ spans, forest = session.scheduler.forest)
  (hstack : session.scheduler.graph.stack? id = some stack)
include hwhole h

include hspans hstack in
theorem Attended.exists_dotEdge (hlink : link ∈ stack.links) :
    ∃ line, StackGraph.dotEdge spans id link = .ok line := by
  cases spans with
  | none => exact ⟨_, rfl⟩
  | some forest =>
    obtain rfl := hspans forest rfl
    cases stack with
    | initial => exact absurd hlink (Array.not_mem_empty link)
    | frame label origin links =>
      have hknown : session.scheduler.Knows (.link id link) := ⟨label, origin, links, hstack, hlink⟩
      obtain ⟨node, hnode⟩ := h.hasPrefix hwhole.laid hknown
      have hread : session.scheduler.forest.prefixNode link.stem = .ok node :=
        Fault.unlessSome_eq_ok_iff.mpr hnode
      exact exists_bind_ok hread ⟨_, rfl⟩

include hstack in
theorem Attended.exists_dotLabel : ∃ text, StackGraph.dotLabel program stack = .ok text := by
  cases stack with
  | initial => exact ⟨_, rfl⟩
  | frame label origin links =>
    have hlabel := h.within.label_lt (Fault.unlessSome_eq_ok_iff.mpr hstack)
    obtain ⟨text, htext⟩ := hwhole.exists_item? hlabel
    have htext : program.item label = .ok text := Fault.unlessSome_eq_ok_iff.mpr htext
    exact exists_bind_ok htext ⟨_, rfl⟩

include hspans hstack in
theorem Attended.exists_dotStack :
    ∃ lines, StackGraph.dotStack program spans id stack = .ok lines := by
  obtain ⟨text, htext⟩ := h.exists_dotLabel hwhole hstack
  have hedges : ∀ link ∈ stack.links.toList, ∃ line,
      StackGraph.dotEdge spans id link = pure line := fun link hlink =>
    h.exists_dotEdge hwhole hspans hstack (Array.mem_toList_iff.mp hlink)
  obtain ⟨edges, hedges⟩ := exists_mapM_eq_pure hedges
  exact exists_bind_ok htext (exists_bind_ok hedges ⟨_, rfl⟩)

include hspans in
/-- The stacks can be shown as a graph, with the spans of the prefixes or without. -/
theorem Attended.exists_dot :
    ∃ lines, session.scheduler.graph.dot program spans = .ok lines := by
  have hgroups : ∀ numbered ∈ session.scheduler.graph.members.toList.zipIdx, ∃ lines,
      StackGraph.dotStack program spans ⟨numbered.2⟩ numbered.1 = pure lines := by
    rintro ⟨stack, index⟩ hmem
    have hget := List.mem_zipIdx_iff_getElem?.mp hmem
    rw [Array.getElem?_toList] at hget
    have hstack : session.scheduler.graph.stack? ⟨index⟩ = some stack := hget
    exact h.exists_dotStack hwhole hspans hstack
  obtain ⟨groups, hgroups⟩ := exists_mapM_eq_pure hgroups
  exact exists_bind_ok hgroups ⟨_, rfl⟩

end Dot

/-! ## No fault -/

/-- A session in which no call meets a fault, and of which everything can be shown but for what has
too many references. -/
structure Faultless (program : Program) (session : Session σ Unit) : Prop where
  /-- No check of a call fails. -/
  checked (command : Command) (tracer : Tracer σ) :
    command.callChecked program.interpreter tracer session
      = command.call program.interpreter tracer session
  /-- A call that does not come to its end tells the user why. -/
  halts (command : Command) {tracer : Tracer σ} {halt : Halt} {next : Session σ Unit} :
    tracer.Shows program → command.call program.interpreter tracer session = .error halt next →
      ∃ error, halt = .error error
  /-- That the input was accepted is told of a root that is there. -/
  accepted : isAcceptedChecked session = .ok session.isAccepted session
  /-- The labels of tasks and of frames are those of the program. -/
  tasks : ∀ task ∈ session.scheduler.pending.toList, task.IsOf program
  within : session.scheduler.Within program
  numbered : session.scheduler.Numbered
  /-- If all counts fit, what is below a node can be written as an outline. No symbol is counted
  more often, for that, than the outline has lines. -/
  outline {id : SymbolId} {node : SymbolNode} :
    session.scheduler.forest.symbolNode? id = some node → session.scheduler.forest.CountsFit id →
      ∃ counts lines, session.scheduler.forest.referenceCounts id = .ok counts ∧
        session.scheduler.forest.outline program id = .ok lines ∧
          ∀ symbol, (counts.getD symbol 0).toNat ≤ lines.length
  /-- Else a count overflows, and nothing worse happens. -/
  overflow {id : SymbolId} {node : SymbolNode} :
    session.scheduler.forest.symbolNode? id = some node → ¬ session.scheduler.forest.CountsFit id →
      session.scheduler.forest.outline program id = .error .overflow
  /-- The stacks can be shown as a graph, with the spans of the prefixes or without. -/
  dot (spans : Option Forest) : (∀ forest ∈ spans, forest = session.scheduler.forest) →
    ∃ lines, session.scheduler.graph.dot program spans = .ok lines

end Attended

end Session

/-- Whatever is shown of a program is there. -/
structure Program.Legible (program : Program) : Prop where
  listing : ∃ lines, program.listing? = some lines
  /-- The dot of a label is no further than there are slots before it, and the alternative in which
  it lies can be read off slot by slot. -/
  scan {label : Label} : label.index < program.slotCount →
    ∃ slot symbols, program.slot? label = some slot ∧ slot.dot ≤ label.index ∧
      program.symbols? label = some symbols ∧ program.scan label = .ok symbols
  item {label : Label} : label.index < program.slotCount →
    ∃ text, program.item? label = some text
  rightHandSide {label : Label} : label.index < program.slotCount →
    ∃ text, program.rightHandSide? label = some text
  transcript (verbosity : Verbosity) : (Transcript.tracer program verbosity).Shows program

theorem Program.Whole.legible (h : program.Whole) : program.Legible where
  listing := h.exists_listing?
  scan := h.scan_eq
  item := h.exists_item?
  rightHandSide := h.exists_rightHandSide?
  transcript := h.shows_transcript

theorem Session.Attended.faultless {σ : Type} {limit : Nat} {session : Session σ Unit}
    (hwhole : program.Whole) (h : Attended program limit session)
    (hcheckable : session.Checkable) (hnumbered : session.scheduler.Numbered) :
    session.Faultless program where
  checked command tracer := callChecked_eq hcheckable command
  halts command tracer halt next hshows hrun := by
    have hstays := (closed_attended hwhole hshows limit).stays_call h command
    rw [Stays, hrun] at hstays
    exact hstays.2
  accepted := isAcceptedChecked_eq hcheckable
  tasks task hmem := h.task_isOf hwhole.laid hmem
  within := h.within
  numbered := hnumbered
  outline hnode hfits := (h.navigable hwhole).exists_outline hwhole hnode hfits
  overflow hnode hmany := (h.navigable hwhole).outline_eq_overflow hnode hmany
  dot spans hspans := h.exists_dot hwhole hspans

/-- No call on a session of a compiled grammar meets a fault, whatever was called before, and all
that there is of the program and of the session can be shown, but for outlines in which a count of
references overflows. -/
theorem Program.compile_faultless {grammar : Grammar}
    (hcompile : Program.compile grammar = .ok program) {σ : Type}
    (commands : List (Session.Command × Tracer σ))
    (hshows : ∀ command ∈ commands, command.2.Shows program) (trace : σ) (limit : Nat) :
    program.Legible ∧ (Session.after program.interpreter commands
      (.initial program.interpreter trace () limit)).Faultless program := by
  have hwhole := whole_of_compile hcompile
  have hattended : Session.Attended program limit (Session.after program.interpreter commands
      (.initial program.interpreter trace () limit)) :=
    Session.Closed.after (fun command hmem =>
      Session.closed_attended hwhole (hshows command hmem) limit) (.initial program trace limit)
  have hnumbered : (Session.after program.interpreter commands
      (.initial program.interpreter trace () limit)).scheduler.Numbered :=
    Session.Closed.after (fun command _ =>
      Session.Closed.of_law (Scheduler.Numbered.law program.start) command.2)
      (Scheduler.Numbered.law program.start).initial
  exact ⟨hwhole.legible,
    hattended.faultless hwhole (Session.checkable_after _ commands trace () limit) hnumbered⟩

/-- After the letter was parsed, the grammar and the session are still without faults. -/
theorem Program.compile_faultless_letter : ∃ program session,
    Program.compile Session.letter = .ok program ∧
      program.parse .silent () 4 "a" = .ok true session ∧
        program.Legible ∧ session.Faultless program := by
  obtain ⟨program, session, hcompile, hparse⟩ := Session.parse_letter
  have hcall : Session.Command.call program.interpreter .silent (.parse "a")
      (.initial program.interpreter () () 4) = .ok () session :=
    Session.bind_ok hparse rfl
  have hafter : Session.after program.interpreter [(.parse "a", .silent)]
      (.initial program.interpreter () () 4) = session := leaves_of_ok hcall
  have hshows : ∀ command ∈ [((.parse "a", .silent) : Session.Command × Tracer Unit)],
      command.2.Shows program := by
    intro command hcommand
    rw [List.mem_singleton.mp hcommand]
    exact Tracer.isTotal_silent.shows program
  have hfaultless := Program.compile_faultless hcompile _ hshows () 4
  rw [hafter] at hfaultless
  exact ⟨program, session, hcompile, hparse, hfaultless⟩

end Gll
