import Gll.Proofs.Calls
import Gll.Proofs.Compilation
import Gll.Proofs.Completeness

/-!
What a parse of a compiled grammar gives.

The calls on a session lead through states with a timeline (`Reaches.timeline`), and in the last
stage of a timeline everything is proper, and everything is done if nothing is pending. The three
theorems on parses are read off there:

* tasks may be told apart by their keys (`compile_tasks`),
* the trees of a node are the derivation trees of its nonterminal (`compile_forest`),
* a text is accepted if and only if the start nonterminal derives it (`compile_recognition`).

With `compile_language` the last one says what the grammar means by its start rule.
-/

set_option autoImplicit false

namespace Gll

namespace Session

variable {σ : Type} {program : Program} {tracer : Tracer σ} {trace : σ} {limit : Nat}
  {session : Session σ Unit} {fed : List Char} {offers : List Task}

/-- A state in which a generation is open has a timeline for what was fed. -/
theorem Reaches.timeline_fed (hlaid : program.Laid)
    (h : Reaches program.interpreter tracer (.initial program.interpreter trace () limit) fed
      session offers) (hopen : 0 < session.scheduler.nextIndex) :
    Moment.Timeline program fed ⟨session.scheduler, offers⟩ := by
  refine (h.timeline hlaid (List.prefix_refl fed) fun _ => rfl).resolve_left ?_
  rintro ⟨hinitial, -⟩
  rw [hinitial] at hopen
  exact absurd hopen (Nat.lt_irrefl 0)

end Session

namespace Program

/-! ## Tasks -/

/-- The tasks of a generation are told apart by their keys, and that is right. Two tasks that were
offered with one key are the same task, whether the first or the second one was taken. -/
structure TasksByKey (fed : List Char) (s : Scheduler) (offers : List Task) : Prop where
  resumed_iff {label : Label} {caller : StackId} : (label, caller) ∈ s.memory.resumed ↔
    ∃ stem, .resume label caller stem ∈ offers
  stem_unique {label : Label} {caller : StackId} {stem stem' : PrefixId} :
    .resume label caller stem ∈ offers → .resume label caller stem' ∈ offers → stem = stem'
  offered {label : Label} {caller : StackId} {stem : PrefixId} :
    .resume label caller stem ∈ s.pending.toList → .resume label caller stem ∈ offers
  staged {frame : StackId} {result : SymbolId} :
    .shift frame result ∈ offers → .shift frame result ∈ s.staged
  staged_unique {frame : StackId} {result result' : SymbolId} :
    .shift frame result ∈ s.staged → .shift frame result' ∈ s.staged → result = result'
  /-- The terminal of a staged or pending task is that of the symbol at which the frame was made. -/
  terminal {frame : StackId} {result : SymbolId} :
    .shift frame result ∈ s.staged ∨ .shift frame result ∈ s.pending.toList →
      ∃ label origin links c, s.graph.stack? frame = some (.frame label origin links) ∧
        fed[origin]? = some c ∧
          s.forest.symbolNode? result = some (.terminal (.symbol c origin))

/-- The result of a shift is the terminal at the origin of its frame. -/
theorem terminal_of_answer {program : Program} {fed : List Char} {m : Moment} {frame : StackId}
    {result : SymbolId} {label : Label} {owner : Option Nonterminal} {before after : List Atom}
    {matcher : Matcher} {i j : Nat}
    (h : m.Answer program fed frame result label owner before (.terminal matcher) after i j) :
    ∃ label origin links c,
      m.scheduler.graph.stack? frame = some (.frame label origin links) ∧ fed[origin]? = some c ∧
        m.scheduler.forest.symbolNode? result = some (.terminal (.symbol c origin)) := by
  obtain ⟨⟨links, hstack⟩, -, hderivative⟩ := h
  cases hderivative with
  | @terminal _ _ c _ hnode hchar _ =>
    have hposition : Position.of fed i = .symbol c i := by rw [Position.of, hchar]
    rw [hposition] at hnode
    exact ⟨label, i, links, c, hstack, hchar, hnode⟩

/-- Leaving prefixes and results out of the keys of tasks loses nothing. -/
theorem tasksByKey_of_timeline {program : Program} {fed : List Char} {m : Moment}
    (hlaid : program.Laid) (h : m.Timeline program fed) :
    TasksByKey fed m.scheduler m.offers := by
  -- Of all that is known it is said what it stands for (`Sound.proper`), and each part is read off
  -- there.
  obtain ⟨carried, hunderway⟩ := h.underway
  have hsound := hunderway.steady.sound
  constructor
  · intro label caller
    constructor
    · intro hmem
      have hresumed : m.Holds (.resumed label caller) := hmem
      exact hsound.proper hresumed
    · rintro ⟨stem, hmem⟩
      have hoffered : m.Holds (.offered (.resume label caller stem)) := hmem
      exact (hsound.proper hoffered).1
  · exact fun hmem hmem' => hsound.stem_unique hlaid hmem hmem'
  · exact fun hmem => hunderway.due hmem
  · intro frame result hmem
    have hoffered : m.Holds (.offered (.shift frame result)) := hmem
    exact hsound.proper hoffered
  · intro frame result result' hmem hmem'
    have hstaged : m.Holds (.staged (.shift frame result)) := hmem
    have hstaged' : m.Holds (.staged (.shift frame result')) := hmem'
    exact Option.some.inj ((hsound.proper hstaged).1.symm.trans (hsound.proper hstaged').1)
  · rintro frame result (hmem | hmem)
    · have hstaged : m.Holds (.staged (.shift frame result)) := hmem
      obtain ⟨-, _, _, _, _, _, hanswer⟩ := hsound.proper hstaged
      exact terminal_of_answer hanswer
    · obtain ⟨_, _, _, _, _, _, hanswer⟩ := hunderway.due hmem
      exact terminal_of_answer hanswer

theorem tasksByKey_initial (fed : List Char) (start : Nonterminal) :
    TasksByKey fed (.initial start) [] where
  resumed_iff := by simp [Scheduler.initial, Memory.empty]
  stem_unique hmem := absurd hmem List.not_mem_nil
  offered hmem := absurd hmem List.not_mem_nil
  staged hmem := absurd hmem List.not_mem_nil
  staged_unique hmem := absurd hmem (Array.not_mem_empty _)
  terminal hmem := hmem.elim (fun hmem => absurd hmem (Array.not_mem_empty _))
    fun hmem => absurd hmem List.not_mem_nil

section Calls

variable {grammar : Grammar} {program : Program} {σ : Type} {tracer : Tracer σ} {trace : σ}
  {limit : Nat} {session : Session σ Unit} {fed : List Char} {offers : List Task}

/-- In every state of a session the tasks of the generation are rightly told apart by their keys. -/
theorem compile_tasks (hcompile : Program.compile grammar = .ok program)
    (h : Session.Reaches program.interpreter tracer (.initial program.interpreter trace () limit)
      fed session offers) : TasksByKey fed session.scheduler offers := by
  have hlaid := laid_of_compile hcompile
  rcases h.timeline hlaid (List.prefix_refl fed) fun _ => rfl with ⟨hinitial, rfl⟩ | htimeline
  · rw [hinitial]
    exact tasksByKey_initial fed program.start
  · exact tasksByKey_of_timeline hlaid htimeline

end Calls

theorem compile_tasks_letter : ∃ program session offers,
    Program.compile Session.letter = .ok program ∧
      Session.Reaches program.interpreter .silent (.initial program.interpreter () () 4) ['a']
        session offers ∧ TasksByKey ['a'] session.scheduler offers := by
  obtain ⟨program, session, hcompile, hparse⟩ := Session.parse_letter
  obtain ⟨⟨offers, h⟩, -⟩ := Session.Reaches.start.of_parse hparse
  exact ⟨program, session, offers, hcompile, h, compile_tasks hcompile h⟩

/-! ## Trees -/

section Trees

variable {program : Program} {fed : List Char} {m : Moment}

/-- The root is a node of the start nonterminal over everything up to the current position. -/
theorem exists_root (hsound : m.Sound program fed) :
    ∃ root, m.scheduler.root = some root ∧
      m.Holds (.derivation root program.start (.of fed 0) (.of fed m.index)) := by
  obtain ⟨root, hroot, hkey⟩ := hsound.situated.root
  exact ⟨root, hroot, hsound.derivation_of_key hkey⟩

/-- When nothing is pending, the trees of a node that ends at the current position are the
derivation trees of its nonterminal over its span. -/
theorem hasTree_iff_of_timeline (hlaid : program.Laid) (h : m.Timeline program fed)
    (hdrained : m.pending = []) {id : SymbolId} {symbol : Nonterminal} {i : Nat}
    (hnode : m.Holds (.derivation id symbol (.of fed i) (.of fed m.index))) (tree : Tree) :
    m.scheduler.forest.HasTree id tree ↔
      program.rightHandSides.DerivesTree fed symbol i m.index tree := by
  obtain ⟨carried, hunderway⟩ := h.underway
  constructor
  · exact hunderway.steady.sound.derivesTree hlaid hnode
  · intro htree
    obtain ⟨marked, rfl, hderives⟩ := exists_markedDerivesTree htree
    exact (h.hasMarkedTree hlaid hdrained hnode hderives).erase

/-- When nothing is pending, the root has an alternative exactly if the start nonterminal derives
what is before the current position. -/
theorem root_iff_of_timeline (hlaid : program.Laid) (h : m.Timeline program fed)
    (hdrained : m.pending = []) :
    ∃ root alternatives, m.scheduler.root = some root ∧
      m.scheduler.forest.symbolNode? root = some (.nonterminal program.start (.of fed 0)
        (.of fed m.index) alternatives) ∧
      (alternatives ≠ #[] ↔ fed.take m.index ∈ program.rightHandSides.language program.start) := by
  obtain ⟨carried, hunderway⟩ := h.underway
  have hsound := hunderway.steady.sound
  obtain ⟨root, hroot, alternatives, hnode⟩ := exists_root hsound
  have hderivation : m.Holds (.derivation root program.start (.of fed 0) (.of fed m.index)) :=
    ⟨alternatives, hnode⟩
  refine ⟨root, alternatives, hroot, hnode, ?_⟩
  -- A text is derived if and only if there is a tree over it.
  rw [Productions.take_mem_language_iff hsound.situated.index_le]
  constructor
  · intro hne
    obtain ⟨child, hchild⟩ := Array.exists_mem_of_ne_empty alternatives hne
    exact hsound.exists_derivesTree hderivation ⟨_, _, _, _, hnode, hchild⟩
  · rintro ⟨tree, htree⟩ hempty
    cases (hasTree_iff_of_timeline hlaid h hdrained hderivation tree).mpr htree with
    | terminal hterminal => exact Moment.not_terminal_of_derivation hderivation hterminal
    | nonterminal hnode' hchild _ =>
      rw [hnode, hempty] at hnode'
      cases hnode'
      exact Array.not_mem_empty _ hchild

theorem pending_eq_nil_of_dequeue? {s : Scheduler} (offers : List Task) (h : s.dequeue? = none) :
    Moment.pending ⟨s, offers⟩ = [] :=
  Session.dequeue?_eq_none.mp h

/-- When the end was given, the current position is behind all of the input. -/
theorem take_of_isFinished (h : m.Timeline program fed)
    (hfinished : m.scheduler.isFinished = true) : fed.take m.index = fed := by
  obtain ⟨carried, hunderway⟩ := h.underway
  have hnone := hunderway.steady.sound.situated.isFinished.mp hfinished
  exact List.take_of_length_le (List.getElem?_eq_none_iff.mp hnone)

/-- When the end was given, the current position is the one behind all that was fed. -/
theorem current_of_isFinished (h : m.Timeline program fed)
    (hfinished : m.scheduler.isFinished = true) :
    m.scheduler.current = .afterInput fed.length := by
  obtain ⟨carried, hunderway⟩ := h.underway
  have hsituated := hunderway.steady.sound.situated
  have hnone := hsituated.isFinished.mp hfinished
  have hindex : m.index = fed.length :=
    Nat.le_antisymm hsituated.index_le (List.getElem?_eq_none_iff.mp hnone)
  rw [hsituated.current, Position.of, hnone, hindex]

theorem isFinished_of_isAccepted {s : Scheduler} (h : s.isAccepted = true) :
    s.isFinished = true := by
  rw [Scheduler.isAccepted] at h
  split at h
  · rw [Bool.and_eq_true, Bool.and_eq_true] at h
    exact h.1.1
  · cases h

/-- What acceptance says of the root. -/
theorem isAccepted_iff {s : Scheduler} {root : SymbolId} {symbol : Nonterminal}
    {alternatives : Array PrefixId} (hfinished : s.isFinished = true) (hroot : s.root = some root)
    (hnode : s.forest.symbolNode? root
      = some (.nonterminal symbol (.of fed 0) (.of fed s.index) alternatives)) :
    s.isAccepted = true ↔ alternatives ≠ #[] := by
  have hindex : s.current.offset = s.index := rfl
  rw [Scheduler.isAccepted, hroot, Option.bind_some, hnode]
  simp [hfinished, hindex, SymbolNode.alternatives, SymbolNode.span]

/-- When the end was given and nothing is pending, the parse accepts what was fed exactly if the
start nonterminal derives it. -/
theorem isAccepted_iff_of_timeline (hlaid : program.Laid) (h : m.Timeline program fed)
    (hdrained : m.pending = []) (hfinished : m.scheduler.isFinished = true) :
    m.scheduler.isAccepted = true ↔ fed ∈ program.rightHandSides.language program.start := by
  obtain ⟨root, alternatives, hroot, hnode, hiff⟩ := root_iff_of_timeline hlaid h hdrained
  rw [take_of_isFinished h hfinished] at hiff
  rw [← hiff]
  exact isAccepted_iff hfinished hroot hnode

end Trees

section Calls

variable {grammar : Grammar} {program : Program} {σ : Type} {tracer : Tracer σ} {trace : σ}
  {limit : Nat} {session : Session σ Unit} {fed : List Char} {offers : List Task}

/-- When nothing is pending, the root is a node of the start nonterminal over all that was read, and
the trees of every node that ends at the current position are exactly the derivation trees of its
nonterminal over its span. -/
theorem compile_forest (hcompile : Program.compile grammar = .ok program)
    (h : Session.Reaches program.interpreter tracer (.initial program.interpreter trace () limit)
      fed session offers) (hopen : 0 < session.scheduler.nextIndex)
    (hdrained : session.scheduler.pending.isEmpty = true) :
    (∃ root alternatives, session.scheduler.root = some root ∧
      session.scheduler.forest.symbolNode? root = some (.nonterminal program.start (.of fed 0)
        session.scheduler.current alternatives)) ∧
    ∀ {id : SymbolId} {symbol : Nonterminal} {first : Position} {alternatives : Array PrefixId},
      session.scheduler.forest.symbolNode? id
          = some (.nonterminal symbol first session.scheduler.current alternatives) →
        ∀ tree, session.scheduler.forest.HasTree id tree ↔
          program.rightHandSides.DerivesTree fed symbol first.offset session.scheduler.index
            tree := by
  have hlaid := laid_of_compile hcompile
  have htimeline := h.timeline_fed hlaid hopen
  obtain ⟨carried, hunderway⟩ := htimeline.underway
  have hsound := hunderway.steady.sound
  have hcurrent : session.scheduler.current = _ := hsound.situated.current
  constructor
  · obtain ⟨root, hroot, alternatives, hnode⟩ := exists_root hsound
    rw [hcurrent]
    exact ⟨root, alternatives, hroot, hnode⟩
  · intro id symbol first alternatives hfound
    rw [hcurrent] at hfound
    have hnode : Moment.Holds ⟨session.scheduler, offers⟩ (.derivation id symbol first _) :=
      ⟨alternatives, hfound⟩
    obtain ⟨i, _, _, rfl, _⟩ := hsound.proper hnode
    rw [Position.offset_of]
    exact hasTree_iff_of_timeline hlaid htimeline ((Queue.isEmpty_iff _).mp hdrained) hnode

theorem compile_forest_letter : ∃ program session root,
    Program.compile Session.letter = .ok program ∧
      program.parse .silent () 4 "a" = .ok true session ∧ session.scheduler.root = some root ∧
        ∀ tree, session.scheduler.forest.HasTree root tree ↔
          program.rightHandSides.DerivesTree ['a'] program.start 0 session.scheduler.index
            tree := by
  obtain ⟨program, session, hcompile, hparse⟩ := Session.parse_letter
  obtain ⟨⟨offers, h⟩, hdequeue, hopen, -⟩ := Session.Reaches.start.of_parse hparse
  obtain ⟨⟨root, alternatives, hroot, hnode⟩, htrees⟩ := compile_forest hcompile h hopen
    ((Queue.isEmpty_iff _).mpr (pending_eq_nil_of_dequeue? offers hdequeue))
  exact ⟨program, session, root, hcompile, hparse, hroot, htrees hnode⟩

/-! ## Texts -/

/-- When nothing is pending, the root has an alternative if and only if the start nonterminal
derives what was read; and a text is accepted if and only if the start nonterminal derives it. -/
theorem compile_recognition (hcompile : Program.compile grammar = .ok program) :
    (∀ {fed : List Char} {session : Session σ Unit} {offers : List Task},
      Session.Reaches program.interpreter tracer (.initial program.interpreter trace () limit) fed
        session offers → 0 < session.scheduler.nextIndex →
      session.scheduler.pending.isEmpty = true →
      ∃ root node, session.scheduler.root = some root ∧
        session.scheduler.forest.symbolNode? root = some node ∧
          (node.alternatives ≠ #[] ↔
            fed.take session.scheduler.index ∈ program.rightHandSides.language program.start)) ∧
    ∀ {text : String} {accepted : Bool} {session : Session σ Unit},
      program.parse tracer trace limit text = .ok accepted session →
        (accepted = true ↔ text.toList ∈ program.rightHandSides.language program.start) := by
  have hlaid := laid_of_compile hcompile
  constructor
  · intro fed session offers h hopen hdrained
    obtain ⟨root, alternatives, hroot, hnode, hiff⟩ :=
      root_iff_of_timeline hlaid (h.timeline_fed hlaid hopen) ((Queue.isEmpty_iff _).mp hdrained)
    exact ⟨root, _, hroot, hnode, hiff⟩
  · intro text accepted session hparse
    obtain ⟨⟨offers, h⟩, hdequeue, hopen, hfinished, rfl⟩ := Session.Reaches.start.of_parse hparse
    rw [List.nil_append] at h
    have htimeline := h.timeline_fed hlaid hopen
    have hdrained : Moment.pending ⟨session.scheduler, offers⟩ = [] :=
      pending_eq_nil_of_dequeue? offers hdequeue
    obtain ⟨root, alternatives, hroot, hnode, hiff⟩ := root_iff_of_timeline hlaid htimeline hdrained
    rw [take_of_isFinished htimeline hfinished] at hiff
    rw [← hiff]
    exact isAccepted_iff hfinished hroot hnode

end Calls

theorem compile_recognition_letter : ∃ program session,
    Program.compile Session.letter = .ok program ∧
      program.parse .silent () 4 "a" = .ok true session ∧
        "a".toList ∈ program.rightHandSides.language program.start ∧
          ∃ root node, session.scheduler.root = some root ∧
            session.scheduler.forest.symbolNode? root = some node ∧
              (node.alternatives ≠ #[] ↔ "a".toList.take session.scheduler.index ∈
                program.rightHandSides.language program.start) := by
  obtain ⟨program, session, hcompile, hparse⟩ := Session.parse_letter
  obtain ⟨⟨offers, h⟩, hdequeue, hopen, -⟩ := Session.Reaches.start.of_parse hparse
  obtain ⟨hroot, haccepted⟩ := compile_recognition hcompile
  exact ⟨program, session, hcompile, hparse, (haccepted hparse).mp rfl, hroot h hopen
    ((Queue.isEmpty_iff _).mpr (pending_eq_nil_of_dequeue? offers hdequeue))⟩

end Program

end Gll
