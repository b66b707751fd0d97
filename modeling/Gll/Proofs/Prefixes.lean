import Gll.Proofs.Budget
import Gll.Proofs.Contexts

/-!
The correct-prefix property.

A parse does no work for nothing. Whether a slot is resumed in a generation, for a caller that
waits from some offset on, can be said without the parse: the start nonterminal is rewritten to a
string of atoms that begins with the input up to that offset and goes on with the nonterminal of the
slot, and what is before the dot derives the rest of what was read. In the same way something is
staged when the input with its next symbol begins such a string, that is when it is not too late
for the input to be continued. The main theorem is `compile_correctPrefix`.

So a parse stops by itself where the input goes wrong: nothing is staged, and from then on there is
nothing to do (`Session.Reaches.idle`).
-/

set_option autoImplicit false

namespace Gll

namespace Program

section Drained

variable {program : Program} {input : List Char} {m : Moment}

/-- A slot that was resumed has a left context, and what is before its dot is derived up to the
current position. -/
theorem expects_of_offered (hlaid : program.Laid) (hsound : m.Sound program input)
    (hframes : m.scheduler.FramesIn (program.Awaits input)) {label label' : Label}
    {caller : StackId} {stem : PrefixId} {symbol : Nonterminal} {before after : List Atom} {j : Nat}
    (hoffered : m.Holds (.offered (.resume label caller stem)))
    (hframe : m.Holds (.frame caller label' j))
    (hitem : program.Item label (some symbol) before after) :
    program.rightHandSides.Expects input program.start (.nonterminal symbol) j ∧
      ∃ trees, program.rightHandSides.Derives input before j m.index trees := by
  obtain ⟨-, owner, before', after', i, hitem', hcaller, hcanonical⟩ := hsound.proper hoffered
  obtain ⟨rfl, rfl, rfl⟩ := hlaid.item_unique hitem hitem'
  have hi : i = j := by
    cases hcaller with
    | frame hframe' _ => exact (Moment.frame_unique hframe' hframe).2
  subst hi
  exact ⟨expects_of_caller hframes hcaller,
    (hsound.stem_of_canonical hlaid hitem hcanonical).derives⟩

/-- When nothing is pending, the slots that were resumed for a caller with some origin are those of
which the nonterminal can come next there, and of which what is before the dot derives what was read
since. -/
theorem exists_offered_iff (hlaid : program.Laid) (h : m.Timeline program input)
    (hdrained : m.pending = []) (hframes : m.scheduler.FramesIn (program.Awaits input))
    {label : Label} {symbol : Nonterminal} {before after : List Atom} {j : Nat}
    (hitem : program.Item label (some symbol) before after) :
    (∃ caller label' stem, m.Holds (.frame caller label' j) ∧
        m.Holds (.offered (.resume label caller stem))) ↔
      program.rightHandSides.Expects input program.start (.nonterminal symbol) j ∧
        ∃ trees, program.rightHandSides.Derives input before j m.index trees := by
  obtain ⟨carried, hunderway⟩ := h.underway
  constructor
  · rintro ⟨caller, label', stem, hframe, hoffered⟩
    exact expects_of_offered hlaid hunderway.steady.sound hframes hoffered hframe hitem
  -- What can come next at an offset was awaited by a frame when that was the current one, and the
  -- frame is still there.
  · rintro ⟨hexpects, trees, hderives⟩
    obtain ⟨stages, hstages, hlast, hpending⟩ := h.exists_drained_stages hdrained
    have hk := Nat.le_refl m.index
    obtain ⟨frame, label', _, _, _, hframe, hcall⟩ :=
      hstages.exists_waiting hlaid hpending hderives.le hexpects
    obtain ⟨stem, hoffered⟩ :=
      hstages.exists_offered hlaid hpending hk hframe hcall hitem hderives
    have hframe' : (stages m.index).Holds (.frame frame label' j) :=
      hstages.lasts hderives.le hk trivial hframe
    rw [hlast] at hframe' hoffered
    exact ⟨frame, label', stem, hframe', hoffered⟩

/-- When nothing is pending, something is staged exactly if the current symbol passes a test that
can come next. -/
theorem exists_staged_iff (hlaid : program.Laid) (h : m.Timeline program input)
    (hdrained : m.pending = []) (hframes : m.scheduler.FramesIn (program.Awaits input)) {c : Char}
    (hchar : input[m.index]? = some c) :
    m.scheduler.staged ≠ #[] ↔
      ∃ matcher, program.rightHandSides.Expects input program.start (.terminal matcher) m.index ∧
        matcher.accepts c = true := by
  obtain ⟨carried, hunderway⟩ := h.underway
  have hsound := hunderway.steady.sound
  constructor
  · intro hne
    obtain ⟨task, hmem⟩ := Array.exists_mem_of_ne_empty _ hne
    have hstaged : m.Holds (.staged task) := hmem
    have hproper := hsound.proper hstaged
    -- Only shifts are staged.
    cases task with
    | resume label caller stem => exact absurd hproper id
    | shift frame result =>
      obtain ⟨-, label, owner, before, matcher, after, ⟨links, hstack⟩, hitem, hderivative⟩ :=
        hproper
      cases hderivative with
      | terminal _ hchar' haccepts =>
        obtain rfl := Option.some.inj (hchar.symm.trans hchar')
        exact ⟨matcher, hframes hstack hitem, haccepts⟩
  · rintro ⟨matcher, hexpects, haccepts⟩ hempty
    obtain ⟨stages, hstages, hlast, hpending⟩ := h.exists_drained_stages hdrained
    obtain ⟨task, hstaged⟩ := hstages.exists_staged hlaid hpending hexpects hchar haccepts
    rw [hlast] at hstaged
    have hmem : task ∈ m.scheduler.staged := hstaged
    exact Array.not_mem_empty task (hempty ▸ hmem)

/-- When a generation is drained, the slots that were resumed in it are those that were done. -/
theorem resume_mem_done_iff (h : m.Timeline program input) {carried : List StackId}
    {done : List Task} (htally : Tally carried done m.scheduler) (hdrained : m.pending = [])
    {label : Label} {caller : StackId} :
    (∃ stem, .resume label caller stem ∈ done) ↔
      ∃ stem, m.Holds (.offered (.resume label caller stem)) := by
  obtain ⟨_, hunderway⟩ := h.underway
  have hsound := hunderway.steady.sound
  have hkey : (∃ stem, .resume label caller stem ∈ done) ↔ m.Holds (.resumed label caller) := by
    have hnone : m.scheduler.pending.toList = [] := hdrained
    have hresumed := htally.resumed (label, caller)
    rw [hnone, List.append_nil, List.mem_filterMap] at hresumed
    refine Iff.trans ?_ hresumed.symm
    constructor
    · rintro ⟨stem, hmem⟩
      exact ⟨_, hmem, rfl⟩
    · rintro ⟨task, hmem, htask⟩
      cases task with
      | resume label' caller' stem =>
        cases htask
        exact ⟨stem, hmem⟩
      | shift frame result => cases htask
  rw [hkey]
  exact ⟨fun hresumed => hsound.proper hresumed, fun ⟨stem, hoffered⟩ => (hsound.proper hoffered).1⟩

end Drained

end Program

/-! ## When nothing is left to do -/

/-- What is staged is not staged any more when the next generation is opened. -/
theorem Moment.Opens.staged_eq_empty {before after : Moment} {symbol : Option Char}
    {root : SymbolId} {node : Option SymbolId} (h : before.Opens after symbol root node) :
    after.scheduler.staged = #[] := by
  by_contra hne
  obtain ⟨task, hmem⟩ := Array.exists_mem_of_ne_empty _ hne
  have hstaged : after.Holds (.staged task) := hmem
  rcases (h.holds _).mp hstaged with ⟨hlasts, -⟩ | ⟨_, -, heq⟩ | heq | heq
  · exact hlasts
  · cases heq
  · cases heq
  · cases heq

/-- When nothing is pending and nothing is staged, no task is done any more, whatever is fed. -/
theorem Session.Reaches.idle {σ μ : Type} {interpreter : Interpreter μ} {tracer : Tracer σ}
    {start next : Session σ μ} {fed : List Char} {offers : List Task}
    (h : Session.Reaches interpreter tracer start fed next offers)
    (hopen : 0 < start.scheduler.nextIndex) (hpending : start.scheduler.pending.toList = [])
    (hstaged : start.scheduler.staged = #[]) :
    0 < next.scheduler.nextIndex ∧ next.scheduler.pending.toList = [] ∧
      next.scheduler.staged = #[] ∧ next.fuel = start.fuel := by
  induction h with
  | start => exact ⟨hopen, hpending, hstaged, rfl⟩
  | @advance fed session next offers symbol _ hrun ih =>
    obtain ⟨hopen', -, hstaged', hfuel'⟩ := ih
    obtain ⟨opened, hgeneration, hrest⟩ := advance_eq_ok hrun
    obtain ⟨-, hadvance, -, hfuel⟩ := openGeneration_eq_ok hgeneration
    obtain ⟨root, node, hopens⟩ := Moment.opens_advance ⟨session.scheduler, []⟩ symbol
    rw [← hadvance] at hopens
    have hnext : opened.scheduler.nextIndex = session.scheduler.nextIndex + 1 :=
      congrArg Control.nextIndex hopens.control
    -- It is not the first generation, so it is not seeded.
    have hfirst : ¬ opened.scheduler.isFirstGeneration = true := by
      rw [Scheduler.isFirstGeneration, hnext, beq_iff_eq]
      omega
    rw [if_neg hfirst] at hrest
    have hpending' : opened.scheduler.pending.toList = session.scheduler.staged.toList :=
      hopens.pending
    rw [hrest, hnext, hpending', hstaged']
    exact ⟨Nat.succ_pos _, rfl, hopens.staged_eq_empty, hfuel.trans hfuel'⟩
  | @work fed session taken next offers task _ htake _ ih =>
    obtain ⟨rest, fuel, hdequeue, -, -⟩ := takeTask_eq_ok htake
    cases (Session.dequeue?_eq_none.mpr ih.2.1).symm.trans hdequeue

/-! ## Sessions -/

section Calls

variable {grammar : Grammar} {program : Program} {σ : Type} {tracer : Tracer σ} {trace : σ}
  {limit : Nat} {session opened last : Session σ Unit} {fed : List Char} {offers done : List Task}
  {symbol : Option Char}

/-- The generation that is opened when some symbols were fed is that of their number. -/
theorem Session.Reaches.index_of_advance (hlaid : program.Laid)
    (h : Session.Reaches program.interpreter tracer (.initial program.interpreter trace () limit)
      fed session offers)
    (hadvance : Session.advance program.interpreter tracer symbol session = .ok () opened) :
    opened.scheduler.index = fed.length := by
  obtain ⟨hrefusal, hnext, -⟩ := control_of_advance hadvance
  have hlength := h.length_fed (refusal?_eq_none.mp hrefusal).1
  have hopen : 0 < opened.scheduler.nextIndex := by omega
  obtain ⟨_, hunderway⟩ := ((h.advance hadvance).timeline_fed hlaid hopen).underway
  have hindex : opened.scheduler.nextIndex = opened.scheduler.index + 1 :=
    hunderway.steady.sound.situated.nextIndex
  omega

namespace Program

/-- **The correct-prefix property.** When a generation has been drained, the slots that were resumed
in it for callers with a given origin are exactly those of which the nonterminal has a left context
that begins with what was fed up to the origin, and of which what is before the dot derives what was
fed since. Something is staged exactly if what was fed, with the symbol of the generation, begins a
string of atoms that the start nonterminal is rewritten to; otherwise no text that goes on with it
is derived, and whatever is fed then, no task is done any more and the input is not accepted. -/
theorem compile_correctPrefix (hcompile : Program.compile grammar = .ok program)
    (h : Session.Reaches program.interpreter tracer (.initial program.interpreter trace () limit)
      fed session offers)
    (hadvance : Session.advance program.interpreter tracer symbol session = .ok () opened)
    (hworks : Session.Works program.interpreter tracer opened done last)
    (hdrained : last.scheduler.pending.isEmpty = true) :
    (∀ {label : Label} {callee : Nonterminal} {before after : List Atom} {j : Nat},
      program.Item label (some callee) before after →
        ((∃ caller stem label' links, .resume label caller stem ∈ done ∧
            last.scheduler.graph.stack? caller = some (.frame label' j links)) ↔
          j ≤ fed.length ∧
            (∃ rest, program.rightHandSides.Begins [.nonterminal program.start] (fed.take j)
              (.nonterminal callee :: rest)) ∧
              program.rightHandSides.Yields before (fed.drop j))) ∧
    ∀ {c : Char}, symbol = some c →
      (last.scheduler.staged ≠ #[] ↔
        ∃ rest, program.rightHandSides.Begins [.nonterminal program.start] (fed ++ [c]) rest) ∧
      (last.scheduler.staged = #[] →
        (∀ text, fed ++ c :: text ∉ program.rightHandSides.language program.start) ∧
        ∀ {more : List Char} {later : Session σ Unit} {offers' : List Task},
          Session.Reaches program.interpreter tracer last more later offers' →
            later.scheduler.pending.isEmpty = true ∧ later.scheduler.staged = #[] ∧
              later.fuel = last.fuel ∧ later.isAccepted = false) := by
  have hlaid := laid_of_compile hcompile
  obtain ⟨carried, hatWork⟩ := h.atWork hlaid hadvance
  obtain ⟨hlast, hindex⟩ := hatWork.works hworks
  rw [h.index_of_advance hlaid hadvance] at hindex
  obtain ⟨offers', hreaches⟩ := hlast.reaches
  have htimeline := hreaches.timeline_fed hlaid hlast.isOpen
  have hframes := hreaches.framesIn hlaid (List.prefix_refl _) fun _ => rfl
  have hpending : Moment.pending ⟨last.scheduler, offers'⟩ = [] := (Queue.isEmpty_iff _).mp hdrained
  have hnow : Moment.index ⟨last.scheduler, offers'⟩ = fed.length := hindex
  constructor
  · intro label callee before after j hitem
    have hitems := exists_offered_iff (j := j) hlaid htimeline hpending hframes hitem
    rw [hnow] at hitems
    constructor
    · rintro ⟨caller, stem, label', links, hmem, hstack⟩
      obtain ⟨stem', hoffered⟩ :=
        (resume_mem_done_iff htimeline hlast.tally hpending).mp ⟨stem, hmem⟩
      obtain ⟨hexpects, hderives⟩ := hitems.mp ⟨caller, label', stem', ⟨links, hstack⟩, hoffered⟩
      have hj : j ≤ fed.length := hderives.elim fun _ hderives => hderives.le
      exact ⟨hj, (Productions.expects_append_iff hj).mp hexpects,
        (Productions.exists_derives_append_iff hj).mp hderives⟩
    · rintro ⟨hj, hbegins, hyields⟩
      obtain ⟨caller, label', stem, ⟨links, hstack⟩, hoffered⟩ :=
        hitems.mpr ⟨(Productions.expects_append_iff hj).mpr hbegins,
          (Productions.exists_derives_append_iff hj).mpr hyields⟩
      obtain ⟨stem', hmem⟩ :=
        (resume_mem_done_iff htimeline hlast.tally hpending).mpr ⟨stem, hoffered⟩
      exact ⟨caller, stem', label', links, hmem, hstack⟩
  · rintro c rfl
    have hchar : (fed ++ [c])[Moment.index ⟨last.scheduler, offers'⟩]? = some c := by
      rw [hnow]
      simp
    have hstaged := exists_staged_iff hlaid htimeline hpending hframes hchar
    rw [hnow] at hstaged
    have hbegins := hstaged.trans Productions.begins_concat_iff.symm
    refine ⟨hbegins, fun hempty => ?_⟩
    have hwrong (text : List Char) :
        fed ++ [c] ++ text ∉ program.rightHandSides.language program.start := fun hmem =>
      hbegins.mpr (Productions.exists_begins_of_yields hmem) hempty
    refine ⟨fun text => ?_, fun {more later offers'} hlater => ?_⟩
    · rw [List.append_cons]
      exact hwrong text
    · obtain ⟨hopen, hnone, hstill, hfuel⟩ := hlater.idle hlast.isOpen hpending hempty
      refine ⟨(Queue.isEmpty_iff _).mpr hnone, hstill, hfuel, ?_⟩
      obtain ⟨_, hall⟩ := hreaches.trans hlater
      refine Bool.eq_false_iff.mpr fun haccepted => hwrong more ?_
      exact (isAccepted_iff_of_timeline hlaid (hall.timeline_fed hlaid hopen) hnone
        (isFinished_of_isAccepted haccepted)).mp haccepted

theorem compile_correctPrefix_circular : ∃ program opened done last,
    Program.compile circular = .ok program ∧
      Session.advance program.interpreter .silent (some 'a')
        (.initial program.interpreter () () 224) = .ok () opened ∧
      Session.Works program.interpreter .silent opened done last ∧
      last.scheduler.pending.isEmpty = true ∧ last.scheduler.staged ≠ #[] := by
  obtain ⟨program, hcompile, -⟩ := compile_circular
  obtain ⟨hcount, hletter⟩ := letter_mem_circular hcompile
  have hlaid := laid_of_compile hcompile
  have hstart : Session.Reaches program.interpreter .silent
      (.initial program.interpreter () () 224) [] _ [] := .start
  have hfuel : program.generationFuel 1 ≤ 224 := by
    rw [generationFuel, hcount]
    decide
  have hlength : ([] ++ (some 'a').toList).length ≤ 1 := Nat.le_refl 1
  obtain ⟨opened, done, last, hadvance, hworks, hdrained⟩ := hstart.exists_drained hlaid
    (closed_of_compile hcompile) Tracer.isTotal_silent rfl hlength hfuel
  obtain ⟨-, hstaged⟩ := compile_correctPrefix hcompile hstart hadvance hworks hdrained
  refine ⟨program, opened, done, last, hcompile, hadvance, hworks, hdrained, ?_⟩
  -- The letter is derived, so it is a beginning of something that is.
  have hwhole : program.rightHandSides.Yields [.nonterminal program.start] (['a'] ++ []) := hletter
  exact (hstaged rfl).1.mpr (Productions.exists_begins_of_yields hwhole)

end Program

end Calls

end Gll
