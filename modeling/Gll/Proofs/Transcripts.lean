import Gll.Proofs.PartNames
import Gll.Proofs.Watching

/-!
What watching a parse changes, and what more verbosity shows.

Watching changes nothing but the trace: the calls of a compiled grammar that are watched by tracers
which show its events end as they would unwatched, and leave the same session behind. The trace is
what showing the recorded events to the tracer gives.

A transcript is described by its *entries*: the events that are of interest in their order, and the
blank lines between generations, which are entries without an event. More verbosity adds entries and
takes none away (`Transcript.Adds`). Almost all of what a level adds are the events of that level.
The exception is a blank line. It stands before a generation if anything at all was shown before, so
that something which only the higher level shows may make it appear. This can be so before the first
generation only, and the three lemmas on `Adds` are the three states of that: nothing was shown at
either level (`adds_separated`), something was shown at the higher one (`adds_separated_following`),
something was shown at both (`adds_following`).
-/

set_option autoImplicit false

namespace Gll

open Text

theorem Verbosity.rank_injective : Function.Injective rank := by
  intro verbosity other h
  cases verbosity <;> cases other <;> first | rfl | cases h

namespace Transcript

/-! ## Entries -/

/-- The entries of events that come behind others: a blank line is put before each generation. -/
def following (events : List Event) : List (Option Event) :=
  events.flatMap fun event => if event.isAdvance then [none, some event] else [some event]

/-- The entries of events: there is no blank line before the first one. -/
def separated : List Event → List (Option Event)
  | [] => []
  | event :: rest => some event :: following rest

/-- The entries of a transcript. -/
def entries (verbosity : Verbosity) (events : List Event) : List (Option Event) :=
  separated (events.filter fun event => verbosity.shows event.level)

/-- The line of an entry. -/
def entryLine (program : Program) : Option Event → Styled
  | none => []
  | some event => (line program event).toOption.getD []

/-- The lines of a transcript. -/
def linesOf (program : Program) (verbosity : Verbosity) (events : List Event) : Array Styled :=
  ((entries verbosity events).map (entryLine program)).toArray

theorem following_cons_of_advance {event : Event} (h : event.isAdvance = true)
    (rest : List Event) : following (event :: rest) = none :: some event :: following rest := by
  rw [following, List.flatMap_cons, if_pos h]
  rfl

theorem following_cons_of_not_advance {event : Event} (h : ¬ event.isAdvance = true)
    (rest : List Event) : following (event :: rest) = some event :: following rest := by
  rw [following, List.flatMap_cons, if_neg h]
  rfl

theorem separated_concat (events : List Event) (event : Event) :
    separated (events ++ [event]) = separated events ++
      (if event.isAdvance && !events.isEmpty then [none, some event] else [some event]) := by
  cases events with
  | nil => simp [separated, following]
  | cons first rest => simp [separated, following, List.flatMap_append]

theorem separated_isEmpty (events : List Event) : (separated events).isEmpty = events.isEmpty := by
  cases events <;> rfl

/-- An event of interest adds its line, and any other one nothing. -/
theorem exists_of_record {program : Program} {verbosity : Verbosity} {event : Event}
    {extend : Array Styled → Array Styled}
    (h : (tracer program verbosity).record event = .ok extend) :
    (verbosity.shows event.level = true ∧
      ∃ text, line program event = .ok text ∧ extend = addLine event text) ∨
    (¬ verbosity.shows event.level = true ∧ extend = id) := by
  simp only [tracer] at h
  by_cases hshows : verbosity.shows event.level = true
  · rw [if_pos hshows] at h
    cases hline : line program event with
    | error fault =>
      rw [hline] at h
      cases h
    | ok text =>
      rw [hline] at h
      exact .inl ⟨hshows, text, rfl, (Except.ok.inj h).symm⟩
  · rw [if_neg hshows] at h
    exact .inr ⟨hshows, (Except.ok.inj h).symm⟩

/-- The trace that a transcript keeps has the lines of its entries. -/
theorem eq_linesOf_of_replay {program : Program} {verbosity : Verbosity} {events : List Event}
    {lines : Array Styled} (h : (tracer program verbosity).replay events #[] = .ok lines) :
    lines = linesOf program verbosity events := by
  -- On the events from the end, since a line depends on those that were kept before it.
  induction events using List.reverseRecOn generalizing lines with
  | nil =>
    obtain rfl := Except.ok.inj h
    rfl
  | append_singleton events event ih =>
    rw [Tracer.replay_concat] at h
    obtain ⟨between, hbetween, h⟩ := exists_of_bind_eq_ok h
    obtain ⟨extend, hrecord, h⟩ := exists_of_bind_eq_ok h
    obtain rfl := Except.ok.inj h
    have hbetween := ih hbetween
    rcases exists_of_record hrecord with ⟨hshows, text, hline, rfl⟩ | ⟨hshows, rfl⟩
    · -- A line was kept before just if an entry came before.
      have hempty : between.isEmpty
          = (events.filter fun event => verbosity.shows event.level).isEmpty := by
        rw [← separated_isEmpty, hbetween, linesOf, entries]
        simp
      rw [addLine, hempty, hbetween, linesOf, linesOf, entries, entries, List.filter_append,
        List.filter_singleton, hshows, cond_true, separated_concat]
      cases event.isAdvance && !(events.filter fun event => verbosity.shows event.level).isEmpty
      · simp [entryLine, hline, Except.toOption]
      · simp [entryLine, hline, Except.toOption]
    · rw [id, hbetween, linesOf, linesOf, entries, entries, List.filter_append,
        List.filter_singleton, Bool.eq_false_iff.mpr hshows, cond_false, List.append_nil]

/-! ## Verbosity -/

/-- The second entries are the first ones with more in between: events of a level, and blank lines
before generations. -/
inductive Adds (level : Verbosity) : List (Option Event) → List (Option Event) → Prop where
  | nil : Adds level [] []
  | keep {fewer more : List (Option Event)} (entry : Option Event) (h : Adds level fewer more) :
      Adds level (entry :: fewer) (entry :: more)
  | event {fewer more : List (Option Event)} (event : Event) (hlevel : event.level = level)
      (h : Adds level fewer more) : Adds level fewer (some event :: more)
  | blank {fewer more : List (Option Event)} (event : Event) (hadvance : event.isAdvance = true)
      (h : Adds level fewer (some event :: more)) :
      Adds level fewer (none :: some event :: more)

section Adds

variable {level : Verbosity}

theorem Adds.sublist {fewer more : List (Option Event)} (h : Adds level fewer more) :
    fewer.Sublist more := by
  induction h with
  | nil => exact .slnil
  | keep entry _ ih => exact ih.cons_cons entry
  | event _ _ _ ih => exact ih.cons _
  | blank _ _ _ ih => exact ih.cons _

/-- A test that lets pass what another one does and the events of a level, which do not open
generations. -/
structure Widens (level : Verbosity) (narrow wide : Event → Bool) : Prop where
  keeps {event : Event} : narrow event = true → wide event = true
  adds {event : Event} : wide event = true → narrow event = false → event.level = level
  advance {event : Event} : event.isAdvance = true → narrow event = true

variable {narrow wide : Event → Bool} (h : Widens level narrow wide)
include h

/-- An event that the narrow test holds back does not open a generation, so at most the event itself
is added. -/
theorem Widens.adds_cons {event : Event} {rest : List Event} {fewer : List (Option Event)}
    (hnarrow : ¬ narrow event = true) (hrest : Adds level fewer (following (rest.filter wide))) :
    Adds level fewer (following ((event :: rest).filter wide)) := by
  by_cases hwide : wide event = true
  · have hnot : ¬ event.isAdvance = true := fun hadvance => hnarrow (h.advance hadvance)
    rw [List.filter_cons_of_pos hwide, following_cons_of_not_advance hnot]
    exact .event event (h.adds hwide (Bool.eq_false_iff.mpr hnarrow)) hrest
  · rw [List.filter_cons_of_neg hwide]
    exact hrest

theorem adds_following (events : List Event) :
    Adds level (following (events.filter narrow)) (following (events.filter wide)) := by
  induction events with
  | nil => exact .nil
  | cons event rest ih =>
    by_cases hnarrow : narrow event = true
    · rw [List.filter_cons_of_pos hnarrow, List.filter_cons_of_pos (h.keeps hnarrow)]
      by_cases hadvance : event.isAdvance = true
      · rw [following_cons_of_advance hadvance, following_cons_of_advance hadvance]
        exact .keep none (.keep (some event) ih)
      · rw [following_cons_of_not_advance hadvance, following_cons_of_not_advance hadvance]
        exact .keep (some event) ih
    · rw [List.filter_cons_of_neg hnarrow]
      exact h.adds_cons hnarrow ih

/-- Only at the higher level was anything shown before. -/
theorem adds_separated_following (events : List Event) :
    Adds level (separated (events.filter narrow)) (following (events.filter wide)) := by
  induction events with
  | nil => exact .nil
  | cons event rest ih =>
    by_cases hnarrow : narrow event = true
    · rw [List.filter_cons_of_pos hnarrow, List.filter_cons_of_pos (h.keeps hnarrow), separated]
      have hkeep := Adds.keep (some event) (adds_following h rest)
      by_cases hadvance : event.isAdvance = true
      · rw [following_cons_of_advance hadvance]
        exact .blank event hadvance hkeep
      · rw [following_cons_of_not_advance hadvance]
        exact hkeep
    · rw [List.filter_cons_of_neg hnarrow]
      exact h.adds_cons hnarrow ih

theorem adds_separated (events : List Event) :
    Adds level (separated (events.filter narrow)) (separated (events.filter wide)) := by
  induction events with
  | nil => exact .nil
  | cons event rest ih =>
    by_cases hnarrow : narrow event = true
    · rw [List.filter_cons_of_pos hnarrow, List.filter_cons_of_pos (h.keeps hnarrow)]
      exact .keep (some event) (adds_following h rest)
    · rw [List.filter_cons_of_neg hnarrow]
      by_cases hwide : wide event = true
      · rw [List.filter_cons_of_pos hwide]
        exact .event event (h.adds hwide (Bool.eq_false_iff.mpr hnarrow))
          (adds_separated_following h rest)
      · rw [List.filter_cons_of_neg hwide]
        exact ih

end Adds

/-- A level lets pass what the one below it does. -/
theorem widens_of_rank {lower level : Verbosity} (hrank : level.rank = lower.rank + 1) :
    Widens level (fun event => lower.shows event.level) fun event => level.shows event.level where
  keeps {event} hlower := by
    simp only [Verbosity.shows, decide_eq_true_eq] at hlower ⊢
    omega
  adds {event} hlevel hlower := by
    simp only [Verbosity.shows, decide_eq_true_eq, decide_eq_false_iff_not] at hlevel hlower
    exact Verbosity.rank_injective (by omega)
  advance {event} hadvance := by
    cases event with
    | advance _ => exact decide_eq_true (Nat.zero_le _)
    | _ => cases hadvance

/-- Each level adds the events of that level, and blank lines before generations. -/
theorem adds_entries (events : List Event) :
    Adds .verbose (entries .normal events) (entries .verbose events) ∧
      Adds .veryVerbose (entries .verbose events) (entries .veryVerbose events) :=
  ⟨adds_separated (widens_of_rank rfl) events, adds_separated (widens_of_rank rfl) events⟩

/-- With more verbosity there are more lines, in whatever colours. -/
theorem sublist_lines (program : Program) (palette : Palette) {level fewer more : Verbosity}
    {events : List Event} (h : Adds level (entries fewer events) (entries more events)) :
    ((linesOf program fewer events).toList.map (Styled.render palette)).Sublist
      ((linesOf program more events).toList.map (Styled.render palette)) :=
  (h.sublist.map (entryLine program)).map (Styled.render palette)

end Transcript

/-! ## Watching -/

/-- A tracer that shows the events of a program can be shown any number of them. -/
theorem Tracer.Shows.exists_replay {σ : Type} {tracer : Tracer σ} {program : Program}
    (h : tracer.Shows program) {events : List Event}
    (hevents : ∀ event ∈ events, event.IsOf program) (trace : σ) :
    ∃ last, tracer.replay events trace = .ok last := by
  induction events generalizing trace with
  | nil => exact ⟨trace, rfl⟩
  | cons event rest ih =>
    obtain ⟨hevent, hrest⟩ := List.forall_mem_cons.mp hevents
    obtain ⟨extend, hrecord⟩ := h event hevent
    obtain ⟨last, hlast⟩ := ih hrest (extend trace)
    rw [Tracer.replay, hrecord]
    exact ⟨last, hlast⟩

namespace Session

variable {σ : Type} {program : Program}

theorem unbroken_of_shows (hwhole : program.Whole) {commands : List (Command × Tracer σ)}
    (hshows : ∀ command ∈ commands, command.2.Shows program) (trace : σ) (limit : Nat) :
    Unbroken program.interpreter commands (.initial program.interpreter trace () limit) :=
  Closed.unbroken (fun command hmem => closed_attended hwhole (hshows command hmem) limit)
    (.initial program trace limit)

/-- Commands that are watched by tracers which show the program end as they do unwatched, and leave
the same session behind. -/
theorem unwatched (hwhole : program.Whole) {commands : List (Command × Tracer σ)}
    (hshows : ∀ command ∈ commands, command.2.Shows program) (trace : σ) (limit : Nat) :
    answers program.interpreter commands (.initial program.interpreter trace () limit)
        = answers program.interpreter (commands.map fun command => (command.1, .silent))
          (.initial program.interpreter () () limit) ∧
      (after program.interpreter commands (.initial program.interpreter trace () limit)).unseen
        = after program.interpreter (commands.map fun command => (command.1, .silent))
          (.initial program.interpreter () () limit) := by
  have hfollow : FollowAll (fun _ _ => True) commands
      (commands.map fun command => (command.1, .silent)) :=
    List.forall₂_map_right_iff.mpr
      (List.forall₂_same.mpr fun command _ => ⟨rfl, command.2.follows_silent⟩)
  have hinitial : Alike (fun _ _ => True) (.initial program.interpreter trace () limit)
      (.initial program.interpreter () () limit) := ⟨rfl, trivial⟩
  obtain ⟨halike, hanswers⟩ :=
    after_alike hfollow (unbroken_of_shows hwhole hshows trace limit) hinitial
  exact ⟨hanswers, halike.1⟩

/-- What a tracer keeps is what it would keep if it were shown the recorded events. -/
theorem replay_recorded (hwhole : program.Whole) {tracer : Tracer σ} (hshows : tracer.Shows program)
    (commands : List Command) (trace : σ) (limit : Nat) :
    tracer.replay
        (after program.interpreter (commands.map fun command => (command, .recorder))
          (.initial program.interpreter #[] () limit)).trace.toList trace
      = .ok (after program.interpreter (commands.map fun command => (command, tracer))
          (.initial program.interpreter trace () limit)).trace := by
  have hfollow : FollowAll (fun kept events => tracer.replay events.toList trace = .ok kept)
      (commands.map fun command => (command, tracer))
      (commands.map fun command => (command, .recorder)) :=
    followAll_map fun command _ => ⟨rfl, tracer.follows_recorder trace⟩
  have hall : ∀ command ∈ commands.map fun command => (command, tracer),
      command.2.Shows program := by
    intro command hmem
    obtain ⟨_, -, rfl⟩ := List.mem_map.mp hmem
    exact hshows
  have hinitial : Alike (fun kept events => tracer.replay events.toList trace = .ok kept)
      (.initial program.interpreter trace () limit) (.initial program.interpreter #[] () limit) :=
    ⟨rfl, rfl⟩
  exact (after_alike hfollow (unbroken_of_shows hwhole hall trace limit) hinitial).1.2

end Session

open Session in
/-- **Watching a parse changes nothing, and more verbosity shows more.** Whatever calls are made on
a session of a compiled grammar, with any fuel, and whichever tracers watch them, as long as they
show the events of the program: every call ends as it does unwatched, and the session that is left
is the same, with the same fuel. Tracers of that kind are the one that keeps nothing, the recorder
and the transcripts of every verbosity.

The transcript of a session has the lines of its entries, and these are determined by the events
that a recorder keeps. The same holds of any sequence of events of the program. What a level of
verbosity adds to the entries are events of that level, and blank lines before generations; so the
lines at a lower level are among those at a higher one, in whatever colours. -/
theorem Program.compile_watching {grammar : Grammar} {program : Program}
    (hcompile : Program.compile grammar = .ok program) :
    (Tracer.silent.Shows program ∧ Tracer.recorder.Shows program ∧
      ∀ verbosity, (Transcript.tracer program verbosity).Shows program) ∧
    (∀ {σ : Type} (commands : List (Command × Tracer σ)) (trace : σ) (limit : Nat),
      (∀ command ∈ commands, command.2.Shows program) →
      answers program.interpreter commands (.initial program.interpreter trace () limit)
          = answers program.interpreter (commands.map fun command => (command.1, .silent))
            (.initial program.interpreter () () limit) ∧
        (after program.interpreter commands (.initial program.interpreter trace () limit)).unseen
          = after program.interpreter (commands.map fun command => (command.1, .silent))
            (.initial program.interpreter () () limit)) ∧
    (∀ (commands : List Command) (verbosity : Verbosity) (limit : Nat),
      let tracer := Transcript.tracer program verbosity
      let events := (after program.interpreter (commands.map fun command => (command, .recorder))
        (.initial program.interpreter #[] () limit)).trace.toList
      let lines := (after program.interpreter (commands.map fun command => (command, tracer))
        (.initial program.interpreter #[] () limit)).trace
      tracer.replay events #[] = .ok lines ∧
        lines = Transcript.linesOf program verbosity events) ∧
    (∀ events : List Event, (∀ event ∈ events, event.IsOf program) → ∀ verbosity : Verbosity,
      (Transcript.tracer program verbosity).replay events #[]
        = .ok (Transcript.linesOf program verbosity events)) ∧
    ∀ events : List Event,
      Transcript.Adds .verbose (Transcript.entries .normal events)
          (Transcript.entries .verbose events) ∧
        Transcript.Adds .veryVerbose (Transcript.entries .verbose events)
          (Transcript.entries .veryVerbose events) ∧
        ∀ palette : Palette,
          ((Transcript.linesOf program .normal events).toList.map (Styled.render palette)).Sublist
              ((Transcript.linesOf program .verbose events).toList.map (Styled.render palette)) ∧
            ((Transcript.linesOf program .verbose events).toList.map
                (Styled.render palette)).Sublist
              ((Transcript.linesOf program .veryVerbose events).toList.map
                (Styled.render palette)) := by
  have hwhole := whole_of_compile hcompile
  refine ⟨⟨Tracer.isTotal_silent.shows program, Tracer.isTotal_recorder.shows program,
    hwhole.shows_transcript⟩,
    fun commands trace limit hshows => unwatched hwhole hshows trace limit,
    fun commands verbosity limit => ?_, fun events hevents verbosity => ?_, fun events => ?_⟩
  · have hreplay := replay_recorded hwhole (hwhole.shows_transcript verbosity) commands #[] limit
    exact ⟨hreplay, Transcript.eq_linesOf_of_replay hreplay⟩
  · obtain ⟨lines, hlines⟩ := (hwhole.shows_transcript verbosity).exists_replay hevents #[]
    rw [hlines, Transcript.eq_linesOf_of_replay hlines]
  · obtain ⟨hverbose, hveryVerbose⟩ := Transcript.adds_entries events
    exact ⟨hverbose, hveryVerbose, fun palette =>
      ⟨Transcript.sublist_lines program palette hverbose,
        Transcript.sublist_lines program palette hveryVerbose⟩⟩

open Session in
/-- The transcript of what happens when the letter is parsed. -/
theorem Transcript.linesOf_letterEvents {program : Program}
    (hcompile : Program.compile letter = .ok program) :
    (linesOf program .normal letterEvents).toList.map (Styled.render .off)
      = ["0:'a'", "", "1:$", "  shift g2 0:'a'", "  pop g1 S [0,1)", "  accept [0,1)"] := by
  obtain ⟨parts, hparts⟩ := Program.exists_introduces hcompile
  have hrule : letter.rules[0]? = some ("S", .literal "a") := rfl
  have hname : program.name? ⟨0⟩ = some "S" := hparts.name?_rule hrule
  have hentries : entries .normal letterEvents = [some (.advance (.symbol 'a' 0)), none,
      some (.advance (.afterInput 1)), some (.shift ⟨2⟩ (.symbol 'a' 0)),
      some (.pop ⟨1⟩ ⟨2⟩ (some ⟨0⟩) ⟨0, 1⟩ true), some (.accept ⟨0, 1⟩)] := rfl
  simp only [linesOf, hentries, List.map_cons, List.map_nil, entryLine, line, derived,
    Program.name, hname, Fault.unlessSome]
  rfl

open Session in
/-- The letter is accepted also when all that happens is written down, and with little verbosity
there are these lines. -/
theorem Program.compile_watching_letter : ∃ program, Program.compile letter = .ok program ∧
    answers program.interpreter [(.parse "a", Transcript.tracer program .veryVerbose)]
      (.initial program.interpreter #[] () 4) = [.ok true] ∧
      (after program.interpreter [(.parse "a", Transcript.tracer program .normal)]
        (.initial program.interpreter #[] () 4)).trace.toList.map (Styled.render .off)
        = ["0:'a'", "", "1:$", "  shift g2 0:'a'", "  pop g1 S [0,1)", "  accept [0,1)"] := by
  obtain ⟨program, session, hcompile, hparse, htrace⟩ :=
    parse_letter_watched (fun event events => events.push event) #[]
  have hparse : Session.parse program.interpreter .recorder "a"
      (.initial program.interpreter #[] () 4) = .ok true session := hparse
  have hcall : (Command.parse "a").call program.interpreter .recorder
      (.initial program.interpreter #[] () 4) = .ok () session := bind_ok hparse rfl
  -- The parse says in the end whether it was accepted, so the session was.
  have haccepted : session.isAccepted = true := by
    obtain ⟨_, next, hfed, hrest⟩ := exists_of_bind_ok hparse
    obtain ⟨_, last, hended, hrest⟩ := exists_of_bind_ok hrest
    obtain ⟨htrue, rfl⟩ := EStateM.Result.ok.inj hrest
    exact htrue
  obtain ⟨⟨-, hrecorder, hshows⟩, hunwatched, hlines, -⟩ := Program.compile_watching hcompile
  have hsame (verbosity : Verbosity) := hunwatched
    [(.parse "a", Transcript.tracer program verbosity)] #[] 4 fun command hmem =>
      List.mem_singleton.mp hmem ▸ hshows verbosity
  have hrecorded := hunwatched [(.parse "a", .recorder)] #[] 4 fun command hmem =>
    List.mem_singleton.mp hmem ▸ hrecorder
  refine ⟨program, hcompile, ?_, ?_⟩
  · rw [(hsame .veryVerbose).1, List.map_singleton]
    rw [List.map_singleton] at hrecorded
    rw [← hrecorded.1, answers, hcall, answers, answer, haccepted]
  · have hafter : after program.interpreter [(.parse "a", .recorder)]
        (.initial program.interpreter #[] () 4) = session := leaves_of_ok hcall
    have htranscript := (hlines [.parse "a"] .normal 4).2
    simp only [List.map_singleton, hafter, htrace] at htranscript
    rw [htranscript]
    exact Transcript.linesOf_letterEvents hcompile

end Gll
