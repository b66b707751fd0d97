import Gll.CommandLine.Run
import Gll.Proofs.Decoding
import Gll.Proofs.Faultless
import Gll.Proofs.Metering
import Gll.Proofs.Multiplicity

/-!
The exit codes of the commands.

Three commands parse a text, each in its own way: one tells the verdict, one shows the parse as
well, and one writes the stacks. They agree: the exit codes say whether the grammar could be read
and compiled, whether the fuel covered the work, and, but for the last command, whether the text is
in the language of the start rule (`exitCodes_agree`). Only a forest that is asked for and has too
many references to be shown comes in between.

What a command finds outside may be anything, and so may the monad in which it runs. That something
is found, or comes out, in spite of that is said with `EndsWith`.
-/

set_option autoImplicit false

namespace Gll.CommandLine

/-! ## How actions end -/

section EndsWith

variable {m : Type → Type} [Monad m] {α β : Type}

/-- One action ends with another, whatever it does before. -/
def EndsWith (action last : m α) : Prop := ∃ effect : m Unit, action = (do effect; last)

/-- An action always has this value, whatever else it does. -/
def Gives (action : m α) (a : α) : Prop := EndsWith action (pure a)

variable [LawfulMonad m]

theorem endsWith_self (action : m α) : EndsWith action action := ⟨pure (), by simp⟩

theorem gives_pure (a : α) : Gives (pure a : m α) a := endsWith_self _

theorem EndsWith.trans {action between last : m α} (h : EndsWith action between)
    (h' : EndsWith between last) : EndsWith action last := by
  obtain ⟨effect, rfl⟩ := h
  obtain ⟨effect', rfl⟩ := h'
  exact ⟨do effect; effect', by simp⟩

theorem EndsWith.map {action last : m α} (h : EndsWith action last) (f : α → β) :
    EndsWith (f <$> action) (f <$> last) := by
  obtain ⟨effect, rfl⟩ := h
  exact ⟨effect, by simp⟩

theorem Gives.map {action : m α} {a : α} (h : Gives action a) (f : α → β) :
    Gives (f <$> action) (f a) := by
  have hmap := EndsWith.map h f
  rw [map_pure] at hmap
  exact hmap

theorem Gives.bind {first : m α} {rest : α → m β} {a : α} {last : m β} (hfirst : Gives first a)
    (hrest : EndsWith (rest a) last) : EndsWith (first >>= rest) last := by
  obtain ⟨effect, rfl⟩ := hfirst
  obtain ⟨effect', hrest⟩ := hrest
  exact ⟨do effect; effect', by simp [hrest]⟩

/-- Whatever the first action finds, the rest ends in the same way. -/
theorem endsWith_bind_of_forall {first : m α} {rest : α → m β} {last : m β}
    (h : ∀ a, EndsWith (rest a) last) : EndsWith (first >>= rest) last := by
  choose effect heffect using h
  obtain rfl : rest = _ := funext heffect
  exact ⟨first >>= effect, by simp⟩

variable {ε : Type}

theorem Gives.run_bind {first : ExceptT ε m α} {rest : α → ExceptT ε m β} {a : α}
    {last : m (Except ε β)} (hfirst : Gives first.run (.ok a))
    (hrest : EndsWith (rest a).run last) : EndsWith (first >>= rest).run last := by
  rw [ExceptT.run_bind]
  exact hfirst.bind hrest

theorem Gives.run_bind_error {first : ExceptT ε m α} {rest : α → ExceptT ε m β} {error : ε}
    (hfirst : Gives first.run (.error error)) : Gives (first >>= rest).run (.error error) := by
  rw [ExceptT.run_bind]
  exact hfirst.bind (gives_pure _)

end EndsWith

/-! ## Loading -/

section Run

variable {m : Type → Type} [Monad m] (host : Host m) (options : Options)

/-- The action that reads what is at a path; a hyphen is the standard input. -/
def Host.read (path : String) : m (Except String ByteArray) :=
  if path = inputPath then host.input else host.fetch path

/-- The action that writes a text where it is asked for, if that succeeds. -/
def delivery (output : Option String) (text : String) : m Outcome :=
  match output with
  | none => pure (.success text)
  | some path => do
    let _ ← host.put path text
    pure (.success "")

/-- Whatever a command finds outside, it exits with this code. -/
def Exits (status : Nat) : Prop := Gives (Outcome.exitCode <$> run host options) status

variable [LawfulMonad m] {host options} {source grammarText : String}

theorem fromUTF8?_toUTF8 (text : String) : String.fromUTF8? text.toUTF8 = some text := by
  have hvalid : text.toUTF8.IsValidUTF8 := text.isValidUTF8
  unfold String.fromUTF8?
  rw [dif_pos hvalid]
  rfl

theorem gives_readText {path text : String} (h : Gives (host.read path) (.ok text.toUTF8)) :
    Gives (readText host path).run (.ok text) := by
  have hlift : Gives (liftM (host.read path) : ExceptT LoadError m _).run (.ok (.ok text.toUTF8)) :=
    h.map Except.ok
  refine hlift.run_bind ?_
  simp only [fromUTF8?_toUTF8]
  exact gives_pure _

theorem gives_loadSource (h : options.sourceText = some source) :
    Gives (loadSource host options).run (.ok source) := by
  unfold loadSource
  rw [h]
  exact gives_pure _

theorem gives_loadProgram (h : Gives (host.read options.grammarPath) (.ok grammarText.toUTF8)) :
    Gives (loadProgram host options).run (compile grammarText) := by
  refine (gives_readText h).run_bind ?_
  cases compile grammarText <;> exact gives_pure _

/-- A text is delivered if writing succeeds. -/
theorem run_deliverText {output : Option String} {text : String}
    (h : ∀ path, output = some path → Gives (host.put path text) (.ok ())) :
    (deliverText host output text).run = Except.ok <$> delivery host output text := by
  cases output with
  | none => simp [deliverText, delivery]
  | some path =>
    obtain ⟨effect, heffect⟩ := h path rfl
    have hlift : (liftM (host.put path text) : ExceptT LoadError m _).run
        = Except.ok <$> host.put path text := rfl
    rw [deliverText, ExceptT.run_bind, hlift, delivery, heffect]
    simp

/-! ## Running -/

/-- The outcome of a command that may have been refused. -/
def settle : Except LoadError Outcome → Outcome
  | .ok outcome => outcome
  | .error error => .ofLoadError error

theorem run_eq : run host options = settle <$> (perform host options).run := by
  rw [run, map_eq_pure_bind]
  congr
  funext result
  cases result <;> rfl

/-- What a command does after the choice of colours decides how it ends. -/
theorem run_perform {rest : Text.Palette → ExceptT LoadError m Outcome}
    (hperform : perform host options = (do
      let palette ← (choosePalette host options.color : m _)
      rest palette)) :
    run host options
      = choosePalette host options.color >>= fun palette => settle <$> (rest palette).run := by
  have hlift : (liftM (choosePalette host options.color) : ExceptT LoadError m _).run
      = Except.ok <$> choosePalette host options.color := rfl
  rw [run_eq, hperform, ExceptT.run_bind, hlift, bind_map_left, map_bind]

section Loaded

variable (hsource : options.sourceText = some source)
  (hread : Gives (host.read options.grammarPath) (.ok grammarText.toUTF8))
include hsource hread

/-- When a grammar is refused, nothing is done with it. -/
theorem gives_refused {rest : String → Program → ExceptT LoadError m Outcome} {error : LoadError}
    (hcompile : compile grammarText = .error error) :
    Gives (ExceptT.run do
      let text ← loadSource host options
      let program ← loadProgram host options
      rest text program) (.error error) := by
  have hprogram := gives_loadProgram hread
  rw [hcompile] at hprogram
  exact (gives_loadSource hsource).run_bind hprogram.run_bind_error

theorem endsWith_loaded {rest : String → Program → ExceptT LoadError m Outcome} {program : Program}
    (hcompile : compile grammarText = .ok program) {last : m (Except LoadError Outcome)}
    (h : EndsWith (rest source program).run last) :
    EndsWith (ExceptT.run do
      let text ← loadSource host options
      let program ← loadProgram host options
      rest text program) last := by
  have hprogram := gives_loadProgram hread
  rw [hcompile] at hprogram
  exact (gives_loadSource hsource).run_bind (hprogram.run_bind h)

end Loaded

section Performed

variable {rest : Text.Palette → String → Program → ExceptT LoadError m Outcome}
  (hperform : perform host options = (do
    let palette ← (choosePalette host options.color : m _)
    let text ← loadSource host options
    let program ← loadProgram host options
    rest palette text program))
  (hsource : options.sourceText = some source)
  (hread : Gives (host.read options.grammarPath) (.ok grammarText.toUTF8))
include hperform hsource hread

/-- A command whose grammar is refused exits with 1. -/
theorem exits_of_refused {error : LoadError} (hcompile : compile grammarText = .error error) :
    Exits host options 1 := by
  unfold Exits
  rw [run_perform hperform, map_bind]
  apply endsWith_bind_of_forall
  intro palette
  exact ((gives_refused hsource hread hcompile).map settle).map Outcome.exitCode

/-- A command exits with the code that the rest of it has in all colours. -/
theorem exits_of_loaded {program : Program} (hcompile : compile grammarText = .ok program)
    {status : Nat} (h : ∀ palette, ∃ outcome,
      Gives (rest palette source program).run (.ok outcome) ∧ outcome.exitCode = status) :
    Exits host options status := by
  unfold Exits
  rw [run_perform hperform, map_bind]
  apply endsWith_bind_of_forall
  intro palette
  obtain ⟨outcome, houtcome, rfl⟩ := h palette
  have hgives : Gives _ (Except.ok outcome) := endsWith_loaded hsource hread hcompile houtcome
  exact (hgives.map settle).map Outcome.exitCode

/-- A command ends as the rest of it does if colours do not matter. -/
theorem endsWith_of_loaded {program : Program} (hcompile : compile grammarText = .ok program)
    {last : m (Except LoadError Outcome)}
    (h : ∀ palette, EndsWith (rest palette source program).run last) :
    EndsWith (run host options) (settle <$> last) := by
  rw [run_perform hperform]
  apply endsWith_bind_of_forall
  intro palette
  exact (endsWith_loaded hsource hread hcompile (h palette)).map settle

end Performed

end Run

/-! ## Parsing -/

section Parse

variable {program : Program} {text : String} {tasks fuel : Nat}

/-- Should a text be accepted, then the references in its forest can be counted. -/
def ForestFits (program : Program) (fuel : Nat) (text : String) : Prop :=
  ∀ session root, program.parse .silent () fuel text = .ok true session →
    session.scheduler.root = some root → session.scheduler.forest.CountsFit root

/-- The forest of a parse can be shown, unless it has too many references. -/
theorem forestOf_spec (hwhole : program.Whole) {limit : Nat} {session : Session Unit Unit}
    (h : Session.Attended program limit session) :
    ((∀ root, session.scheduler.root = some root → session.scheduler.forest.CountsFit root) →
      ∃ lines, forestOf program session = .ok lines) ∧
    ∀ root, session.scheduler.root = some root → ¬ session.scheduler.forest.CountsFit root →
      forestOf program session = .error .overflow := by
  unfold forestOf
  cases hroot : session.scheduler.root with
  | none => exact ⟨fun _ => ⟨[], rfl⟩, fun _ hsome => nomatch hsome⟩
  | some root =>
    obtain ⟨fed, offers, hreaches⟩ := h.reaches
    obtain ⟨symbol, first, last, alternatives, hnode⟩ :=
      hreaches.law (Scheduler.law_rootKnown program.start) hroot
    refine ⟨fun hfits => ?_, fun other hother hmany => ?_⟩
    · obtain ⟨counts, lines, -, hlines, -⟩ :=
        (h.navigable hwhole).exists_outline hwhole hnode (hfits root rfl)
      exact ⟨lines, hlines⟩
    · obtain rfl := Option.some.inj hother
      exact (h.navigable hwhole).outline_eq_overflow hnode hmany

variable (hwhole : program.Whole) (h : program.Takes text tasks)
include hwhole h

/-- Without fuel for the work the three commands say so. -/
theorem exitCode_exhausted (palette : Text.Palette) (isForestWanted : Bool) (verbosity : Verbosity)
    (hlt : fuel < tasks) :
    (parse palette isForestWanted fuel program text).exitCode = 2 ∧
      (trace palette verbosity fuel program text).exitCode = 2 ∧
      ∃ outcome, gss fuel program text = .error outcome ∧ outcome.exitCode = 2 := by
  obtain ⟨session, hsilent⟩ :=
    h.exhausted hwhole (Tracer.isTotal_silent.shows program) () hlt
  obtain ⟨session', hshown⟩ := h.exhausted hwhole (hwhole.shows_transcript verbosity) #[] hlt
  refine ⟨?_, ?_, .ofRunError "" (.fuelExhausted fuel), ?_, rfl⟩
  · rw [parse, hsilent]
    rfl
  · rw [trace, hshown]
    rfl
  · rw [gss, hsilent]

/-- With fuel for the work the verdict is told. One command may show the forest besides, which can
fail. -/
theorem exitCode_verdict (hle : tasks ≤ fuel) :
    ∃ accepted : Bool,
      (accepted = true ↔ text.toList ∈ program.rightHandSides.language program.start) ∧
      (∀ palette isForestWanted, (isForestWanted = true → ForestFits program fuel text) →
        (parse palette isForestWanted fuel program text).exitCode = exitCode accepted) ∧
      (¬ ForestFits program fuel text →
        accepted = true ∧ ∀ palette, (parse palette true fuel program text).exitCode = 101) ∧
      ∀ palette verbosity,
        (trace palette verbosity fuel program text).exitCode = exitCode accepted := by
  obtain ⟨accepted, session, hsilent, -, hattended, hiff⟩ :=
    h.exists_parse hwhole (Tracer.isTotal_silent.shows program) () hle
  obtain ⟨hshown, hmany⟩ := forestOf_spec hwhole hattended
  refine ⟨accepted, hiff, fun palette isForestWanted hfits => ?_, fun hunfit => ?_,
    fun palette verbosity => ?_⟩
  · simp only [parse, hsilent]
    cases accepted with
    | false => rfl
    | true =>
      cases isForestWanted with
      | false => rfl
      | true =>
        obtain ⟨lines, hlines⟩ := hshown fun root hroot => hfits rfl session root hsilent hroot
        simp [hlines]
  · -- Counting fails for some parse of the text, and there is no other parse than this one.
    unfold ForestFits at hunfit
    push Not at hunfit
    obtain ⟨session', root, hparse, hroot, hunfit⟩ := hunfit
    rw [hsilent] at hparse
    obtain ⟨rfl, rfl⟩ : accepted = true ∧ session = session' := by simpa using hparse
    refine ⟨rfl, fun palette => ?_⟩
    simp [parse, hsilent, hmany root hroot hunfit, Outcome.ofFault]
  · obtain ⟨accepted', session', hshown, -, -, hiff'⟩ :=
      h.exists_parse hwhole (hwhole.shows_transcript verbosity) #[] hle
    -- The transcript is of the same parse, so it has the same verdict.
    obtain rfl : accepted' = accepted := Bool.eq_iff_iff.mpr (hiff'.trans hiff.symm)
    rw [trace, hshown]

/-- With fuel for the work the stacks can be written. -/
theorem exists_gss (hle : tasks ≤ fuel) :
    ∃ accepted session lines, program.parse .silent () fuel text = .ok accepted session ∧
      session.scheduler.graph.dot program (some session.scheduler.forest) = .ok lines ∧
      gss fuel program text = .ok (Text.unlines lines) := by
  obtain ⟨accepted, session, hsilent, -, hattended, -⟩ :=
    h.exists_parse hwhole (Tracer.isTotal_silent.shows program) () hle
  have hspans : ∀ forest ∈ some session.scheduler.forest, forest = session.scheduler.forest :=
    fun forest hforest => (Option.some.inj hforest).symm
  obtain ⟨lines, hlines⟩ := hattended.exists_dot hwhole hspans
  refine ⟨accepted, session, lines, hsilent, hlines, ?_⟩
  rw [gss, hsilent]
  simp only [hlines]

end Parse

/-! ## The three commands -/

theorem compile_eq {grammarText : String} {grammar : Grammar}
    (h : Grammar.ofText grammarText = .ok grammar) :
    compile grammarText = (Program.compile grammar).mapError LoadError.lowering := by
  rw [compile, h]
  rfl

/-- The start nonterminal of a program has the language of the start rule. -/
theorem exists_startRule {grammar : Grammar} {program : Program}
    (h : Program.compile grammar = .ok program) : ∃ start, grammar.startRule? = some start ∧
      program.rightHandSides.language program.start = grammar.language start := by
  obtain ⟨hflattened, -⟩ := Program.flattened_of_compile h
  obtain ⟨start, index, draft, hstart, hindex, -, rfl⟩ := Program.compile_eq_ok h
  exact ⟨start, hstart, Lowering.language_eq_of_flattened hflattened hindex⟩

section Exits

variable {m : Type → Type} [Monad m] (host : Host m) (options : Options)

/-- What the command that writes the stacks does with what was loaded. -/
def writeStacks (text : String) (program : Program) : ExceptT LoadError m Outcome :=
  match gss options.fuel program text with
  | .ok dot => deliverText host options.output dot
  | .error outcome => return outcome

theorem perform_parse : perform host { options with command := .parse } = (do
    let palette ← (choosePalette host options.color : m _)
    let text ← loadSource host { options with command := .parse }
    let program ← loadProgram host { options with command := .parse }
    return parse palette options.isForestWanted options.fuel program text) := rfl

theorem perform_trace : perform host { options with command := .trace } = (do
    let palette ← (choosePalette host options.color : m _)
    let text ← loadSource host { options with command := .trace }
    let program ← loadProgram host { options with command := .trace }
    return trace palette options.verbosity options.fuel program text) := rfl

theorem perform_gss : perform host { options with command := .gss } = (do
    let _ ← (choosePalette host options.color : m _)
    let text ← loadSource host { options with command := .gss }
    let program ← loadProgram host { options with command := .gss }
    writeStacks host options text program) := rfl

variable [LawfulMonad m] {host} {options} {source grammarText : String}
  (hsource : options.sourceText = some source)
  (hread : Gives (host.read options.grammarPath) (.ok grammarText.toUTF8))
include hsource hread

/-- The three commands are refused together. -/
theorem all_refused {error : LoadError} (hcompile : compile grammarText = .error error)
    {command : Command} (hcommand : command ≠ .dump) :
    Exits host { options with command } 1 := by
  cases command with
  | dump => exact absurd rfl hcommand
  | parse => exact exits_of_refused (perform_parse host options) hsource hread hcompile
  | trace => exact exits_of_refused (perform_trace host options) hsource hread hcompile
  | gss => exact exits_of_refused (perform_gss host options) hsource hread hcompile

variable {program : Program} (hcompile : compile grammarText = .ok program)
  (hwhole : program.Whole) {tasks : Nat} (htakes : program.Takes source tasks)
include hcompile hwhole htakes

/-- The three commands run out of fuel together. -/
theorem all_exhausted (hlt : options.fuel < tasks) {command : Command}
    (hcommand : command ≠ .dump) : Exits host { options with command } 2 := by
  have hexhausted palette := exitCode_exhausted hwhole htakes palette options.isForestWanted
    options.verbosity hlt
  cases command with
  | dump => exact absurd rfl hcommand
  | parse =>
    apply exits_of_loaded (perform_parse host options) hsource hread hcompile
    intro palette
    exact ⟨_, gives_pure _, (hexhausted palette).1⟩
  | trace =>
    apply exits_of_loaded (perform_trace host options) hsource hread hcompile
    intro palette
    exact ⟨_, gives_pure _, (hexhausted palette).2.1⟩
  | gss =>
    apply exits_of_loaded (perform_gss host options) hsource hread hcompile
    intro palette
    obtain ⟨outcome, hgss, houtcome⟩ := (hexhausted palette).2.2
    refine ⟨outcome, ?_, houtcome⟩
    rw [writeStacks, hgss]
    exact gives_pure _

/-- Two commands tell the verdict, one of them unless it is to show too large a forest. -/
theorem exits_verdict (hle : tasks ≤ options.fuel) :
    ∃ accepted : Bool,
      (accepted = true ↔ source.toList ∈ program.rightHandSides.language program.start) ∧
      ((accepted = true → options.isForestWanted = true →
          ForestFits program options.fuel source) →
        Exits host { options with command := .parse } (exitCode accepted)) ∧
      (options.isForestWanted = true → ¬ ForestFits program options.fuel source →
        Exits host { options with command := .parse } 101) ∧
      Exits host { options with command := .trace } (exitCode accepted) := by
  obtain ⟨accepted, hiff, hparse, hmany, htrace⟩ := exitCode_verdict hwhole htakes hle
  refine ⟨accepted, hiff, fun hfits => ?_, fun hwanted hunfit => ?_, ?_⟩
  · apply exits_of_loaded (perform_parse host options) hsource hread hcompile
    intro palette
    refine ⟨_, gives_pure _, hparse palette options.isForestWanted fun hwanted => ?_⟩
    by_contra hunfit
    exact hunfit (hfits (hmany hunfit).1 hwanted)
  · apply exits_of_loaded (perform_parse host options) hsource hread hcompile
    intro palette
    refine ⟨_, gives_pure _, ?_⟩
    rw [hwanted]
    exact (hmany hunfit).2 palette
  · apply exits_of_loaded (perform_trace host options) hsource hread hcompile
    intro palette
    exact ⟨_, gives_pure _, htrace palette options.verbosity⟩

/-- One command writes the stacks. -/
theorem endsWith_delivery (hle : tasks ≤ options.fuel)
    (hput : ∀ path, options.output = some path → ∀ text, Gives (host.put path text) (.ok ())) :
    ∃ accepted session lines,
      program.parse .silent () options.fuel source = .ok accepted session ∧
      session.scheduler.graph.dot program (some session.scheduler.forest) = .ok lines ∧
      EndsWith (run host { options with command := .gss })
        (delivery host options.output (Text.unlines lines)) := by
  obtain ⟨accepted, session, lines, hparse, hlines, hgss⟩ := exists_gss hwhole htakes hle
  refine ⟨accepted, session, lines, hparse, hlines, ?_⟩
  have hdeliver := run_deliverText fun path hpath => hput path hpath (Text.unlines lines)
  have hrest : EndsWith (writeStacks host options source program).run
      (Except.ok <$> delivery host options.output (Text.unlines lines)) := by
    rw [writeStacks, hgss]
    simp only [hdeliver]
    exact endsWith_self _
  have hends := endsWith_of_loaded (perform_gss host options) hsource hread hcompile
    fun _ => hrest
  rw [Functor.map_map] at hends
  simpa [settle] using hends

end Exits

/-- When writing succeeds, a text that is delivered means success. -/
theorem exitCode_delivery {m : Type → Type} [Monad m] [LawfulMonad m] {host : Host m}
    {output : Option String} {text : String}
    (hput : ∀ path, output = some path → Gives (host.put path text) (.ok ())) :
    Gives (Outcome.exitCode <$> delivery host output text) 0 := by
  cases output with
  | none =>
    have hdelivery : Gives (delivery host none text) (.success text) := gives_pure _
    exact hdelivery.map Outcome.exitCode
  | some path =>
    have hdelivery : Gives (delivery host (some path) text) (.success "") :=
      (hput path rfl).bind (gives_pure _)
    exact hdelivery.map Outcome.exitCode

/-- **The commands agree.** A grammar that is not read or does not compile makes all three exit
with 1, and a text that takes more work than there is fuel makes them exit with 2. Otherwise two of
them exit with 0 or 1, as the text is in the language of the start rule or not, and the third one
writes the stacks and exits with 0. There is an exception if the forest of the text is to be shown
and a count of its references does not fit its word: then the command that shows it breaks off. -/
theorem exitCodes_agree {m : Type → Type} [Monad m] [LawfulMonad m] {host : Host m}
    {options : Options} {source grammarText : String}
    (hsource : options.sourceText = some source)
    (hread : Gives (host.read options.grammarPath) (.ok grammarText.toUTF8))
    (hput : ∀ path, options.output = some path → ∀ text, Gives (host.put path text) (.ok ())) :
    (∀ error, Grammar.ofText grammarText = .error error →
      ∀ command, command ≠ .dump → Exits host { options with command } 1) ∧
    ∀ grammar, Grammar.ofText grammarText = .ok grammar →
      (∀ error, Program.compile grammar = .error error →
        ∀ command, command ≠ .dump → Exits host { options with command } 1) ∧
      ∀ program, Program.compile grammar = .ok program →
        ∃ start, grammar.startRule? = some start ∧ (∃! tasks, program.Takes source tasks) ∧
          ∀ tasks, program.Takes source tasks →
            (options.fuel < tasks →
              ∀ command, command ≠ .dump → Exits host { options with command } 2) ∧
            (tasks ≤ options.fuel →
              (source.toList ∈ grammar.language start →
                ((options.isForestWanted = true → ForestFits program options.fuel source) →
                  Exits host { options with command := .parse } 0) ∧
                (options.isForestWanted = true → ¬ ForestFits program options.fuel source →
                  Exits host { options with command := .parse } 101) ∧
                Exits host { options with command := .trace } 0) ∧
              (source.toList ∉ grammar.language start →
                Exits host { options with command := .parse } 1 ∧
                  Exits host { options with command := .trace } 1) ∧
              Exits host { options with command := .gss } 0 ∧
              ∃ accepted session lines,
                program.parse .silent () options.fuel source = .ok accepted session ∧
                session.scheduler.graph.dot program (some session.scheduler.forest)
                  = .ok lines ∧
                EndsWith (run host { options with command := .gss })
                  (delivery host options.output (Text.unlines lines))) := by
  refine ⟨fun error hgrammar command hcommand => ?_, fun grammar hgrammar => ?_⟩
  · have hcompile : compile grammarText = .error (.grammar error) := by
      rw [compile, hgrammar]
      rfl
    exact all_refused hsource hread hcompile hcommand
  have hmap := compile_eq hgrammar
  refine ⟨fun error hlower command hcommand => ?_, fun program hlower => ?_⟩
  · rw [hlower] at hmap
    exact all_refused hsource hread hmap hcommand
  · rw [hlower] at hmap
    have hcompile : compile grammarText = .ok program := hmap
    have hwhole := Program.whole_of_compile hlower
    obtain ⟨start, hstart, hlanguage⟩ := exists_startRule hlower
    obtain ⟨needed, hneeded⟩ := Program.exists_takes hwhole source
    refine ⟨start, hstart, ⟨needed, hneeded, fun _ h => h.unique hneeded⟩,
      fun tasks htakes => ⟨fun hlt command hcommand => ?_, fun hle => ?_⟩⟩
    · exact all_exhausted hsource hread hcompile hwhole htakes hlt hcommand
    · obtain ⟨accepted, hiff, hverdict, hmany, htrace⟩ :=
        exits_verdict hsource hread hcompile hwhole htakes hle
      obtain ⟨accepted', session, lines, hparse, hlines, hends⟩ :=
        endsWith_delivery hsource hread hcompile hwhole htakes hle hput
      rw [hlanguage] at hiff
      refine ⟨fun hmem => ?_, fun hmem => ?_, ?_, accepted', session, lines, hparse, hlines, hends⟩
      · rw [hiff.mpr hmem] at hverdict htrace
        exact ⟨fun hfits => hverdict fun _ => hfits, hmany, htrace⟩
      · rw [Bool.eq_false_iff.mpr fun haccepted => hmem (hiff.mp haccepted)] at hverdict htrace
        exact ⟨hverdict Bool.noConfusion, htrace⟩
      · exact (hends.map Outcome.exitCode).trans
          (exitCode_delivery fun path hpath => hput path hpath _)

/-- The grammar with one letter as a text. -/
def letterText : String :=
  "\x7b\"name\": \"letter\","
    ++ "\"rules\": \x7b\"S\": \x7b\"type\": \"STRING\",\"value\": \"a\"\x7d\x7d\x7d"

theorem ofText_letterText : Grammar.ofText letterText = .ok Session.letter := by
  have hrenders : Grammar.Renders "letter" none [("S", .literal "a")]
      (.object [(some "name", .string "letter"), (some "rules", .object [(some "S", .object
        [(some "type", .string "STRING"), (some "value", .string "a")] none)] none)] none) :=
    .mk .missing (.cons ⟨rfl, .literal (Json.lists_self _ _ _)⟩ .nil) (Json.lists_self _ _ _)
  have hlast {member : Option String × Json} {text : List Char}
      (h : Json.SpellsMember member text) :=
    Json.SpellsMoreMembers.cons Json.blanks_nil h Json.blanks_nil .nil
  have hrule := Json.Spells.object (.cons Json.blanks_nil
    (Json.spellsMember_self "type" (by decide) (Json.spells_self "STRING" (by decide)))
    Json.blanks_nil
    (hlast (Json.spellsMember_self "value" (by decide) (Json.spells_self "a" (by decide)))))
  have hrules := Json.Spells.object (.cons Json.blanks_nil
    (Json.spellsMember_self "S" (by decide) hrule) Json.blanks_nil .nil)
  have hdocument := Json.Spells.object (.cons Json.blanks_nil
    (Json.spellsMember_self "name" (by decide) (Json.spells_self "letter" (by decide)))
    Json.blanks_nil (hlast (Json.spellsMember_self "rules" (by decide) hrules)))
  -- The text is the one that spells these values without any blanks.
  have hread := hrenders.ofText (by decide)
    (Json.SpellsText.mk Json.blanks_nil hdocument Json.blanks_nil)
  exact (congrArg Grammar.ofText (by decide +kernel)).trans hread

/-- A host that has that grammar under every name and writes everywhere. -/
def letterHost : Host Id where
  fetch _ := .ok letterText.toUTF8
  input := .error "there is no input"
  put _ _ := .ok ()
  isTerminal := true

/-- Options by which the letter is parsed with just enough fuel. -/
def letterOptions : Options where
  command := .parse
  grammarPath := "letter.json"
  sourcePath := none
  sourceText := some "a"
  output := some "letter.dot"
  fuel := 4
  color := .auto
  isForestWanted := true
  verbosity := .verbose

/-- The letter has few references. -/
theorem forestFits_letter {program : Program}
    (hcompile : Program.compile Session.letter = .ok program) (fuel : Nat) :
    ForestFits program fuel "a" := by
  intro session root hparse _
  obtain ⟨other, hcompile', -, hentries, hslots⟩ := Session.compile_letter
  obtain rfl : program = other := Except.ok.inj (hcompile.symm.trans hcompile')
  obtain ⟨⟨offers, h⟩, -⟩ := Session.Reaches.start.of_parse hparse
  refine Program.compile_countsFit hcompile h ?_ root
  rw [Program.countBound, Program.slotCount, hslots, Program.nonterminalCount, hentries]
  decide

theorem exitCodes_agree_letter :
    Exits letterHost { letterOptions with command := .parse } 0 ∧
      Exits letterHost { letterOptions with command := .trace } 0 ∧
      Exits letterHost { letterOptions with command := .gss } 0 := by
  obtain ⟨program, session, hcompile, hparse⟩ := Session.parse_letter
  obtain ⟨tasks, hspent, -⟩ := Session.metered_parse "a" _ _ _ hparse
  have htakes : program.Takes "a" tasks := ⟨4, true, session, hparse, hspent⟩
  have hle : tasks ≤ 4 := by
    have heq : session.fuel + tasks = 4 := hspent
    omega
  have hread : Gives (letterHost.read letterOptions.grammarPath)
      (.ok letterText.toUTF8) := gives_pure _
  obtain ⟨start, hstart, -, hstatus⟩ := ((exitCodes_agree rfl hread fun _ _ _ => gives_pure _).2
    _ ofText_letterText).2 program hcompile
  obtain ⟨hmem, -, hgss, -⟩ := (hstatus tasks htakes).2 hle
  obtain ⟨start', hstart', hlanguage⟩ := exists_startRule hcompile
  obtain rfl := Option.some.inj (hstart.symm.trans hstart')
  have haccepted : "a".toList ∈ Session.letter.language start := by
    rw [← hlanguage]
    exact (Program.isAccepted_iff_of_parse (Program.laid_of_compile hcompile) hparse).mp rfl
  obtain ⟨hforest, -, htrace⟩ := hmem haccepted
  exact ⟨hforest fun _ => forestFits_letter hcompile _, htrace, hgss⟩

end Gll.CommandLine
