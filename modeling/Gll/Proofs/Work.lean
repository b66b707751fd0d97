import Gll.Proofs.Delivery

/-!
What is done for a task.

Between two tasks a parse is `Moment.Steady`: all its facts are proper, all results have been
delivered, and every frame of this generation that waits for a nonterminal has the alternatives of
the nonterminal scheduled for it. Each task leaves it steady (`execute_sound`, `pop_sound`), and
what the slot of a task is there for has come about afterwards:

| instruction | |
|---|---|
| test | if the current symbol passes, the caller is linked to a frame with the symbol staged |
| call | a frame is linked to the caller, and the alternatives are scheduled for it |
| completion | the prefix is packed under a derivation, which is a result of the caller |

This is `Moment.Covered`. It has no word on what is delivered over the new links or with the new
result, since that is served whenever the parse is steady.
-/

set_option autoImplicit false

namespace Gll

namespace Moment

section Notions

variable (program : Program) (input : List Char) (m : Moment)

/-- The alternatives of a nonterminal are scheduled for a frame. -/
def Entered (frame : StackId) (callee : Nonterminal) : Prop :=
  ∀ ⦃labels : List Label⦄ ⦃entry : Label⦄, program.entries? callee = some labels → entry ∈ labels →
    ∃ stem, m.Holds (.offered (.resume entry frame stem))

/-- The frames of this generation that wait for a nonterminal have its alternatives scheduled. -/
def Opened : Prop :=
  ∀ ⦃frame : StackId⦄ ⦃label : Label⦄ ⦃owner : Option Nonterminal⦄ ⦃before after : List Atom⦄
    ⦃callee : Nonterminal⦄, m.Holds (.frame frame label m.index) →
      program.Item label owner (before ++ [.nonterminal callee]) after →
        m.Entered program frame callee

/-- What a slot does for a caller with a prefix, by what is behind its dot. -/
def Fulfilled (label : Label) (caller : StackId) (stem : PrefixId) :
    Option Nonterminal → List Atom → Prop
  | _, .terminal matcher :: _ =>
    ∀ ⦃c : Char⦄, m.scheduler.current.char? = some c → matcher.accepts c = true →
      ∃ frame result, m.Holds (.frame frame label.next m.index) ∧
        m.Holds (.link frame ⟨caller, stem⟩) ∧ m.Holds (.staged (.shift frame result))
  | _, .nonterminal _ :: _ =>
    ∃ frame, m.Holds (.frame frame label.next m.index) ∧ m.Holds (.link frame ⟨caller, stem⟩)
  | some _, [] => ∃ id, m.Holds (.alternative id stem) ∧ m.Holds (.result caller id)
  | none, [] => True

/-- A slot has been run for a caller with a prefix. -/
def Covered (label : Label) (caller : StackId) (stem : PrefixId) : Prop :=
  ∀ ⦃owner : Option Nonterminal⦄ ⦃before after : List Atom⦄,
    program.Item label owner before after → m.Fulfilled label caller stem owner after

/-- All is as it should be between two tasks. -/
structure Steady : Prop where
  sound : m.Sound program input
  served : m.Served
  opened : m.Opened program

end Notions

variable {program : Program} {input : List Char} {before after : Moment} {new : Set Fact}

theorem Entered.mono {frame : StackId} {callee : Nonterminal}
    (h : before.Entered program frame callee)
    (hholds : ∀ {fact : Fact}, before.Holds fact → after.Holds fact) :
    after.Entered program frame callee := by
  intro labels entry hlabels hentry
  obtain ⟨stem, hoffered⟩ := h hlabels hentry
  exact ⟨stem, hholds hoffered⟩

/-- Only new frames have to be looked at. -/
theorem Opened.grow (h : before.Opened program) (hgrows : before.Grows after new)
    (hnew : ∀ {frame label owner earlier later callee}, .frame frame label before.index ∈ new →
      program.Item label owner (earlier ++ [.nonterminal callee]) later →
        after.Entered program frame callee) : after.Opened program := by
  intro frame label owner earlier later callee hframe hitem
  rw [index_of_control hgrows.control] at hframe
  rcases hgrows.onStacks hframe trivial with hold | hmem
  · exact (h hold hitem).mono hgrows.holds
  · exact hnew hmem hitem

/-- The only new frame waits for one atom. -/
theorem Opened.push (h : before.Opened program) {frame : StackId} {link : Link} {label : Label}
    {owner : Option Nonterminal} {earlier later : List Atom} {atom : Atom}
    (hgrows : before.Grows after {.frame frame label before.index, .link frame link})
    (hitem : program.Item label owner (earlier ++ [atom]) later) (hlaid : program.Laid)
    (hentered : ∀ callee, atom = .nonterminal callee → after.Entered program frame callee) :
    after.Opened program := by
  refine h.grow hgrows fun hmem hcall => ?_
  rcases hmem with heq | heq
  · cases heq
    obtain ⟨-, hatoms, -⟩ := hlaid.item_unique hitem hcall
    have hatom := (List.append_inj' hatoms rfl).2
    exact hentered _ (List.cons.inj hatom).1
  · cases heq

theorem Fulfilled.mono {label : Label} {caller : StackId} {stem : PrefixId}
    {owner : Option Nonterminal} {later : List Atom}
    (h : before.Fulfilled label caller stem owner later)
    (hholds : ∀ {fact : Fact}, before.Holds fact → after.Holds fact)
    (hcontrol : after.scheduler.control = before.scheduler.control) :
    after.Fulfilled label caller stem owner later := by
  have hindex := index_of_control hcontrol
  -- What has to be done at a slot is told by what is after its dot.
  cases later with
  | cons atom later =>
    cases atom with
    | terminal matcher =>
      intro c hchar haccepts
      rw [current_of_control hcontrol] at hchar
      obtain ⟨frame, result, hframe, hlink, hstaged⟩ := h hchar haccepts
      rw [hindex]
      exact ⟨frame, result, hholds hframe, hholds hlink, hholds hstaged⟩
    | nonterminal callee =>
      obtain ⟨frame, hframe, hlink⟩ := h
      rw [Fulfilled, hindex]
      exact ⟨frame, hholds hframe, hholds hlink⟩
  | nil =>
    cases owner with
    | some symbol =>
      obtain ⟨id, halternative, hresult⟩ := h
      exact ⟨id, hholds halternative, hholds hresult⟩
    | none => trivial

theorem Covered.mono {label : Label} {caller : StackId} {stem : PrefixId}
    (h : before.Covered program label caller stem)
    (hholds : ∀ {fact : Fact}, before.Holds fact → after.Holds fact)
    (hcontrol : after.scheduler.control = before.scheduler.control) :
    after.Covered program label caller stem :=
  fun _ _ _ hitem => (h hitem).mono hholds hcontrol

/-- A label is of one item, so it is enough to look at that. -/
theorem Fulfilled.covered {label : Label} {caller : StackId} {stem : PrefixId}
    {owner : Option Nonterminal} {earlier later : List Atom}
    (h : before.Fulfilled label caller stem owner later) (hlaid : program.Laid)
    (hitem : program.Item label owner earlier later) :
    before.Covered program label caller stem := by
  intro owner' earlier' later' hitem'
  obtain ⟨rfl, -, rfl⟩ := hlaid.item_unique hitem hitem'
  exact h

/-- A parse is steady for what holds of it, whatever is pending. -/
theorem Steady.congr (h : before.Steady program input)
    (hholds : ∀ fact, after.Holds fact ↔ before.Holds fact)
    (hcontrol : after.scheduler.control = before.scheduler.control) :
    after.Steady program input := by
  have hkeep : ∀ {fact : Fact}, before.Holds fact → after.Holds fact :=
    fun {fact} => (hholds fact).mpr
  refine ⟨⟨h.sound.situated.mono hkeep hcontrol, fun {fact} hfact => ?_⟩, ?_, ?_⟩
  · exact (h.sound.proper ((hholds fact).mp hfact)).mono hkeep hcontrol
  · intro frame label origin link result hframe hlink hresult
    exact (h.served ((hholds _).mp hframe) ((hholds _).mp hlink) ((hholds _).mp hresult)).mono hkeep
  · intro frame label owner earlier later callee hframe hitem
    rw [index_of_control hcontrol] at hframe
    exact (h.opened ((hholds _).mp hframe) hitem).mono hkeep

/-! ## Slots -/

variable {label : Label} {caller : StackId} {stem : PrefixId} {owner : Option Nonterminal}
  {earlier later : List Atom} {i : Nat}

/-- What holds after a slot has been run: the parse is steady, has only grown, and the slot is
covered. -/
structure Ran (program : Program) (input : List Char) (before after : Moment) (label : Label)
    (caller : StackId) (stem : PrefixId) : Prop where
  steady : after.Steady program input
  grows : before.Grows after (Fact.newAt before.index)
  covered : after.Covered program label caller stem

theorem executeTerminal_sound (hlaid : program.Laid) (hsteady : before.Steady program input)
    {matcher : Matcher} (hresumable : before.Resumable program input label caller stem owner earlier
      (.terminal matcher :: later) i)
    (h : (Program.executeTerminal matcher label caller stem).Leads before () after) :
    Ran program input before after label caller stem := by
  obtain ⟨hsound, hserved, hopened⟩ := hsteady
  obtain ⟨hitem, hcaller, hcanonical⟩ := hresumable
  have hstem := hsound.stem_of_canonical hlaid hitem hcanonical
  have hcurrent := hsound.situated.current
  simp only [Program.executeTerminal, Routine.leads_bind, Routine.leads_current,
    Routine.leads_note] at h
  obtain ⟨_, before, ⟨rfl, rfl⟩, _, before, rfl, hrest⟩ := h
  -- The test passes or it does not; if not, the slot has nothing to do.
  split at hrest
  · rename_i hmatch
    obtain ⟨c, hchar, haccepts⟩ := (Option.any_eq_true _ _).mp hmatch
    rw [hcurrent, Position.char?_of] at hchar
    obtain ⟨id, hid⟩ := hsound.situated.exists_terminal hchar
    simp only [Routine.leads_bind, Routine.leads_terminal] at hrest
    obtain ⟨_, before, ⟨rfl, rfl⟩, hrest⟩ := hrest
    rw [hid] at hrest
    simp only [Routine.leads_bind, Routine.leads_discard, Routine.leads_push,
      Routine.leads_scheduleLater] at hrest
    obtain ⟨frame, between, hpush, isNew, hlater⟩ := hrest
    obtain ⟨hsound', hgrows, hserved', hframe, hlink⟩ :=
      push_sound hlaid hsound hserved hitem.next hcaller hstem hpush
    have hindex := index_of_control hgrows.control
    have hterminal : between.Holds (.terminal id (.of input before.index)) := by
      rw [← hcurrent]
      exact hgrows.holds (hsound.situated.terminal hid)
    have hanswer : between.Answer program input frame id label.next owner earlier
        (.terminal matcher) later between.index (between.index + 1) := by
      rw [hindex]
      exact ⟨hframe, hitem.next, .terminal hterminal hchar haccepts⟩
    obtain ⟨hsound'', hgrows', hstaged⟩ := scheduleLater_sound hsound'
      ((congrArg Control.terminal hgrows.control).trans hid) hanswer hlater
    have hserved'' : after.Served := hserved'.grow hgrows' (by simp) (by simp)
    -- The new frame waits for a terminal, so nothing has to be scheduled for it.
    have hopened' : between.Opened program :=
      hopened.push hgrows hitem.next hlaid fun _ hatom => by cases hatom
    have hfulfilled : after.Fulfilled label caller stem owner (.terminal matcher :: later) := by
      intro _ _ _
      rw [index_of_control hgrows'.control, hindex]
      exact ⟨frame, id, hgrows'.holds hframe, hgrows'.holds hlink, hstaged⟩
    exact ⟨⟨hsound'', hserved'', hopened'.grow hgrows' (by simp)⟩,
      (hgrows.mono (by simp [Set.insert_subset_iff])).trans hgrows'.of_empty,
      hfulfilled.covered hlaid hitem⟩
  · rename_i hmatch
    obtain ⟨-, rfl⟩ := hrest
    have hfulfilled : after.Fulfilled label caller stem owner (.terminal matcher :: later) := by
      intro c hchar haccepts
      rw [hchar] at hmatch
      exact absurd haccepts (by simpa using hmatch)
    exact ⟨⟨hsound, hserved, hopened⟩, .refl _ _, hfulfilled.covered hlaid hitem⟩

/-- A loop that schedules the alternatives of a nonterminal for a frame that waits for it. -/
theorem entered_of_forEach (hlaid : program.Laid) (hsound : before.Sound program input)
    {frame : StackId} {callee : Nonterminal} {labels : List Label} {body : Label → Routine Unit}
    (hframe : before.Holds (.frame frame label before.index))
    (hitem : program.Item label owner (earlier ++ [.nonterminal callee]) later)
    (hlabels : program.entries? callee = some labels)
    (hbody : ∀ entry a b, before.Grows a ∅ → a.Sound program input → (body entry).Leads a () b →
      ∃ stem between isNew, between.Sound program input ∧ a.Grows between ∅ ∧
        between.Holds (.emptyKey stem) ∧
          (Scheduler.scheduleNow entry frame stem).Leads between isNew b)
    (h : Routine.Leads (Plan.forEach labels body) before () after) :
    after.Sound program input ∧ before.Grows after ∅ ∧ after.Entered program frame callee := by
  obtain ⟨hsound', hgrows, hoffered⟩ := sound_of_forEach
    (fun entry m => ∃ stem, m.Holds (.offered (.resume entry frame stem))) hsound
    (fun _ _ _ hgrows ⟨stem, hoffered⟩ => ⟨stem, hgrows.holds hoffered⟩) (by
      intro entry hentry a b hgrows hsound hleads
      obtain ⟨stem, between, isNew, hsound', hgrows', hkey, hschedule⟩ :=
        hbody entry a b hgrows hsound hleads
      have hentryItem := hlaid.item_entry hlabels hentry
      -- The frame begins here and the dot is in front, so the empty prefix is the canonical one.
      have hframe' := hgrows'.holds (hgrows.holds hframe)
      have hindex : between.index = before.index :=
        (index_of_control hgrows'.control).trans (index_of_control hgrows.control)
      rw [← hindex] at hframe'
      obtain ⟨hsound'', hgrows'', hoffered⟩ := scheduleNow_sound hsound'
        ⟨hentryItem, .frame hframe' hitem, .empty hkey⟩ hschedule
      exact ⟨hsound'', hgrows'.trans hgrows'', stem, hoffered⟩) h
  refine ⟨hsound', hgrows, fun _ entry hlabels' hentry => ?_⟩
  rw [hlabels, Option.some.injEq] at hlabels'
  exact hoffered entry (hlabels' ▸ hentry)

theorem executeCall_sound (hlaid : program.Laid) (hsteady : before.Steady program input)
    {callee : Nonterminal} (hresumable : before.Resumable program input label caller stem owner
      earlier (.nonterminal callee :: later) i)
    (h : (program.executeCall callee label caller stem).Leads before () after) :
    Ran program input before after label caller stem := by
  obtain ⟨hsound, hserved, hopened⟩ := hsteady
  obtain ⟨hitem, hcaller, hcanonical⟩ := hresumable
  have hstem := hsound.stem_of_canonical hlaid hitem hcanonical
  simp only [Program.executeCall, Routine.leads_bind, Routine.leads_push] at h
  obtain ⟨frame, between, hpush, hrest⟩ := h
  obtain ⟨hsound', hgrows, hserved', hframe, hlink⟩ :=
    push_sound hlaid hsound hserved hitem.next hcaller hstem hpush
  have hindex := index_of_control hgrows.control
  split at hrest
  · exact absurd hrest Routine.leads_fail
  · rename_i labels hlabels
    -- Every alternative is scheduled for the frame, whether it is new or not.
    rw [← hindex] at hframe
    obtain ⟨hsound'', hgrows', hentered⟩ := entered_of_forEach hlaid hsound' hframe hitem.next
      hlabels (by
        intro entry a b _ hsound hleads
        simp only [Routine.leads_bind, Routine.leads_emptyPrefix, Routine.leads_discard,
          Routine.leads_scheduleNow] at hleads
        obtain ⟨stem, between, ⟨hempty, ho⟩, isNew, hschedule⟩ := hleads
        obtain ⟨hsound', hgrows', hkey⟩ := emptyPrefix_sound hsound hempty ho
        exact ⟨stem, between, isNew, hsound', hgrows', hkey, hschedule⟩) hrest
    have hgrows'' : before.Grows after _ := hgrows.trans hgrows'.of_empty
    have hopened' : after.Opened program := by
      refine hopened.push hgrows'' hitem.next hlaid fun _ hatom => ?_
      cases hatom
      exact hentered
    have hfulfilled : after.Fulfilled label caller stem owner (.nonterminal callee :: later) := by
      rw [Fulfilled, index_of_control hgrows'.control]
      exact ⟨frame, hgrows'.holds hframe, hgrows'.holds hlink⟩
    exact ⟨⟨hsound'', hserved'.grow hgrows' (by simp) (by simp), hopened'⟩,
      hgrows''.mono (by simp [Set.insert_subset_iff]), hfulfilled.covered hlaid hitem⟩

theorem executeComplete_sound (hlaid : program.Laid) (hsteady : before.Steady program input)
    {symbol : Nonterminal} (hresumable : before.Resumable program input label caller stem
      (some symbol) earlier [] i)
    (h : (Program.executeComplete symbol caller stem).Leads before () after) :
    Ran program input before after label caller stem := by
  obtain ⟨hsound, hserved, hopened⟩ := hsteady
  obtain ⟨hitem, hcaller, hcanonical⟩ := hresumable
  have hstem := hsound.stem_of_canonical hlaid hitem hcanonical
  simp only [Program.executeComplete, Routine.leads_bind, Routine.leads_look, Routine.leads_derive,
    Routine.leads_pop] at h
  obtain ⟨node, before, ⟨hnode, rfl⟩, id, between, hderive, hpop⟩ := h
  rw [hstem.first hnode] at hderive
  obtain ⟨hsound', hgrows, hkey, halternative⟩ := derive_sound hsound hitem hcaller hstem hderive
  have hindex := index_of_control hgrows.control
  have hcaller' := hcaller.mono hgrows.lasts
  -- The initial stack waits for no nonterminal, so the caller is a frame.
  cases hcaller' with
  | frame hframe hcall =>
    have hderives := hstem.derivesTree hitem
    rw [← hindex] at hderives
    have hanswer := Answer.mk hframe hcall
      (.nonterminal (hsound'.derivation_of_key hkey) halternative hderives)
    obtain ⟨hsound'', hgrows', hserved', hresult⟩ :=
      pop_sound hlaid hsound' (hserved.grow hgrows (by simp) (by simp)) hanswer hpop
    have hopened' : after.Opened program :=
      (hopened.grow hgrows (by simp)).grow hgrows' (by simp)
    have hfulfilled : after.Fulfilled label caller stem (some symbol) [] :=
      ⟨id, hgrows'.holds halternative, hresult⟩
    exact ⟨⟨hsound'', hserved', hopened'⟩, hgrows.of_empty.trans (hgrows'.mono (by simp)),
      hfulfilled.covered hlaid hitem⟩

theorem executeAccept_sound (hlaid : program.Laid) (hsteady : before.Steady program input)
    (hitem : program.Item label none earlier later)
    (h : (Program.executeAccept stem).Leads before () after) :
    Ran program input before after label caller stem := by
  simp only [Program.executeAccept, Routine.leads_bind, Routine.leads_look,
    Routine.leads_note] at h
  obtain ⟨node, before, ⟨-, rfl⟩, rfl⟩ := h
  obtain ⟨_, _, rfl⟩ := hitem.eq_accept
  have hfulfilled : after.Fulfilled label caller stem none [] := trivial
  exact ⟨hsteady, .refl _ _, hfulfilled.covered hlaid hitem⟩

/-- A slot that may be resumed for a caller is covered when it has been run. -/
theorem execute_sound (hlaid : program.Laid) (hsteady : before.Steady program input)
    (hresumable : before.Resumable program input label caller stem owner earlier later i)
    (h : (program.execute label caller stem).Leads before () after) :
    Ran program input before after label caller stem := by
  rw [Program.execute] at h
  have hitem := hresumable.item
  cases later with
  | cons atom later =>
    rw [hitem.slot?_cons] at h
    cases atom with
    | terminal matcher => exact executeTerminal_sound hlaid hsteady hresumable h
    | nonterminal callee => exact executeCall_sound hlaid hsteady hresumable h
  | nil =>
    cases owner with
    | some symbol =>
      rw [hitem.slot?_nil] at h
      exact executeComplete_sound hlaid hsteady hresumable h
    | none =>
      obtain ⟨rfl, _, _⟩ := hitem.eq_accept
      rw [hlaid.accept] at h
      exact executeAccept_sound hlaid hsteady hitem h

/-- Seeding makes the frame at which everything ends. -/
theorem seed_sound (hlaid : program.Laid) (hsteady : before.Steady program input)
    (hindex : before.index = 0) (h : program.seed.Leads before () after) :
    after.Steady program input ∧ before.Grows after (Fact.newAt before.index) ∧
      ∃ frame, after.Holds (.frame frame Program.acceptLabel 0) := by
  obtain ⟨hsound, hserved, hopened⟩ := hsteady
  simp only [Program.seed, Routine.leads_bind, Routine.leads_emptyPrefix, Routine.leads_push] at h
  obtain ⟨stem, made, ⟨hempty, ho⟩, frame, between, hpush, hrest⟩ := h
  obtain ⟨hsound₁, hgrows₁, hkey⟩ := emptyPrefix_sound hsound hempty ho
  have hindex₁ : made.index = 0 := (index_of_control hgrows₁.control).trans hindex
  have hitem : program.Item Program.acceptLabel none ([] ++ [.nonterminal program.start]) [] :=
    .accept
  -- Before the call of the start symbol stands nothing, at offset 0.
  have hstem : made.Stem program input Program.acceptLabel [] stem 0 made.index := by
    have hnode := hsound₁.empty_of_key hkey
    rw [hindex₁] at hnode ⊢
    exact .empty hnode
  obtain ⟨hsound₂, hgrows₂, hserved₂, hframe, hlink⟩ := push_sound hlaid hsound₁
    (hserved.grow hgrows₁ (by simp) (by simp)) hitem .initial hstem hpush
  have hindex₂ := index_of_control hgrows₂.control
  split at hrest
  · exact absurd hrest Routine.leads_fail
  · rename_i labels hlabels
    rw [← hindex₂] at hframe
    obtain ⟨hsound₃, hgrows₃, hentered⟩ := entered_of_forEach hlaid hsound₂ hframe hitem hlabels (by
      intro entry a b hgrows hsound hleads
      simp only [Routine.leads_discard, Routine.leads_scheduleNow] at hleads
      obtain ⟨isNew, hschedule⟩ := hleads
      exact ⟨stem, a, isNew, hsound, .refl _ _, hgrows.holds (hgrows₂.holds hkey), hschedule⟩) hrest
    have hgrows₄ : made.Grows after _ := hgrows₂.trans hgrows₃.of_empty
    have hopened' : after.Opened program := by
      refine (hopened.grow hgrows₁ (by simp)).push hgrows₄ hitem hlaid fun _ hatom => ?_
      cases hatom
      exact hentered
    refine ⟨⟨hsound₃, hserved₂.grow hgrows₃ (by simp) (by simp), hopened'⟩,
      hgrows₁.of_empty.trans (hgrows₄.mono (by simp [Set.insert_subset_iff, hindex₁, hindex])),
      frame, ?_⟩
    rw [hindex₂, hindex₁] at hframe
    exact hgrows₃.holds hframe

end Moment

end Gll
