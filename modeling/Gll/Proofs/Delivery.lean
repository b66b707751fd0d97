import Gll.Proofs.Sound

/-!
What the operations of a scheduler bring about when all is as it should be.

For each operation there is one statement of the same form: from a sound moment, and given what its
arguments are, it leads to a sound moment, it takes nothing back and brings no frames, links and
results but its own, and what it is for holds afterwards.

The point of the whole arrangement of frames is `Moment.Served`: every result of a frame has been
delivered over every link of it. It is an equation between two sets that both grow, so it cannot be
kept by growing alone. `push` brings a link and delivers the results to it that are there; `pop`
brings a result and delivers it over the links that are there. No other operation brings either.
-/

set_option autoImplicit false

namespace Gll

namespace Moment

/-- A result was delivered over a link: the prefix of the caller was extended by it, and the caller
was to be resumed with that. -/
def Delivered (m : Moment) (label : Label) (link : Link) (result : SymbolId) : Prop :=
  ∃ first split id, m.Holds (.consKey label first id) ∧
    m.Holds (.split id ⟨label, split, link.stem, result⟩) ∧
      m.Holds (.offered (.resume label link.caller id))

/-- Every result of a frame was delivered over every link of it. -/
def Served (m : Moment) : Prop :=
  ∀ ⦃frame : StackId⦄ ⦃label : Label⦄ ⦃origin : Nat⦄ ⦃link : Link⦄ ⦃result : SymbolId⦄,
    m.Holds (.frame frame label origin) → m.Holds (.link frame link) →
      m.Holds (.result frame result) → m.Delivered label link result

variable {program : Program} {input : List Char} {before after : Moment} {new : Set Fact}

theorem Delivered.mono {label : Label} {link : Link} {result : SymbolId}
    (h : before.Delivered label link result)
    (hholds : ∀ {fact : Fact}, before.Holds fact → after.Holds fact) :
    after.Delivered label link result := by
  obtain ⟨first, split, id, hkey, hsplit, hoffered⟩ := h
  exact ⟨first, split, id, hholds hkey, hholds hsplit, hholds hoffered⟩

/-- Only new links and results have to be looked at, and what a loop that comes after them delivers.
New frames do not matter, for they have no links yet. -/
theorem Served.of_delivered {between : Moment} (h : before.Served)
    (hgrows : before.Grows between new) (hloop : between.Grows after ∅)
    (hnew : ∀ {frame label origin link result}, between.Holds (.frame frame label origin) →
      between.Holds (.link frame link) → between.Holds (.result frame result) →
        before.Holds (.link frame link) ∧ before.Holds (.result frame result) ∨
          after.Delivered label link result) : after.Served := by
  intro frame label origin link result hframe hlink hresult
  have hlink' : between.Holds (.link frame link) :=
    (hloop.onStacks hlink trivial).resolve_right (Set.notMem_empty _)
  have hresult' : between.Holds (.result frame result) :=
    (hloop.onStacks hresult trivial).resolve_right (Set.notMem_empty _)
  obtain ⟨label', origin', hframe'⟩ := frame_of_link hlink'
  obtain ⟨rfl, rfl⟩ := frame_unique hframe (hloop.holds hframe')
  rcases hnew hframe' hlink' hresult' with ⟨hlink₀, hresult₀⟩ | hdelivered
  · -- Both are from before, and then so is the frame, since it has the link.
    obtain ⟨label₀, origin₀, hframe₀⟩ := frame_of_link hlink₀
    obtain ⟨rfl, rfl⟩ := frame_unique hframe' (hgrows.holds hframe₀)
    exact (h hframe₀ hlink₀ hresult₀).mono fun hfact => hloop.holds (hgrows.holds hfact)
  · exact hdelivered

/-- What brings no links and results leaves all results delivered. -/
theorem Served.grow (h : before.Served) (hgrows : before.Grows after new)
    (hlinks : ∀ frame link, .link frame link ∉ new)
    (hresults : ∀ frame result, .result frame result ∉ new) : after.Served := by
  refine h.of_delivered hgrows (.refl _ _) fun _ hlink hresult => .inl ⟨?_, ?_⟩
  · exact (hgrows.onStacks hlink trivial).resolve_right (hlinks _ _)
  · exact (hgrows.onStacks hresult trivial).resolve_right (hresults _ _)

/-! ## Things that are made on first use -/

theorem emptyPrefix_sound (hsound : before.Sound program input) {id : PrefixId}
    (h : before.scheduler.emptyPrefix = (id, after.scheduler)) (ho : after.offers = before.offers) :
    after.Sound program input ∧ before.Grows after ∅ ∧ after.Holds (.emptyKey id) := by
  rcases emptyPrefix_cases h ho with ⟨rfl, hkey⟩ | ⟨_, hadds⟩
  · exact ⟨hsound, .refl _ _, hkey⟩
  · have hindex := index_of_control hadds.control
    refine ⟨hsound.of_new hadds.holds hadds.control ?_, hadds.grows (by simp) ?_,
      (hadds.holds _).mpr (.inr (by simp))⟩
    · rintro fact (rfl | rfl)
      · exact ⟨before.index, hindex.ge, hsound.situated.current⟩
      · simp only [Proper]
        rw [hindex, ← hsound.situated.current]
        exact (hadds.holds _).mpr (.inr (by simp))
    · rintro fact (rfl | rfl) ⟨⟩

theorem consFor_sound (hsound : before.Sound program input) {label : Label}
    {owner : Option Nonterminal} {earlier later : List Atom} {atom : Atom} {i : Nat} {id : PrefixId}
    (hitem : program.Item label owner (earlier ++ [atom]) later)
    (hcaller : ∃ caller, before.Caller program caller owner i)
    (hderives : ∃ trees,
      program.rightHandSides.Derives input (earlier ++ [atom]) i before.index trees)
    (h : before.scheduler.consFor label (.of input i) = (id, after.scheduler))
    (ho : after.offers = before.offers) :
    after.Sound program input ∧ before.Grows after ∅ ∧
      after.Holds (.consKey label (.of input i) id) := by
  -- A prefix that is found was sound before; one that is made derives what was asked for.
  rcases consFor_cases h ho with ⟨rfl, hkey⟩ | ⟨_, hadds⟩
  · exact ⟨hsound, .refl _ _, hkey⟩
  · have hindex := index_of_control hadds.control
    have hgrows : before.Grows after ∅ := hadds.grows (by simp) (by rintro fact (rfl | rfl) ⟨⟩)
    obtain ⟨caller, hcaller⟩ := hcaller
    refine ⟨hsound.of_new hadds.holds hadds.control ?_, hgrows,
      (hadds.holds _).mpr (.inr (by simp))⟩
    rintro fact (rfl | rfl)
    · exact ⟨owner, earlier, atom, later, i, before.index, hindex.ge, rfl,
        hsound.situated.current, hitem, ⟨caller, hcaller.mono hgrows.lasts⟩, hderives⟩
    · simp only [Proper]
      rw [hindex, ← hsound.situated.current]
      exact (hadds.holds _).mpr (.inr (by simp))

theorem derivationFor_sound (hsound : before.Sound program input) {symbol : Nonterminal} {i : Nat}
    {id : SymbolId} (hcaller : ∃ caller, before.Caller program caller (some symbol) i)
    (h : before.scheduler.derivationFor symbol (.of input i) = (id, after.scheduler))
    (ho : after.offers = before.offers) :
    after.Sound program input ∧ before.Grows after ∅ ∧
      after.Holds (.derivationKey symbol (.of input i) id) := by
  rcases derivationFor_cases h ho with ⟨rfl, hkey⟩ | ⟨_, hadds⟩
  · exact ⟨hsound, .refl _ _, hkey⟩
  · have hindex := index_of_control hadds.control
    have hgrows : before.Grows after ∅ := hadds.grows (by simp) (by rintro fact (rfl | rfl) ⟨⟩)
    obtain ⟨caller, hcaller⟩ := hcaller
    refine ⟨hsound.of_new hadds.holds hadds.control ?_, hgrows,
      (hadds.holds _).mpr (.inr (by simp))⟩
    rintro fact (rfl | rfl)
    · exact ⟨i, before.index, hindex.ge, rfl, hsound.situated.current,
        fun _ => (hadds.holds _).mpr (.inr (by simp)), .inr ⟨caller, hcaller.mono hgrows.lasts⟩⟩
    · simp only [Proper]
      rw [hindex, ← hsound.situated.current]
      exact (hadds.holds _).mpr (.inr (by simp))

theorem frameFor_sound (hsound : before.Sound program input) {label : Label}
    {owner : Option Nonterminal} {earlier later : List Atom} {atom : Atom} {id : StackId}
    (hitem : program.Item label owner (earlier ++ [atom]) later)
    (h : before.scheduler.frameFor label before.index = (id, after.scheduler))
    (ho : after.offers = before.offers) :
    after.Sound program input ∧ before.Grows after {.frame id label before.index} ∧
      after.Holds (.frame id label before.index) := by
  rcases frameFor_cases h ho with ⟨rfl, hkey⟩ | ⟨_, hadds⟩
  · exact ⟨hsound, .refl _ _, (hsound.proper hkey).1⟩
  · have hindex := index_of_control hadds.control
    have hframe : after.Holds (.frame id label before.index) :=
      (hadds.holds _).mpr (.inr (by simp))
    refine ⟨hsound.of_new hadds.holds hadds.control ?_, hadds.grows (by simp) ?_, hframe⟩
    · rintro fact (rfl | rfl)
      · exact ⟨hindex.ge, fun _ => (hadds.holds _).mpr (.inr (by simp)), owner, earlier, atom,
          later, hitem⟩
      · exact ⟨hframe, hindex.symm⟩
    · rintro fact (rfl | rfl) hstacks
      · exact rfl
      · cases hstacks

/-! ## Forest operations -/

/-- A prefix that is extended by a symbol is the one that the tables have for its item and offset,
and holds the extension. -/
theorem append_sound (hsound : before.Sound program input) {label : Label}
    {owner : Option Nonterminal} {earlier later : List Atom} {atom : Atom} {i l : Nat}
    {left id : PrefixId} {right : SymbolId}
    (hitem : program.Item label owner (earlier ++ [atom]) later)
    (hcaller : ∃ caller, before.Caller program caller owner i)
    (hstem : before.Stem program input label earlier left i l)
    (hderivative : before.Derivative program input atom right l before.index)
    (hderives : ∃ trees,
      program.rightHandSides.Derives input (earlier ++ [atom]) i before.index trees)
    (h : (Scheduler.append label left right).Leads before id after) :
    after.Sound program input ∧ before.Grows after ∅ ∧
      after.Holds (.consKey label (.of input i) id) ∧
        after.Holds (.split id ⟨label, .of input l, left, right⟩) := by
  obtain ⟨stem, symbol, made, hstemNode, hcons, hsymbolNode, hafter⟩ := Scheduler.leads_append.mp h
  let between : Moment := ⟨made, before.offers⟩
  -- The prefix begins where the left part does.
  have hmade : before.scheduler.consFor label (.of input i) = (id, between.scheduler) := by
    rw [hstem.first (Fault.unlessSome_eq_ok_iff.mpr hstemNode)] at hcons
    exact hcons
  obtain ⟨hsound', hgrows, hkey⟩ := consFor_sound hsound hitem hcaller hderives hmade rfl
  have hindex := index_of_control hgrows.control
  have hnode := hsound'.cons_of_key hkey
  have hderivative' := hderivative.mono hgrows.lasts
  rw [hderivative'.first (Fault.unlessSome_eq_ok_iff.mpr hsymbolNode)] at hafter
  have hoffers : after.offers = before.offers := by rw [hafter]
  have hadds := packSplit_adds hnode (congrArg Moment.scheduler hafter) hoffers
  have hgrows' : between.Grows after ∅ := hadds.grows (by simp) (by rintro fact rfl ⟨⟩)
  -- The one new fact is the split.
  refine ⟨hsound'.of_new hadds.holds hadds.control ?_, hgrows.trans hgrows', hgrows'.holds hkey,
    (hadds.holds _).mpr (.inr rfl)⟩
  rintro fact rfl
  refine ⟨owner, earlier, atom, later, i, l, before.index, ?_, hitem, rfl,
    hstem.mono (hgrows.trans hgrows').lasts, hderivative'.mono hgrows'.lasts⟩
  rw [← hindex]
  exact hgrows'.holds hnode

/-- A complete right-hand side is packed under the derivation that the tables have for its owner and
offset. -/
theorem derive_sound (hsound : before.Sound program input) {symbol : Nonterminal} {label : Label}
    {earlier : List Atom} {i : Nat} {child : PrefixId} {id : SymbolId} {caller : StackId}
    (hitem : program.Item label (some symbol) earlier [])
    (hcaller : before.Caller program caller (some symbol) i)
    (hstem : before.Stem program input label.next earlier child i before.index)
    (h : (Scheduler.derive symbol (.of input i) child).Leads before id after) :
    after.Sound program input ∧ before.Grows after ∅ ∧
      after.Holds (.derivationKey symbol (.of input i) id) ∧
        after.Holds (.alternative id child) := by
  obtain ⟨made, hderivation, hafter⟩ := Scheduler.leads_derive.mp h
  let between : Moment := ⟨made, before.offers⟩
  have hmade : before.scheduler.derivationFor symbol (.of input i) = (id, between.scheduler) :=
    hderivation
  obtain ⟨hsound', hgrows, hkey⟩ := derivationFor_sound hsound ⟨caller, hcaller⟩ hmade rfl
  have hindex := index_of_control hgrows.control
  have hnode := hsound'.derivation_of_key hkey
  have hoffers : after.offers = before.offers := by rw [hafter]
  have hadds := packAlternative_adds hnode (congrArg Moment.scheduler hafter) hoffers
  have hgrows' : between.Grows after ∅ := hadds.grows (by simp) (by rintro fact rfl ⟨⟩)
  -- The one new fact is the alternative.
  refine ⟨hsound'.of_new hadds.holds hadds.control ?_, hgrows.trans hgrows', hgrows'.holds hkey,
    (hadds.holds _).mpr (.inr rfl)⟩
  rintro fact rfl
  refine ⟨symbol, label, earlier, i, before.index, ?_, hitem,
    hstem.mono (hgrows.trans hgrows').lasts⟩
  rw [← hindex]
  exact hgrows'.holds hnode

/-! ## Scheduling -/

/-- To schedule is to offer a task; that it was there already is only reported. -/
theorem offer_of_leads {task : Task} {event : Event} {isNew : Bool}
    (h : Act.Leads (do
      let isNew ← Act.offer task
      if isNew then return true
      Act.emit event
      return false) before isNew after) :
    ∃ taken, Scheduler.offer task before.scheduler = (taken, after.scheduler) ∧
      after.offers = before.offers ++ [task] := by
  simp only [Act.leads_bind, Act.leads_offer] at h
  obtain ⟨taken, between, hoffer, hrest⟩ := h
  have heq : after = between := by
    split at hrest
    · exact hrest.2
    · simp only [Act.leads_bind, Act.leads_emit, Act.leads_pure] at hrest
      obtain ⟨_, _, rfl, _, rfl⟩ := hrest
      rfl
  subst heq
  exact ⟨taken, hoffer⟩

/-- A slot that is scheduled was offered to be resumed with exactly this prefix, also if it was not
taken because it had been scheduled before. -/
theorem scheduleNow_sound (hsound : before.Sound program input) {label : Label} {caller : StackId}
    {stem : PrefixId} {owner : Option Nonterminal} {earlier later : List Atom} {i : Nat}
    {isNew : Bool}
    (hresumable : before.Resumable program input label caller stem owner earlier later i)
    (h : (Scheduler.scheduleNow label caller stem).Leads before isNew after) :
    after.Sound program input ∧ before.Grows after ∅ ∧
      after.Holds (.offered (.resume label caller stem)) := by
  obtain ⟨taken, hoffer, ho⟩ := offer_of_leads h
  rcases offer_resume_cases hoffer ho with ⟨_, hresumed, hadds⟩ | ⟨_, _, hholds, hcontrol, hpending⟩
  · -- It was resumed before: nothing is new but that it was offered once more.
    have hgrows : before.Grows after ∅ := hadds.grows (by simp) (by rintro fact rfl ⟨⟩)
    refine ⟨hsound.of_new hadds.holds hadds.control ?_, hgrows, (hadds.holds _).mpr (.inr rfl)⟩
    rintro fact rfl
    exact ⟨hgrows.holds hresumed, owner, earlier, later, i,
      hresumable.mono hgrows.holds hgrows.control⟩
  · -- It is new, and then it waits in the queue.
    have hold : ∀ {fact : Fact}, before.Holds fact → after.Holds fact :=
      fun hfact => (hholds _).mpr (.inl hfact)
    have hoffered : after.Holds (.offered (.resume label caller stem)) :=
      (hholds _).mpr (.inr (by simp))
    have hwaits : .resume label caller stem ∈ after.pending := by simp [hpending]
    refine ⟨hsound.of_new hholds hcontrol ?_, ?_, hoffered⟩
    · rintro fact (rfl | rfl)
      · exact ⟨stem, hoffered⟩
      · exact ⟨(hholds _).mpr (.inr (by simp)), owner, earlier, later, i,
          hresumable.mono hold hcontrol⟩
    · constructor
      · exact hold
      · rintro fact hfact hstacks
        refine .inl (((hholds _).mp hfact).resolve_right ?_)
        rintro (rfl | rfl) <;> cases hstacks
      · exact hcontrol
      · intro task htask
        simp [hpending, htask]
      · intro task htask
        rw [hpending, List.mem_append, List.mem_singleton] at htask
        exact htask.imp_right fun heq => ⟨label, caller, stem, heq, heq ▸ hoffered⟩
      · intro label' caller' hresumed
        refine ((hholds _).mp hresumed).imp_right ?_
        rintro (heq | heq)
        · cases heq
          exact ⟨stem, hwaits⟩
        · cases heq

/-- The terminal of the current symbol is staged for a frame, if it was not before. -/
theorem scheduleLater_sound (hsound : before.Sound program input) {frame : StackId}
    {result : SymbolId} {label : Label} {owner : Option Nonterminal} {earlier later : List Atom}
    {matcher : Matcher} {isNew : Bool} (hterminal : before.scheduler.terminal = some result)
    (hanswer : before.Answer program input frame result label owner earlier (.terminal matcher)
      later before.index (before.index + 1))
    (h : (Scheduler.scheduleLater frame result).Leads before isNew after) :
    after.Sound program input ∧ before.Grows after ∅ ∧
      after.Holds (.staged (.shift frame result)) := by
  obtain ⟨taken, hoffer, ho⟩ := offer_of_leads h
  rcases offer_shift_cases hoffer ho with ⟨_, hshifted, hadds⟩ | ⟨_, _, hadds⟩
  · have hgrows : before.Grows after ∅ := hadds.grows (by simp) (by rintro fact rfl ⟨⟩)
    -- It was staged before, and then it was the same terminal.
    obtain ⟨known, hstaged⟩ := hsound.proper hshifted
    have hknown := (hsound.proper hstaged).1
    rw [hterminal, Option.some.injEq] at hknown
    subst hknown
    refine ⟨hsound.of_new hadds.holds hadds.control ?_, hgrows, hgrows.holds hstaged⟩
    rintro fact rfl
    exact hgrows.holds hstaged
  · have hgrows : before.Grows after ∅ :=
      hadds.grows (by simp) (by rintro fact (rfl | rfl | rfl) ⟨⟩)
    have hindex := index_of_control hadds.control
    have hstaged : after.Holds (.staged (.shift frame result)) :=
      (hadds.holds _).mpr (.inr (by simp))
    refine ⟨hsound.of_new hadds.holds hadds.control ?_, hgrows, hstaged⟩
    rintro fact (rfl | rfl | rfl)
    · exact ⟨result, hstaged⟩
    · simp only [Proper, hindex]
      exact ⟨(congrArg Control.terminal hadds.control).trans hterminal, label, owner, earlier,
        matcher, later, hanswer.mono hgrows.lasts⟩
    · exact hstaged

/-! ## Links and results -/

theorem deliver_sound (hlaid : program.Laid) (hsound : before.Sound program input)
    {frame : StackId} {label : Label} {origin : Nat} {link : Link} {result : SymbolId}
    {answer : Unit}
    (hframe : before.Holds (.frame frame label origin)) (hlink : before.Holds (.link frame link))
    (hresult : before.Holds (.result frame result))
    (h : (Scheduler.deliver link result label).Leads before answer after) :
    after.Sound program input ∧ before.Grows after ∅ ∧ after.Delivered label link result := by
  obtain ⟨id, between, isNew, happend, hschedule⟩ := Scheduler.leads_deliver.mp h
  obtain ⟨caller, stem⟩ := link
  -- The link knows what is before the atom, the result is over the atom. Both are facts about the
  -- same frame, and its label has one item.
  obtain ⟨label', owner, earlier, atom, later, i, l, hframe', hitem, hcaller, hstem⟩ :=
    hsound.proper hlink
  obtain ⟨rfl, rfl⟩ := frame_unique hframe hframe'
  obtain ⟨label', owner', earlier', atom', later', l', hanswer⟩ := hsound.proper hresult
  obtain ⟨rfl, rfl⟩ := frame_unique hframe hanswer.frame
  obtain ⟨rfl, hatoms, rfl⟩ := hlaid.item_unique hitem hanswer.item
  obtain ⟨rfl, hatom⟩ := List.append_inj' hatoms rfl
  obtain ⟨rfl, -⟩ := List.cons.inj hatom
  obtain ⟨trees, hleft⟩ := hstem.derives
  obtain ⟨tree, hright⟩ := hanswer.derivative.derives
  obtain ⟨hsound', hgrows, hkey, hsplit⟩ :=
    append_sound hsound hitem ⟨caller, hcaller⟩ hstem hanswer.derivative
      ⟨_, hleft.append hright⟩ happend
  obtain ⟨hsound'', hgrows', hoffered⟩ :=
    scheduleNow_sound hsound' ⟨hitem, hcaller.mono hgrows.lasts, .cons hkey⟩ hschedule
  exact ⟨hsound'', hgrows.trans hgrows', _, _, id, hgrows'.holds hkey, hgrows'.holds hsplit,
    hoffered⟩

/-- A caller that is linked under a frame gets the results that the frame has. -/
theorem push_sound (hlaid : program.Laid) (hsound : before.Sound program input)
    (hserved : before.Served) {label : Label} {owner : Option Nonterminal}
    {earlier later : List Atom} {atom : Atom} {caller frame : StackId} {stem : PrefixId} {i : Nat}
    (hitem : program.Item label owner (earlier ++ [atom]) later)
    (hcaller : before.Caller program caller owner i)
    (hstem : before.Stem program input label earlier stem i before.index)
    (h : (Scheduler.push label caller before.index stem).Leads before frame after) :
    after.Sound program input ∧
      before.Grows after {.frame frame label before.index, .link frame ⟨caller, stem⟩} ∧
        after.Served ∧ after.Holds (.frame frame label before.index) ∧
          after.Holds (.link frame ⟨caller, stem⟩) := by
  simp only [Scheduler.push, Act.leads_bind, Act.leads_update, Act.leads_emit] at h
  obtain ⟨known, made, ⟨hframeFor, ho⟩, isNew, linked, ⟨hlinked, ho'⟩, _, linked, rfl, hrest⟩ := h
  obtain ⟨hsound₁, hgrows₁, hframe₁⟩ := frameFor_sound hsound hitem hframeFor ho
  have hserved₁ : made.Served := hserved.grow hgrows₁ (by simp) (by simp)
  rcases link_cases hframe₁ hlinked ho' with ⟨rfl, rfl, hlink⟩ | ⟨rfl, -, hadds⟩
  · -- A link that is there has been served.
    obtain ⟨rfl, rfl⟩ := hrest
    exact ⟨hsound₁, hgrows₁.mono (by simp), hserved₁, hframe₁, hlink⟩
  · simp only [if_true, Act.leads_bind, Act.leads_look, Except.ok.injEq, Act.leads_pure] at hrest
    obtain ⟨results, linked, ⟨rfl, rfl⟩, _, last, hloop, rfl, rfl⟩ := hrest
    -- The new link meets the results that the frame has.
    have hgrows₂ : made.Grows linked {.link frame ⟨caller, stem⟩} :=
      hadds.grows (by simp) (fun _ hfact _ => hfact)
    have hindex := index_of_control hgrows₁.control
    have hlink₂ : linked.Holds (.link frame ⟨caller, stem⟩) := (hadds.holds _).mpr (.inr rfl)
    have hframe₂ := hgrows₂.holds hframe₁
    have hsound₂ : linked.Sound program input := by
      refine hsound₁.of_new hadds.holds hadds.control ?_
      rintro fact rfl
      have hholds : ∀ {fact : Fact}, before.Holds fact → linked.Holds fact :=
        fun hfact => hgrows₂.holds (hgrows₁.holds hfact)
      exact ⟨label, owner, earlier, atom, later, i, before.index, hframe₂, hitem,
        hcaller.mono (fun _ => hholds), hstem.mono (fun _ => hholds)⟩
    obtain ⟨hsound₃, hgrows₃, hdelivered⟩ := sound_of_forEach
      (fun result m => m.Delivered label ⟨caller, stem⟩ result) hsound₂
      (fun _ _ _ hgrows hdelivered => hdelivered.mono hgrows.holds) (by
        intro result hresult a b hgrows hsound hleads
        obtain ⟨_, _, hemit, hdeliver⟩ := Act.leads_bind.mp hleads
        obtain rfl := Act.leads_emit.mp hemit
        exact deliver_sound hlaid hsound (hgrows.holds hframe₂) (hgrows.holds hlink₂)
          (hgrows.holds (Array.mem_toList_iff.mp hresult)) hdeliver) hloop
    refine ⟨hsound₃, ?_, ?_, hgrows₃.holds hframe₂, hgrows₃.holds hlink₂⟩
    · exact (hgrows₁.mono (by simp)).trans ((hgrows₂.mono (by simp)).trans hgrows₃.of_empty)
    · refine hserved₁.of_delivered hgrows₂ hgrows₃ fun hframe hlink hresult => ?_
      rcases (hadds.holds _).mp hlink with hold | hnew
      · exact .inl ⟨hold, ((hadds.holds _).mp hresult).resolve_right (by simp)⟩
      · cases hnew
        obtain ⟨rfl, rfl⟩ := frame_unique hframe hframe₂
        exact .inr (hdelivered _ (Array.mem_toList_iff.mpr hresult))

/-- A result that is given to a frame is delivered to the callers that the frame has. -/
theorem pop_sound (hlaid : program.Laid) (hsound : before.Sound program input)
    (hserved : before.Served) {frame : StackId} {result : SymbolId} {label : Label}
    {owner : Option Nonterminal} {earlier later : List Atom} {atom : Atom} {i : Nat} {answer : Unit}
    (hanswer : before.Answer program input frame result label owner earlier atom later i
      before.index)
    (h : (Scheduler.pop frame result).Leads before answer after) :
    after.Sound program input ∧ before.Grows after {.result frame result} ∧ after.Served ∧
      after.Holds (.result frame result) := by
  obtain ⟨links, hstack⟩ := hanswer.frame
  simp only [Scheduler.pop, Act.leads_bind, Act.leads_look] at h
  obtain ⟨stack, before, ⟨hlook, rfl⟩, h⟩ := h
  obtain rfl : .frame label i links = stack := by
    rw [StackGraph.stack, Fault.unlessSome_eq_ok_iff, hstack] at hlook
    exact Option.some.inj hlook
  simp only [Act.leads_bind, Act.leads_update, Act.leads_look, Act.leads_emit] at h
  obtain ⟨isNew, known, ⟨hrecord, ho⟩, _, known, ⟨-, rfl⟩, _, known, rfl, hrest⟩ := h
  rcases recordResult_cases hrecord ho with ⟨rfl, rfl, hresult⟩ | ⟨rfl, -, hadds⟩
  · -- A result that is there has been delivered.
    obtain ⟨-, rfl⟩ := hrest
    exact ⟨hsound, .refl _ _, hserved, hresult⟩
  · have hgrows₁ : before.Grows known {.result frame result} :=
      hadds.grows (by simp) (fun _ hfact _ => hfact)
    have hindex := index_of_control hadds.control
    have hresult₁ : known.Holds (.result frame result) := (hadds.holds _).mpr (.inr rfl)
    have hframe₁ := hgrows₁.holds hanswer.frame
    have hsound₁ : known.Sound program input := by
      refine hsound.of_new hadds.holds hadds.control ?_
      rintro fact rfl
      simp only [Proper, hindex]
      exact ⟨label, owner, earlier, atom, later, i, hanswer.mono hgrows₁.lasts⟩
    -- The links are read before the loop, and the loop brings none.
    have hlinks (link : Link) : link ∈ links.toList ↔ before.Holds (.link frame link) := by
      constructor
      · intro hmem
        exact ⟨label, i, links, hstack, Array.mem_toList_iff.mp hmem⟩
      · rintro ⟨label', origin', links', hstack', hmem⟩
        rw [hstack, Option.some.injEq, Stack.frame.injEq] at hstack'
        exact Array.mem_toList_iff.mpr (hstack'.2.2 ▸ hmem)
    simp only [if_true] at hrest
    obtain ⟨hsound₂, hgrows₂, hdelivered⟩ := sound_of_forEach
      (fun link m => m.Delivered label link result) hsound₁
      (fun _ _ _ hgrows hdelivered => hdelivered.mono hgrows.holds)
      (fun link hlink _ _ hgrows hsound hleads => deliver_sound hlaid hsound
        (hgrows.holds hframe₁) (hgrows.holds (hgrows₁.holds ((hlinks link).mp hlink)))
        (hgrows.holds hresult₁) hleads) hrest
    refine ⟨hsound₂, hgrows₁.trans hgrows₂.of_empty, ?_, hgrows₂.holds hresult₁⟩
    refine hserved.of_delivered hgrows₁ hgrows₂ fun hframe hlink hresult => ?_
    have hlink := ((hadds.holds _).mp hlink).resolve_right (by simp)
    rcases (hadds.holds _).mp hresult with hold | hnew
    · exact .inl ⟨hlink, hold⟩
    · cases hnew
      obtain ⟨rfl, rfl⟩ := frame_unique hframe hframe₁
      exact .inr (hdelivered _ ((hlinks _).mpr hlink))

end Moment

end Gll
