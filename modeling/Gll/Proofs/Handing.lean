import Gll.Proofs.Requests

/-!
What `push` and `pop` hand out.

Both end in a loop that hands out deliveries one after the other, `push` the results of the frame
over the new link, `pop` the new result over the links of the frame (`Operation.carries_push`,
`Operation.carries_pop`). What is handed out is fixed before the loop begins, and the loop neither
links nor records anything, so it hands out exactly that.

A delivery that was handed out shows in the forest and among the tasks (`Scheduler.Handed`).
-/

set_option autoImplicit false

namespace Gll

/-- Hands out deliveries, one after the other. -/
inductive HandsOut (label : Label) : List Delivery → Ledger → Ledger → Prop where
  | nil {ledger : Ledger} : HandsOut label [] ledger ledger
  | cons {delivery : Delivery} {rest : List Delivery} {before between after : Ledger}
      (hfirst : (Piece.deliver delivery label).Leads before () between)
      (hrest : HandsOut label rest between after) : HandsOut label (delivery :: rest) before after

section Loops

variable {label : Label} {before after : Ledger} {deliveries : List Delivery}

theorem handsOut_iff {β : Type} {items : List β} {delivery : β → Delivery}
    {body : β → Plan Piece Unit}
    (hbody : ∀ {item before after}, (body item).Leads Piece.Leads before () after ↔
      (Piece.deliver (delivery item) label).Leads before () after) :
    (Plan.forEach items body).Leads Piece.Leads before () after ↔
      HandsOut label (items.map delivery) before after := by
  induction items generalizing before with
  | nil =>
    constructor
    · rintro ⟨-, rfl⟩
      exact .nil
    · rintro ⟨⟩
      exact ⟨rfl, rfl⟩
  | cons item rest ih =>
    rw [Plan.forEach, Plan.leads_andThen, List.map_cons]
    constructor
    · rintro ⟨⟨⟩, between, hitem, hrest⟩
      exact .cons (hbody.mp hitem) (ih.mp hrest)
    · rintro (_ | ⟨hfirst, hrest⟩)
      exact ⟨(), _, hbody.mpr hfirst, ih.mpr hrest⟩

namespace HandsOut

theorem deliveries_eq (h : HandsOut label deliveries before after) :
    after.deliveries = before.deliveries ++ deliveries := by
  induction h with
  | nil => simp
  | cons hfirst hrest ih => rw [ih, hfirst.2.2, List.append_assoc, List.singleton_append]

/-- Handing out breaks nothing that is about the stacks. -/
theorem keeps {P : Scheduler → Prop} (hP : KeptOffStacks P)
    (h : HandsOut label deliveries before after) (hbefore : P before.scheduler) :
    P after.scheduler := by
  induction h with
  | nil => exact hbefore
  | cons hfirst hrest ih => exact ih (hP.deliver.of_leads hfirst.1 hbefore)

end HandsOut

end Loops

/-! ## The two requests -/

section Pieces

variable {α : Type} {before after : Ledger} {answer : α}

theorem Piece.leads_update {change : Scheduler → α × Scheduler} :
    (Piece.other (.update change)).Leads before answer after ↔
      ∃ s, change before.scheduler = (answer, s) ∧ after = { before with scheduler := s } := by
  obtain ⟨⟨s, offers⟩, taken, deliveries⟩ := before
  obtain ⟨⟨s', offers'⟩, taken', deliveries'⟩ := after
  simp only [Piece.Leads, Act.leads_update]
  constructor
  · rintro ⟨⟨hchange, rfl⟩, rfl, rfl⟩
    exact ⟨s', hchange, rfl⟩
  · rintro ⟨s'', hchange, heq⟩
    cases heq
    exact ⟨⟨hchange, rfl⟩, rfl, rfl⟩

theorem Piece.leads_look {read : Scheduler → Except Fault α} :
    (Piece.other (.look read)).Leads before answer after ↔
      read before.scheduler = .ok answer ∧ after = before := by
  obtain ⟨m, taken, deliveries⟩ := before
  obtain ⟨m', taken', deliveries'⟩ := after
  simp only [Piece.Leads, Act.leads_look, Ledger.mk.injEq, and_assoc]

theorem Piece.leads_emit {event : Event} {answer : Unit} :
    (Piece.other (.emit event)).Leads before answer after ↔ after = before := by
  obtain ⟨m, taken, deliveries⟩ := before
  obtain ⟨m', taken', deliveries'⟩ := after
  simp only [Piece.Leads, Act.leads_emit, Ledger.mk.injEq]

end Pieces

theorem handsOut_nil {label : Label} {before after : Ledger} :
    HandsOut label [] before after ↔ after = before := by
  constructor
  · rintro ⟨⟩
    rfl
  · rintro rfl
    exact .nil

namespace Operation

variable {before after : Ledger}

/-- A `push` makes the frame and the link, and if the link is new, hands the results of the frame
out over it. -/
theorem carries_push {label : Label} {caller frame : StackId} {origin : Nat} {stem : PrefixId} :
    (Operation.push label caller origin stem).Carries before frame after ↔
      ∃ made linked isNew, before.scheduler.frameFor label origin = (frame, made) ∧
        Scheduler.link frame ⟨caller, stem⟩ made = (isNew, linked) ∧
        HandsOut label
          (if isNew then (linked.results frame).toList.map fun result =>
            ⟨frame, ⟨caller, stem⟩, result⟩ else [])
          { before with scheduler := linked } after := by
  -- Each result is noted before it is delivered, and a note leaves the ledger as it is.
  have hloop {frame : StackId} {results : Array SymbolId} {a b : Ledger} :
      (Plan.forEach results.toList fun result => do
        Plan.request (.other (.emit (.redeliver frame result caller)))
        Plan.request (.deliver ⟨frame, ⟨caller, stem⟩, result⟩ label)).Leads Piece.Leads a () b ↔
      HandsOut label (results.toList.map fun result => ⟨frame, ⟨caller, stem⟩, result⟩) a b :=
    handsOut_iff fun {result a b} => by
      simp only [Plan.leads_bind, Plan.leads_request, Piece.leads_emit]
      constructor
      · rintro ⟨_, _, rfl, h⟩
        exact h
      · exact fun h => ⟨(), _, rfl, h⟩
  rw [Carries, pieces, Scheduler.pushPieces]
  simp only [Plan.leads_bind, Plan.leads_request, Piece.leads_update, Piece.leads_emit]
  constructor
  · rintro ⟨_, _, ⟨made, hframe, rfl⟩, isNew, _, ⟨linked, hlink, rfl⟩, _, _, rfl, hrest⟩
    cases isNew with
    | false =>
      obtain ⟨rfl, rfl⟩ := hrest
      exact ⟨made, linked, false, hframe, hlink, .nil⟩
    | true =>
      simp only [if_true, Plan.leads_bind, Plan.leads_request, Piece.leads_look, Except.ok.injEq,
        Plan.leads_pure] at hrest
      obtain ⟨_, _, ⟨rfl, rfl⟩, ⟨⟩, _, hloops, rfl, rfl⟩ := hrest
      exact ⟨made, linked, true, hframe, hlink, hloop.mp hloops⟩
  · rintro ⟨made, linked, isNew, hframe, hlink, hhands⟩
    refine ⟨frame, _, ⟨made, hframe, rfl⟩, isNew, _, ⟨linked, hlink, rfl⟩, (), _, rfl, ?_⟩
    cases isNew with
    | false =>
      obtain rfl := handsOut_nil.mp hhands
      exact ⟨rfl, rfl⟩
    | true =>
      simp only [if_true, Plan.leads_bind, Plan.leads_request, Piece.leads_look, Except.ok.injEq,
        Plan.leads_pure]
      exact ⟨_, _, ⟨rfl, rfl⟩, (), _, hloop.mpr hhands, trivial, rfl⟩

/-- A `pop` of a frame records the result, and if it is new, hands it out over the links of the
frame. -/
theorem carries_pop {frame : StackId} {result : SymbolId} {answer : Unit} :
    (Operation.pop frame result).Carries before answer after ↔
      (before.scheduler.graph.stack? frame = some .initial ∧ after = before) ∨
      ∃ label origin links known isNew,
        before.scheduler.graph.stack? frame = some (.frame label origin links) ∧
        before.scheduler.recordResult frame result = (isNew, known) ∧
        known.HasSymbol result ∧
        HandsOut label
          (if isNew then links.toList.map fun link => ⟨frame, link, result⟩ else [])
          { before with scheduler := known } after := by
  have hloop {label : Label} {links : Array Link} {a b : Ledger} :
      (Plan.forEach links.toList fun link =>
        Plan.request (.deliver ⟨frame, link, result⟩ label)).Leads Piece.Leads a () b ↔
      HandsOut label (links.toList.map fun link => ⟨frame, link, result⟩) a b :=
    handsOut_iff fun {link a b} => Plan.leads_request _
  have hstack (stack : Stack) : before.scheduler.graph.stack frame = .ok stack ↔
      before.scheduler.graph.stack? frame = some stack := Fault.unlessSome_eq_ok_iff
  have hsymbol (s : Scheduler) (node : SymbolNode) : s.forest.symbolNode result = .ok node ↔
      s.forest.symbolNode? result = some node := Fault.unlessSome_eq_ok_iff
  rw [Carries, pieces, Scheduler.popPieces]
  simp only [Plan.leads_bind, Plan.leads_request, Piece.leads_look, hstack]
  constructor
  · rintro ⟨stack, _, ⟨hlook, rfl⟩, hrest⟩
    cases stack with
    | initial =>
      obtain ⟨-, rfl⟩ := hrest
      exact .inl ⟨hlook, rfl⟩
    | frame label origin links =>
      simp only [Plan.leads_bind, Plan.leads_request, Piece.leads_look, Piece.leads_update,
        Piece.leads_emit, hsymbol] at hrest
      obtain ⟨isNew, _, ⟨known, hrecord, rfl⟩, node, _, ⟨hnode, rfl⟩, _, _, rfl, hrest⟩ := hrest
      refine .inr ⟨label, origin, links, known, isNew, hlook, hrecord, ⟨node, hnode⟩, ?_⟩
      cases isNew with
      | false =>
        obtain ⟨-, rfl⟩ := hrest
        exact .nil
      | true => exact hloop.mp hrest
  · rintro (⟨hlook, rfl⟩ | ⟨label, origin, links, known, isNew, hlook, hrecord, ⟨node, hnode⟩,
      hhands⟩)
    · exact ⟨.initial, _, ⟨hlook, rfl⟩, rfl, rfl⟩
    · refine ⟨_, _, ⟨hlook, rfl⟩, ?_⟩
      simp only [Plan.leads_bind, Plan.leads_request, Piece.leads_look, Piece.leads_update,
        Piece.leads_emit, hsymbol]
      refine ⟨isNew, _, ⟨known, hrecord, rfl⟩, node, _, ⟨hnode, rfl⟩, (), _, rfl, ?_⟩
      cases isNew with
      | false =>
        obtain rfl := handsOut_nil.mp hhands
        exact ⟨rfl, rfl⟩
      | true => exact hloop.mpr hhands

end Operation

/-! ## What a delivery leaves behind -/

namespace Scheduler

/-- A prefix node that begins at a position. -/
def PrefixFrom (s : Scheduler) (id : PrefixId) (first : Position) : Prop :=
  ∃ node, s.forest.prefixNode? id = some node ∧ node.first = first

/-- A symbol node that begins at a position. -/
def SymbolFrom (s : Scheduler) (id : SymbolId) (first : Position) : Prop :=
  ∃ node, s.forest.symbolNode? id = some node ∧ node.first = first

variable {s : Scheduler}

theorem prefixFrom_iff {id : PrefixId} {first : Position} : s.PrefixFrom id first ↔
    s.Knows (.empty id first) ∨ ∃ label last, s.Knows (.cons id label first last) := by
  constructor
  · rintro ⟨node, hnode, rfl⟩
    cases node with
    | empty position => exact .inl hnode
    | cons label first last children => exact .inr ⟨label, last, children, hnode⟩
  · rintro (hnode | ⟨label, last, children, hnode⟩)
    · exact ⟨_, hnode, rfl⟩
    · exact ⟨_, hnode, rfl⟩

theorem symbolFrom_iff {id : SymbolId} {first : Position} : s.SymbolFrom id first ↔
    s.Knows (.terminal id first) ∨ ∃ symbol last, s.Knows (.derivation id symbol first last) := by
  constructor
  · rintro ⟨node, hnode, rfl⟩
    cases node with
    | terminal position => exact .inl hnode
    | nonterminal symbol first last alternatives =>
      exact .inr ⟨symbol, last, alternatives, hnode⟩
  · rintro (hnode | ⟨symbol, last, alternatives, hnode⟩)
    · exact ⟨_, hnode, rfl⟩
    · exact ⟨_, hnode, rfl⟩

variable {s' : Scheduler}

theorem PrefixFrom.later {id : PrefixId} {first : Position} (h : s.PrefixFrom id first)
    (hlater : s.Later s') : s'.PrefixFrom id first := by
  rw [prefixFrom_iff] at h ⊢
  exact h.imp hlater.knows fun ⟨label, last, h⟩ => ⟨label, last, hlater.knows h⟩

theorem SymbolFrom.later {id : SymbolId} {first : Position} (h : s.SymbolFrom id first)
    (hlater : s.Later s') : s'.SymbolFrom id first := by
  rw [symbolFrom_iff] at h ⊢
  exact h.imp hlater.knows fun ⟨symbol, last, h⟩ => ⟨symbol, last, hlater.knows h⟩

theorem HasPrefix.later {id : PrefixId} (h : s.HasPrefix id) (hlater : s.Later s') :
    s'.HasPrefix id := by
  obtain ⟨node, hnode⟩ := h
  obtain ⟨node', hnode', -⟩ := PrefixFrom.later ⟨node, hnode, rfl⟩ hlater
  exact ⟨node', hnode'⟩

theorem HasSymbol.later {id : SymbolId} (h : s.HasSymbol id) (hlater : s.Later s') :
    s'.HasSymbol id := by
  obtain ⟨node, hnode⟩ := h
  obtain ⟨node', hnode', -⟩ := SymbolFrom.later ⟨node, hnode, rfl⟩ hlater
  exact ⟨node', hnode'⟩

/-- A result went over a link with a label: the prefix that is listed for the label and the
beginning of the caller's prefix holds the caller's prefix extended by the result, and the caller is
resumed at the label. -/
def Handed (s : Scheduler) (label : Label) (link : Link) (result : SymbolId) : Prop :=
  ∃ first split cons, s.PrefixFrom link.stem first ∧ s.SymbolFrom result split ∧
    s.Knows (.consKey label first cons) ∧ s.Knows (.cons cons label first s.current) ∧
      s.Knows (.split cons ⟨label, split, link.stem, result⟩) ∧
        s.Knows (.resumed label link.caller)

variable {label : Label} {link : Link} {result : SymbolId}

theorem Handed.later (h : s.Handed label link result) (hlater : s.Later s') :
    s'.Handed label link result := by
  obtain ⟨first, split, cons, hstem, hsymbol, hkey, hcons, hsplit, hresumed⟩ := h
  have hcurrent : s'.current = s.current := congrArg Control.current hlater.control
  refine ⟨first, split, cons, hstem.later hlater, hsymbol.later hlater, hlater.knows hkey, ?_,
    hlater.knows hsplit, hlater.knows hresumed⟩
  rw [hcurrent]
  exact hlater.knows hcons

theorem kept_handed (label : Label) (link : Link) (result : SymbolId) :
    Kept fun s => s.Handed label link result :=
  .of_knows fun hknows hcontrol h => h.later ⟨hknows, hcontrol⟩

/-- A task that was offered is known by its key, whether it was taken or there before. -/
theorem resumed_of_scheduleNow {caller : StackId} {stem : PrefixId} {before after : Moment}
    {isNew : Bool} (h : (scheduleNow label caller stem).Leads before isNew after) :
    after.scheduler.Knows (.resumed label caller) := by
  obtain ⟨taken, hoffer, ho⟩ := Moment.offer_of_leads h
  rcases Moment.offer_resume_cases hoffer ho with ⟨-, hresumed, hadds⟩ | ⟨-, -, hholds, -, -⟩
  · exact (hadds.holds (.resumed label caller)).mpr (.inl hresumed)
  · exact (hholds (.resumed label caller)).mpr (.inr (by simp))

/-- To deliver a result over a link is to hand it over. -/
theorem handed_of_deliver {before after : Moment} {answer : Unit}
    (hdistinct : before.scheduler.Distinct)
    (h : (deliver link result label).Leads before answer after) :
    after.scheduler.Handed label link result := by
  obtain ⟨cons, packed, isNew, happend, hschedule⟩ := leads_deliver.mp h
  obtain ⟨stem, symbol, made, hstem, hcons, hsymbol, rfl⟩ := leads_append.mp happend
  -- A delivery appends the result to the stem of the link and resumes the caller there. What was
  -- known after each step is still known after the next.
  have hmade : made = (before.scheduler.consFor label stem.first).2 :=
    (congrArg Prod.snd hcons).symm
  have hdistinct' : made.Distinct := hmade ▸ kept_distinct.consFor _ _ hdistinct
  obtain ⟨hkey, hnode⟩ := hdistinct'.consFor hcons
  let child : Split := ⟨label, symbol.first, link.stem, result⟩
  have hlater : made.Later (made.packSplit cons child) :=
    (kept_later _).packSplit _ _ (.refl _)
  have hsplit : (made.packSplit cons child).Knows (.split cons child) :=
    ((packSplit_learns_split hnode _).knows _).mpr (.inr rfl)
  have hlater' : (made.packSplit cons child).Later after.scheduler :=
    (kept_later _).scheduleNow.of_leads hschedule (.refl _)
  have hcurrent : after.scheduler.current = made.current :=
    congrArg Control.current (hlater'.control.trans hlater.control)
  refine ⟨stem.first, symbol.first, cons, ?_, ?_, hlater'.knows (hlater.knows hkey), ?_,
    hlater'.knows hsplit, resumed_of_scheduleNow hschedule⟩
  · have hbefore : before.scheduler.PrefixFrom link.stem stem.first := ⟨stem, hstem, rfl⟩
    have hstem' : made.PrefixFrom link.stem stem.first :=
      hbefore.later (hmade ▸ (kept_later _).consFor _ _ (.refl _))
    exact (hstem'.later hlater).later hlater'
  · have hmade : made.SymbolFrom result symbol.first := ⟨symbol, hsymbol, rfl⟩
    exact (hmade.later hlater).later hlater'
  · rw [hcurrent]
    exact hlater'.knows (hlater.knows hnode)

end Scheduler

/-- What was handed out is handed over. -/
theorem HandsOut.handed {label : Label} {deliveries : List Delivery} {before after : Ledger}
    (h : HandsOut label deliveries before after) (hdistinct : before.scheduler.Distinct) :
    ∀ delivery ∈ deliveries, after.scheduler.Handed label delivery.link delivery.result := by
  induction h with
  | nil => exact fun _ hmem => absurd hmem List.not_mem_nil
  | cons hfirst hrest ih =>
    have hdistinct' := Scheduler.kept_distinct.deliver.of_leads hfirst.1 hdistinct
    intro delivery hmem
    rcases List.mem_cons.mp hmem with rfl | hmem
    · exact hrest.keeps (Scheduler.kept_handed _ _ _).toKeptOffStacks
        (Scheduler.handed_of_deliver hdistinct hfirst.1)
    · exact ih hdistinct' delivery hmem

end Gll
