import Gll.Proofs.Budget
import Gll.Proofs.Grounding
import Gll.Proofs.WellFormed

/-!
Well-formed stacks.

A frame is where an alternative continues behind one of its atoms, and each of its links is a caller
that has come to this atom. So what a link says can be read off the slots: the slot before the label
of the frame is about the atom, the prefix of the link is the one at that slot, and it covers the
input from where the caller began up to where the frame begins. The caller, in turn, waits for the
nonterminal that the alternative is of. Frames stay while generations come and go, and where a rule
is recursive on the left a frame is its own caller; that does not matter, since all of this was
proper of the link when it was made (`Moment.Proper`) and says nothing of the generation.

Two properties are about more than one link. A frame is not made again in a later generation, since
its origin is the position of the parse at the time it is made. And a caller is linked once, since
where it began and where the frame begins leave one prefix at the slot.

The frame of slot 0 waits for the whole input. It has one link, down to the initial stack.
-/

set_option autoImplicit false

namespace Gll

namespace Program

section Definitions

variable (program : Program) (s : Scheduler)

/-- An alternative continues at a label: the slot before the label is of the same alternative and
is about the atom at the given dot. -/
structure Continues (label previous : Label) (owner : Nonterminal) (dot : Nat) (atom : Atom) :
    Prop where
  next : previous.next = label
  slot : program.slot? previous = some ⟨some owner, dot, atom.instruction⟩
  entry : ∃ labels entry, program.entries? owner = some labels ∧ entry ∈ labels ∧
    previous.index = entry.index + dot ∧ (program.atomsAt entry)[dot]? = some atom

/-- A frame waits for a nonterminal from its origin on: the slot before its label calls the
nonterminal. That of slot 0 waits for the start nonterminal. -/
inductive WaitsFor (symbol : Nonterminal) (id : StackId) (origin : Nat) : Prop where
  | call {label previous : Label} {owner : Nonterminal} {dot : Nat} {links : Array Link}
      (hstack : s.graph.stack? id = some (.frame label origin links))
      (hcontinues : program.Continues label previous owner dot (.nonterminal symbol)) :
      WaitsFor symbol id origin
  | accept {links : Array Link}
      (hstack : s.graph.stack? id = some (.frame acceptLabel origin links))
      (hsymbol : symbol = program.start) : WaitsFor symbol id origin

/-- A link leads from a frame that begins at `origin` to a caller that waits for the owner of the
slot before its label, with the prefix at that slot from where the caller begins. -/
def Links (previous : Label) (owner : Nonterminal) (dot origin : Nat) (link : Link) : Prop :=
  ∃ first split, program.WaitsFor s owner link.caller first.offset ∧
    Precedes s previous dot link.stem first split ∧ split.offset = origin ∧ first.offset ≤ origin

/-- Every frame and every link is what the slots say. -/
structure WellLinked : Prop where
  unique {id id' : StackId} {label : Label} {origin : Nat} {links links' : Array Link} :
    s.graph.stack? id = some (.frame label origin links) →
      s.graph.stack? id' = some (.frame label origin links') → id = id'
  continues {id : StackId} {label : Label} {origin : Nat} {links : Array Link} :
    s.graph.stack? id = some (.frame label origin links) → label ≠ acceptLabel →
      ∃ previous owner dot atom, program.Continues label previous owner dot atom ∧
        ∀ link ∈ links, program.Links s previous owner dot origin link
  callers {id : StackId} {label : Label} {origin : Nat} {links : Array Link} :
    s.graph.stack? id = some (.frame label origin links) →
      (links.toList.map Link.caller).Nodup
  accept {id : StackId} {origin : Nat} {links : Array Link} :
    s.graph.stack? id = some (.frame acceptLabel origin links) →
      origin = 0 ∧ ∃ first stem, s.first = some first ∧
        s.forest.prefixNode? stem = some (.empty first) ∧ links = #[⟨.initial, stem⟩]
  seeded : 0 < s.nextIndex → ∃ id links, s.graph.stack? id = some (.frame acceptLabel 0 links)

end Definitions

section Proofs

variable {program : Program} {input : List Char} {m : Moment}

/-- Slots are of one item, so there is one way to continue at a label. -/
theorem Continues.of_item {label : Label} {owner : Nonterminal} {before after : List Atom}
    {atom : Atom} (h : program.Item label (some owner) (before ++ [atom]) after) :
    ∃ previous, program.Continues label previous owner before.length atom := by
  obtain ⟨previous, hnext, hitem⟩ := h.previous
  refine ⟨previous, hnext, hitem.slot?_cons, ?_⟩
  cases hitem with
  | @slot _ labels entry _ _ hlabels hentry hblock =>
    refine ⟨labels, entry, hlabels, hentry, rfl, ?_⟩
    rw [hblock.atomsAt_entry]
    simp

/-- A frame of one label and origin is made once in a parse. -/
theorem frame_unique_of_timeline (h : m.Timeline program input) {id id' : StackId} {label : Label}
    {origin : Nat} (hframe : m.Holds (.frame id label origin))
    (hframe' : m.Holds (.frame id' label origin)) : id = id' := by
  obtain ⟨stages, hstages, hlast⟩ := h.exists_stages
  rw [← hlast] at hframe hframe'
  have hle : origin ≤ m.index := by
    have hproper := ((hstages.sound (Nat.le_refl _)).proper hframe).1
    rw [hstages.index (Nat.le_refl _)] at hproper
    exact hproper
  -- In the generation of its origin the frame is in the table.
  have hkey {id : StackId} (hframe : (stages m.index).Holds (.frame id label origin)) :
      (stages origin).Holds (.frameKey label origin id) := by
    have hstart := hstages.frame_at_origin (Nat.le_refl _) hframe
    exact ((hstages.sound hle).proper hstart).2.1 (hstages.index hle).symm
  exact Option.some.inj ((hkey hframe).symm.trans (hkey hframe'))

/-- What waits for a nonterminal is a frame. -/
theorem waitsFor_of_caller {id : StackId} {symbol : Nonterminal} {i : Nat}
    (h : m.Caller program id (some symbol) i) : program.WaitsFor m.scheduler symbol id i := by
  cases h with
  | @frame _ label _ owner before after _ hframe hitem =>
    obtain ⟨links, hstack⟩ := hframe
    cases owner with
    | some owner =>
      obtain ⟨previous, hcontinues⟩ := Continues.of_item hitem
      exact .call hstack hcontinues
    | none =>
      obtain ⟨rfl, -, hatom, -⟩ := hitem.eq_accept_of_concat
      cases hatom
      exact .accept hstack rfl

/-- What is proper of a link of a frame behind an atom. -/
theorem links_of_sound (hlaid : program.Laid) (hsound : m.Sound program input) {id : StackId}
    {label previous : Label} {owner : Nonterminal} {before after : List Atom} {atom : Atom}
    {origin : Nat} {link : Link} (hframe : m.Holds (.frame id label origin))
    (hitem : program.Item label (some owner) (before ++ [atom]) after)
    (hnext : previous.next = label) (hlink : m.Holds (.link id link)) :
    program.Links m.scheduler previous owner before.length origin link := by
  obtain ⟨caller, stem⟩ := link
  obtain ⟨label', owner', before', atom', after', i, j, hframe', hitem', hcaller, hstem⟩ :=
    hsound.proper hlink
  obtain ⟨rfl, rfl⟩ := Moment.frame_unique hframe hframe'
  obtain ⟨rfl, hatoms, rfl⟩ := hlaid.item_unique hitem hitem'
  obtain ⟨rfl, -⟩ := List.append_inj' hatoms rfl
  subst hnext
  obtain ⟨trees, hderives⟩ := hstem.derives
  refine ⟨.of input i, .of input origin, ?_, precedes_of_stem hstem, Position.offset_of _ _, ?_⟩
  · rw [Position.offset_of]
    exact waitsFor_of_caller hcaller
  · rw [Position.offset_of]
    exact hderives.le

/-- What is proper of a link of the frame of slot 0. -/
theorem link_accept_of_sound (hlaid : program.Laid) (hsound : m.Sound program input) {id : StackId}
    {origin : Nat} {link : Link} (hframe : m.Holds (.frame id acceptLabel origin))
    (hlink : m.Holds (.link id link)) :
    origin = 0 ∧ link.caller = .initial ∧ m.Holds (.empty link.stem (.of input 0)) := by
  obtain ⟨caller, stem⟩ := link
  obtain ⟨label, owner, before, atom, after, i, j, hframe', hitem, hcaller, hstem⟩ :=
    hsound.proper hlink
  obtain ⟨rfl, rfl⟩ := Moment.frame_unique hframe hframe'
  cases owner with
  | some owner => exact absurd hitem hlaid.not_item_accept
  | none =>
    obtain ⟨-, hbefore, -, -⟩ := hitem.eq_accept_of_concat
    cases hcaller
    cases hstem with
    | empty hempty => exact ⟨rfl, rfl, hempty⟩
    | cons => simp at hbefore

/-- A caller is linked to a frame with one prefix. -/
theorem link_unique_of_sound (hlaid : program.Laid) (hsound : m.Sound program input)
    (hdistinct : m.scheduler.Distinct) {id : StackId} {link link' : Link}
    (hlink : m.Holds (.link id link)) (hlink' : m.Holds (.link id link'))
    (hcaller : link.caller = link'.caller) : link = link' := by
  obtain ⟨caller, stem⟩ := link
  obtain ⟨_, stem'⟩ := link'
  obtain rfl := hcaller
  obtain ⟨label, owner, before, atom, after, i, j, hframe, hitem, hcaller, hstem⟩ :=
    hsound.proper hlink
  obtain ⟨label', owner', before', atom', after', i', j', hframe', hitem', hcaller', hstem'⟩ :=
    hsound.proper hlink'
  obtain ⟨rfl, rfl⟩ := Moment.frame_unique hframe hframe'
  obtain ⟨rfl, hatoms, -⟩ := hlaid.item_unique hitem hitem'
  obtain ⟨rfl, -⟩ := List.append_inj' hatoms rfl
  -- The caller fixes where the prefix begins, and the frame where it ends.
  have hi : i = i' := by
    cases hcaller with
    | initial =>
      cases hcaller'
      rfl
    | frame hframe _ =>
      cases hcaller' with
      | frame hframe' _ => exact (Moment.frame_unique hframe hframe').2
  subst hi
  cases owner with
  | none =>
    obtain ⟨rfl, -, -⟩ := hitem.eq_accept
    obtain ⟨-, -, hempty⟩ := link_accept_of_sound hlaid hsound hframe hlink
    obtain ⟨-, -, hempty'⟩ := link_accept_of_sound hlaid hsound hframe hlink'
    have hindex := hdistinct.unique (.empty (.of input 0)) hempty hempty'
    exact congrArg (Link.mk caller) (congrArg PrefixId.mk hindex)
  | some owner =>
    obtain ⟨previous, rfl, -⟩ := hitem.previous
    exact congrArg (Link.mk caller)
      ((precedes_of_stem hstem).unique hdistinct (precedes_of_stem hstem'))

/-- Of the members of a set there is one, if they are all the same. -/
theorem eq_singleton_of_nodup {α : Type} {items : Array α} {item : α}
    (hnodup : items.toList.Nodup) (hne : items ≠ #[]) (h : ∀ other ∈ items, other = item) :
    items = #[item] := by
  obtain ⟨list⟩ := items
  match list with
  | [] => exact absurd rfl hne
  | [only] => rw [h only (by simp)]
  | first :: second :: rest =>
    have hfirst := h first (by simp)
    have hsecond := h second (by simp)
    simp [hfirst, hsecond] at hnodup

/-- Before the first symbol there are no frames. -/
theorem wellLinked_initial (start : Nonterminal) :
    program.WellLinked (Scheduler.initial start) := by
  have hnone (id : StackId) (label : Label) (origin : Nat) (links : Array Link) :
      (Scheduler.initial start).graph.stack? id ≠ some (.frame label origin links) := by
    intro hstack
    have hknows : (Scheduler.initial start).Knows (.frame id label origin) := ⟨links, hstack⟩
    exact absurd hknows (Scheduler.knows_initial trivial)
  constructor
  · exact fun hstack => absurd hstack (hnone _ _ _ _)
  · exact fun hstack => absurd hstack (hnone _ _ _ _)
  · exact fun hstack => absurd hstack (hnone _ _ _ _)
  · exact fun hstack => absurd hstack (hnone _ _ _ _)
  · exact fun hnext => absurd hnext (Nat.lt_irrefl 0)

/-- In every stage of a parse the stacks are what the slots say. -/
theorem wellLinked_of_timeline (hlaid : program.Laid) (h : m.Timeline program input)
    (hdistinct : m.scheduler.Distinct) (htidy : Tidy m.scheduler)
    (hgrounded : m.scheduler.Grounded) : program.WellLinked m.scheduler := by
  obtain ⟨carried, hunderway⟩ := h.underway
  have hsound := hunderway.steady.sound
  have hlink {id : StackId} {label : Label} {origin : Nat} {links : Array Link} {link : Link}
      (hstack : m.scheduler.graph.stack? id = some (.frame label origin links))
      (hmem : link ∈ links) : m.Holds (.link id link) := ⟨label, origin, links, hstack, hmem⟩
  refine ⟨fun hstack hstack' => ?_, fun {id label origin links} hstack hne => ?_,
    fun {id label origin links} hstack => ?_, fun {id origin links} hstack => ?_, fun _ => ?_⟩
  · exact frame_unique_of_timeline h ⟨_, hstack⟩ ⟨_, hstack'⟩
  · have hframe : m.Holds (.frame id label origin) := ⟨links, hstack⟩
    obtain ⟨-, -, owner, before, atom, after, hitem⟩ := hsound.proper hframe
    cases owner with
    | none => exact absurd hitem.eq_accept.1 hne
    | some owner =>
      obtain ⟨previous, hcontinues⟩ := Continues.of_item hitem
      refine ⟨previous, owner, _, atom, hcontinues, fun link hmem => ?_⟩
      exact links_of_sound hlaid hsound hframe hitem hcontinues.next (hlink hstack hmem)
  · refine List.Nodup.map_on (fun link hmem link' hmem' hcaller => ?_) (htidy.links hstack)
    exact link_unique_of_sound hlaid hsound hdistinct
      (hlink hstack (Array.mem_toList_iff.mp hmem)) (hlink hstack (Array.mem_toList_iff.mp hmem'))
      hcaller
  · have hframe : m.Holds (.frame id acceptLabel origin) := ⟨links, hstack⟩
    obtain ⟨only, honly⟩ := Array.exists_mem_of_ne_empty links (hgrounded.links hstack)
    obtain ⟨horigin, hcaller, hempty⟩ :=
      link_accept_of_sound hlaid hsound hframe (hlink hstack honly)
    refine ⟨horigin, .of input 0, only.stem, hsound.situated.first, hempty, ?_⟩
    -- All callers are the initial stack, and that is linked once.
    rw [← hcaller]
    refine eq_singleton_of_nodup (htidy.links hstack) (hgrounded.links hstack) fun link hmem => ?_
    obtain ⟨-, hcaller', -⟩ := link_accept_of_sound hlaid hsound hframe (hlink hstack hmem)
    exact link_unique_of_sound hlaid hsound hdistinct (hlink hstack hmem) (hlink hstack honly)
      (hcaller'.trans hcaller.symm)
  · obtain ⟨id, links, hstack⟩ := hunderway.seeded
    exact ⟨id, links, hstack⟩

end Proofs

section Calls

variable {grammar : Grammar} {program : Program} {σ : Type} {tracer : Tracer σ} {trace : σ}
  {limit : Nat} {session : Session σ Unit} {fed : List Char} {offers : List Task}

theorem wellLinked_of_reaches (hlaid : program.Laid)
    (h : Session.Reaches program.interpreter tracer (.initial program.interpreter trace () limit)
      fed session offers) : program.WellLinked session.scheduler := by
  rcases h.timeline hlaid (List.prefix_refl fed) fun _ => rfl with ⟨hinitial, -⟩ | htimeline
  · rw [hinitial]
    exact wellLinked_initial _
  · exact wellLinked_of_timeline hlaid htimeline (h.law (Scheduler.law_distinct program.start))
      (h.law (law_tidy program.start)) (h.grounded hlaid)

/-- In every state of a session, whether its work is done or not, there is one frame for a label and
an origin; every frame but that of slot 0 is where an alternative continues, and its links lead to
callers that wait for the owner of the alternative, with the prefix at the slot before, from where
the caller begins up to where the frame begins; a frame has a caller once; and the frame of slot 0
has one link, to the initial stack. -/
theorem compile_wellLinked (hcompile : Program.compile grammar = .ok program)
    (h : Session.Reaches program.interpreter tracer (.initial program.interpreter trace () limit)
      fed session offers) : program.WellLinked session.scheduler :=
  wellLinked_of_reaches (laid_of_compile hcompile) h

end Calls

/-- Where a nonterminal is recursive on the left too. -/
theorem compile_wellLinked_circular : ∃ program session,
    Program.compile circular = .ok program ∧
      program.parse .silent () 224 "a" = .ok true session ∧
        program.WellLinked session.scheduler := by
  obtain ⟨program, session, hcompile, hparse⟩ := parse_circular
  obtain ⟨⟨offers, h⟩, -⟩ := Session.Reaches.start.of_parse hparse
  exact ⟨program, session, hcompile, hparse, compile_wellLinked hcompile h⟩

end Program

end Gll
