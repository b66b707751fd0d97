import Gll.Proofs.Deliveries
import Gll.Proofs.Founded
import Gll.Proofs.Linking

/-!
Reading a prefix back.

To read a prefix off as a string of symbols, the forest is followed from the prefix to the shorter
one at its left, and on, until the empty prefix; that takes a prefix on the way to be built in one
way only. Nothing keeps a record of where it has been, and a forest may go in circles: a prefix may
well be its own beginning, if requests are made in an unusual order.

Still the way ends (`Forest.ReadsOff.ends`). The first way to build a prefix goes back to a prefix
that is older than it, however the forest came about (`Forest.Descends`), so a prefix on a circle is
built in some other way as well, and there the reading stops. In the forest of a program, what was
read is what the slots say (`Moment.Sound.tiles_of_reads`).
-/

set_option autoImplicit false

namespace Gll

namespace Forest

/-- From a prefix back to another one, over prefixes that are built in one way each; these are the
symbols on the way, from left to right. -/
inductive Reads (forest : Forest) : PrefixId → List SymbolId → PrefixId → Prop where
  | here (id : PrefixId) : Reads forest id [] id
  | back {id stop : PrefixId} {label : Label} {first last : Position} {child : Split}
      {symbols : List SymbolId}
      (hnode : forest.prefixNode? id = some (.cons label first last #[child]))
      (hrest : Reads forest child.left symbols stop) :
      Reads forest id (symbols ++ [child.right]) stop

/-- A prefix that is not built in one way: the empty one, or one that several ways are packed
under. -/
inductive Halts (forest : Forest) (id : PrefixId) : Prop where
  | empty {position : Position} (hnode : forest.prefixNode? id = some (.empty position)) :
      Halts forest id
  | packed {label : Label} {first last : Position} {children : Array Split}
      (hnode : forest.prefixNode? id = some (.cons label first last children))
      (hsize : 1 < children.size) : Halts forest id

/-- Every prefix that is not empty is built in some way, and the first one goes back to an older
prefix. -/
def Descends (forest : Forest) : Prop :=
  ∀ id : PrefixId, forest.FirstBuilt (fun child => child.left.index < id.index) id

/-- Symbols that lie side by side over the offsets from one up to another. -/
def Tiles (forest : Forest) : List SymbolId → Nat → Nat → Prop
  | [], i, j => i = j
  | id :: rest, i, j => ∃ node split, forest.symbolNode? id = some node ∧
      node.span = ⟨i, split⟩ ∧ i ≤ split ∧ Tiles forest rest split j

/-- What is promised of the reading of a prefix. -/
structure ReadsOff (forest : Forest) (id : PrefixId) : Prop where
  /-- It ends by itself: how many steps it may take makes no difference, as soon as they are more
  than the number of the prefix. -/
  ends {steps : Nat} : id.index < steps → forest.readBack steps id [] = forest.subderivations id
  /-- It gives symbols, or the number of ways to build a prefix. -/
  outcome : (∃ symbols, forest.subderivations id = .ok symbols) ∨
    ∃ node count, forest.subderivations id = .error (.ambiguous node count)
  /-- It gives symbols if the prefixes down to an empty one are built in one way each. -/
  ok_iff {symbols : List SymbolId} : forest.subderivations id = .ok symbols ↔
    ∃ stop position, forest.Reads id symbols stop ∧
      forest.prefixNode? stop = some (.empty position)
  /-- It gives the first prefix that is built in several ways, and how many they are. -/
  ambiguous_iff {node : PrefixId} {count : Nat} :
    forest.subderivations id = .error (.ambiguous node count) ↔
      1 < count ∧ ∃ symbols label first last children, forest.Reads id symbols node ∧
        forest.prefixNode? node = some (.cons label first last children) ∧ children.size = count

variable {forest forest' : Forest}

/-! ## The way back -/

section Reading

variable {id stop stop' : PrefixId} {symbols symbols' : List SymbolId}

/-- The way back is determined up to where it halts. -/
theorem Reads.unique (h : forest.Reads id symbols stop) (h' : forest.Reads id symbols' stop')
    (hstop : forest.Halts stop) (hstop' : forest.Halts stop') :
    symbols = symbols' ∧ stop = stop' := by
  have hgoes {id : PrefixId} {label : Label} {first last : Position} {child : Split}
      (hnode : forest.prefixNode? id = some (.cons label first last #[child])) :
      ¬ forest.Halts id := by
    intro hhalts
    cases hhalts with
    | empty hempty => cases hempty.symm.trans hnode
    | packed hpacked hsize =>
      cases hpacked.symm.trans hnode
      exact absurd hsize (Nat.lt_irrefl 1)
  -- Along the first way; the second takes the same steps, as a prefix with one child does not halt.
  induction h generalizing symbols' with
  | here id =>
    cases h' with
    | here => exact ⟨rfl, rfl⟩
    | back hnode _ => exact absurd hstop (hgoes hnode)
  | back hnode hrest ih =>
    cases h' with
    | here => exact absurd hstop' (hgoes hnode)
    | back hnode' hrest' =>
      cases hnode.symm.trans hnode'
      obtain ⟨rfl, rfl⟩ := ih hrest' hstop
      exact ⟨rfl, rfl⟩

/-- What a way back gives where it halts. -/
inductive Gives (forest : Forest) (symbols : List SymbolId) (stop : PrefixId) :
    Except ReadError (List SymbolId) → Prop where
  | empty {position : Position} (hnode : forest.prefixNode? stop = some (.empty position)) :
      Gives forest symbols stop (.ok symbols)
  | packed {label : Label} {first last : Position} {children : Array Split}
      (hnode : forest.prefixNode? stop = some (.cons label first last children))
      (hsize : 1 < children.size) :
      Gives forest symbols stop (.error (.ambiguous stop children.size))

theorem Gives.halts {result : Except ReadError (List SymbolId)}
    (h : forest.Gives symbols stop result) : forest.Halts stop := by
  cases h with
  | empty hnode => exact .empty hnode
  | packed hnode hsize => exact .packed hnode hsize

/-- All ways back give the same. -/
theorem Gives.unique {result result' : Except ReadError (List SymbolId)}
    (h : forest.Gives symbols stop result) (h' : forest.Gives symbols' stop' result')
    (hreads : forest.Reads id symbols stop) (hreads' : forest.Reads id symbols' stop') :
    result = result' := by
  obtain ⟨rfl, rfl⟩ := hreads.unique hreads' h.halts h'.halts
  cases h with
  | empty hnode =>
    cases h' with
    | empty => rfl
    | packed hnode' _ => cases hnode.symm.trans hnode'
  | packed hnode _ =>
    cases h' with
    | empty hnode' => cases hnode.symm.trans hnode'
    | packed hnode' _ =>
      cases hnode.symm.trans hnode'
      rfl

/-- A prefix is read back to somewhere, from the prefix itself on. -/
theorem exists_reads (hdescends : forest.Descends) {steps : Nat}
    (hid : ∃ node, forest.prefixNode? id = some node) (hsteps : id.index < steps)
    (after : List SymbolId) :
    ∃ symbols stop, forest.Reads id symbols stop ∧
      forest.Gives (symbols ++ after) stop (forest.readBack steps id after) := by
  induction steps generalizing id after with
  | zero => exact absurd hsteps (Nat.not_lt_zero _)
  | succ steps ih =>
    obtain ⟨node, hnode⟩ := hid
    cases node with
    | empty position =>
      refine ⟨[], id, .here id, ?_⟩
      simp only [readBack, hnode, List.nil_append]
      exact .empty hnode
    | cons label first last children =>
      obtain ⟨known, hfirst, hlt⟩ := hdescends id hnode
      obtain ⟨items⟩ := children
      match items with
      | [] => cases hfirst
      | [child] =>
        obtain rfl : child = known := Option.some.inj hfirst
        -- The only way goes back to an older prefix.
        have hleft : child.left.index < forest.prefixes.size :=
          Nat.lt_trans hlt (prefixNode?_lt hnode)
        obtain ⟨symbols, stop, hreads, hgives⟩ :=
          ih (exists_prefixNode? hleft) (Nat.lt_of_lt_of_le hlt (Nat.le_of_lt_succ hsteps))
            (child.right :: after)
        have hstep : forest.readBack (steps + 1) id after
            = forest.readBack steps child.left (child.right :: after) := by
          simp only [readBack, hnode]
        refine ⟨symbols ++ [child.right], stop, .back hnode hreads, ?_⟩
        rw [hstep, List.append_assoc, List.singleton_append]
        exact hgives
      | child :: child' :: rest =>
        refine ⟨[], id, .here id, ?_⟩
        simp only [readBack, hnode]
        exact .packed hnode (by simp)

theorem Descends.readsOff (h : forest.Descends)
    (hid : ∃ node, forest.prefixNode? id = some node) : forest.ReadsOff id := by
  have hreading {steps : Nat} (hsteps : id.index < steps) : ∃ symbols stop,
      forest.Reads id symbols stop ∧ forest.Gives symbols stop (forest.readBack steps id []) := by
    obtain ⟨symbols, stop, hreads, hgives⟩ := exists_reads h hid hsteps []
    rw [List.append_nil] at hgives
    exact ⟨symbols, stop, hreads, hgives⟩
  obtain ⟨symbols, stop, hreads, hgives⟩ :
      ∃ symbols stop, forest.Reads id symbols stop ∧
        forest.Gives symbols stop (forest.subderivations id) := by
    obtain ⟨node, hnode⟩ := hid
    exact hreading (Nat.lt_succ_of_lt (prefixNode?_lt hnode))
  -- Everything follows from the way back being determined.
  refine ⟨fun {steps} hsteps => ?_, ?_, fun {symbols'} => ⟨fun hok => ?_, ?_⟩,
    fun {node count} => ⟨fun herror => ?_, ?_⟩⟩
  · obtain ⟨symbols', stop', hreads', hgives'⟩ := hreading hsteps
    exact hgives'.unique hgives hreads' hreads
  · generalize forest.subderivations id = result at hgives
    cases hgives with
    | empty _ => exact .inl ⟨_, rfl⟩
    | packed _ _ => exact .inr ⟨_, _, rfl⟩
  · rw [hok] at hgives
    cases hgives with
    | empty hnode => exact ⟨stop, _, hreads, hnode⟩
  · rintro ⟨stop', position, hreads', hnode⟩
    exact hgives.unique (.empty hnode) hreads hreads'
  · rw [herror] at hgives
    cases hgives with
    | packed hnode hsize => exact ⟨hsize, symbols, _, _, _, _, hreads, hnode, rfl⟩
  · rintro ⟨hsize, symbols', label, first, last, children, hreads', hnode, rfl⟩
    exact hgives.unique (.packed hnode hsize) hreads hreads'

end Reading

/-! ## Changes -/

namespace Descends

variable (h : forest.Descends)
include h

theorem of_prefixes (hprefixes : forest'.prefixes = forest.prefixes) : forest'.Descends := by
  intro id
  refine (h id).of_node ?_
  rw [prefixNode?, prefixNode?, hprefixes]

theorem addEmpty (position : Position) : (forest.addPrefix (.empty position)).2.Descends :=
  fun id => (h id).addPrefix fun _ => ⟨position, rfl⟩

theorem packSplit (id : PrefixId) (child : Split) : (forest.packSplit id child).Descends :=
  fun other => (h other).packSplit

theorem packSplit_addPrefix {label : Label} {first last : Position} {child : Split}
    (hleft : child.left.index < forest.prefixes.size) :
    ((forest.addPrefix (.cons label first last #[])).2.packSplit ⟨forest.prefixes.size⟩
      child).Descends := by
  intro id
  by_cases hid : id = ⟨forest.prefixes.size⟩
  · rw [hid]
    exact firstBuilt_packSplit_addPrefix hleft
  · exact ((h id).addPrefix fun hnew => absurd hnew hid).packSplit

end Descends

end Forest

/-! ## Requests -/

namespace Scheduler

theorem prefixes_derivationFor (s : Scheduler) (symbol : Nonterminal) (first : Position) :
    (s.derivationFor symbol first).2.forest.prefixes = s.forest.prefixes := by
  rw [derivationFor]
  split <;> rfl

theorem forest_offer (s : Scheduler) (task : Task) : (s.offer task).2.forest = s.forest := by
  obtain ⟨_, _, _, _, heq⟩ := s.exists_offer_eq task
  rw [heq]

theorem forest_frameFor (s : Scheduler) (label : Label) (origin : Nat) :
    (s.frameFor label origin).2.forest = s.forest := by
  rw [frameFor]
  split <;> rfl

theorem forest_link (s : Scheduler) (frame : StackId) (link : Link) :
    (Scheduler.link frame link s).2.forest = s.forest := by
  rw [Scheduler.link]
  split <;> rfl

theorem forest_recordResult (s : Scheduler) (frame : StackId) (result : SymbolId) :
    (s.recordResult frame result).2.forest = s.forest := by
  simp only [recordResult]
  split <;> rfl

theorem prefixes_advance (s : Scheduler) (symbol : Option Char) :
    (s.advance symbol).forest.prefixes = s.forest.prefixes := by
  cases symbol <;> exact prefixes_derivationFor _ _ _

end Scheduler

section Requests

variable {before after : Moment} (h : before.scheduler.forest.Descends)
include h

/-- A prefix that is made goes back to one that is there, and what is packed later is not the
first. -/
theorem descends_of_append {label : Label} {left id : PrefixId} {right : SymbolId}
    (hleads : (Scheduler.append label left right).Leads before id after) :
    after.scheduler.forest.Descends := by
  obtain ⟨stem, symbol, made, hstem, hcons, -, rfl⟩ := Scheduler.leads_append.mp hleads
  have hleft := Forest.prefixNode?_lt hstem
  unfold Scheduler.consFor at hcons
  split at hcons
  · obtain ⟨rfl, rfl⟩ := Prod.mk.inj hcons
    exact h.packSplit _ _
  · obtain ⟨rfl, rfl⟩ := Prod.mk.inj hcons
    exact h.packSplit_addPrefix hleft

theorem descends_of_offer {task : Task} {taken : Bool}
    (hoffer : Scheduler.offer task before.scheduler = (taken, after.scheduler)) :
    after.scheduler.forest.Descends := by
  have hforest := before.scheduler.forest_offer task
  rw [hoffer] at hforest
  rw [hforest]
  exact h

theorem descends_of_deliver {link : Link} {result : SymbolId} {label : Label} {answer : Unit}
    (hleads : (Scheduler.deliver link result label).Leads before answer after) :
    after.scheduler.forest.Descends := by
  obtain ⟨id, between, isNew, happend, hschedule⟩ := Scheduler.leads_deliver.mp hleads
  obtain ⟨taken, hoffer, -⟩ := Moment.offer_of_leads hschedule
  exact descends_of_offer (descends_of_append h happend) hoffer

omit h

theorem HandsOut.descends {before after : Ledger} {label : Label} {deliveries : List Delivery}
    (hhands : HandsOut label deliveries before after) (h : before.scheduler.forest.Descends) :
    after.scheduler.forest.Descends := by
  induction hhands with
  | nil => exact h
  | cons hfirst hrest ih => exact ih (descends_of_deliver h hfirst.1)

include h

theorem descends_of_push {label : Label} {caller frame : StackId} {origin : Nat} {stem : PrefixId}
    (hleads : (Operation.push label caller origin stem).Leads before frame after) :
    after.scheduler.forest.Descends := by
  obtain ⟨last, rfl, hcarries⟩ := Operation.exists_ledger hleads
  obtain ⟨made, linked, isNew, hframe, hlink, hhands⟩ := Operation.carries_push.mp hcarries
  have hmade := before.scheduler.forest_frameFor label origin
  have hlinked := made.forest_link frame ⟨caller, stem⟩
  rw [hframe] at hmade
  rw [hlink] at hlinked
  refine hhands.descends ?_
  show linked.forest.Descends
  rw [hlinked, hmade]
  exact h

theorem descends_of_pop {frame : StackId} {result : SymbolId} {answer : Unit}
    (hleads : (Operation.pop frame result).Leads before answer after) :
    after.scheduler.forest.Descends := by
  obtain ⟨last, rfl, hcarries⟩ := Operation.exists_ledger hleads
  rcases Operation.carries_pop.mp hcarries with ⟨-, hsame⟩ |
    ⟨_, _, _, known, isNew, -, hrecord, -, hhands⟩
  · rw [hsame]
    exact h
  · have hknown := before.scheduler.forest_recordResult frame result
    rw [hrecord] at hknown
    refine hhands.descends ?_
    show known.forest.Descends
    rw [hknown]
    exact h

/-- Whatever is asked for, what was first under a prefix stays so. -/
theorem descends_of_operation {α : Type} {operation : Operation α} {answer : α}
    (hleads : operation.Leads before answer after) : after.scheduler.forest.Descends := by
  -- The prefixes change when the empty one is made and when something is appended, also as part of
  -- a delivery.
  cases operation with
  | look read =>
    obtain ⟨-, hsame⟩ := Act.leads_look.mp hleads
    rw [hsame]
    exact h
  | note event =>
    rw [Act.leads_emit.mp hleads]
    exact h
  | emptyPrefix =>
    have hmade : before.scheduler.emptyPrefix.2 = after.scheduler :=
      congrArg Prod.snd (Act.leads_update.mp hleads).1
    rw [← hmade, Scheduler.emptyPrefix]
    split
    · exact h
    · exact h.addEmpty _
  | append label left right => exact descends_of_append h hleads
  | derive symbol first child =>
    obtain ⟨made, hmake, rfl⟩ := Scheduler.leads_derive.mp hleads
    have hprefixes := before.scheduler.prefixes_derivationFor symbol first
    rw [hmake] at hprefixes
    exact h.of_prefixes hprefixes
  | scheduleNow label caller stem =>
    obtain ⟨taken, hoffer, -⟩ := Moment.offer_of_leads hleads
    exact descends_of_offer h hoffer
  | scheduleLater frame result =>
    obtain ⟨taken, hoffer, -⟩ := Moment.offer_of_leads hleads
    exact descends_of_offer h hoffer
  | push label caller origin stem => exact descends_of_push h hleads
  | pop frame result => exact descends_of_pop h hleads
  | deliver link result label => exact descends_of_deliver h hleads

theorem descends_of_routine {α : Type} {routine : Routine α} {answer : α}
    (hleads : routine.Leads before answer after) : after.scheduler.forest.Descends :=
  (routine.each_of_forall fun _ => trivial).keeps (fun m : Moment => m.scheduler.forest.Descends)
    (fun _ hoperation hbefore => descends_of_operation hbefore hoperation) hleads h

end Requests

namespace Forest.Descends

theorem initial (start : Nonterminal) : (Scheduler.initial start).forest.Descends := by
  intro id label first last children hnode
  have hnone : (Scheduler.initial start).forest.prefixNode? id = none := rfl
  cases hnone.symm.trans hnode

variable {s rest : Scheduler} (h : s.forest.Descends)
include h

theorem advance (symbol : Option Char) : (s.advance symbol).forest.Descends :=
  h.of_prefixes (s.prefixes_advance symbol)

theorem dequeue {task : Task} (hdequeue : s.dequeue? = some (task, rest)) :
    rest.forest.Descends := by
  obtain ⟨_, -, rfl⟩ := Scheduler.exists_of_dequeue? hdequeue
  exact h

end Forest.Descends

theorem Reached.descends {start : Nonterminal} {opened : Scheduler} {ledger : Ledger}
    (h : Reached start opened ledger) : ledger.scheduler.forest.Descends := by
  induction h with
  | initial => exact .initial start
  | advance symbol h hopen ih => exact ih.advance symbol
  | request h hissued hcarries ih => exact descends_of_operation ih hcarries.leads
  | dequeue h hdequeue ih => exact ih.dequeue hdequeue

/-- Whatever interprets the labels, and whatever handles it makes up. -/
theorem Session.Reaches.descends {σ μ : Type} {interpreter : Interpreter μ} {tracer : Tracer σ}
    {trace : σ} {store : μ} {limit : Nat} {fed : List Char} {session : Session σ μ}
    {offers : List Task}
    (h : Reaches interpreter tracer (.initial interpreter trace store limit) fed session offers) :
    session.scheduler.forest.Descends := by
  induction h with
  | start => exact .initial interpreter.start
  | @advance fed session next offers symbol _ hrun ih =>
    obtain ⟨opened, hopen, hrest⟩ := advance_eq_ok hrun
    obtain ⟨-, hadvance, -, -⟩ := openGeneration_eq_ok hopen
    have hopened : opened.scheduler.forest.Descends := hadvance ▸ ih.advance symbol
    split at hrest
    · exact descends_of_routine hopened (leads_of_perform [] hrest)
    · rw [hrest]
      exact hopened
  | @work fed session taken next offers task _ htake hrun ih =>
    obtain ⟨rest, fuel, hdequeue, -, rfl⟩ := takeTask_eq_ok htake
    exact descends_of_routine (ih.dequeue hdequeue) (leads_of_perform [] hrun)

/-! ## Programs -/

/-- How many symbols are before a label; slot 0 comes after the start symbol. -/
def Program.width? (program : Program) (label : Label) : Option Nat :=
  if label = acceptLabel then some 1 else (program.slot? label).map Slot.dot

theorem Forest.Tiles.concat {forest : Forest} {symbols : List SymbolId} {id : SymbolId}
    {node : SymbolNode} {i l j : Nat} (h : forest.Tiles symbols i l)
    (hnode : forest.symbolNode? id = some node) (hspan : node.span = ⟨l, j⟩) (hle : l ≤ j) :
    forest.Tiles (symbols ++ [id]) i j := by
  induction symbols generalizing i with
  | nil =>
    obtain rfl : i = l := h
    exact ⟨node, j, hnode, hspan, hle, rfl⟩
  | cons symbol rest ih =>
    obtain ⟨node', split, hnode', hspan', hle', hrest⟩ := h
    exact ⟨node', split, hnode', hspan', hle', ih hrest⟩

section Programs

variable {program : Program} {input : List Char} {m : Moment}

theorem Program.Item.width?_eq (hlaid : program.Laid) {label : Label} {owner : Option Nonterminal}
    {before after : List Atom} {atom : Atom}
    (hitem : program.Item label owner (before ++ [atom]) after) :
    program.width? label = some (before ++ [atom]).length := by
  rw [Program.width?]
  cases owner with
  | none =>
    obtain ⟨rfl, rfl, -, -⟩ := hitem.eq_accept_of_concat
    rfl
  | some owner =>
    have hlabel : label ≠ Program.acceptLabel := by
      rintro rfl
      exact hlaid.not_item_accept hitem
    obtain ⟨instruction, hslot⟩ := hitem.exists_slot?
    rw [if_neg hlabel, hslot, Option.map_some]

namespace Moment

/-- A symbol node over an atom is over the offsets between which it derives it. -/
theorem Derivative.exists_span {atom : Atom} {id : SymbolId} {i j : Nat}
    (h : m.Derivative program input atom id i j) :
    ∃ node, m.scheduler.forest.symbolNode? id = some node ∧ node.span = ⟨i, j⟩ ∧ i ≤ j := by
  cases h with
  | terminal hnode _ _ =>
    refine ⟨_, hnode, ?_, Nat.le_succ i⟩
    rw [SymbolNode.span, Position.offset_of]
  | nonterminal hnode _ hderives =>
    obtain ⟨alternatives, hnode⟩ := hnode
    obtain ⟨tree, hderives⟩ := hderives
    refine ⟨_, hnode, ?_, hderives.le⟩
    rw [SymbolNode.span, Position.offset_of, Position.offset_of]

/-- What is read off a prefix is one symbol for each of its atoms, side by side over its span. -/
theorem Sound.tiles_of_reads (hlaid : program.Laid) (hsound : m.Sound program input)
    {id stop : PrefixId} {symbols : List SymbolId} {position : Position}
    (hreads : m.scheduler.forest.Reads id symbols stop)
    (hstop : m.scheduler.forest.prefixNode? stop = some (.empty position)) {label : Label}
    {before : List Atom} {i j : Nat} (hstem : m.Stem program input label before id i j) :
    symbols.length = before.length ∧ m.scheduler.forest.Tiles symbols i j := by
  induction hreads generalizing label before j with
  | here id =>
    cases hstem with
    | empty _ => exact ⟨rfl, rfl⟩
    | cons _ _ hcons _ =>
      obtain ⟨children, hcons⟩ := hcons
      cases hcons.symm.trans hstop
  | @back id stop label' first last child symbols hnode hrest ih =>
    cases hstem with
    | empty hempty => cases hnode.symm.trans hempty
    | cons _ hitem hcons _ =>
      -- The split tells the shorter prefix and the symbol that it grew by.
      have hsplit : m.Holds (.split id child) := ⟨label', first, last, #[child], hnode, by simp⟩
      obtain ⟨_, left, right⟩ := child
      obtain ⟨owner, before', atom, after, i', l, j', hcons', hitem', -, hleft, hright⟩ :=
        hsound.proper hsplit
      obtain ⟨rfl, hi, hj⟩ := cons_unique hcons hcons'
      obtain rfl := Position.of_inj hi
      obtain rfl := Position.of_inj hj
      obtain ⟨-, hbefore, -⟩ := hlaid.item_unique hitem hitem'
      obtain ⟨hlength, htiles⟩ := ih hstop hleft
      obtain ⟨node, hright, hspan, hle⟩ := hright.exists_span
      refine ⟨?_, htiles.concat hright hspan hle⟩
      rw [hbefore, List.length_append, List.length_append, hlength]
      rfl

end Moment

/-- What is read off a prefix of a program is as long as the slot says, and covers its span. -/
theorem Program.tiles_of_subderivations {grammar : Grammar}
    (hcompile : Program.compile grammar = .ok program) {σ : Type} {tracer : Tracer σ} {trace : σ}
    {limit : Nat} {session : Session σ Unit} {fed : List Char} {offers : List Task}
    (h : Session.Reaches program.interpreter tracer (.initial program.interpreter trace () limit)
      fed session offers) {id : PrefixId} {label : Label} {first last : Position}
    {children : Array Split} {symbols : List SymbolId}
    (hnode : session.scheduler.forest.prefixNode? id = some (.cons label first last children))
    (hok : session.scheduler.forest.subderivations id = .ok symbols) :
    program.width? label = some symbols.length ∧
      session.scheduler.forest.Tiles symbols first.offset last.offset := by
  have hlaid := laid_of_compile hcompile
  obtain ⟨stop, position, hreads, hstop⟩ := (h.descends.readsOff ⟨_, hnode⟩).ok_iff.mp hok
  -- Before the first generation is opened there is no prefix.
  rcases h.timeline hlaid (List.prefix_refl fed) fun _ => rfl with ⟨hinitial, -⟩ | htimeline
  · have hnone : (Scheduler.initial program.start).forest.prefixNode? id = none := rfl
    rw [hinitial] at hnode
    cases hnone.symm.trans hnode
  · obtain ⟨carried, hunderway⟩ := htimeline.underway
    have hsound := hunderway.steady.sound
    have hcons : Moment.Holds ⟨session.scheduler, offers⟩ (.cons id label first last) :=
      ⟨children, hnode⟩
    obtain ⟨owner, before, atom, after, i, j, -, rfl, rfl, hitem, -, hderives⟩ :=
      hsound.proper hcons
    obtain ⟨hlength, htiles⟩ :=
      hsound.tiles_of_reads hlaid hreads hstop (.cons rfl hitem hcons hderives)
    rw [hitem.width?_eq hlaid, hlength, Position.offset_of, Position.offset_of]
    exact ⟨rfl, htiles⟩

end Programs

/-- **Reading a prefix back ends and is exact, in every forest that a scheduler can build.** After
any requests, in any order and about anything that is there, and in every session, whatever
interprets the labels, a prefix is read off as `Forest.ReadsOff` says. If the labels are those of a
compiled grammar, what is read off a prefix has as many symbols as there are before the dot of its
slot, and they lie side by side over its span. -/
theorem subderivations_exact :
    (∀ {start : Nonterminal} {opened : Scheduler} {ledger : Ledger} {id : PrefixId},
      Reached start opened ledger → ledger.scheduler.HasPrefix id →
        ledger.scheduler.forest.ReadsOff id) ∧
    (∀ {σ μ : Type} {interpreter : Interpreter μ} {tracer : Tracer σ} {trace : σ} {store : μ}
      {limit : Nat} {fed : List Char} {session : Session σ μ} {offers : List Task} {id : PrefixId},
      Session.Reaches interpreter tracer (.initial interpreter trace store limit) fed session
        offers → session.scheduler.HasPrefix id → session.scheduler.forest.ReadsOff id) ∧
    ∀ {grammar : Grammar} {program : Program} {σ : Type} {tracer : Tracer σ} {trace : σ}
      {limit : Nat} {fed : List Char} {session : Session σ Unit} {offers : List Task}
      {id : PrefixId} {label : Label} {first last : Position} {children : Array Split}
      {symbols : List SymbolId}, Program.compile grammar = .ok program →
      Session.Reaches program.interpreter tracer (.initial program.interpreter trace () limit) fed
        session offers →
      session.scheduler.forest.prefixNode? id = some (.cons label first last children) →
      session.scheduler.forest.subderivations id = .ok symbols →
        program.width? label = some symbols.length ∧
          session.scheduler.forest.Tiles symbols first.offset last.offset :=
  ⟨fun h hid => h.descends.readsOff hid, fun h hid => h.descends.readsOff hid,
    fun hcompile h hnode hok => Program.tiles_of_subderivations hcompile h hnode hok⟩

namespace Program

section Letter

variable {program : Program} {s : Scheduler} {first last : Position}
  (hslots : program.slots = #[⟨none, 0, .accept⟩, ⟨some ⟨0⟩, 0, .terminal (.char 'a')⟩,
    ⟨some ⟨0⟩, 1, .complete ⟨0⟩⟩])
include hslots

/-- Behind the letter, a prefix is split where the letter begins. -/
theorem split_of_builds_letter {child : Split} (h : program.Builds s first last ⟨2⟩ child) :
    ∃ position, s.forest.prefixNode? child.left = some (.empty position) ∧
      child.split = .symbol 'a' (last.offset - 1) := by
  cases h with
  | @slot _ previous slot _ _ _ hnext hslot hright hleft =>
    obtain ⟨previous⟩ := previous
    obtain rfl : previous = 1 := Nat.succ.inj (Label.mk.inj hnext)
    rw [slot?, hslots] at hslot
    cases hslot
    cases hright with
    | terminal _ haccepts hlast =>
      obtain rfl := eq_of_beq haccepts
      cases hleft with
      | empty hempty => exact ⟨_, hempty, by rw [hlast, Nat.add_sub_cancel]⟩
      | cons hdot _ => exact absurd hdot (Nat.lt_irrefl 0)

/-- The one alternative is complete behind the letter. -/
theorem cons_of_completes_letter (hentries : program.entries = #[[⟨1⟩]]) {id : PrefixId}
    (h : program.Completes s ⟨0⟩ first last id) :
    ∃ children, s.forest.prefixNode? id = some (.cons ⟨2⟩ first last children) := by
  cases h with
  | empty hlabels hentry hslot _ _ =>
    rw [entries?, hentries] at hlabels
    obtain rfl := Option.some.inj hlabels
    obtain rfl := List.mem_singleton.mp hentry
    rw [slot?, hslots] at hslot
    cases hslot
  | @cons label dot children hdot hslot hcons =>
    have hlabel : label = ⟨2⟩ := by
      rw [slot?, hslots] at hslot
      obtain ⟨_ | _ | _ | i⟩ := label
      · cases hslot
      · cases hslot
      · rfl
      · cases hslot
    exact ⟨children, hlabel ▸ hcons⟩

/-- Behind the letter a prefix is built in one way. -/
theorem eq_singleton_of_letter (hformed : program.WellFormed s) (hdistinct : s.Distinct)
    {id : PrefixId} {children : Array Split} {child : Split}
    (hcons : s.forest.prefixNode? id = some (.cons ⟨2⟩ first last children))
    (hchild : child ∈ children) : children = #[child] := by
  have hbuilds := hformed.children hcons hchild
  obtain ⟨-, -, hsplit⟩ := split_of_builds_letter hslots hbuilds
  refine eq_singleton_of_nodup (List.Nodup.of_map _ (hformed.distinct hcons)) ?_ ?_
  · rintro rfl
    exact Array.not_mem_empty _ hchild
  · intro other hother
    have hbuilds' := hformed.children hcons hother
    obtain ⟨-, -, hsplit'⟩ := split_of_builds_letter hslots hbuilds'
    exact hbuilds'.unique hdistinct hbuilds (hsplit'.trans hsplit.symm)

end Letter

/-- After the letter was parsed, the prefix behind it is built in one way, from the empty one. -/
theorem exists_reads_letter : ∃ program session id label first last child position,
    Program.compile Session.letter = .ok program ∧
      program.parse .silent () 4 "a" = .ok true session ∧
        session.scheduler.forest.prefixNode? id = some (.cons label first last #[child]) ∧
          session.scheduler.forest.prefixNode? child.left = some (.empty position) := by
  obtain ⟨program, hcompile, hstart, hentries, hslots⟩ := Session.compile_letter
  obtain ⟨other, session, hcompile', hparse⟩ := Session.parse_letter
  obtain rfl : program = other := Except.ok.inj (hcompile.symm.trans hcompile')
  obtain ⟨⟨offers, h⟩, hdequeue, hopen, hfinished, haccepted⟩ :=
    Session.Reaches.start.of_parse hparse
  have hformed := wellFormed_of_reaches (laid_of_compile hcompile) h
  -- The root has an alternative, since the text is accepted,
  obtain ⟨root, alternatives, hroot, hnode, -⟩ := root_iff_of_timeline (laid_of_compile hcompile)
    (h.timeline_fed (laid_of_compile hcompile) hopen) (pending_eq_nil_of_dequeue? offers hdequeue)
  have hne : alternatives ≠ #[] := (isAccepted_iff hfinished hroot hnode).mp haccepted
  obtain ⟨id, hid⟩ := Array.exists_mem_of_ne_empty alternatives hne
  obtain ⟨children, hcons⟩ :=
    cons_of_completes_letter hslots hentries (hstart ▸ hformed.alternatives hnode hid)
  -- and this one is built in some way.
  obtain ⟨child, hknown, -⟩ := h.descends id hcons
  have hchild := Array.mem_of_getElem? hknown
  obtain ⟨position, hempty, -⟩ :=
    split_of_builds_letter hslots (hformed.children hcons hchild)
  obtain rfl := eq_singleton_of_letter hslots hformed (h.law (Scheduler.law_distinct _)) hcons
    hchild
  exact ⟨program, session, id, ⟨2⟩, _, _, child, position, hcompile, hparse, hcons, hempty⟩

end Program

theorem subderivations_exact_letter :
    (∃ ledger stem, Reached ⟨0⟩ ((Scheduler.initial ⟨0⟩).advance (some 'x')) ledger ∧
      ledger.scheduler.HasPrefix stem ∧ ledger.scheduler.forest.ReadsOff stem) ∧
    ∃ program session id label first last children symbol,
      Program.compile Session.letter = .ok program ∧
        program.parse .silent () 4 "a" = .ok true session ∧
        session.scheduler.forest.prefixNode? id = some (.cons label first last children) ∧
        session.scheduler.forest.ReadsOff id ∧
        session.scheduler.forest.subderivations id = .ok [symbol] ∧
        program.width? label = some 1 ∧
        session.scheduler.forest.Tiles [symbol] first.offset last.offset := by
  obtain ⟨hrequests, hsessions, hprograms⟩ := subderivations_exact
  constructor
  · obtain ⟨ledger, frame, stem, root, links, h, -, -, -, hstack, hlink, -⟩ := exists_reached
    have hstem : ledger.scheduler.HasPrefix stem :=
      h.settled.closed.stems ⟨⟨1⟩, 0, links, hstack, hlink⟩
    exact ⟨ledger, stem, h, hstem, hrequests h hstem⟩
  · obtain ⟨program, session, id, label, first, last, child, position, hcompile, hparse, hnode,
      hleft⟩ := Program.exists_reads_letter
    obtain ⟨⟨offers, h⟩, -⟩ := Session.Reaches.start.of_parse hparse
    have hreads := hsessions h ⟨_, hnode⟩
    have hok : session.scheduler.forest.subderivations id = .ok [child.right] :=
      hreads.ok_iff.mpr ⟨child.left, position, .back hnode (.here _), hleft⟩
    obtain ⟨hwidth, htiles⟩ := hprograms hcompile h hnode hok
    exact ⟨program, session, id, label, first, last, _, _, hcompile, hparse, hnode, hreads, hok,
      hwidth, htiles⟩

end Gll
