import Gll.Proofs.Ambiguity
import Gll.Proofs.Multiplicity
import Gll.Proofs.Sentential
import Gll.Proofs.Unfolding

/-!
An outline writes out every derivation once, at its first place.

Two walks through the forest have to agree here. The counts come from going through every symbol
once, with a list of those that wait; the outline goes down from the root and relies on the counts
to know where to stop. What both have in common is an account: the symbols of which there are
entries are the ones that the part mentions and those to which the derivations refer that are
written out in it, no more and no less (`Accounted`). At every place of the outline that holds with
at most of the entries so far, and so no derivation that has no tag is written out twice: its second
entry would be a second reference to it, which was counted (`nodup_written`). In the end the
account is exact. Then everything that the root leads to has an entry, and as many as references
were counted (`Outlined`).
-/

set_option autoImplicit false

namespace Gll

open Relation (ReflTransGen)
open Text

namespace Forest

variable {program : Program} {forest : Forest} {root : SymbolId} {counts : Counts}
  {done : List SymbolId}

/-! ## The account of an outline -/

/-- The symbols of which there are entries, in order. -/
def occurrences (entries : List Entry) : List SymbolId := entries.filterMap Entry.symbol?

/-- The symbols of which a part of an outline is, beside those that stand below a derivation which
is written out in it. -/
def Part.mentioned (forest : Forest) : Part → List SymbolId
  | .symbol id => [id]
  | .stem id => forest.mentions id
  | .alternatives children | .rightHandSides children => children.flatMap forest.mentions
  | .splits children => children.flatMap fun child => child.right :: forest.mentions child.left

theorem occurrences_singleton (entry : Entry) : occurrences [entry] = entry.symbol?.toList := rfl

theorem written_singleton (entry : Entry) : written [entry] = entry.written?.toList := rfl

@[simp] theorem occurrences_append (entries others : List Entry) :
    occurrences (entries ++ others) = occurrences entries ++ occurrences others :=
  List.filterMap_append

theorem written_subset_occurrences (entries : List Entry) :
    written entries ⊆ occurrences entries := by
  intro id hid
  obtain ⟨entry, hentry, hwritten⟩ := List.mem_filterMap.mp hid
  exact List.mem_filterMap.mpr ⟨entry, hentry, Entry.symbol?_of_written? hwritten⟩

/-- Every entry of a symbol is accounted for: it is mentioned, or a derivation that is written out
refers to it, and that before. -/
structure Accounted (forest : Forest) (mentioned : List SymbolId) (entries : List Entry) :
    Prop where
  count (id : SymbolId) : (occurrences entries).count id
    = mentioned.count id + ((written entries).flatMap forest.refersTo).count id
  before {earlier later : List Entry} {entry : Entry} (id : SymbolId) :
    entries = earlier ++ entry :: later → (occurrences (earlier ++ [entry])).count id
      ≤ mentioned.count id + ((written earlier).flatMap forest.refersTo).count id

namespace Accounted

variable {mentioned mentioned' : List SymbolId} {entry : Entry} {entries others : List Entry}

theorem nil : Accounted forest [] [] where
  count _ := rfl
  before _ heq := absurd heq (by simp)

theorem append (h : Accounted forest mentioned entries) (h' : Accounted forest mentioned' others) :
    Accounted forest (mentioned ++ mentioned') (entries ++ others) where
  count id := by
    have hcount := h.count id
    have hcount' := h'.count id
    simp only [occurrences_append, written_append, List.flatMap_append, List.count_append]
    omega
  before {earlier later entry} id heq := by
    rcases eq_append_cons_cases heq with ⟨late, hentries, -⟩ | ⟨early, rfl, hothers⟩
    · have hbefore := h.before id hentries
      rw [List.count_append]
      omega
    · have hcount := h.count id
      have hbefore := h'.before id hothers
      simp only [occurrences_append, written_append, List.flatMap_append, List.count_append]
        at hbefore ⊢
      omega

/-- Another list of the same symbols is mentioned as well. -/
theorem perm (h : Accounted forest mentioned entries) (hperm : mentioned.Perm mentioned') :
    Accounted forest mentioned' entries where
  count id := hperm.count_eq id ▸ h.count id
  before id heq := hperm.count_eq id ▸ h.before id heq

/-- The first entry is of some of what is mentioned, and the others are of the rest and of what
stands below it. -/
theorem cons {below rest : List SymbolId} (hsymbol : entry.symbol?.toList = mentioned)
    (hwritten : entry.written?.toList.flatMap forest.refersTo = below)
    (h : Accounted forest (below ++ rest) entries) :
    Accounted forest (mentioned ++ rest) (entry :: entries) := by
  have hhead : occurrences [entry] = mentioned := by rw [occurrences_singleton, hsymbol]
  have hopened : (written [entry]).flatMap forest.refersTo = below := by
    rw [written_singleton, hwritten]
  refine ⟨fun id => ?_, fun {earlier later other} id heq => ?_⟩
  · have hcount := h.count id
    rw [← List.singleton_append, occurrences_append, written_append, List.flatMap_append, hhead,
      hopened]
    simp only [List.count_append] at hcount ⊢
    omega
  -- An entry is the first one or comes later, and then the first is among those before it.
  · cases earlier with
    | nil =>
      obtain ⟨rfl, rfl⟩ := List.cons.inj heq
      rw [List.nil_append, hhead, List.count_append]
      omega
    | cons first earlier =>
      obtain ⟨rfl, htail⟩ := List.cons.inj heq
      have hbefore := h.before id htail
      have hearlier : written (entry :: earlier) = written [entry] ++ written earlier :=
        written_append [entry] earlier
      rw [List.cons_append, ← List.singleton_append, occurrences_append, hhead, hearlier,
        List.flatMap_append, hopened]
      simp only [List.count_append] at hbefore ⊢
      omega

theorem remark (hsymbol : entry.symbol? = none) (hwritten : entry.written? = none)
    (h : Accounted forest mentioned entries) : Accounted forest mentioned (entry :: entries) := by
  have hrest : Accounted forest ([] ++ mentioned) entries := h
  exact cons (by rw [hsymbol, Option.toList_none]) (by rw [hwritten, Option.toList_none]; rfl) hrest

theorem single {id : SymbolId} (hsymbol : entry.symbol? = some id)
    (hwritten : entry.written? = none) : Accounted forest [id] [entry] := by
  have hrest : Accounted forest ([] ++ []) [] := nil
  exact cons (by rw [hsymbol, Option.toList_some]) (by rw [hwritten, Option.toList_none]; rfl) hrest

theorem writtenOut {id : SymbolId} (hwritten : entry.written? = some id)
    (h : Accounted forest (forest.refersTo id) entries) :
    Accounted forest [id] (entry :: entries) := by
  have hrest : Accounted forest (forest.refersTo id ++ []) entries := by rwa [List.append_nil]
  have hsymbol : entry.symbol?.toList = [id] := by
    rw [Entry.symbol?_of_written? hwritten, Option.toList_some]
  have hbelow : entry.written?.toList.flatMap forest.refersTo = forest.refersTo id := by
    rw [hwritten, Option.toList_some, List.flatMap_singleton]
  exact cons hsymbol hbelow hrest

end Accounted

/-- Whatever part of a forest is written out, the account of it is right. -/
theorem Unfolds.accounted (h : forest.Navigable program) {depth : Nat} {part : Part}
    {entries : List Entry} (hunfolds : forest.Unfolds depth part entries) :
    Accounted forest (part.mentioned forest) entries := by
  induction hunfolds with
  | terminal _ => exact .single rfl rfl
  | again _ => exact .single rfl rfl
  | written hnode _ ih =>
    refine .writtenOut rfl ?_
    rw [Navigable.refersTo_eq hnode]
    exact ih
  | noAlternative => exact .nil
  | @alternative _ child _ _ ih =>
    rw [Part.mentioned, List.flatMap_singleton]
    exact ih
  | alternatives _ _ ih => exact ih
  | noRightHandSide => exact .nil
  | rightHandSide _ _ ih ih' => exact .remark rfl rfl (ih.append ih')
  | noChild hnode hchildren =>
    rw [Part.mentioned, h.mentions_eq hnode, hchildren]
    exact .nil
  | child hnode hchildren _ _ ih ih' =>
    rw [Part.mentioned, h.mentions_eq hnode, hchildren, List.flatMap_singleton]
    exact (ih.append ih').perm (List.perm_append_singleton _ _)
  | fork hnode _ _ ih =>
    rw [Part.mentioned, h.mentions_eq hnode]
    exact .remark rfl rfl ih
  | noSplit => exact .nil
  | split _ _ _ ih ih' ih'' =>
    rw [Part.mentioned, List.flatMap_cons]
    exact .remark rfl rfl (((ih.append ih').perm (List.perm_append_singleton _ _)).append ih'')

/-! ## What the entries are of -/

/-- A symbol node is a derivation of a nonterminal, not a terminal. -/
def IsDerivation (forest : Forest) (id : SymbolId) : Prop :=
  ∃ symbol first last alternatives,
    forest.symbolNode? id = some (.nonterminal symbol first last alternatives)

/-- An entry is of a node of the right kind. -/
def Entry.Fits (forest : Forest) (entry : Entry) : Prop :=
  match entry.remark with
  | .terminal id position => forest.symbolNode? id = some (.terminal position)
  | .written id _ _ | .again id _ => forest.IsDerivation id
  | .rightHandSide _ | .fork _ | .split _ => True

theorem Unfolds.fits {depth : Nat} {part : Part} {entries : List Entry}
    (h : forest.Unfolds depth part entries) : ∀ entry ∈ entries, entry.Fits forest := by
  induction h with
  | terminal hnode => exact List.forall_mem_singleton.mpr hnode
  | again hnode => exact List.forall_mem_singleton.mpr ⟨_, _, _, _, hnode⟩
  | written hnode _ ih => exact List.forall_mem_cons.mpr ⟨⟨_, _, _, _, hnode⟩, ih⟩
  | noAlternative | noRightHandSide | noChild | noSplit =>
    exact fun entry hentry => absurd hentry List.not_mem_nil
  | alternative _ ih => exact ih
  | alternatives _ _ ih => exact ih
  | rightHandSide _ _ ih ih' =>
    exact List.forall_mem_cons.mpr ⟨trivial, List.forall_mem_append.mpr ⟨ih, ih'⟩⟩
  | child _ _ _ _ ih ih' => exact List.forall_mem_append.mpr ⟨ih, ih'⟩
  | fork _ _ _ ih => exact List.forall_mem_cons.mpr ⟨trivial, ih⟩
  | split _ _ _ ih ih' ih'' =>
    exact List.forall_mem_cons.mpr ⟨trivial, List.forall_mem_append.mpr
      ⟨List.forall_mem_append.mpr ⟨ih, ih'⟩, ih''⟩⟩

/-- The entry of a derivation writes it out or says that it was written out. -/
theorem Entry.Fits.of_isDerivation {entry : Entry} {id : SymbolId} (h : entry.Fits forest)
    (hsymbol : entry.symbol? = some id) (hid : forest.IsDerivation id) :
    entry.written? = some id ∨ ∃ tag, entry.remark = .again id tag := by
  obtain ⟨depth, remark⟩ := entry
  cases remark with
  | terminal other position =>
    obtain rfl := Option.some.inj hsymbol
    obtain ⟨symbol, first, last, alternatives, hnode⟩ := hid
    have hterminal : forest.symbolNode? other = some (.terminal position) := h
    cases hterminal.symm.trans hnode
  | written other tag alternatives => exact .inl hsymbol
  | again other tag =>
    obtain rfl := Option.some.inj hsymbol
    exact .inr ⟨tag, rfl⟩
  | rightHandSide | fork | split => cases hsymbol

/-! ## No derivation is written out twice -/

/-- What has a tag is written out above. -/
theorem mem_written_of_mem_shared {id : SymbolId} {entries : List Entry}
    (h : id ∈ shared counts entries) : id ∈ written entries :=
  (List.mem_filter.mp h).1

theorem TagsInOrder.tagFits {entry : Entry} {entries before after : List Entry}
    (h : TagsInOrder counts [] entries) (heq : entries = before ++ entry :: after) :
    entry.TagFits counts (shared counts before) := by
  rw [heq, tagsInOrder_append] at h
  exact h.2.1

/-- Every entry of a derivation comes with a place at which it is written out, here or above. -/
theorem mem_written_of_mem_occurrences {entries before : List Entry} {id : SymbolId}
    (hfits : ∀ entry ∈ entries, entry.Fits forest) (htags : TagsInOrder counts [] entries)
    (hbefore : before <+: entries) (hid : id ∈ occurrences before)
    (hderivation : forest.IsDerivation id) : id ∈ written before := by
  obtain ⟨entry, hentry, hsymbol⟩ := List.mem_filterMap.mp hid
  obtain ⟨earlier, later, rfl⟩ := List.append_of_mem hentry
  rcases (hfits entry (hbefore.mem hentry)).of_isDerivation hsymbol hderivation with
    hwritten | ⟨tag, hremark⟩
  · exact List.mem_filterMap.mpr ⟨entry, hentry, hwritten⟩
  · obtain ⟨after, rfl⟩ := hbefore
    have heq : earlier ++ entry :: later ++ after = earlier ++ entry :: (later ++ after) := by simp
    have htag := htags.tagFits heq
    rw [Entry.TagFits, hremark] at htag
    rw [written_append]
    exact List.mem_append_left _ (mem_written_of_mem_shared htag.2.1)

section Linear

variable {entries before after : List Entry} {entry : Entry} {id : SymbolId}
  (haccounted : Accounted forest [root] entries) (htags : TagsInOrder counts [] entries)
  (hcounted : Counted root forest (root :: done.flatMap forest.refersTo) done [] counts)
include haccounted hcounted

/-- If no derivation was written out twice so far, there are no more entries of a symbol up to here
than references to it. -/
theorem count_occurrences_le (heq : entries = before ++ entry :: after)
    (hnodup : (written before).Nodup) (hdone : ∀ id ∈ written before, id ∈ done) (id : SymbolId) :
    (occurrences (before ++ [entry])).count id ≤ (counts.getD id 0).toNat := by
  have hbefore := haccounted.before id heq
  have hsub : ((written before).flatMap forest.refersTo).Subperm (done.flatMap forest.refersTo) :=
    flatMap_subperm hnodup fun id hid => .inr (hdone id hid)
  have hle := hsub.count_le id
  have hall : (root :: done.flatMap forest.refersTo).count id
      = [root].count id + (done.flatMap forest.refersTo).count id := by
    rw [← List.count_append, List.singleton_append]
  rw [hcounted.getD_eq, hall]
  omega

include htags

/-- All that is written out is what was gone through for the counts, and each of it once. -/
theorem nodup_written (hbefore : before <+: entries) :
    (written before).Nodup ∧ ∀ id ∈ occurrences before, id ∈ done := by
  induction before using List.reverseRecOn with
  | nil => exact ⟨List.nodup_nil, fun id hid => absurd hid List.not_mem_nil⟩
  | append_singleton before entry ih =>
    obtain ⟨after, rfl⟩ := hbefore
    obtain ⟨hnodup, hmem⟩ := ih ⟨entry :: after, by simp⟩
    have heq : before ++ [entry] ++ after = before ++ entry :: after := by simp
    have hcount := count_occurrences_le haccounted hcounted heq hnodup
      fun id hid => hmem id (written_subset_occurrences before hid)
    refine ⟨?_, fun id hid => ?_⟩
    · rw [written_append, written_singleton]
      cases hwritten : entry.written? with
      | none => rwa [Option.toList_none, List.append_nil]
      | some id =>
        rw [Option.toList_some, (List.perm_append_singleton id _).nodup_iff]
        refine List.nodup_cons.mpr ⟨fun hid => ?_, hnodup⟩
        have htag := htags.tagFits heq
        obtain ⟨tag, alternatives, hremark⟩ := entry.remark_of_written? hwritten
        rw [Entry.TagFits, hremark] at htag
        by_cases hshared : 1 < counts.getD id 0
        · -- A tag is given out once.
          simp only [if_pos hshared] at htag
          exact htag.1 (List.mem_filter.mpr ⟨hid, decide_eq_true hshared⟩)
        · -- This is the second entry, and there is one reference.
          have hfirst : 0 < (occurrences before).count id :=
            List.count_pos_iff.mpr (written_subset_occurrences before hid)
          have hle := hcount id
          rw [UInt32.lt_iff_toNat_lt, UInt32.toNat_one] at hshared
          rw [occurrences_append, occurrences_singleton, Entry.symbol?_of_written? hwritten,
            Option.toList_some, List.count_append, List.count_singleton_self] at hle
          omega
    · have hpos : 0 < (counts.getD id 0).toNat := (List.count_pos_iff.mpr hid).trans_le (hcount id)
      rw [hcounted.getD_eq] at hpos
      exact (hcounted.mem_done_iff id).mpr (List.count_pos_iff.mp hpos)

end Linear

/-! ## Everything that is reached has an entry -/

/-- Whoever is mentioned in a prefix can be reached from it. -/
theorem Navigable.reach_of_mem_mentions (h : forest.Navigable program) {id : PrefixId}
    {node : PrefixNode} (hnode : forest.prefixNode? id = some node) {symbol : SymbolId}
    (hsymbol : symbol ∈ forest.mentions id) :
    ReflTransGen forest.Refers (.stem id) (.symbol symbol) := by
  refine h.mentions_induction
    (motive := fun id symbol => ReflTransGen forest.Refers (.stem id) (.symbol symbol))
    (fun {id node child} hnode hchild => ?_) (fun {id node child symbol} hnode hchild hreach => ?_)
    hnode hsymbol
  · cases node with
    | empty position => exact absurd hchild (Array.not_mem_empty child)
    | cons label first last children => exact .single (.right hnode hchild)
  · cases node with
    | empty position => exact absurd hchild (Array.not_mem_empty child)
    | cons label first last children => exact .head (.left hnode hchild) hreach

theorem Navigable.reach_of_mem_refersTo (h : forest.Navigable program) {id other : SymbolId}
    (hother : other ∈ forest.refersTo id) :
    ReflTransGen forest.Refers (.symbol id) (.symbol other) := by
  cases hnode : forest.symbolNode? id with
  | none =>
    rw [refersTo, hnode] at hother
    exact absurd hother List.not_mem_nil
  | some node =>
    rw [Navigable.refersTo_eq hnode, List.mem_flatMap] at hother
    obtain ⟨child, hchild, hmem⟩ := hother
    have hchild := Array.mem_toList_iff.mp hchild
    obtain ⟨below, hbelow⟩ := h.alternative hnode hchild
    cases node with
    | terminal position => exact absurd hchild (Array.not_mem_empty child)
    | nonterminal symbol first last alternatives =>
      exact .head (.alternative hnode hchild) (h.reach_of_mem_mentions hbelow hmem)

/-- What a root leads to along prefixes is what it leads to with the prefixes left out. -/
theorem Navigable.leads_of_reach (h : forest.Navigable program) {node : NodeId}
    (hreach : ReflTransGen forest.Refers (.symbol root) node) :
    match node with
    | .symbol id => forest.Leads root id
    | .stem id =>
      ∃ owner, forest.Leads root owner ∧ forest.mentions id ⊆ forest.refersTo owner := by
  induction hreach with
  | refl => exact .refl
  | @tail before after _ hstep ih =>
    cases hstep with
    | @alternative id _ _ _ _ child hnode hchild =>
      refine ⟨id, ih, fun symbol hsymbol => ?_⟩
      rw [Navigable.refersTo_eq hnode]
      exact List.mem_flatMap.mpr ⟨child, Array.mem_toList_iff.mpr hchild, hsymbol⟩
    | @left _ _ _ _ _ child hnode hchild =>
      obtain ⟨owner, howner, hmentions⟩ := ih
      refine ⟨owner, howner, fun symbol hsymbol => hmentions ?_⟩
      rw [h.mentions_eq hnode]
      exact List.mem_flatMap.mpr
        ⟨child, Array.mem_toList_iff.mpr hchild, List.mem_cons_of_mem _ hsymbol⟩
    | @right _ _ _ _ _ child hnode hchild =>
      obtain ⟨owner, howner, hmentions⟩ := ih
      refine howner.tail (hmentions ?_)
      rw [h.mentions_eq hnode]
      exact List.mem_flatMap.mpr ⟨child, Array.mem_toList_iff.mpr hchild, List.mem_cons_self⟩

theorem Navigable.leads_iff_reach (h : forest.Navigable program) {id : SymbolId} :
    forest.Leads root id ↔ ReflTransGen forest.Refers (.symbol root) (.symbol id) := by
  refine ⟨fun hleads => ?_, fun hreach => h.leads_of_reach hreach⟩
  induction hleads with
  | refl => exact .refl
  | tail _ hstep ih => exact ih.trans (h.reach_of_mem_refersTo hstep)

/-- An outline as it should be, of what can be reached from a root. -/
structure Outlined (forest : Forest) (root : SymbolId) (counts : Counts) (entries : List Entry) :
    Prop where
  /-- What is written out is written out in full. -/
  unfolds : forest.Unfolds 0 (.symbol root) entries
  /-- There are entries of what can be reached from the root, -/
  mem_iff (id : SymbolId) :
    id ∈ occurrences entries ↔ ReflTransGen forest.Refers (.symbol root) (.symbol id)
  /-- as many as references were counted. -/
  count (id : SymbolId) : (occurrences entries).count id = (counts.getD id 0).toNat
  /-- A derivation is written out at its first entry, -/
  first {before after : List Entry} {entry : Entry} {id : SymbolId} :
    entries = before ++ entry :: after → entry.symbol? = some id → forest.IsDerivation id →
      id ∉ occurrences before → entry.written? = some id
  /-- and after that it is only named. -/
  later {before after : List Entry} {entry : Entry} {id : SymbolId} :
    entries = before ++ entry :: after → entry.symbol? = some id → forest.IsDerivation id →
      id ∈ occurrences before → ∃ tag, entry.remark = .again id tag
  /-- Those of which there are several entries have tags, in the order in which they are written
  out, and every entry shows the tag. The others have none. -/
  tag {entry : Entry} {id : SymbolId} : entry ∈ entries → entry.symbol? = some id →
    forest.IsDerivation id → entry.tag?
      = if 1 < counts.getD id 0 then some ((shared counts entries).idxOf id + 1) else none

theorem isDerivation_of_mem_refersTo {id other : SymbolId} (hother : other ∈ forest.refersTo id) :
    forest.IsDerivation id := by
  rw [refersTo] at hother
  cases hnode : forest.symbolNode? id with
  | none =>
    rw [hnode] at hother
    exact absurd hother List.not_mem_nil
  | some node =>
    rw [hnode] at hother
    cases node with
    | terminal position => exact absurd hother List.not_mem_nil
    | nonterminal symbol first last alternatives => exact ⟨_, _, _, _, hnode⟩

section Outlined

variable {entries : List Entry} (haccounted : Accounted forest [root] entries)
  (hfits : ∀ entry ∈ entries, entry.Fits forest) (htags : TagsInOrder counts [] entries)
  (hcounted : Counted root forest (root :: done.flatMap forest.refersTo) done [] counts)
include haccounted hfits htags

/-- Whatever the root leads to has an entry: what refers to it is written out. -/
theorem mem_occurrences_of_leads {id : SymbolId} (hleads : forest.Leads root id) :
    id ∈ occurrences entries := by
  induction hleads with
  | refl =>
    have hcount := haccounted.count root
    rw [List.count_singleton_self] at hcount
    exact List.count_pos_iff.mp (by omega)
  | @tail before id _ hstep ih =>
    have hwritten : before ∈ written entries := mem_written_of_mem_occurrences hfits htags
      (List.prefix_refl entries) ih (isDerivation_of_mem_refersTo hstep)
    have hpos : 0 < ((written entries).flatMap forest.refersTo).count id :=
      List.count_pos_iff.mpr (List.mem_flatMap.mpr ⟨before, hwritten, hstep⟩)
    have hcount := haccounted.count id
    exact List.count_pos_iff.mp (by omega)

include hcounted

theorem mem_occurrences_iff (id : SymbolId) :
    id ∈ occurrences entries ↔ forest.Leads root id := by
  refine ⟨fun hid => ?_, mem_occurrences_of_leads haccounted hfits htags⟩
  exact (hcounted.mem_done_iff_leads id).mp
    ((nodup_written haccounted htags hcounted (List.prefix_refl entries)).2 id hid)

/-- There are as many entries of a symbol as references were counted. -/
theorem count_occurrences (id : SymbolId) :
    (occurrences entries).count id = (counts.getD id 0).toNat := by
  obtain ⟨hnodup, hdone⟩ := nodup_written haccounted htags hcounted (List.prefix_refl entries)
  -- What is written out was gone through, and what was gone through is written out unless it refers
  -- to nothing. Both lists name a symbol once, so their references are the same.
  have hle : ((written entries).flatMap forest.refersTo).Subperm (done.flatMap forest.refersTo) :=
    flatMap_subperm hnodup fun id hid => .inr (hdone id (written_subset_occurrences entries hid))
  have hge : (done.flatMap forest.refersTo).Subperm
      ((written entries).flatMap forest.refersTo) := by
    refine flatMap_subperm hcounted.nodup_done fun id hid => ?_
    cases hnone : forest.refersTo id with
    | nil => exact .inl rfl
    | cons other rest =>
      have hother : other ∈ forest.refersTo id := by
        rw [hnone]
        exact List.mem_cons_self
      have hleads := (hcounted.mem_done_iff_leads id).mp hid
      exact .inr (mem_written_of_mem_occurrences hfits htags (List.prefix_refl entries)
        (mem_occurrences_of_leads haccounted hfits htags hleads)
        (isDerivation_of_mem_refersTo hother))
  have hall : (root :: done.flatMap forest.refersTo).count id
      = [root].count id + (done.flatMap forest.refersTo).count id := by
    rw [← List.count_append, List.singleton_append]
  rw [haccounted.count, hcounted.getD_eq, hall, (hle.antisymm hge).count_eq]

theorem remark_eq_again {before after : List Entry} {entry : Entry} {id : SymbolId}
    (heq : entries = before ++ entry :: after) (hsymbol : entry.symbol? = some id)
    (hid : forest.IsDerivation id) (hbefore : id ∈ occurrences before) :
    ∃ tag, entry.remark = .again id tag := by
  refine ((hfits entry (by simp [heq])).of_isDerivation hsymbol hid).resolve_left fun hwritten => ?_
  have hearlier := mem_written_of_mem_occurrences hfits htags ⟨entry :: after, heq.symm⟩ hbefore hid
  have hnext : before ++ [entry] <+: entries := ⟨after, by simp [heq]⟩
  have hnodup := (nodup_written haccounted htags hcounted hnext).1
  rw [written_append, written_singleton, hwritten, Option.toList_some,
    (List.perm_append_singleton id _).nodup_iff] at hnodup
  exact (List.nodup_cons.mp hnodup).1 hearlier

omit haccounted hcounted in
theorem written?_eq_some {before after : List Entry} {entry : Entry} {id : SymbolId}
    (heq : entries = before ++ entry :: after) (hsymbol : entry.symbol? = some id)
    (hid : forest.IsDerivation id) (hnew : id ∉ occurrences before) : entry.written? = some id := by
  refine ((hfits entry (by simp [heq])).of_isDerivation hsymbol hid).resolve_right ?_
  rintro ⟨tag, hremark⟩
  have htag := htags.tagFits heq
  rw [Entry.TagFits, hremark] at htag
  exact hnew (written_subset_occurrences before (mem_written_of_mem_shared htag.2.1))

omit haccounted hcounted in
/-- The tag of a derivation is its number among those that have one. -/
theorem tag?_eq {entry : Entry} {id : SymbolId} (hentry : entry ∈ entries)
    (hsymbol : entry.symbol? = some id) (hid : forest.IsDerivation id) : entry.tag?
      = if 1 < counts.getD id 0 then some ((shared counts entries).idxOf id + 1) else none := by
  obtain ⟨before, after, heq⟩ := List.append_of_mem hentry
  have htag := htags.tagFits heq
  have hshared : shared counts entries
      = shared counts before ++ shared counts [entry] ++ shared counts after := by
    rw [heq, ← shared_append, ← shared_append, List.append_assoc, List.singleton_append]
  rcases (hfits entry hentry).of_isDerivation hsymbol hid with hwritten | ⟨tag, hremark⟩
  · obtain ⟨tag, alternatives, hremark⟩ := entry.remark_of_written? hwritten
    rw [Entry.TagFits, hremark] at htag
    rw [Entry.tag?, hremark]
    by_cases hcount : 1 < counts.getD id 0
    · simp only [if_pos hcount] at htag ⊢
      obtain ⟨hnew, rfl⟩ := htag
      have hsingle : shared counts [entry] = [id] := by
        rw [shared, written_singleton, hwritten, Option.toList_some]
        exact List.filter_cons_of_pos (decide_eq_true hcount)
      rw [hshared, hsingle, List.append_assoc, List.idxOf_append_of_notMem hnew,
        List.singleton_append, List.idxOf_cons_self, Nat.add_zero]
    · simpa only [if_neg hcount] using htag
  · rw [Entry.TagFits, hremark] at htag
    rw [Entry.tag?, hremark]
    obtain ⟨hcount, hmem, rfl⟩ := htag
    simp only [if_pos hcount]
    rw [hshared, List.append_assoc, List.idxOf_append_of_mem hmem]

end Outlined

/-- If all counts fit, what is below a node can be written as an outline, and that is an outline as
it should be. -/
theorem Navigable.exists_outlined (h : forest.Navigable program) (hwhole : program.Whole)
    {node : SymbolNode} (hroot : forest.symbolNode? root = some node)
    (hfits : forest.CountsFit root) :
    ∃ counts entries lines, forest.referenceCounts root = .ok counts ∧
      (∀ id, (counts.getD id 0).toNat = forest.referenceCount root id) ∧
        forest.outline program root = .ok lines ∧
          entries.mapM (Entry.line forest program) = .ok lines ∧
            forest.Outlined root counts entries := by
  obtain ⟨-, counts, done, hcounts, hcounted⟩ :=
    (h.referenceCounts_spec hroot).resolve_right fun hmany => hmany.1 hfits
  obtain ⟨_, lines, -, hlines, -⟩ := h.exists_outline hwhole hroot hfits
  have hwrite := hlines
  simp only [outline, hcounts, bind, Except.bind] at hwrite
  split at hwrite
  · cases hwrite
  · rename_i result hrun
    obtain ⟨entries, hunfolds, htags, hentries⟩ := exists_entries_of_writeSymbol hrun
    obtain rfl := Except.ok.inj hwrite
    have haccounted := hunfolds.accounted h
    have hentriesFit := hunfolds.fits
    refine ⟨counts, entries, _, hcounts,
      fun id => (hcounted.getD_eq id).trans (hcounted.count_eq_referenceCount id), hlines, hentries,
      hunfolds, fun id => ?_, count_occurrences haccounted hentriesFit htags hcounted,
      written?_eq_some hentriesFit htags, remark_eq_again haccounted hentriesFit htags hcounted,
      tag?_eq hentriesFit htags⟩
    rw [mem_occurrences_iff haccounted hentriesFit htags hcounted, h.leads_iff_reach]

end Forest

/-- In whatever state of a parse, whether its work is done or not, every symbol node has an outline
unless a count does not fit its word, and then it has none. The outline writes out every derivation
that can be reached from the node once, at its first entry, has an entry for every reference that
was counted, and numbers the derivations that have several. What is counted are all references from
what can be reached. -/
theorem Program.compile_outline {program : Program} {grammar : Grammar}
    (hcompile : Program.compile grammar = .ok program) {σ : Type} {tracer : Tracer σ} {trace : σ}
    {limit : Nat} {fed : List Char} {session : Session σ Unit} {offers : List Task}
    (hreaches : Session.Reaches program.interpreter tracer
      (.initial program.interpreter trace () limit) fed session offers)
    {root : SymbolId} {node : SymbolNode}
    (hroot : session.scheduler.forest.symbolNode? root = some node) :
    (session.scheduler.forest.CountsFit root →
      ∃ counts entries lines, session.scheduler.forest.referenceCounts root = .ok counts ∧
        (∀ id, (counts.getD id 0).toNat = session.scheduler.forest.referenceCount root id) ∧
          session.scheduler.forest.outline program root = .ok lines ∧
            entries.mapM (Forest.Entry.line session.scheduler.forest program) = .ok lines ∧
              session.scheduler.forest.Outlined root counts entries) ∧
    (¬ session.scheduler.forest.CountsFit root →
      session.scheduler.forest.outline program root = .error .overflow) := by
  have hwhole := whole_of_compile hcompile
  have hnavigable := hreaches.navigable hwhole
  exact ⟨hnavigable.exists_outlined hwhole hroot, hnavigable.outline_eq_overflow hroot⟩

/-- In the circular grammar a letter has few references. -/
theorem Program.countBound_circular {program : Program}
    (hcompile : Program.compile circular = .ok program) :
    program.countBound "a".toList.length < UInt32.size := by
  obtain ⟨other, hcompile', hslots, -, hentries, -⟩ := compile_circular
  obtain rfl : program = other := Except.ok.inj (hcompile.symm.trans hcompile')
  rw [countBound, hslots, nonterminalCount, hentries]
  decide

/-- Of a letter there are derivations without end in the circular grammar, and an outline. -/
theorem Program.compile_outline_circular : ∃ program session root counts entries lines,
    Program.compile circular = .ok program ∧ program.parse .silent () 224 "a" = .ok true session ∧
      session.scheduler.root = some root ∧ session.scheduler.forest.CountsFit root ∧
        session.scheduler.forest.referenceCounts root = .ok counts ∧
          session.scheduler.forest.outline program root = .ok lines ∧
            entries.mapM (Forest.Entry.line session.scheduler.forest program) = .ok lines ∧
              session.scheduler.forest.Outlined root counts entries := by
  obtain ⟨program, session, hcompile, hparse⟩ := parse_circular
  obtain ⟨⟨offers, h⟩, -, hopen, -⟩ := Session.Reaches.start.of_parse hparse
  obtain ⟨carried, hunderway⟩ := (h.timeline_fed (laid_of_compile hcompile) hopen).underway
  obtain ⟨root, hroot, alternatives, hnode⟩ := exists_root hunderway.steady.sound
  have hfits := compile_countsFit hcompile h (countBound_circular hcompile) root
  obtain ⟨counts, entries, lines, hcounts, -, hlines, hentries, houtlined⟩ :=
    (compile_outline hcompile h hnode).1 hfits
  exact ⟨program, session, root, counts, entries, lines, hcompile, hparse, hroot, hfits, hcounts,
    hlines, hentries, houtlined⟩

end Gll
