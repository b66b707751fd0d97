import Gll.Proofs.References

/-!
An outline of a forest can be written.

A forest may have cycles, and what ends the writing of its outline is that a derivation to which
several references lead is written out once. So the derivations that are open at a time, each
written out below the one before, are different: if one came again on this way it would have two
references, one from the way down to its first place and one from the way down to its second
(`Counted.one_lt_of_mem_path`), and then it has got a tag at the first place. Hence no more
derivations are open than there are, and between two of them no more prefixes than there are. The
allowance of steps is for that (`Navigable.exists_outline`).

A count of references is not bounded by the number of nodes, as a prefix is gone through once for
every way that leads to it. If a count does not fit its word there is no outline at all
(`Navigable.outline_eq_overflow`). Else each reference that is counted is a place of the outline,
with a line of its own, since every derivation that is gone through for the counting is written out
somewhere. So no count is larger than the number of lines.
-/

set_option autoImplicit false

namespace Gll.Forest

variable {program : Program} {forest : Forest} {root : SymbolId} {counts : Counts}
  {done : List SymbolId}

/-! ## The way down -/

/-- What may be written next when some derivations are open, the last one first. -/
def Next (forest : Forest) (root : SymbolId) : List SymbolId → SymbolId → Prop
  | [], id => id = root
  | last :: _, id => id ∈ forest.refersTo last

/-- Derivations that are open at a time, the last one first, all different. -/
inductive Path (forest : Forest) (root : SymbolId) : List SymbolId → Prop where
  | nil : Path forest root []
  | cons {id : SymbolId} {path : List SymbolId} (h : Path forest root path)
      (hnext : Next forest root path id) (hnew : id ∉ path) : Path forest root (id :: path)

namespace Path

variable {path : List SymbolId} {id : SymbolId}

theorem nodup (h : Path forest root path) : path.Nodup := by
  induction h with
  | nil => exact List.nodup_nil
  | cons _ _ hnew ih => exact List.nodup_cons.mpr ⟨hnew, ih⟩

/-- What is open is the root, or one that is open before it refers to it. -/
theorem eq_root_or_mem {last : SymbolId} (h : Path forest root (last :: path))
    (hid : id ∈ last :: path) : id = root ∨ ∃ other ∈ path, id ∈ forest.refersTo other := by
  induction path generalizing last with
  | nil =>
    obtain rfl := List.mem_singleton.mp hid
    cases h with
    | cons _ hnext _ => exact .inl hnext
  | cons before path ih =>
    cases h with
    | cons h hnext _ =>
      rcases List.mem_cons.mp hid with rfl | hid
      · exact .inr ⟨before, List.mem_cons_self, hnext⟩
      · obtain hroot | ⟨other, hother, hmem⟩ := ih h hid
        · exact .inl hroot
        · exact .inr ⟨other, List.mem_cons_of_mem _ hother, hmem⟩

end Path

namespace Counted

variable {path : List SymbolId} {id : SymbolId}
  (h : Counted root forest (root :: done.flatMap forest.refersTo) done [] counts)
include h

theorem mem_done_of_next (hall : ∀ other ∈ path, other ∈ done)
    (hnext : Next forest root path id) : id ∈ done := by
  rw [h.mem_done_iff]
  cases path with
  | nil =>
    obtain rfl : id = root := hnext
    exact List.mem_cons_self
  | cons last path =>
    have hlast := hall last List.mem_cons_self
    exact List.mem_cons_of_mem _ (List.mem_flatMap.mpr ⟨last, hlast, hnext⟩)

theorem mem_done_of_path (hpath : Path forest root path) : ∀ id ∈ path, id ∈ done := by
  induction hpath with
  | nil => exact fun id hid => absurd hid List.not_mem_nil
  | cons _ hnext _ ih => exact List.forall_mem_cons.mpr ⟨h.mem_done_of_next ih hnext, ih⟩

/-- No more derivations are open than there are symbols. -/
theorem path_length_le (hpath : Path forest root path) : path.length ≤ forest.symbols.size := by
  have hle := (hpath.nodup.subperm (h.mem_done_of_path hpath)).length_le
  have hdone := h.length_le
  rw [List.append_nil] at hdone
  exact hle.trans hdone

/-- What comes again on the way down is referred to twice. -/
theorem one_lt_of_mem_path (hpath : Path forest root path) (hnext : Next forest root path id)
    (hid : id ∈ path) : 1 < counts.getD id 0 := by
  rw [UInt32.lt_iff_toNat_lt, h.getD_eq, UInt32.toNat_one]
  cases path with
  | nil => exact absurd hid List.not_mem_nil
  | cons last path =>
    have hlast := h.mem_done_of_path hpath last List.mem_cons_self
    have hperm := List.perm_cons_erase hlast
    have hpos : 0 < (forest.refersTo last).count id := List.count_pos_iff.mpr hnext
    have hsplit : (done.flatMap forest.refersTo).count id = (forest.refersTo last).count id
        + ((done.erase last).flatMap forest.refersTo).count id := by
      rw [(hperm.flatMap_right forest.refersTo).count_eq, List.flatMap_cons, List.count_append]
    rw [List.count_cons, hsplit]
    rcases hpath.eq_root_or_mem hid with rfl | ⟨other, hother, hmem⟩
    · rw [if_pos (beq_self_eq_true _)]
      omega
    · -- The other one that refers to it is open before the last one, so it is not the last one.
      have hne : other ≠ last := fun heq => (List.nodup_cons.mp hpath.nodup).1 (heq ▸ hother)
      have hdone := h.mem_done_of_path hpath other (List.mem_cons_of_mem _ hother)
      have hrest : other ∈ done.erase last := (List.mem_erase_of_ne hne).mpr hdone
      have hpos' : 0 < ((done.erase last).flatMap forest.refersTo).count id :=
        List.count_pos_iff.mpr (List.mem_flatMap.mpr ⟨other, hrest, hmem⟩)
      omega

end Counted

/-! ## What is written -/

/-- Some derivations were written out between two states of an outline. There are so many lines to
spare, beside one for each of the given symbols and one for each to which those that were written
out refer; and each of these symbols was written out, or had been before, unless it refers to
nothing. -/
structure Grown (forest : Forest) (spare : Nat) (symbols : List SymbolId) (before after : Outline)
    (opened : List SymbolId) : Prop where
  tags {id : SymbolId} : id ∈ before.tags → id ∈ after.tags
  new {id : SymbolId} : id ∈ after.tags → id ∈ before.tags ∨ id ∈ opened
  lines : before.lines.size + spare + symbols.length + (opened.flatMap forest.refersTo).length
    ≤ after.lines.size
  covered {id : SymbolId} : id ∈ symbols ∨ id ∈ opened.flatMap forest.refersTo →
    forest.refersTo id = [] ∨ id ∈ opened ∨ id ∈ before.tags

namespace Grown

variable {spare spare' : Nat} {symbols symbols' opened opened' : List SymbolId}
  {before between after : Outline}

theorem refl (outline : Outline) : Grown forest 0 [] outline outline [] where
  tags hid := hid
  new hid := .inl hid
  lines := Nat.le_refl _
  covered hid := by simp at hid

theorem trans (h : Grown forest spare symbols before between opened)
    (h' : Grown forest spare' symbols' between after opened') :
    Grown forest (spare + spare') (symbols ++ symbols') before after (opened ++ opened') where
  tags hid := h'.tags (h.tags hid)
  new hid := by
    rcases h'.new hid with hid | hid
    · exact (h.new hid).imp_right (List.mem_append_left _)
    · exact .inr (List.mem_append_right _ hid)
  lines := by
    have hfirst := h.lines
    have hsecond := h'.lines
    rw [List.flatMap_append, List.length_append, List.length_append]
    omega
  covered {id} hid := by
    have hfirst : id ∈ symbols ∨ id ∈ opened.flatMap forest.refersTo → forest.refersTo id = [] ∨
        id ∈ opened ++ opened' ∨ id ∈ before.tags := fun hid =>
      (h.covered hid).imp_right fun hid => hid.imp_left (List.mem_append_left _)
    have hsecond : id ∈ symbols' ∨ id ∈ opened'.flatMap forest.refersTo → forest.refersTo id = [] ∨
        id ∈ opened ++ opened' ∨ id ∈ before.tags := by
      intro hid
      -- What has a tag between the parts had it before, or was written out in the first.
      rcases h'.covered hid with hnone | hid | hid
      · exact .inl hnone
      · exact .inr (.inl (List.mem_append_right _ hid))
      · exact .inr ((h.new hid).symm.imp_left (List.mem_append_left _))
    rw [List.flatMap_append, List.mem_append, List.mem_append] at hid
    rcases hid with (hid | hid) | (hid | hid)
    · exact hfirst (.inl hid)
    · exact hsecond (.inl hid)
    · exact hfirst (.inr hid)
    · exact hsecond (.inr hid)

theorem mono (h : Grown forest spare symbols before after opened) (hspare : spare' ≤ spare)
    (hperm : symbols'.Perm symbols) : Grown forest spare' symbols' before after opened where
  tags := h.tags
  new := h.new
  lines := by
    have hlines := h.lines
    rw [hperm.length_eq]
    omega
  covered hid := h.covered (hid.imp_left hperm.mem_iff.mp)

/-- One more line. -/
theorem write (outline : Outline) (line : Text.Styled) :
    Grown forest 1 [] outline { outline with lines := outline.lines.push line } [] where
  tags hid := hid
  new hid := .inl hid
  lines := by simp
  covered hid := by simp at hid

/-- The line of a symbol that is not written out here. -/
theorem writeSymbol {id : SymbolId} (outline : Outline) (line : Text.Styled)
    (hid : forest.refersTo id = [] ∨ id ∈ outline.tags) :
    Grown forest 0 [id] outline { outline with lines := outline.lines.push line } [] where
  tags hid := hid
  new hid := .inl hid
  lines := by simp
  covered {other} hother := by
    obtain rfl : other = id := by simpa using hother
    exact hid.imp_right .inr

/-- A derivation that is written out, with a head line and what it refers to. -/
theorem writtenOut {id : SymbolId} (h : Grown forest 1 (forest.refersTo id) between after opened)
    (htags : ∀ {other}, other ∈ before.tags → other ∈ between.tags)
    (hnew : ∀ {other}, other ∈ between.tags → other ∈ before.tags ∨ other = id)
    (hlines : between.lines = before.lines) :
    Grown forest 0 [id] before after (id :: opened) where
  tags hother := h.tags (htags hother)
  new hother := by
    rcases h.new hother with hother | hother
    · exact (hnew hother).imp_right fun heq => List.mem_cons.mpr (.inl heq)
    · exact .inr (List.mem_cons_of_mem _ hother)
  lines := by
    have hgrown := h.lines
    rw [hlines] at hgrown
    rw [List.flatMap_cons, List.length_append, List.length_singleton]
    omega
  covered {other} hother := by
    rw [List.flatMap_cons, List.mem_append, List.mem_singleton] at hother
    rcases hother with rfl | hother
    · exact .inr (.inl List.mem_cons_self)
    · rcases h.covered hother with hnone | hother | hother
      · exact .inl hnone
      · exact .inr (.inl (List.mem_cons_of_mem _ hother))
      -- What has a tag by now had it before, unless it is the derivation itself.
      · rcases hnew hother with hother | rfl
        · exact .inr (.inr hother)
        · exact .inr (.inl List.mem_cons_self)

end Grown

theorem tagOf_of_mem {id : SymbolId} {outline : Outline} (h : id ∈ outline.tags) :
    ∃ tag, Outline.tagOf id outline = .ok ((tag, true), outline) := by
  have hknown := Std.HashMap.getElem?_eq_some_getElem h
  exact ⟨outline.tags[id], by rw [Outline.tagOf, hknown]⟩

theorem tagOf_of_notMem {id : SymbolId} {outline : Outline} (h : id ∉ outline.tags) :
    Outline.tagOf id outline = .ok ((outline.tags.size + 1, false),
      { outline with tags := outline.tags.insert id (outline.tags.size + 1) }) := by
  rw [Outline.tagOf, Std.HashMap.getElem?_eq_none h]

/-- Every open derivation with several references has a tag. -/
def Tagged (counts : Counts) (path : List SymbolId) (outline : Outline) : Prop :=
  ∀ id ∈ path, 1 < counts.getD id 0 → id ∈ outline.tags

theorem Tagged.grown {path : List SymbolId} {spare : Nat} {symbols opened : List SymbolId}
    {before after : Outline} (h : Tagged counts path before)
    (hgrown : Grown forest spare symbols before after opened) : Tagged counts path after :=
  fun id hid hcount => hgrown.tags (h id hid hcount)

theorem run_bind {α β : Type} {first : Write α} {next : α → Write β} {a : α}
    {before between : Outline} (h : first before = .ok (a, between)) :
    (first >>= next) before = next a between := by
  change (first before >>= fun result => next result.1 result.2) = _
  rw [h]
  rfl

/-- Something is written without a fault, as long as the open derivations have their tags. -/
def Writes (forest : Forest) (counts : Counts) (path : List SymbolId) (spare : Nat)
    (symbols : List SymbolId) (write : Write Unit) : Prop :=
  ∀ before, Tagged counts path before → ∃ after opened, write before = .ok ((), after) ∧
    Grown forest spare symbols before after opened

namespace Writes

variable {path : List SymbolId} {spare spare' : Nat} {symbols symbols' : List SymbolId}
  {first second : Write Unit}

theorem mono (h : Writes forest counts path spare symbols first) (hspare : spare' ≤ spare)
    (hperm : symbols'.Perm symbols) : Writes forest counts path spare' symbols' first := by
  intro before htagged
  obtain ⟨after, opened, hrun, hgrown⟩ := h before htagged
  exact ⟨after, opened, hrun, hgrown.mono hspare hperm⟩

theorem pure : Writes forest counts path 0 [] (Pure.pure ()) :=
  fun before _ => ⟨before, [], rfl, .refl before⟩

theorem line (depth : Nat) (text : Text.Styled) :
    Writes forest counts path 1 [] (Outline.write depth text) :=
  fun before _ => ⟨_, [], rfl, .write before _⟩

theorem bind (hfirst : Writes forest counts path spare symbols first)
    (hsecond : Writes forest counts path spare' symbols' second) :
    Writes forest counts path (spare + spare') (symbols ++ symbols')
      (first >>= fun _ => second) := by
  intro before htagged
  obtain ⟨between, opened, hrun, hgrown⟩ := hfirst before htagged
  obtain ⟨after, opened', hrun', hgrown'⟩ := hsecond between (htagged.grown hgrown)
  exact ⟨after, opened ++ opened', (run_bind hrun).trans hrun', hgrown.trans hgrown'⟩

theorem forM {β : Type} {items : List β} {body : β → Write Unit} {mentioned : β → List SymbolId}
    (h : ∀ item ∈ items, Writes forest counts path 0 (mentioned item) (body item)) :
    Writes forest counts path 0 (items.flatMap mentioned) (items.forM body) := by
  induction items with
  | nil => exact pure
  | cons item rest ih =>
    change Writes forest counts path (0 + 0) _ (body item >>= fun _ => rest.forM body)
    rw [List.flatMap_cons]
    exact bind (h item List.mem_cons_self) (ih fun other hother =>
      h other (List.mem_cons_of_mem _ hother))

/-- What is read on the way is there. -/
theorem read {α : Type} {outcome : Except Fault α} {value : α} {next : α → Write Unit}
    (hread : outcome = .ok value) (h : Writes forest counts path spare symbols (next value)) :
    Writes forest counts path spare symbols ((liftM outcome : Write α) >>= next) := by
  subst hread
  exact h

/-- A derivation with one reference at most is written out where that is. -/
theorem once {id : SymbolId} (hcount : ¬1 < counts.getD id 0)
    (h : Writes forest counts (id :: path) 1 (forest.refersTo id) first) :
    Writes forest counts path 0 [id] first := by
  intro before htagged
  obtain ⟨after, opened, hrun, hgrown⟩ :=
    h before (List.forall_mem_cons.mpr ⟨fun hlt => absurd hlt hcount, htagged⟩)
  exact ⟨after, id :: opened, hrun, hgrown.writtenOut (fun hother => hother) .inl rfl⟩

/-- A derivation with several references is written out where it gets its tag, and then it is none
of the open ones. Elsewhere it takes a line. -/
theorem shared {id : SymbolId} {depth : Nat} {write : Nat × Bool → Write Unit}
    (hcount : 1 < counts.getD id 0)
    (hseen : ∀ tag, ∃ text, write (tag, true) = Outline.write depth text)
    (hfirst : ∀ tag, id ∉ path →
      Writes forest counts (id :: path) 1 (forest.refersTo id) (write (tag, false))) :
    Writes forest counts path 0 [id] (Outline.tagOf id >>= write) := by
  intro before htagged
  -- With a tag it was written out before, and then its line is all that is due.
  by_cases hmem : id ∈ before.tags
  · obtain ⟨tag, hrun⟩ := tagOf_of_mem hmem
    obtain ⟨text, hwrite⟩ := hseen tag
    rw [run_bind hrun, hwrite]
    exact ⟨_, [], rfl, .writeSymbol before _ (.inr hmem)⟩
  · rw [run_bind (tagOf_of_notMem hmem)]
    have htagged' : Tagged counts (id :: path)
        { before with tags := before.tags.insert id (before.tags.size + 1) } :=
      List.forall_mem_cons.mpr ⟨fun _ => Std.HashMap.mem_insert_self, fun other hother hlt =>
        Std.HashMap.mem_insert.mpr (.inr (htagged other hother hlt))⟩
    have hnew : id ∉ path := fun hpath => hmem (htagged id hpath hcount)
    obtain ⟨after, opened, hrun, hgrown⟩ := hfirst _ hnew _ htagged'
    refine ⟨after, id :: opened, hrun, hgrown.writtenOut
      (fun hother => Std.HashMap.mem_insert.mpr (.inr hother)) (fun hother => ?_) rfl⟩
    refine (Std.HashMap.mem_insert.mp hother).symm.imp_right fun heq => ?_
    exact (eq_of_beq heq).symm

end Writes

/-! ## Symbols, right-hand sides and prefixes -/

/-- The steps that are left for what is below some open derivations. -/
def allowance (forest : Forest) (path : List SymbolId) : Nat :=
  (forest.symbols.size - path.length) * (forest.prefixes.size + 3)

variable (program forest root counts) in
/-- With so many steps a symbol is written out, wherever it is. -/
def SymbolsWritten (steps : Nat) : Prop :=
  ∀ depth {path : List SymbolId} {id : SymbolId}, Path forest root path →
    Next forest root path id → forest.allowance path < steps →
      Writes forest counts path 0 [id] (forest.writeSymbol program counts steps depth id)

variable (program forest root counts) in
/-- With so many steps the right-hand sides of an open derivation are written out. -/
def AlternativesWritten (steps : Nat) : Prop :=
  ∀ depth head {last : SymbolId} {path : List SymbolId} {children : List PrefixId},
    Path forest root (last :: path) →
    (∀ child ∈ children, ∃ node, forest.prefixNode? child = some node) →
    (∀ child ∈ children, ∀ id ∈ forest.mentions child, id ∈ forest.refersTo last) →
    forest.allowance (last :: path) + forest.prefixes.size + 1 < steps →
      Writes forest counts (last :: path) 1 (children.flatMap forest.mentions)
        (forest.writeAlternatives program counts steps depth head children)

variable (program forest root counts) in
/-- With so many steps a prefix in an open derivation is written out. -/
def PrefixesWritten (steps : Nat) : Prop :=
  ∀ depth {last : SymbolId} {path : List SymbolId} {id : PrefixId} {node : PrefixNode},
    Path forest root (last :: path) → forest.prefixNode? id = some node →
    (∀ symbol ∈ forest.mentions id, symbol ∈ forest.refersTo last) →
    forest.allowance (last :: path) + forest.depth id + 1 < steps →
      Writes forest counts (last :: path) 0 (forest.mentions id)
        (forest.writePrefix program counts steps depth id)

section Writing

variable {steps : Nat} (h : forest.Navigable program)
include h

theorem Navigable.exists_production (hwhole : program.Whole) {id : PrefixId} {node : PrefixNode}
    (hnode : forest.prefixNode? id = some node) :
    ∃ text, forest.production program id = .ok text := by
  have hread : forest.prefixNode id = .ok node := Fault.unlessSome_eq_ok_iff.mpr hnode
  refine exists_bind_ok hread ?_
  cases hlabel : node.label? with
  | none => exact ⟨_, rfl⟩
  | some label =>
    obtain ⟨text, htext⟩ := hwhole.exists_rightHandSide? (h.label hnode hlabel)
    exact exists_bind_ok (Fault.unlessSome_eq_ok_iff.mpr htext) ⟨_, rfl⟩

theorem PrefixesWritten.succ (hprefixes : PrefixesWritten program forest root counts steps)
    (hsymbols : SymbolsWritten program forest root counts steps) :
    PrefixesWritten program forest root counts (steps + 1) := by
  intro depth last path id node hpath hnode hmentions hsteps
  obtain ⟨stop, passed, hchain, hstop⟩ :=
    h.exists_chain hnode (Nat.lt_succ_of_lt (depth_lt hnode)) []
  rw [List.append_nil] at hchain
  have hpassed (hmem : ∀ symbol ∈ passed, symbol ∈ forest.mentions id) :
      Writes forest counts (last :: path) 0 passed
        (passed.forM (forest.writeSymbol program counts steps depth)) := by
    have heach : Writes forest counts (last :: path) 0 (passed.flatMap fun symbol => [symbol])
        (passed.forM (forest.writeSymbol program counts steps depth)) :=
      .forM fun symbol hsymbol =>
        hsymbols depth hpath (hmentions symbol (hmem symbol hsymbol)) (by omega)
    rwa [List.flatMap_singleton'] at heach
  rw [writePrefix]
  refine .read hchain ?_
  -- The chain ends at the empty prefix, or at one that it takes several ways to build; then each of
  -- the ways is written below it.
  rcases hstop with ⟨rfl, hperm⟩ | ⟨stopId, stopNode, rfl, hstopNode, hdepth, hperm⟩
  · exact (hpassed fun _ => hperm.mem_iff.mpr).mono (Nat.le_refl 0) hperm
  · have hstopMentions := h.mentions_eq hstopNode
    rw [hstopMentions] at hperm
    have hmem {symbol : SymbolId} {child : Split} (hchild : child ∈ stopNode.children.toList)
        (hsymbol : symbol ∈ child.right :: forest.mentions child.left) :
        symbol ∈ forest.refersTo last :=
      hmentions symbol (hperm.mem_iff.mpr (List.mem_append_left _
        (List.mem_flatMap.mpr ⟨child, hchild, hsymbol⟩)))
    refine (Writes.bind (.line depth _) (.bind (.forM fun child hchild => ?_)
      (hpassed fun symbol hsymbol => hperm.mem_iff.mpr (List.mem_append_right _ hsymbol)))).mono
        (Nat.zero_le _) hperm
    have hinside := Array.mem_toList_iff.mp hchild
    obtain ⟨left, hleft, -⟩ := h.left hstopNode hinside
    have hless := h.depth_left hstopNode hinside
    have hbelow : Writes forest counts (last :: path) 0 (forest.mentions child.left)
        (forest.writePrefix program counts steps (depth + 2) child.left) :=
      hprefixes (depth + 2) hpath hleft
        (fun symbol hsymbol => hmem hchild (List.mem_cons_of_mem _ hsymbol)) (by omega)
    have hright : Writes forest counts (last :: path) 0 [child.right]
        (forest.writeSymbol program counts steps (depth + 2) child.right) :=
      hsymbols (depth + 2) hpath (hmem hchild List.mem_cons_self) (by omega)
    exact ((Writes.line (depth + 1) _).bind (hbelow.bind hright)).mono (Nat.zero_le _)
      (List.perm_append_singleton _ _).symm

theorem AlternativesWritten.succ (hwhole : program.Whole)
    (hprefixes : PrefixesWritten program forest root counts steps) :
    AlternativesWritten program forest root counts (steps + 1) := by
  intro depth head last path children hpath hnodes hmentions hsteps
  have hchild (depth : Nat) {child : PrefixId} (hchild : child ∈ children) :
      Writes forest counts (last :: path) 0 (forest.mentions child)
        (forest.writePrefix program counts steps depth child) := by
    obtain ⟨node, hnode⟩ := hnodes child hchild
    have hdepth := depth_lt hnode
    exact hprefixes depth hpath hnode (hmentions child hchild) (by omega)
  match children with
  | [] => exact .line depth head
  | [child] =>
    obtain ⟨node, hnode⟩ := hnodes child List.mem_cons_self
    obtain ⟨text, htext⟩ := h.exists_production hwhole hnode
    rw [writeAlternatives, List.flatMap_singleton]
    exact .read htext (.bind (.line depth _) (hchild (depth + 1) List.mem_cons_self))
  | first :: second :: rest =>
    rw [writeAlternatives]
    · refine .bind (.line depth _) (.forM fun child hmem => ?_)
      obtain ⟨node, hnode⟩ := hnodes child hmem
      obtain ⟨text, htext⟩ := h.exists_production hwhole hnode
      refine .read htext ?_
      exact ((Writes.line (depth + 1) _).bind (hchild (depth + 2) hmem)).mono (Nat.zero_le _)
        (.refl _)
    · simp
    · simp

omit h in
theorem allowance_cons {path : List SymbolId} {id : SymbolId}
    (hlength : path.length < forest.symbols.size) :
    forest.allowance path = forest.allowance (id :: path) + (forest.prefixes.size + 3) := by
  have hleft : forest.symbols.size - path.length
      = forest.symbols.size - (id :: path).length + 1 := by
    rw [List.length_cons]
    omega
  rw [allowance, allowance, hleft, Nat.succ_mul]

/-- What comes below a derivation that is none of the open ones is written out. -/
theorem AlternativesWritten.of_next
    (halternatives : AlternativesWritten program forest root counts steps)
    (hcounted : Counted root forest (root :: done.flatMap forest.refersTo) done [] counts)
    {path : List SymbolId} {id : SymbolId} (hpath : Path forest root path)
    (hnext : Next forest root path id) (hnew : id ∉ path) (hsteps : forest.allowance path ≤ steps)
    {symbol : Nonterminal} {first last : Position} {alternatives : Array PrefixId}
    (hnode : forest.symbolNode? id = some (.nonterminal symbol first last alternatives))
    (depth : Nat) (head : Text.Styled) :
    Writes forest counts (id :: path) 1 (forest.refersTo id)
      (forest.writeAlternatives program counts steps depth head alternatives.toList) := by
  have hpath' : Path forest root (id :: path) := .cons hpath hnext hnew
  have hallowance : forest.allowance path
      = forest.allowance (id :: path) + (forest.prefixes.size + 3) :=
    allowance_cons (hcounted.path_length_le hpath')
  have hrefersTo : forest.refersTo id = alternatives.toList.flatMap forest.mentions :=
    Navigable.refersTo_eq hnode
  rw [hrefersTo]
  refine halternatives depth head hpath' (fun child hchild => ?_)
    (fun child hchild symbol hsymbol => ?_) (by omega)
  · exact h.alternative hnode (Array.mem_toList_iff.mp hchild)
  · rw [hrefersTo]
    exact List.mem_flatMap.mpr ⟨child, hchild, hsymbol⟩

theorem SymbolsWritten.succ (hwhole : program.Whole)
    (hcounted : Counted root forest (root :: done.flatMap forest.refersTo) done [] counts)
    (halternatives : AlternativesWritten program forest root counts steps) :
    SymbolsWritten program forest root counts (steps + 1) := by
  intro depth path id hpath hnext hsteps
  have hdone := hcounted.mem_done_of_next (hcounted.mem_done_of_path hpath) hnext
  obtain ⟨node, hnode⟩ := hcounted.node ((hcounted.mem_done_iff id).mp hdone)
  have hread : forest.symbolNode id = .ok node := Fault.unlessSome_eq_ok_iff.mpr hnode
  rw [writeSymbol]
  refine .read hread ?_
  cases node with
  | terminal position =>
    intro before _
    refine ⟨_, [], rfl, .writeSymbol before _ (.inl ?_)⟩
    rw [Navigable.refersTo_eq hnode]
    rfl
  | nonterminal symbol first last alternatives =>
    obtain ⟨name, hname⟩ := hwhole.named (h.symbol hnode rfl)
    have hname : program.name symbol = .ok name := Fault.unlessSome_eq_ok_iff.mpr hname
    refine .read hname ?_
    have hwritten (head : Text.Styled) (hnew : id ∉ path) :=
      halternatives.of_next h hcounted hpath hnext hnew (Nat.lt_succ_iff.mp hsteps) hnode depth head
    dsimp only
    split
    · rename_i hcount
      exact .shared hcount (fun tag => ⟨_, rfl⟩) fun tag hnew => hwritten _ hnew
    · rename_i hcount
      have hnew : id ∉ path := fun hmem => hcount (hcounted.one_lt_of_mem_path hpath hnext hmem)
      exact .once hcount (hwritten _ hnew)

/-- Everything is written out with the steps that are allowed for it. -/
theorem Navigable.written (hwhole : program.Whole)
    (hcounted : Counted root forest (root :: done.flatMap forest.refersTo) done [] counts)
    (steps : Nat) : SymbolsWritten program forest root counts steps ∧
      AlternativesWritten program forest root counts steps ∧
        PrefixesWritten program forest root counts steps := by
  induction steps with
  | zero =>
    refine ⟨fun _ _ _ _ _ hsteps => ?_, fun _ _ _ _ _ _ _ _ hsteps => ?_,
      fun _ _ _ _ _ _ _ _ hsteps => ?_⟩ <;> exact absurd hsteps (Nat.not_lt_zero _)
  | succ steps ih =>
    obtain ⟨hsymbols, halternatives, hprefixes⟩ := ih
    exact ⟨.succ h hwhole hcounted halternatives, .succ h hwhole hprefixes,
      .succ h hprefixes hsymbols⟩

end Writing

/-! ## The outline -/

/-- What some different symbols refer to is among what those refer to that include them. -/
theorem flatMap_subperm {f : SymbolId → List SymbolId} {opened : List SymbolId}
    (hnodup : done.Nodup) (h : ∀ id ∈ done, f id = [] ∨ id ∈ opened) :
    (done.flatMap f).Subperm (opened.flatMap f) := by
  induction done generalizing opened with
  | nil => exact List.nil_subperm
  | cons id rest ih =>
    obtain ⟨hnew, hnodup⟩ := List.nodup_cons.mp hnodup
    obtain ⟨hid, hrest⟩ := List.forall_mem_cons.mp h
    rw [List.flatMap_cons]
    rcases hid with hnone | hmem
    · rw [hnone, List.nil_append]
      exact ih hnodup hrest
    · have hothers : ∀ other ∈ rest, f other = [] ∨ other ∈ opened.erase id := by
        intro other hother
        have hne : other ≠ id := fun heq => hnew (heq ▸ hother)
        exact (hrest other hother).imp_right (List.mem_erase_of_ne hne).mpr
      refine .trans ?_ ((List.perm_cons_erase hmem).flatMap_right f).symm.subperm
      rw [List.flatMap_cons]
      exact (List.subperm_append_left _).mpr (ih hnodup hothers)

/-- Whatever the root leads to is written out somewhere, unless it refers to nothing. -/
theorem Grown.opened_of_leads {after : Outline} {opened : List SymbolId} {spare : Nat}
    (h : Grown forest spare [root] Outline.empty after opened) {id : SymbolId}
    (hleads : forest.Leads root id) : forest.refersTo id = [] ∨ id ∈ opened := by
  have hcovered {id : SymbolId} (hid : id ∈ [root] ∨ id ∈ opened.flatMap forest.refersTo) :
      forest.refersTo id = [] ∨ id ∈ opened :=
    (h.covered hid).imp_right fun hid => hid.resolve_right (by simp [Outline.empty])
  induction hleads with
  | refl => exact hcovered (.inl (List.mem_singleton_self root))
  | @tail before id _ hstep ih =>
    have hstep : id ∈ forest.refersTo before := hstep
    rcases ih with hnone | hopened
    · rw [hnone] at hstep
      exact absurd hstep List.not_mem_nil
    · exact hcovered (.inr (List.mem_flatMap.mpr ⟨before, hopened, hstep⟩))

/-- If all counts fit, what is below a node can be written as an outline, and no symbol is counted
more often than the outline has lines. -/
theorem Navigable.exists_outline (h : forest.Navigable program) (hwhole : program.Whole)
    {node : SymbolNode} (hroot : forest.symbolNode? root = some node)
    (hfits : forest.CountsFit root) :
    ∃ counts lines, forest.referenceCounts root = .ok counts ∧
      forest.outline program root = .ok lines ∧
        ∀ id, (counts.getD id 0).toNat ≤ lines.length := by
  obtain ⟨-, counts, done, hcounts, hcounted⟩ :=
    (h.referenceCounts_spec hroot).resolve_right fun hmany => hmany.1 hfits
  have hallowance : forest.allowance [] < (forest.symbols.size + 1) * (forest.prefixes.size + 3) :=
    Nat.mul_lt_mul_of_pos_right (Nat.lt_succ_self _) (Nat.succ_pos _)
  obtain ⟨after, opened, hwrite, hgrown⟩ :=
    (h.written hwhole hcounted _).1 0 .nil rfl hallowance Outline.empty
      fun id hid => absurd hid List.not_mem_nil
  refine ⟨counts, after.lines.toList, hcounts, ?_, fun id => ?_⟩
  · simp only [outline, hcounts, hwrite, bind, Except.bind]
    rfl
  · have hopened : ∀ id ∈ done, forest.refersTo id = [] ∨ id ∈ opened := fun id hid =>
      hgrown.opened_of_leads ((hcounted.mem_done_iff_leads id).mp hid)
    -- Each reference takes a line: that to the root the first, and any other where the derivation
    -- that it is in is written out.
    calc (counts.getD id 0).toNat
        = (root :: done.flatMap forest.refersTo).count id := hcounted.getD_eq id
      _ ≤ (root :: done.flatMap forest.refersTo).length := List.count_le_length
      _ ≤ 1 + (opened.flatMap forest.refersTo).length := by
        rw [List.length_cons, Nat.add_comm]
        exact Nat.add_le_add_left (flatMap_subperm hcounted.nodup_done hopened).length_le 1
      _ ≤ after.lines.toList.length := by
        have hlines := hgrown.lines
        rw [Array.length_toList]
        simp only [Outline.empty, List.size_toArray, List.length_nil, List.length_singleton]
          at hlines
        omega

/-- If a count does not fit, there is no outline. -/
theorem Navigable.outline_eq_overflow (h : forest.Navigable program) {node : SymbolNode}
    (hroot : forest.symbolNode? root = some node) (hmany : ¬ forest.CountsFit root) :
    forest.outline program root = .error .overflow := by
  obtain ⟨-, hcounts⟩ := (h.referenceCounts_spec hroot).resolve_left fun hfits => hmany hfits.1
  rw [outline, hcounts]
  rfl

end Gll.Forest
