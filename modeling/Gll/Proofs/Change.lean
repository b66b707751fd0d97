import Gll.Proofs.Fact

/-!
What the elementary changes of a scheduler do, as facts.

There is one lemma for each function of the scheduler that changes it within a generation. Those
that make something on first use either find it and change nothing or add the facts of the new
thing, and its entry in the table. Those that pack, link or record add one fact, if there is
something to add it to.

All of them come down to what a look-up gives after a change of an array, which is said first for
the forest and for the graph of stacks.
-/

set_option autoImplicit false

namespace Gll

theorem mem_insertNew {α : Type} [BEq α] [LawfulBEq α] {items : Array α} {item other : α} :
    other ∈ (insertNew items item).2 ↔ other ∈ items ∨ other = item := by
  rw [insertNew]
  split
  · rename_i hmem
    rw [Array.contains_iff_mem] at hmem
    constructor
    · exact .inl
    · rintro (h | rfl)
      · exact h
      · exact hmem
  · exact Array.mem_push

/-- What a table holds after an entry under a new key. -/
theorem getElem?_insert_eq_some_iff {α β : Type} [BEq α] [LawfulBEq α] [Hashable α]
    {table : Std.HashMap α β} {key other : α} {value found : β} (hnew : table[key]? = none) :
    (table.insert key value)[other]? = some found ↔
      table[other]? = some found ∨ (other = key ∧ found = value) := by
  rw [Std.HashMap.getElem?_insert]
  split
  · rename_i hkey
    rw [beq_iff_eq] at hkey
    subst hkey
    rw [hnew]
    constructor
    · intro h
      exact .inr ⟨rfl, (Option.some.inj h).symm⟩
    · rintro (h | ⟨-, rfl⟩)
      · cases h
      · rfl
  · rename_i hkey
    rw [beq_iff_eq] at hkey
    constructor
    · exact .inl
    · rintro (h | ⟨rfl, -⟩)
      · exact h
      · exact absurd rfl hkey

/-- What an array holds with one more element behind. -/
theorem getElem?_push_eq_some_iff {α : Type} {items : Array α} {item found : α} {i : Nat} :
    (items.push item)[i]? = some found ↔
      items[i]? = some found ∨ (i = items.size ∧ found = item) := by
  rw [Array.getElem?_push]
  split
  · rename_i hi
    subst hi
    rw [Array.getElem?_eq_none (Nat.le_refl _)]
    constructor
    · intro h
      exact .inr ⟨rfl, (Option.some.inj h).symm⟩
    · rintro (h | ⟨-, rfl⟩)
      · cases h
      · rfl
  · rename_i hi
    constructor
    · exact .inl
    · rintro (h | ⟨rfl, -⟩)
      · exact h
      · exact absurd rfl hi

/-! ## Looking up nodes and stacks -/

namespace Forest

variable {forest : Forest}

@[simp] theorem prefixNode?_empty (id : PrefixId) : empty.prefixNode? id = none := by
  simp [empty, prefixNode?]

@[simp] theorem symbolNode?_empty (id : SymbolId) : empty.symbolNode? id = none := by
  simp [empty, symbolNode?]

theorem prefixNode?_addPrefix {node found : PrefixNode} {id : PrefixId} :
    (forest.addPrefix node).2.prefixNode? id = some found ↔
      forest.prefixNode? id = some found ∨ (id = (forest.addPrefix node).1 ∧ found = node) := by
  cases id
  rw [prefixNode?, addPrefix, getElem?_push_eq_some_iff]
  simp [prefixNode?]

theorem symbolNode?_addSymbol {node found : SymbolNode} {id : SymbolId} :
    (forest.addSymbol node).2.symbolNode? id = some found ↔
      forest.symbolNode? id = some found ∨ (id = (forest.addSymbol node).1 ∧ found = node) := by
  cases id
  rw [symbolNode?, addSymbol, getElem?_push_eq_some_iff]
  simp [symbolNode?]

theorem prefixNode?_packSplit {id other : PrefixId} {child : Split} :
    (forest.packSplit id child).prefixNode? other
      = if id = other then (forest.prefixNode? other).map fun node => (node.pack? child).getD node
        else forest.prefixNode? other := by
  cases id
  cases other
  simp [packSplit, prefixNode?, Array.getElem?_modify]

theorem symbolNode?_packAlternative {id other : SymbolId} {child : PrefixId} :
    (forest.packAlternative id child).symbolNode? other
      = if id = other then (forest.symbolNode? other).map fun node => (node.pack? child).getD node
        else forest.symbolNode? other := by
  cases id
  cases other
  simp [packAlternative, symbolNode?, Array.getElem?_modify]

end Forest

namespace StackGraph

variable {graph : StackGraph}

theorem stack?_empty {id : StackId} {found : Stack} :
    empty.stack? id = some found ↔ id = .initial ∧ found = .initial := by
  obtain ⟨_ | index⟩ := id
  · simp [empty, stack?, StackId.initial, eq_comm]
  · simp [empty, stack?, StackId.initial]

theorem stack?_addFrame {label : Label} {origin : Nat} {id : StackId} {found : Stack} :
    (graph.addFrame label origin).2.stack? id = some found ↔
      graph.stack? id = some found ∨
        (id = (graph.addFrame label origin).1 ∧ found = .frame label origin #[]) := by
  cases id
  rw [stack?, addFrame, getElem?_push_eq_some_iff]
  simp [stack?]

theorem stack?_addLink {id other : StackId} {link : Link} :
    (graph.addLink id link).stack? other
      = if id = other then (graph.stack? other).map fun stack => (stack.link link).2
        else graph.stack? other := by
  cases id
  cases other
  simp [addLink, stack?, Array.getElem?_modify]

end StackGraph

namespace Scheduler

variable {s : Scheduler}

theorem emptyPrefix_of_new (h : s.memory.emptyPrefix = none) :
    s.emptyPrefix = ((s.forest.addPrefix (.empty s.current)).1, { s with
      forest := (s.forest.addPrefix (.empty s.current)).2
      memory.emptyPrefix := some (s.forest.addPrefix (.empty s.current)).1 }) := by
  rw [emptyPrefix, h]

theorem consFor_of_new {label : Label} {first : Position}
    (h : s.memory.conses[(label, first)]? = none) :
    s.consFor label first = ((s.forest.addPrefix (.cons label first s.current #[])).1, { s with
      forest := (s.forest.addPrefix (.cons label first s.current #[])).2
      memory.conses := s.memory.conses.insert (label, first)
        (s.forest.addPrefix (.cons label first s.current #[])).1 }) := by
  rw [consFor, h]

theorem derivationFor_of_new {symbol : Nonterminal} {first : Position}
    (h : s.memory.derivations[(symbol, first)]? = none) :
    s.derivationFor symbol first
      = ((s.forest.addSymbol (.nonterminal symbol first s.current #[])).1, { s with
        forest := (s.forest.addSymbol (.nonterminal symbol first s.current #[])).2
        memory.derivations := s.memory.derivations.insert (symbol, first)
          (s.forest.addSymbol (.nonterminal symbol first s.current #[])).1 }) := by
  rw [derivationFor, h]

theorem frameFor_of_new {label : Label} {origin : Nat}
    (h : s.memory.frames[(label, origin)]? = none) :
    s.frameFor label origin = ((s.graph.addFrame label origin).1, { s with
      graph := (s.graph.addFrame label origin).2
      memory.frames := s.memory.frames.insert (label, origin)
        (s.graph.addFrame label origin).1 }) := by
  rw [frameFor, h]

end Scheduler

namespace Moment

variable {before after : Moment}

/-! ## Things that are made on first use -/

theorem emptyPrefix_cases {id : PrefixId}
    (h : before.scheduler.emptyPrefix = (id, after.scheduler)) (ho : after.offers = before.offers) :
    (after = before ∧ before.Holds (.emptyKey id)) ∨
      ((∀ other, ¬ before.Holds (.emptyKey other)) ∧
        before.Adds after {.empty id before.scheduler.current, .emptyKey id}) := by
  obtain ⟨s, offers⟩ := before
  obtain ⟨s', offers'⟩ := after
  dsimp only at h ho
  subst ho
  cases hkey : s.memory.emptyPrefix with
  | some known =>
    rw [Scheduler.emptyPrefix, hkey] at h
    obtain ⟨rfl, rfl⟩ := Prod.mk.inj h
    exact .inl ⟨rfl, hkey⟩
  | none =>
    rw [Scheduler.emptyPrefix_of_new hkey] at h
    obtain ⟨rfl, rfl⟩ := Prod.mk.inj h
    refine .inr ⟨fun other hother => by simp [Holds, hkey] at hother, fun fact => ?_, rfl, rfl⟩
    simp only [Set.mem_insert_iff, Set.mem_singleton_iff]
    -- What the other facts are about is untouched.
    cases fact with
    | empty other position => simp [Holds, Forest.prefixNode?_addPrefix]
    | cons other label first last => simp [Holds, Forest.prefixNode?_addPrefix]
    | split other child => simp [Holds, Forest.prefixNode?_addPrefix]
    | emptyKey other => simp [Holds, hkey, eq_comm]
    | _ => simp only [reduceCtorEq, or_false]; rfl

theorem consFor_cases {label : Label} {first : Position} {id : PrefixId}
    (h : before.scheduler.consFor label first = (id, after.scheduler))
    (ho : after.offers = before.offers) :
    (after = before ∧ before.Holds (.consKey label first id)) ∨
      ((∀ other, ¬ before.Holds (.consKey label first other)) ∧
        before.Adds after
          {.cons id label first before.scheduler.current, .consKey label first id}) := by
  obtain ⟨s, offers⟩ := before
  obtain ⟨s', offers'⟩ := after
  dsimp only at h ho
  subst ho
  cases hkey : s.memory.conses[(label, first)]? with
  | some known =>
    rw [Scheduler.consFor, hkey] at h
    obtain ⟨rfl, rfl⟩ := Prod.mk.inj h
    exact .inl ⟨rfl, hkey⟩
  | none =>
    rw [Scheduler.consFor_of_new hkey] at h
    obtain ⟨rfl, rfl⟩ := Prod.mk.inj h
    refine .inr ⟨fun other hother => by simp [Holds, hkey] at hother, fun fact => ?_, rfl, rfl⟩
    simp only [Set.mem_insert_iff, Set.mem_singleton_iff]
    cases fact with
    | empty other position => simp [Holds, Forest.prefixNode?_addPrefix]
    | cons other label' first' last' =>
      simp only [Holds, Forest.prefixNode?_addPrefix, exists_or, Fact.cons.injEq, reduceCtorEq,
        or_false, PrefixNode.cons.injEq]
      grind
    | split other child =>
      simp only [Holds, Forest.prefixNode?_addPrefix]
      grind
    | consKey label' first' other =>
      simp only [Holds, getElem?_insert_eq_some_iff hkey, Prod.mk.injEq, Fact.consKey.injEq,
        reduceCtorEq, false_or, and_assoc]
    | _ => simp only [reduceCtorEq, or_false]; rfl

theorem derivationFor_cases {symbol : Nonterminal} {first : Position} {id : SymbolId}
    (h : before.scheduler.derivationFor symbol first = (id, after.scheduler))
    (ho : after.offers = before.offers) :
    (after = before ∧ before.Holds (.derivationKey symbol first id)) ∨
      ((∀ other, ¬ before.Holds (.derivationKey symbol first other)) ∧
        before.Adds after {.derivation id symbol first before.scheduler.current,
          .derivationKey symbol first id}) := by
  obtain ⟨s, offers⟩ := before
  obtain ⟨s', offers'⟩ := after
  dsimp only at h ho
  subst ho
  cases hkey : s.memory.derivations[(symbol, first)]? with
  | some known =>
    rw [Scheduler.derivationFor, hkey] at h
    obtain ⟨rfl, rfl⟩ := Prod.mk.inj h
    exact .inl ⟨rfl, hkey⟩
  | none =>
    rw [Scheduler.derivationFor_of_new hkey] at h
    obtain ⟨rfl, rfl⟩ := Prod.mk.inj h
    refine .inr ⟨fun other hother => by simp [Holds, hkey] at hother, fun fact => ?_, rfl, rfl⟩
    simp only [Set.mem_insert_iff, Set.mem_singleton_iff]
    cases fact with
    | terminal other position => simp [Holds, Forest.symbolNode?_addSymbol]
    | derivation other symbol' first' last' =>
      simp only [Holds, Forest.symbolNode?_addSymbol, exists_or, Fact.derivation.injEq,
        reduceCtorEq, or_false, SymbolNode.nonterminal.injEq]
      grind
    | alternative other child =>
      simp only [Holds, Forest.symbolNode?_addSymbol]
      grind
    | derivationKey symbol' first' other =>
      simp only [Holds, getElem?_insert_eq_some_iff hkey, Prod.mk.injEq, Fact.derivationKey.injEq,
        reduceCtorEq, false_or, and_assoc]
    | _ => simp only [reduceCtorEq, or_false]; rfl

theorem frameFor_cases {label : Label} {origin : Nat} {id : StackId}
    (h : before.scheduler.frameFor label origin = (id, after.scheduler))
    (ho : after.offers = before.offers) :
    (after = before ∧ before.Holds (.frameKey label origin id)) ∨
      ((∀ other, ¬ before.Holds (.frameKey label origin other)) ∧
        before.Adds after {.frame id label origin, .frameKey label origin id}) := by
  obtain ⟨s, offers⟩ := before
  obtain ⟨s', offers'⟩ := after
  dsimp only at h ho
  subst ho
  cases hkey : s.memory.frames[(label, origin)]? with
  | some known =>
    rw [Scheduler.frameFor, hkey] at h
    obtain ⟨rfl, rfl⟩ := Prod.mk.inj h
    exact .inl ⟨rfl, hkey⟩
  | none =>
    rw [Scheduler.frameFor_of_new hkey] at h
    obtain ⟨rfl, rfl⟩ := Prod.mk.inj h
    refine .inr ⟨fun other hother => by simp [Holds, hkey] at hother, fun fact => ?_, rfl, rfl⟩
    simp only [Set.mem_insert_iff, Set.mem_singleton_iff]
    cases fact with
    | frame other label' origin' =>
      simp only [Holds, StackGraph.stack?_addFrame, exists_or, Fact.frame.injEq, reduceCtorEq,
        or_false, Stack.frame.injEq]
      grind
    | link other link =>
      simp only [Holds, StackGraph.stack?_addFrame]
      grind
    | frameKey label' origin' other =>
      simp only [Holds, getElem?_insert_eq_some_iff hkey, Prod.mk.injEq, Fact.frameKey.injEq,
        reduceCtorEq, false_or, and_assoc]
    | _ => simp only [reduceCtorEq, or_false]; rfl

/-! ## Things that are packed, linked and recorded -/

theorem packSplit_adds {id : PrefixId} {child : Split} {label : Label} {first last : Position}
    (hcons : before.Holds (.cons id label first last))
    (h : after.scheduler = before.scheduler.packSplit id child)
    (ho : after.offers = before.offers) :
    before.Adds after {.split id child} := by
  obtain ⟨s, offers⟩ := before
  obtain ⟨s', offers'⟩ := after
  dsimp only at h ho
  subst h ho
  obtain ⟨children, hnode⟩ := hcons
  refine ⟨fun fact => ?_, rfl, rfl⟩
  simp only [Set.mem_singleton_iff]
  -- A prefix that is built in one more way is still the same prefix, so only facts on splits are
  -- new.
  cases fact with
  | empty other position =>
    simp only [Holds, Scheduler.packSplit, Forest.prefixNode?_packSplit, reduceCtorEq, or_false]
    split
    · rename_i heq
      subst heq
      simp [hnode, PrefixNode.pack?]
    · rfl
  | cons other label' first' last' =>
    simp only [Holds, Scheduler.packSplit, Forest.prefixNode?_packSplit, reduceCtorEq, or_false]
    split
    · rename_i heq
      subst heq
      simp [hnode, PrefixNode.pack?]
    · rfl
  | split other child' =>
    simp only [Holds, Scheduler.packSplit, Forest.prefixNode?_packSplit, Fact.split.injEq]
    split
    · rename_i heq
      subst heq
      simp only [hnode, Option.map_some, PrefixNode.pack?, Option.getD_some, Option.some.injEq]
      grind [mem_insertNew]
    · rename_i hne
      have hne' : ¬(other = id ∧ child' = child) := fun heq => hne heq.1.symm
      simp [hne']
  | _ => simp only [reduceCtorEq, or_false]; rfl

theorem packAlternative_adds {id : SymbolId} {child : PrefixId} {symbol : Nonterminal}
    {first last : Position} (hnonterminal : before.Holds (.derivation id symbol first last))
    (h : after.scheduler = before.scheduler.packAlternative id child)
    (ho : after.offers = before.offers) :
    before.Adds after {.alternative id child} := by
  obtain ⟨s, offers⟩ := before
  obtain ⟨s', offers'⟩ := after
  dsimp only at h ho
  subst h ho
  obtain ⟨alternatives, hnode⟩ := hnonterminal
  refine ⟨fun fact => ?_, rfl, rfl⟩
  simp only [Set.mem_singleton_iff]
  -- A symbol with one more right-hand side is still the same symbol.
  cases fact with
  | terminal other position =>
    simp only [Holds, Scheduler.packAlternative, Forest.symbolNode?_packAlternative, reduceCtorEq,
      or_false]
    split
    · rename_i heq
      subst heq
      simp [hnode, SymbolNode.pack?]
    · rfl
  | derivation other symbol' first' last' =>
    simp only [Holds, Scheduler.packAlternative, Forest.symbolNode?_packAlternative, reduceCtorEq,
      or_false]
    split
    · rename_i heq
      subst heq
      simp [hnode, SymbolNode.pack?]
    · rfl
  | alternative other child' =>
    simp only [Holds, Scheduler.packAlternative, Forest.symbolNode?_packAlternative,
      Fact.alternative.injEq]
    split
    · rename_i heq
      subst heq
      simp only [hnode, Option.map_some, SymbolNode.pack?, Option.getD_some, Option.some.injEq]
      grind [mem_insertNew]
    · rename_i hne
      have hne' : ¬(other = id ∧ child' = child) := fun heq => hne heq.1.symm
      simp [hne']
  | _ => simp only [reduceCtorEq, or_false]; rfl

theorem link_cases {frame : StackId} {link : Link} {label : Label} {origin : Nat} {isNew : Bool}
    (hframe : before.Holds (.frame frame label origin))
    (h : before.scheduler.link frame link = (isNew, after.scheduler))
    (ho : after.offers = before.offers) :
    (isNew = false ∧ after = before ∧ before.Holds (.link frame link)) ∨
      (isNew = true ∧ ¬ before.Holds (.link frame link) ∧
        before.Adds after {.link frame link}) := by
  obtain ⟨s, offers⟩ := before
  obtain ⟨s', offers'⟩ := after
  dsimp only at h ho
  subst ho
  obtain ⟨links, hstack⟩ := hframe
  have hnew : s.graph.isNewLink frame link = !links.contains link := by
    rw [StackGraph.isNewLink, hstack]
  -- Whether the link is new is a question about the links of this frame.
  rw [Scheduler.link, hnew] at h
  split at h
  · rename_i hcontains
    obtain ⟨rfl, rfl⟩ := Prod.mk.inj h
    have hmem : link ∉ links := by simpa using hcontains
    refine .inr ⟨rfl, ?_, fun fact => ?_, rfl, rfl⟩
    · rintro ⟨label', origin', links', hstack', hlink⟩
      simp only at hstack'
      rw [hstack, Option.some.injEq, Stack.frame.injEq] at hstack'
      exact hmem (hstack'.2.2 ▸ hlink)
    · simp only [Set.mem_singleton_iff]
      cases fact with
      | frame other label' origin' =>
        simp only [Holds, StackGraph.stack?_addLink, reduceCtorEq, or_false]
        split
        · rename_i heq
          subst heq
          simp [hstack, Stack.link]
        · rfl
      | link other link' =>
        simp only [Holds, StackGraph.stack?_addLink, Fact.link.injEq]
        split
        · rename_i heq
          subst heq
          simp only [hstack, Option.map_some, Stack.link, Option.some.injEq]
          grind [mem_insertNew]
        · rename_i hne
          have hne' : ¬(other = frame ∧ link' = link) := fun heq => hne heq.1.symm
          simp [hne']
      | _ => simp only [reduceCtorEq, or_false]; rfl
  · rename_i hcontains
    obtain ⟨rfl, rfl⟩ := Prod.mk.inj h
    exact .inl ⟨rfl, rfl, label, origin, links, hstack, by simpa using hcontains⟩

theorem recordResult_cases {frame : StackId} {result : SymbolId} {isNew : Bool}
    (h : before.scheduler.recordResult frame result = (isNew, after.scheduler))
    (ho : after.offers = before.offers) :
    (isNew = false ∧ after = before ∧ before.Holds (.result frame result)) ∨
      (isNew = true ∧ ¬ before.Holds (.result frame result) ∧
        before.Adds after {.result frame result}) := by
  obtain ⟨s, offers⟩ := before
  obtain ⟨s', offers'⟩ := after
  dsimp only at h ho
  subst ho
  rw [Scheduler.recordResult] at h
  split at h
  · rename_i hcontains
    obtain ⟨rfl, rfl⟩ := Prod.mk.inj h
    exact .inl ⟨rfl, rfl, by simpa [Holds] using hcontains⟩
  · rename_i hcontains
    obtain ⟨rfl, rfl⟩ := Prod.mk.inj h
    refine .inr ⟨rfl, by simpa [Holds] using hcontains, fun fact => ?_, rfl, rfl⟩
    simp only [Set.mem_singleton_iff]
    -- The results of other frames are in other rows of the table.
    cases fact with
    | result other result' =>
      simp only [Holds, Scheduler.results, Std.HashMap.getElem?_insert, Fact.result.injEq]
      split
      · rename_i heq
        rw [beq_iff_eq] at heq
        subst heq
        simp
      · rename_i hne
        rw [beq_iff_eq] at hne
        have hne' : ¬(other = frame ∧ result' = result) := fun heq => hne heq.1.symm
        simp [hne']
    | _ => simp only [reduceCtorEq, or_false]; rfl

/-! ## Tasks that are offered -/

/-- A slot that was already resumed for a caller is not resumed again; another waits at the end. -/
theorem offer_resume_cases {label : Label} {caller : StackId} {stem : PrefixId} {taken : Bool}
    (h : before.scheduler.offer (.resume label caller stem) = (taken, after.scheduler))
    (ho : after.offers = before.offers ++ [.resume label caller stem]) :
    (taken = false ∧ before.Holds (.resumed label caller) ∧
        before.Adds after {.offered (.resume label caller stem)}) ∨
      (taken = true ∧ ¬ before.Holds (.resumed label caller) ∧
        (∀ fact, after.Holds fact ↔ before.Holds fact ∨
          fact ∈ ({.resumed label caller, .offered (.resume label caller stem)} : Set Fact)) ∧
        after.scheduler.control = before.scheduler.control ∧
        after.pending = before.pending ++ [.resume label caller stem]) := by
  obtain ⟨s, offers⟩ := before
  obtain ⟨s', offers'⟩ := after
  dsimp only at h ho
  subst ho
  simp only [Scheduler.offer, Scheduler.enqueue] at h
  split at h
  · rename_i hcontains
    obtain ⟨rfl, rfl⟩ := Prod.mk.inj h
    refine .inl ⟨rfl, by simpa [Holds] using hcontains, fun fact => ?_, rfl, rfl⟩
    simp only [Set.mem_singleton_iff]
    cases fact with
    | offered other => simp [Holds]
    | _ => simp only [reduceCtorEq, or_false]; rfl
  · rename_i hcontains
    obtain ⟨rfl, rfl⟩ := Prod.mk.inj h
    refine .inr ⟨rfl, by simpa [Holds] using hcontains, fun fact => ?_, rfl, by simp [pending]⟩
    simp only [Set.mem_insert_iff, Set.mem_singleton_iff]
    cases fact with
    | offered other => simp [Holds]
    | resumed label' caller' =>
      simp only [Holds, Std.HashSet.mem_insert, beq_iff_eq, Prod.mk.injEq, Fact.resumed.injEq]
      grind
    | _ => simp only [reduceCtorEq, or_false]; rfl

/-- A terminal is staged for a frame once. -/
theorem offer_shift_cases {frame : StackId} {result : SymbolId} {taken : Bool}
    (h : before.scheduler.offer (.shift frame result) = (taken, after.scheduler))
    (ho : after.offers = before.offers ++ [.shift frame result]) :
    (taken = false ∧ before.Holds (.shifted frame) ∧
        before.Adds after {.offered (.shift frame result)}) ∨
      (taken = true ∧ ¬ before.Holds (.shifted frame) ∧
        before.Adds after {.shifted frame, .staged (.shift frame result),
          .offered (.shift frame result)}) := by
  obtain ⟨s, offers⟩ := before
  obtain ⟨s', offers'⟩ := after
  dsimp only at h ho
  subst ho
  simp only [Scheduler.offer, Scheduler.stage] at h
  split at h
  · rename_i hcontains
    obtain ⟨rfl, rfl⟩ := Prod.mk.inj h
    refine .inl ⟨rfl, by simpa [Holds] using hcontains, fun fact => ?_, rfl, rfl⟩
    simp only [Set.mem_singleton_iff]
    cases fact with
    | offered other => simp [Holds]
    | _ => simp only [reduceCtorEq, or_false]; rfl
  · rename_i hcontains
    obtain ⟨rfl, rfl⟩ := Prod.mk.inj h
    refine .inr ⟨rfl, by simpa [Holds] using hcontains, fun fact => ?_, rfl, rfl⟩
    simp only [Set.mem_insert_iff, Set.mem_singleton_iff]
    cases fact with
    | offered other => simp [Holds]
    | shifted other =>
      simp only [Holds, Std.HashSet.mem_insert, beq_iff_eq, Fact.shifted.injEq]
      grind
    | staged other => simp [Holds]
    | _ => simp only [reduceCtorEq, or_false]; rfl

end Moment

end Gll
