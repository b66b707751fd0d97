import Gll.Proofs.Faultless
import Gll.Proofs.Painting
import Gll.Proofs.Terminals
import Gll.Proofs.Transcripts
import Gll.Proofs.Unfolding

/-!
Whatever is shown of a program and of its parses is bare.

The lines of listings, outlines and transcripts are made of fixed texts, numbers, quoted characters,
names of nonterminals and tests. Only the last two come from a user. If the names of the rules and
the sources of the patterns have no escape sequences and no line feeds, the lines have none either
but those of their colours, however the pieces are put together: each printer is gone through once,
and what it needs to know of the program is that its names and tests are bare (`Program.IsBare`).

Characters of the input are shown in quotes, where whatever cannot be seen is escaped, so nothing is
asked of the input.
-/

set_option autoImplicit false

namespace Gll

namespace Text

/-! ## Numbers and characters -/

theorem exists_digitChar_of_mem_toDigits {base n : Nat} (hbase : 1 < base) {c : Char}
    (h : c ∈ Nat.toDigits base n) : ∃ d, Nat.digitChar d = c := by
  induction n using Nat.strongRecOn with
  | ind n ih =>
    by_cases hlt : n < base
    · rw [Nat.toDigits_of_lt_base hlt] at h
      exact ⟨n, (List.mem_singleton.mp h).symm⟩
    · have hle := Nat.le_of_not_lt hlt
      rw [Nat.toDigits_of_base_le hbase hle] at h
      rcases List.mem_append.mp h with h | h
      · exact ih (n / base) (Nat.div_lt_self (by omega) hbase) h
      · exact ⟨_, (List.mem_singleton.mp h).symm⟩

theorem not_mem_toDigits (base n : Nat) (hbase : 1 < base) :
    '\x1b' ∉ Nat.toDigits base n ∧ '\n' ∉ Nat.toDigits base n := by
  constructor <;> intro h <;> obtain ⟨d, hd⟩ := exists_digitChar_of_mem_toDigits hbase h <;>
    simp at hd

@[simp] theorem isBare_repr (n : Nat) : IsBare n.repr := by
  have hdigits : n.repr.toList = Nat.toDigits 10 n := String.toList_ofList
  rw [IsBare, hdigits]
  exact not_mem_toDigits 10 n (by decide)

@[simp] theorem isBare_spaces (count : Nat) : IsBare (spaces count) := by
  simp [IsBare, spaces, List.mem_replicate]

@[simp] theorem isBare_padRight {width : Nat} {text : String} :
    IsBare (padRight width text) ↔ IsBare text := by
  simp [padRight]

/-- What is written for a character in quotes can be seen, if the quote can. -/
theorem not_mem_escaped (quote : Char) (hesc : quote ≠ '\x1b') (hline : quote ≠ '\n') (c : Char) :
    '\x1b' ∉ escaped quote c ∧ '\n' ∉ escaped quote c := by
  rw [escaped]
  split_ifs with hnull htab hfeed hreturn hbackslash hquote hshown
  · decide
  · decide
  · decide
  · decide
  · decide
  · simp [Ne.symm hesc, Ne.symm hline]
  · -- The control character that begins a sequence is not one that is shown as it is.
    have hne : c ≠ '\x1b' := by
      rintro rfl
      exact absurd hshown (by decide)
    simp [Ne.symm hne, Ne.symm hfeed]
  · have hdigits := not_mem_toDigits 16 c.toNat (by decide)
    simp [byNumber, hdigits]

@[simp] theorem isBare_quotedChar (c : Char) : IsBare (quotedChar c) := by
  have hchars : (quotedChar c).toList = '\'' :: escaped '\'' c ++ ['\''] := String.toList_ofList
  have hescaped := not_mem_escaped '\'' (by decide) (by decide) c
  simp [IsBare, hchars, hescaped]

end Text

open Text

/-! ## Handles, positions and spans -/

@[simp] theorem Label.isBare_text (label : Label) : Text.IsBare label.text := by
  simp +decide [Label.text]

@[simp] theorem StackId.isBare_text (id : StackId) : Text.IsBare id.text := by
  simp +decide [StackId.text]

@[simp] theorem SymbolId.isBare_text (id : SymbolId) : Text.IsBare id.text := by
  simp +decide [SymbolId.text]

@[simp] theorem PrefixId.isBare_text (id : PrefixId) : Text.IsBare id.text := by
  simp +decide [PrefixId.text]

@[simp] theorem Span.isBare_text (span : Span) : Text.IsBare span.text := by
  simp +decide [Span.text]

@[simp] theorem Position.isBare_text (position : Position) : Text.IsBare position.text := by
  cases position <;> simp +decide [Position.text]

/-! ## Programs -/

/-- A program whose names and tests are bare. -/
structure Program.IsBare (program : Program) : Prop where
  name {nonterminal : Nonterminal} {name : String} :
    program.name? nonterminal = some name → Text.IsBare name
  test {slot : Slot} {matcher : Matcher} :
    slot ∈ program.slots → slot.instruction = .terminal matcher → Text.IsBare matcher.text

/-- A compiled pattern is shown as it was written. -/
theorem Pattern.source_of_compile {source : String} {flags : Option String} {regex : Pattern}
    (h : Pattern.compile source flags = .ok regex) : regex.source = source := by
  simp only [Pattern.compile] at h
  split at h
  · split at h
    · exact congrArg Pattern.source (Except.ok.inj h).symm
    · cases h
  · cases h

/-- A test is bare if the leaf that asks for it has no bad source. -/
theorem Leaf.Tests.isBare {leaf : Leaf} {matcher : Matcher} (h : leaf.Tests matcher)
    (hsource : ∀ source flags, leaf = .pattern source flags → Text.IsBare source) :
    Text.IsBare matcher.text := by
  cases h with
  | char _ => exact isBare_quotedChar _
  | @pattern source flags regex hregex =>
    have hbare := hsource source flags rfl
    rw [Matcher.text, Pattern.text, Pattern.source_of_compile hregex]
    split <;> simp +decide [hbare]

namespace Program

open Lowering

variable {program : Program} {grammar : Grammar}

/-- The names of parts are those of their rules with a number, and tests are written in rules. -/
theorem Introduces.isBare {parts : List Part} (h : program.Introduces grammar parts)
    (hlaid : program.Laid) (hnames : ∀ name ∈ grammar.rules.map Prod.fst, Text.IsBare name)
    (hsources : ∀ rule source flags,
      (rule, .pattern source flags) ∈ leavesOfRules grammar.rules → Text.IsBare source) :
    program.IsBare where
  name {nonterminal name} hname := by
    rw [h.name?_eq] at hname
    -- First come the names of the rules, then those of the parts.
    rcases List.mem_append.mp (List.mem_of_getElem? hname) with hrule | hpart
    · exact hnames name hrule
    · obtain ⟨part, hmem, rfl⟩ := List.mem_map.mp hpart
      obtain ⟨rule, hentry, -⟩ := h.exists_rule_of_part hmem
      have hbare : Text.IsBare part.rule := hnames part.rule (List.mem_map_of_mem hentry)
      simp +decide [Part.name, partName, hbare]
  test {slot matcher} hslot hterminal := by
    obtain ⟨index, hindex⟩ := Array.mem_iff_getElem?.mp hslot
    have hlabel : program.slot? ⟨index⟩ = some slot := hindex
    obtain ⟨⟨rule, leaf⟩, hleaf, htests⟩ := h.exists_leaf_of_slot hlaid hlabel hterminal
    refine htests.isBare fun source flags heq => hsources rule source flags ?_
    rw [← heq]
    exact hleaf

/-! ## Listings -/

theorem mem_slots_of_mem_symbols? {label : Label} {symbols : List Slot}
    (h : program.symbols? label = some symbols) {slot : Slot} (hslot : slot ∈ symbols) :
    slot ∈ program.slots := by
  obtain ⟨first, -, h⟩ := Option.bind_eq_some_iff.mp h
  split at h
  · obtain rfl := Option.some.inj h
    cases hslot
  · obtain rfl := Option.some.inj h
    have hfollowing := (List.takeWhile_prefix _).subset hslot
    rw [Array.toList_extract] at hfollowing
    exact Array.mem_toList_iff.mp (List.mem_of_mem_drop (List.mem_of_mem_take hfollowing))

namespace IsBare

variable (h : program.IsBare)
include h

theorem symbolText? {slot : Slot} (hslot : slot ∈ program.slots) {text : Styled}
    (htext : program.symbolText? slot = some text) : text.IsBare := by
  rw [Program.symbolText?] at htext
  cases hinstruction : slot.instruction with
  | terminal matcher =>
    rw [hinstruction] at htext
    obtain rfl := Option.some.inj htext
    exact Styled.isBare_paint.mpr (h.test hslot hinstruction)
  | call callee =>
    rw [hinstruction] at htext
    obtain ⟨name, hname, rfl⟩ := Option.map_eq_some_iff.mp htext
    exact Styled.isBare_paint.mpr (h.name hname)
  | accept | complete _ =>
    rw [hinstruction] at htext
    cases htext

theorem symbolTexts {label : Label} {symbols : List Slot} {texts : List Styled}
    (hsymbols : program.symbols? label = some symbols)
    (htexts : symbols.mapM program.symbolText? = some texts) : ∀ text ∈ texts, text.IsBare := by
  intro text htext
  obtain ⟨slot, hslot, htext⟩ := exists_of_mem_mapM? htexts text htext
  exact h.symbolText? (mem_slots_of_mem_symbols? hsymbols hslot) htext

omit h in
theorem withDot {dot : Nat} {symbols : List Styled} (hsymbols : ∀ text ∈ symbols, text.IsBare) :
    (withDot dot symbols).IsBare := by
  induction dot generalizing symbols with
  | zero =>
    have hall : Styled.IsBare (symbols.flatMap fun symbol => plain " " ++ symbol) := by
      refine List.forall_mem_flatMap.mpr fun symbol hsymbol => Styled.isBare_append.mpr ⟨?_, ?_⟩
      · simp +decide
      · exact hsymbols symbol hsymbol
    simp +decide [Program.withDot, dotText, hall]
  | succ dot ih =>
    cases symbols with
    | nil => exact Styled.isBare_nil
    | cons symbol rest =>
      obtain ⟨hsymbol, hrest⟩ := List.forall_mem_cons.mp hsymbols
      simp +decide [Program.withDot, hsymbol, ih hrest]

omit h in
theorem spaced {symbols : List Styled} (hsymbols : ∀ text ∈ symbols, text.IsBare) :
    (spaced symbols).IsBare := by
  induction symbols with
  | nil => exact Styled.isBare_nil
  | cons text rest ih =>
    obtain ⟨htext, hrest⟩ := List.forall_mem_cons.mp hsymbols
    cases rest with
    | nil => exact htext
    | cons next rest => simp +decide [Program.spaced, htext, ih hrest]

theorem item? {label : Label} {text : Styled} (htext : program.item? label = some text) :
    text.IsBare := by
  obtain ⟨slot, -, htext⟩ := Option.bind_eq_some_iff.mp htext
  split at htext
  · obtain rfl := Option.some.inj htext
    simp +decide
  · obtain ⟨name, hname, htext⟩ := Option.bind_eq_some_iff.mp htext
    obtain ⟨symbols, hsymbols, htext⟩ := Option.bind_eq_some_iff.mp htext
    obtain ⟨texts, htexts, htext⟩ := Option.bind_eq_some_iff.mp htext
    obtain rfl := Option.some.inj htext
    simp +decide [h.name hname, withDot (h.symbolTexts hsymbols htexts)]

theorem rightHandSide? {label : Label} {text : Styled}
    (htext : program.rightHandSide? label = some text) : text.IsBare := by
  obtain ⟨symbols, hsymbols, htext⟩ := Option.bind_eq_some_iff.mp htext
  obtain ⟨texts, htexts, htext⟩ := Option.bind_eq_some_iff.mp htext
  obtain rfl := Option.some.inj htext
  split
  · simp +decide
  · exact spaced (h.symbolTexts hsymbols htexts)

omit h in
theorem slotLine {label : Label} {text : Styled} (htext : text.IsBare) :
    (program.slotLine label text).IsBare := by
  simp +decide [Program.slotLine, htext]

theorem nonterminalLines? {nonterminal : Nonterminal} {lines : List Styled}
    (hlines : program.nonterminalLines? nonterminal = some lines) :
    ∀ line ∈ lines, line.IsBare := by
  obtain ⟨name, hname, hlines⟩ := Option.bind_eq_some_iff.mp hlines
  obtain ⟨entries, -, hlines⟩ := Option.bind_eq_some_iff.mp hlines
  obtain ⟨labels, -, hlines⟩ := Option.bind_eq_some_iff.mp hlines
  obtain ⟨items, hitems, hlines⟩ := Option.bind_eq_some_iff.mp hlines
  obtain rfl := Option.some.inj hlines
  have hhead : ∀ line ∈ ([[], paint .name name] : List Styled), line.IsBare := by
    simp [h.name hname]
  refine List.forall_mem_append.mpr ⟨hhead, fun line hline => ?_⟩
  obtain ⟨label, -, hline⟩ := exists_of_mem_mapM? hitems line hline
  obtain ⟨text, htext, hline⟩ := Option.bind_eq_some_iff.mp hline
  obtain rfl := Option.some.inj hline
  exact slotLine (h.item? htext)

theorem listing? {lines : List Styled} (hlines : program.listing? = some lines) :
    ∀ line ∈ lines, line.IsBare := by
  obtain ⟨start, hstart, hlines⟩ := Option.bind_eq_some_iff.mp hlines
  obtain ⟨groups, hgroups, hlines⟩ := Option.bind_eq_some_iff.mp hlines
  obtain rfl := Option.some.inj hlines
  have hhead : ∀ line ∈ ([plain "start " ++ paint .name start,
      program.slotLine acceptLabel (plain "accept")] : List Styled), line.IsBare := by
    simp +decide [h.name hstart, slotLine]
  refine List.forall_mem_append.mpr ⟨hhead, fun line hline => ?_⟩
  obtain ⟨group, hgroup, hline⟩ := List.mem_flatten.mp hline
  obtain ⟨nonterminal, -, hgroup⟩ := exists_of_mem_mapM? hgroups group hgroup
  exact h.nonterminalLines? hgroup line hline

/-! ## Transcripts -/

theorem item {label : Label} {text : Styled} (htext : program.item label = .ok text) :
    text.IsBare :=
  h.item? (Fault.unlessSome_eq_ok_iff.mp htext)

theorem derived {nonterminal : Option Nonterminal} {text : Styled}
    (htext : Transcript.derived program nonterminal = .ok text) : text.IsBare := by
  cases nonterminal with
  | none =>
    obtain rfl := Except.ok.inj htext
    exact Styled.isBare_nil
  | some nonterminal =>
    obtain ⟨name, hname, htext⟩ := exists_of_bind_eq_ok htext
    obtain rfl := Except.ok.inj htext
    simp +decide [h.name (Fault.unlessSome_eq_ok_iff.mp hname)]

theorem testText {label : Label} {text : String} (htext : program.testText label = .ok text) :
    Text.IsBare text := by
  obtain ⟨slot, hslot, htext⟩ := exists_of_bind_eq_ok htext
  have hmem : slot ∈ program.slots :=
    Array.mem_of_getElem? (Fault.unlessSome_eq_ok_iff.mp hslot)
  cases hinstruction : slot.instruction with
  | terminal matcher =>
    rw [hinstruction] at htext
    obtain rfl := Except.ok.inj htext
    exact h.test hmem hinstruction
  | accept | call _ | complete _ =>
    rw [hinstruction] at htext
    obtain rfl := Except.ok.inj htext
    decide

omit h in
theorem remark {applies : Bool} {text : String} (htext : Text.IsBare text) :
    (Transcript.remark applies text).IsBare := by
  cases applies <;> simp +decide [Transcript.remark, htext]

/-- The line of an event is bare. -/
theorem line {event : Event} {text : Styled} (htext : Transcript.line program event = .ok text) :
    text.IsBare := by
  cases event with
  | descriptor label caller stem =>
    obtain ⟨item, hitem, htext⟩ := exists_of_bind_eq_ok htext
    obtain rfl := Except.ok.inj htext
    simp +decide [h.item hitem]
  | terminal label position isMatch =>
    obtain ⟨test, htest, htext⟩ := exists_of_bind_eq_ok htext
    obtain rfl := Except.ok.inj htext
    cases isMatch <;> simp +decide [h.testText htest]
  | pop frame result nonterminal span isNew =>
    obtain ⟨name, hname, htext⟩ := exists_of_bind_eq_ok htext
    obtain rfl := Except.ok.inj htext
    simp +decide [h.derived hname, remark]
  | advance _ | push _ _ _ _ _ | shift _ _ | redeliver _ _ _ | skipNow _ _ | skipLater _
  | accept _ =>
    -- These lines show handles, positions and spans only.
    obtain rfl := Except.ok.inj htext
    simp +decide [remark]

omit h in
theorem addLine {event : Event} {line : Styled} {lines : Array Styled} (hline : line.IsBare)
    (hlines : ∀ kept ∈ lines, kept.IsBare) :
    ∀ kept ∈ Transcript.addLine event line lines, kept.IsBare := by
  simp only [Transcript.addLine]
  split
  · exact forall_mem_push (forall_mem_push hlines Styled.isBare_nil) hline
  · exact forall_mem_push hlines hline

/-- A transcript keeps its lines bare. -/
theorem follows_transcript (verbosity : Verbosity) :
    (Transcript.tracer program verbosity).Follows .silent
      fun lines _ => ∀ line ∈ lines, line.IsBare := by
  intro event extend hrecord
  refine ⟨id, rfl, fun lines _ hlines => ?_⟩
  rcases Transcript.exists_of_record hrecord with ⟨-, text, hline, rfl⟩ | ⟨-, rfl⟩
  · exact addLine (h.line hline) hlines
  · exact hlines

/-! ## Outlines -/

section Outlines

variable {forest : Forest}

theorem headText {id : SymbolId} {text : Styled}
    (htext : forest.headText program id = .ok text) : text.IsBare := by
  obtain ⟨node, -, htext⟩ := exists_of_bind_eq_ok htext
  obtain ⟨symbol, -, htext⟩ := exists_of_bind_eq_ok htext
  obtain ⟨name, hname, htext⟩ := exists_of_bind_eq_ok htext
  obtain rfl := Except.ok.inj htext
  simp +decide [Forest.withSpan, h.name (Fault.unlessSome_eq_ok_iff.mp hname)]

omit h in
theorem tagText (tag : Option Nat) : (Forest.tagText tag).IsBare := by
  cases tag <;> simp +decide [Forest.tagText]

theorem production {id : PrefixId} {text : Styled}
    (htext : forest.production program id = .ok text) : text.IsBare := by
  obtain ⟨node, -, htext⟩ := exists_of_bind_eq_ok htext
  split at htext
  · obtain rfl := Except.ok.inj htext
    simp +decide
  · obtain ⟨rhs, hrhs, htext⟩ := exists_of_bind_eq_ok htext
    obtain rfl := Except.ok.inj htext
    simp +decide [h.rightHandSide? (Fault.unlessSome_eq_ok_iff.mp hrhs)]

omit h in
theorem terminalText (position : Position) : Text.IsBare (Forest.terminalText position) := by
  cases position <;> simp [Forest.terminalText, Position.char?]

/-- What an entry says is bare. -/
theorem text {remark : Forest.Remark} {text : Styled}
    (htext : remark.text forest program = .ok text) : text.IsBare := by
  cases remark with
  | terminal id position =>
    obtain rfl := Except.ok.inj htext
    simp +decide [Forest.withSpan, terminalText]
  | written id tag alternatives =>
    obtain ⟨head, hhead, htext⟩ := exists_of_bind_eq_ok htext
    have hbare : (head ++ Forest.tagText tag).IsBare :=
      Styled.isBare_append.mpr ⟨h.headText hhead, tagText tag⟩
    -- How many alternatives there are says what is written behind the head.
    split at htext
    · obtain rfl := Except.ok.inj htext
      exact hbare
    · obtain ⟨production, hproduction, htext⟩ := exists_of_bind_eq_ok htext
      obtain rfl := Except.ok.inj htext
      simp +decide [h.headText hhead, tagText, h.production hproduction]
    · obtain rfl := Except.ok.inj htext
      simp +decide [h.headText hhead, tagText]
  | again id tag =>
    obtain ⟨head, hhead, htext⟩ := exists_of_bind_eq_ok htext
    obtain rfl := Except.ok.inj htext
    simp +decide [h.headText hhead, tagText]
  | rightHandSide child => exact h.production htext
  | fork id =>
    obtain ⟨node, -, htext⟩ := exists_of_bind_eq_ok htext
    obtain rfl := Except.ok.inj htext
    simp +decide [Forest.withSpan]
  | split position =>
    obtain rfl := Except.ok.inj htext
    simp +decide

theorem outline {root : SymbolId} {lines : List Styled}
    (hlines : forest.outline program root = .ok lines) : ∀ line ∈ lines, line.IsBare := by
  obtain ⟨counts, -, hlines⟩ := exists_of_bind_eq_ok hlines
  obtain ⟨⟨_, outline⟩, hwrite, hlines⟩ := exists_of_bind_eq_ok hlines
  obtain rfl := Except.ok.inj hlines
  obtain ⟨entries, -, -, hentries⟩ := Forest.exists_entries_of_writeSymbol hwrite
  intro line hline
  obtain ⟨entry, -, hentry⟩ := exists_of_mem_mapM hentries line hline
  obtain ⟨text, htext, hentry⟩ := exists_of_bind_eq_ok hentry
  obtain rfl := Except.ok.inj hentry
  simp [h.text htext]

end Outlines

end IsBare

end Program

namespace Session

variable {program : Program}

/-- Transcripts of whatever verbosity have bare lines. -/
theorem isBare_transcript (hwhole : program.Whole) (hbare : program.IsBare)
    (commands : List (Command × Verbosity)) (limit : Nat) :
    ∀ line ∈ (after program.interpreter
      (commands.map fun command => (command.1, Transcript.tracer program command.2))
      (.initial program.interpreter #[] () limit)).trace, line.IsBare := by
  have hshows : ∀ command ∈
      commands.map fun command => (command.1, Transcript.tracer program command.2),
      command.2.Shows program := by
    intro command hmem
    obtain ⟨⟨_, verbosity⟩, -, rfl⟩ := List.mem_map.mp hmem
    exact hwhole.shows_transcript verbosity
  have hfollow : FollowAll (fun lines (_ : Unit) => ∀ line ∈ lines, line.IsBare)
      (commands.map fun command => (command.1, Transcript.tracer program command.2))
      (commands.map fun command => (command.1, .silent)) :=
    followAll_map fun command _ => ⟨rfl, hbare.follows_transcript command.2⟩
  have hinitial : Alike (fun (lines : Array Styled) (_ : Unit) => ∀ line ∈ lines, line.IsBare)
      (.initial program.interpreter #[] () limit) (.initial program.interpreter () () limit) :=
    ⟨rfl, fun _ hline => absurd hline (Array.not_mem_empty _)⟩
  exact (after_alike hfollow (unbroken_of_shows hwhole hshows #[] limit) hinitial).1.2

end Session

open Session in
/-- **Colours are decoration.** Let a grammar compile whose rules have names without escape
sequences and line feeds, and whose patterns have such sources. Then its listing, the item and the
right-hand side of each of its labels, the outline below any node of the forest after any calls,
with whatever fuel, and the transcripts of all calls, with a verbosity of its own for each of them,
are as they are without colours once the sequences are deleted, in each line and as a whole; and
each colour is followed by a reset, before there is another colour and before its line ends. Every
node has an outline whose references can be counted.

Of names and sources it is asked that they are bare, of the input nothing. -/
theorem Program.compile_decoration {grammar : Grammar} {program : Program}
    (hcompile : Program.compile grammar = .ok program)
    (hnames : ∀ name ∈ grammar.rules.map Prod.fst, Text.IsBare name)
    (hsources : ∀ rule source flags,
      (rule, .pattern source flags) ∈ leavesOfRules grammar.rules → Text.IsBare source) :
    (∃ lines, program.listing? = some lines ∧ CommandLine.IsDecorated lines) ∧
    (∀ label : Label, label.index < program.slotCount →
      ∃ item rightHandSide, program.item? label = some item ∧ item.IsDecorated ∧
        program.rightHandSide? label = some rightHandSide ∧ rightHandSide.IsDecorated) ∧
    (∀ {σ : Type} (commands : List (Command × Tracer σ)) (trace : σ) (limit : Nat),
      (∀ command ∈ commands, command.2.Shows program) →
      let forest := (after program.interpreter commands
        (.initial program.interpreter trace () limit)).scheduler.forest
      ∀ id node, forest.symbolNode? id = some node → forest.CountsFit id →
        ∃ lines, forest.outline program id = .ok lines ∧ CommandLine.IsDecorated lines) ∧
    ∀ (commands : List (Command × Verbosity)) (limit : Nat),
      CommandLine.IsDecorated (after program.interpreter
        (commands.map fun command => (command.1, Transcript.tracer program command.2))
        (.initial program.interpreter #[] () limit)).trace.toList := by
  have hwhole := whole_of_compile hcompile
  obtain ⟨parts, hparts⟩ := exists_introduces hcompile
  have hbare := hparts.isBare hwhole.laid hnames hsources
  refine ⟨?_, fun label hlabel => ?_, fun commands trace limit hshows id node hnode hfits => ?_,
    fun commands limit => ?_⟩
  · obtain ⟨lines, hlines⟩ := hwhole.exists_listing?
    exact ⟨lines, hlines, CommandLine.isDecorated_of_isBare (hbare.listing? hlines)⟩
  · obtain ⟨item, hitem⟩ := hwhole.exists_item? hlabel
    obtain ⟨rightHandSide, hright⟩ := hwhole.exists_rightHandSide? hlabel
    exact ⟨item, rightHandSide, hitem, (hbare.item? hitem).isDecorated, hright,
      (hbare.rightHandSide? hright).isDecorated⟩
  · have hattended := attended_after hwhole hshows trace limit
    obtain ⟨counts, lines, -, hlines, -⟩ :=
      (hattended.navigable hwhole).exists_outline hwhole hnode hfits
    exact ⟨lines, hlines, CommandLine.isDecorated_of_isBare (hbare.outline hlines)⟩
  · refine CommandLine.isDecorated_of_isBare fun line hline => ?_
    exact isBare_transcript hwhole hbare commands limit line (Array.mem_toList_iff.mp hline)

/-- A grammar with a pattern, which is shown as it is written. -/
def vowels : Grammar := ⟨"vowels", none,
  [("S", .sequence [.pattern "[ae]" (some "i"), .star (.literal "b")])], by decide⟩

theorem Program.compile_decoration_vowels : ∃ program, Program.compile vowels = .ok program ∧
    (∃ lines, program.listing? = some lines ∧ CommandLine.IsDecorated lines) ∧
    CommandLine.IsDecorated (Session.after program.interpreter
      [(.parse "Abb", Transcript.tracer program .veryVerbose)]
      (.initial program.interpreter #[] () 100)).trace.toList := by
  have hcompile := Program.compile_of_firstFault? vowels
  have hnone : vowels.firstFault? = none := rfl
  rw [hnone] at hcompile
  obtain ⟨program, hcompile⟩ := hcompile
  have hleaves : leavesOfRules vowels.rules
      = [("S", .pattern "[ae]" (some "i")), ("S", .literal "b")] := rfl
  obtain ⟨hlisting, -, -, htranscripts⟩ := Program.compile_decoration hcompile (by decide)
    fun rule source flags hmem => by
      simp only [hleaves, List.mem_cons, Prod.mk.injEq, Leaf.pattern.injEq, reduceCtorEq, and_false,
        List.not_mem_nil, or_false] at hmem
      obtain ⟨-, rfl, -⟩ := hmem
      decide
  exact ⟨program, hcompile, hlisting, htranscripts [(.parse "Abb", .veryVerbose)] 100⟩

end Gll
