import Gll.Proofs.DotReader
import Gll.Proofs.Faultless

/-!
Stack graphs as they are read.

A label of a stack shows names and patterns that a user has chosen, so it may contain any characters
at all, among them quotes, backslashes and line feeds. What is read from the text of a graph is
nonetheless what the graph declares: its stacks in the order in which they were made, and behind
each of them its links (`StackGraph.read?_dot`). Since the line of a declaration says which
declaration it is, reading is a matter of one line at a time.
-/

set_option autoImplicit false

namespace Gll

open Text

/-! ## Declarations -/

namespace StackGraph

/-- What a graph declares: a stack with the text on it, or a link from a frame to a caller, perhaps
with a text. -/
inductive Declaration where
  | node (id : StackId) (label : String)
  | edge (source target : StackId) (label : Option String)
deriving DecidableEq

namespace Declaration

/-- What a declaration says in the DOT language. -/
def statement : Declaration → Dot.Statement
  | node id label => .node id.text (Dot.labelAttributes (some label))
  | edge source target label => .edge source.text target.text (Dot.labelAttributes label)

/-- The line of a declaration. -/
def line : Declaration → String
  | node id label => Dot.statement id.text (some label)
  | edge source target label => Dot.statement (source.text ++ " -> " ++ target.text) label

/-- The tokens of a declaration. -/
def tokens : Declaration → List Dot.Token
  | node id label => .word id.text.toList :: Dot.labelTokens (some label)
  | edge source target label =>
    .word source.text.toList :: .arrow :: .word target.text.toList :: Dot.labelTokens label

/-- The stack that is declared. -/
def node? : Declaration → Option StackId
  | node id _ => some id
  | edge _ _ _ => none

end Declaration

section Names

theorem isDigit_of_mem_toString {n : Nat} {c : Char} (h : c ∈ (toString n).toList) :
    c.isDigit = true := by
  have hdigits : (toString n).toList = Nat.toDigits 10 n := by
    simp [toString, Nat.repr]
  rw [hdigits] at h
  exact Nat.isDigit_of_mem_toDigits (by decide) (by decide) h

theorem isWordChar_of_mem_text {id : StackId} {c : Char} (h : c ∈ id.text.toList) :
    Dot.isWordChar c = true := by
  rw [StackId.text, String.toList_append] at h
  rcases List.mem_append.mp h with hg | hdigit
  · rw [List.mem_singleton.mp hg]
    rfl
  · simp [Dot.isWordChar, Char.isAlphanum, isDigit_of_mem_toString hdigit]

/-- No stack has a name that means something else. -/
theorem name?_text (id : StackId) : Dot.name? id.text.toList = some id.text := by
  -- A name ends in a digit, and there is none in a keyword.
  have hkeyword : id.text ∉ Dot.keywords := by
    intro hmem
    have hletters : ∀ word ∈ Dot.keywords, ∀ c ∈ word.toList, c.isDigit = false := by
      simp [Dot.keywords]
    obtain ⟨c, hc⟩ : ∃ c, c ∈ (toString id.index).toList := by
      refine List.exists_mem_of_ne_nil _ fun hnil => ?_
      simp [toString, Nat.repr] at hnil
    have hmem' : c ∈ id.text.toList := by
      rw [StackId.text, String.toList_append]
      exact List.mem_append_right _ hc
    have hnot := hletters _ hmem c hmem'
    rw [isDigit_of_mem_toString hc] at hnot
    cases hnot
  rw [Dot.name?, String.ofList_toList, if_neg hkeyword]

/-- Different stacks have different names. -/
theorem text_injective : Function.Injective StackId.text := by
  intro id other h
  have htoList := congrArg String.toList h
  simp only [StackId.text, String.toList_append] at htoList
  have hindex := Nat.repr_inj.mp (String.toList_inj.mp (List.append_cancel_left htoList))
  cases id
  cases other
  exact congrArg StackId.mk hindex

end Names

/-! ## Reading declarations -/

section Reading

variable {rest : List Char} {tokens : List Dot.Token}

theorem tokens?_text (id : StackId) {c : Char} (hend : Dot.isWordChar c = false)
    (h : Dot.tokens? .between (c :: rest) = some tokens) :
    Dot.tokens? .between (id.text.toList ++ c :: rest) = some (.word id.text.toList :: tokens) := by
  have hne : id.text.toList ≠ [] := by
    simp [StackId.text]
  exact Dot.tokens?_word _ hne (fun _ hmem => isWordChar_of_mem_text hmem) hend h

/-- The line of a declaration is read as its tokens and a semicolon. -/
theorem Declaration.tokens?_line (declaration : Declaration)
    (h : Dot.tokens? .between rest = some tokens) :
    Dot.tokens? .between ((declaration.line ++ "\n").toList ++ rest)
      = some (declaration.tokens ++ .mark ';' :: tokens) := by
  cases declaration with
  | node id label =>
    exact Dot.tokens?_statement id.text [.word id.text.toList]
      (fun hend h => tokens?_text id hend h) (some label) h
  | edge source target label =>
    have hread := Dot.tokens?_statement (source.text ++ " -> " ++ target.text)
      [.word source.text.toList, .arrow, .word target.text.toList]
      (fun {c rest tokens} hend h => by
        -- The arrow stands between two words, with a blank on each side.
        have hchars : (source.text ++ " -> " ++ target.text).toList ++ c :: rest
            = source.text.toList ++ ' ' :: '-' :: '>' :: ' ' ::
              (target.text.toList ++ c :: rest) := by
          simp
        rw [hchars]
        exact tokens?_text source rfl (Dot.tokens?_blank (Dot.tokens?_arrow (Dot.tokens?_blank
          (tokens?_text target hend h))))) label h
    rw [line, hread, Declaration.tokens]
    simp

theorem Declaration.statement?_tokens (declaration : Declaration) :
    Dot.statement? declaration.tokens = some declaration.statement := by
  cases declaration with
  | node id label =>
    have hnode : String.ofList id.text.toList ≠ "node" := by
      intro heq
      have hname := name?_text id
      rw [Dot.name?, heq, if_pos (by decide)] at hname
      cases hname
    have hstatement : Dot.statement? (.word id.text.toList :: Dot.labelTokens (some label)) = (do
        let attributes ← Dot.bracketed? (Dot.labelTokens (some label))
        if String.ofList id.text.toList = "node" then return .defaults attributes
        else return .node (← Dot.name? id.text.toList) attributes) := rfl
    rw [tokens, hstatement, Dot.bracketed?_labelTokens, name?_text]
    simp only [bind, Option.bind, if_neg hnode]
    rfl
  | edge source target label =>
    rw [tokens, Dot.statement?, name?_text, name?_text, Dot.bracketed?_labelTokens]
    rfl

/-- Tokens without marks that end something are put aside for a statement. -/
theorem statements?_gather (begun ended more : List Dot.Token)
    (h : ∀ c, .mark c ∈ ended → c ≠ ';' ∧ c ≠ '\x7d') :
    Dot.statements? begun (ended ++ more) = Dot.statements? (begun ++ ended) more := by
  induction ended generalizing begun with
  | nil => rw [List.nil_append, List.append_nil]
  | cons token ended ih =>
    -- What was put aside grows at its end, token by token.
    have hlater := ih (begun ++ [token]) fun c hc => h c (List.mem_cons_of_mem _ hc)
    rw [List.append_assoc, List.singleton_append] at hlater
    rw [← hlater, List.cons_append]
    cases token with
    | mark c =>
      obtain ⟨hsemicolon, hbrace⟩ := h c List.mem_cons_self
      rw [Dot.statements?, if_neg hsemicolon, if_neg hbrace]
    | word text => rw [Dot.statements?]; exact fun c heq => by cases heq
    | quoted text => rw [Dot.statements?]; exact fun c heq => by cases heq
    | arrow => rw [Dot.statements?]; exact fun c heq => by cases heq

theorem Declaration.mark_mem_tokens {declaration : Declaration} {c : Char}
    (h : .mark c ∈ declaration.tokens) : c ≠ ';' ∧ c ≠ '\x7d' := by
  have hlabel : ∀ label, .mark c ∈ Dot.labelTokens label → c ≠ ';' ∧ c ≠ '\x7d' := by
    intro label hmem
    cases label with
    | none => cases hmem
    | some text =>
      simp only [Dot.labelTokens, List.mem_cons, Dot.Token.mark.injEq, reduceCtorEq, false_or,
        List.not_mem_nil, or_false] at hmem
      rcases hmem with rfl | rfl | rfl <;> decide
  cases declaration with
  | node id label =>
    simp only [tokens, List.mem_cons, reduceCtorEq, false_or] at h
    exact hlabel _ h
  | edge source target label =>
    simp only [tokens, List.mem_cons, reduceCtorEq, false_or] at h
    exact hlabel _ h

theorem Declaration.statements?_tokens (declaration : Declaration)
    {statements : List Dot.Statement} (h : Dot.statements? [] tokens = some statements) :
    Dot.statements? [] (declaration.tokens ++ .mark ';' :: tokens)
      = some (declaration.statement :: statements) := by
  rw [statements?_gather [] _ _ fun c hc => mark_mem_tokens hc, List.nil_append, Dot.statements?,
    if_pos rfl, declaration.statement?_tokens, h]
  rfl

/-- The lines of declarations, with the brace behind them, are read as their statements. -/
theorem read_declarations (declarations : List Declaration) : ∃ tokens,
    Dot.tokens? .between (unlines (declarations.map Declaration.line ++ ["\x7d"])).toList
        = some tokens ∧
      Dot.statements? [] tokens = some (declarations.map Declaration.statement) := by
  induction declarations with
  | nil => exact ⟨[.mark '\x7d'], rfl, rfl⟩
  | cons declaration rest ih =>
    obtain ⟨tokens, htokens, hstatements⟩ := ih
    have hchars : (unlines ((declaration :: rest).map Declaration.line ++ ["\x7d"])).toList
        = (declaration.line ++ "\n").toList
          ++ (unlines (rest.map Declaration.line ++ ["\x7d"])).toList := by
      simp [unlines]
    refine ⟨_, hchars ▸ declaration.tokens?_line htokens, ?_⟩
    exact declaration.statements?_tokens hstatements

/-- The tokens of the lines that stand before the declarations: the graph is begun, and all nodes
are given their shape. -/
def headTokens : List Dot.Token :=
  [.word "digraph".toList, .word "gss".toList, .mark '\x7b', .word "node".toList, .mark '[',
    .word "shape".toList, .mark '=', .word "box".toList, .mark ']', .mark ';']

/-- A word that is written as it is, with nothing but the characters of a word, is one token. -/
theorem tokens?_literal (word : String)
    (hword : word.toList ≠ [] ∧ word.toList.all Dot.isWordChar = true) {c : Char}
    (hend : Dot.isWordChar c = false) (h : Dot.tokens? .between (c :: rest) = some tokens) :
    Dot.tokens? .between (word.toList ++ c :: rest) = some (.word word.toList :: tokens) :=
  Dot.tokens?_word word.toList hword.1 (List.all_eq_true.mp hword.2) hend h

theorem tokens?_head (h : Dot.tokens? .between rest = some tokens) :
    Dot.tokens? .between ((unlines ["digraph gss \x7b", "  node [shape=box];"]).toList ++ rest)
      = some (headTokens ++ tokens) := by
  have hchars : (unlines ["digraph gss \x7b", "  node [shape=box];"]).toList ++ rest
      = "digraph".toList ++ ' ' :: ("gss".toList ++ ' ' :: '\x7b' :: '\n' :: ' ' :: ' ' ::
        ("node".toList ++ ' ' :: '[' :: ("shape".toList ++ '=' :: ("box".toList ++ ']' :: ';' ::
          '\n' :: rest)))) := by
    simp [unlines]
  -- Tokens are put in front one by one, so the line is read from its end.
  have hbox := tokens?_literal "box" (by decide +kernel) rfl (Dot.tokens?_mark (c := ']') rfl
    (Dot.tokens?_mark (c := ';') rfl (Dot.tokens?_lineFeed h)))
  have hshape := tokens?_literal "shape" (by decide +kernel) rfl
    (Dot.tokens?_mark (c := '=') rfl hbox)
  have hnode := tokens?_literal "node" (by decide +kernel) rfl
    (Dot.tokens?_blank (Dot.tokens?_mark (c := '[') rfl hshape))
  have hgss := tokens?_literal "gss" (by decide +kernel) rfl
    (Dot.tokens?_blank (Dot.tokens?_mark (c := '\x7b') rfl (Dot.tokens?_lineFeed
      (Dot.tokens?_blank (Dot.tokens?_blank hnode)))))
  rw [hchars]
  exact tokens?_literal "digraph" (by decide +kernel) rfl (Dot.tokens?_blank hgss)

/-- The first statement is the one on all nodes, the others are those that follow. -/
theorem graph?_headTokens {statements : List Dot.Statement}
    (h : Dot.statements? [] tokens = some statements) :
    Dot.graph? (headTokens ++ tokens) = some (.defaults [("shape", "box")] :: statements) := by
  have hdefaults : Dot.statement? [.word "node".toList, .mark '[', .word "shape".toList,
      .mark '=', .word "box".toList, .mark ']'] = some (.defaults [("shape", "box")]) := rfl
  have hgather := statements?_gather [] [.word "node".toList, .mark '[', .word "shape".toList,
    .mark '=', .word "box".toList, .mark ']'] (.mark ';' :: tokens) (by simp)
  rw [Dot.statements?, if_pos rfl, List.nil_append, hdefaults, h] at hgather
  have hgraph : ∀ tokens, Dot.graph?
      (.word "digraph".toList :: .word "gss".toList :: .mark '\x7b' :: tokens)
        = Dot.statements? [] tokens := by
    intro tokens
    rw [Dot.graph?, if_pos ⟨rfl, rfl⟩]
  exact (hgraph _).trans hgather

end Reading

/-! ## What a graph declares -/

section Declares

variable (program : Program) (spans : Option Forest)

/-- What is written on a stack: on a frame its label, its origin and its item. -/
inductive IsLabel : Stack → String → Prop where
  | initial : IsLabel .initial "⊥"
  | frame {label : Label} {origin : Nat} {links : Array Link} {item : Styled}
      (hitem : program.item? label = some item) :
      IsLabel (.frame label origin links)
        (label.text ++ "@" ++ toString origin ++ " " ++ Styled.render .off item)

/-- The edge of a link of a frame, with the span of the prefix if spans are shown. -/
inductive DeclaresLink (id : StackId) (link : Link) : Declaration → Prop where
  | plain (hspans : spans = none) : DeclaresLink id link (.edge id link.caller none)
  | span {forest : Forest} {node : PrefixNode} (hspans : spans = some forest)
      (hnode : forest.prefixNode? link.stem = some node) :
      DeclaresLink id link (.edge id link.caller (some node.span.text))

/-- The declarations of a stack: the stack, and then its links in their order. -/
inductive DeclaresStack (id : StackId) (stack : Stack) : List Declaration → Prop where
  | mk {label : String} {edges : List Declaration} (hlabel : IsLabel program stack label)
      (hedges : List.Forall₂ (DeclaresLink spans id) stack.links.toList edges) :
      DeclaresStack id stack (.node id label :: edges)

/-- The declarations of a graph: those of its stacks in the order in which they were made. -/
def Declares (graph : StackGraph) (declarations : List Declaration) : Prop :=
  ∃ groups : List (List Declaration), declarations = groups.flatten ∧
    List.Forall₂ (fun numbered group => DeclaresStack program spans ⟨numbered.2⟩ numbered.1 group)
      graph.members.toList.zipIdx groups

end Declares

section Dot

variable {program : Program} {spans : Option Forest} {graph : StackGraph}

theorem isLabel_of_dotLabel {stack : Stack} {text : String}
    (h : dotLabel program stack = .ok text) : IsLabel program stack text := by
  cases stack with
  | initial =>
    obtain rfl := Except.ok.inj h
    exact .initial
  | frame label origin links =>
    obtain ⟨item, hitem, h⟩ := exists_of_bind_eq_ok h
    obtain rfl := Except.ok.inj h
    exact .frame (Fault.unlessSome_eq_ok_iff.mp hitem)

theorem exists_of_dotEdge {id : StackId} {link : Link} {line : String}
    (h : dotEdge spans id link = .ok line) :
    ∃ declaration, DeclaresLink spans id link declaration ∧ line = declaration.line := by
  cases spans with
  | none =>
    obtain rfl := Except.ok.inj h
    exact ⟨_, .plain rfl, rfl⟩
  | some forest =>
    obtain ⟨node, hnode, h⟩ := exists_of_bind_eq_ok h
    obtain rfl := Except.ok.inj h
    exact ⟨_, .span rfl (Fault.unlessSome_eq_ok_iff.mp hnode), rfl⟩

/-- If each item has something that goes with its result, the results are those of a list of such
things. -/
theorem exists_forall₂_map {α β γ : Type} {P : α → β → Prop} {Q : α → γ → Prop} {f : β → γ}
    {items : List α} {results : List γ} (h : List.Forall₂ Q items results)
    (hex : ∀ item result, Q item result → ∃ b, P item b ∧ result = f b) :
    ∃ found, List.Forall₂ P items found ∧ results = found.map f := by
  induction h with
  | nil => exact ⟨[], .nil, rfl⟩
  | cons hfirst _ ih =>
    obtain ⟨b, hb, rfl⟩ := hex _ _ hfirst
    obtain ⟨found, hfound, rfl⟩ := ih
    exact ⟨b :: found, .cons hb hfound, rfl⟩

theorem exists_of_dotStack {id : StackId} {stack : Stack} {lines : List String}
    (h : dotStack program spans id stack = .ok lines) :
    ∃ group, DeclaresStack program spans id stack group ∧ lines = group.map Declaration.line := by
  obtain ⟨label, hlabel, h⟩ := exists_of_bind_eq_ok h
  obtain ⟨edgeLines, hedges, h⟩ := exists_of_bind_eq_ok h
  obtain rfl := Except.ok.inj h
  obtain ⟨edges, hdeclares, rfl⟩ :=
    exists_forall₂_map (forall₂_of_mapM hedges) fun _ _ hedge => exists_of_dotEdge hedge
  exact ⟨_, .mk (isLabel_of_dotLabel hlabel) hdeclares, rfl⟩

/-- The lines of a graph are those of its declarations, in a frame. -/
theorem exists_of_dot {lines : List String} (h : graph.dot program spans = .ok lines) :
    ∃ declarations, graph.Declares program spans declarations ∧
      lines = ["digraph gss \x7b", "  node [shape=box];"]
        ++ declarations.map Declaration.line ++ ["\x7d"] := by
  obtain ⟨groupLines, hgroups, h⟩ := exists_of_bind_eq_ok h
  obtain rfl := Except.ok.inj h
  obtain ⟨groups, hdeclares, rfl⟩ :=
    exists_forall₂_map (forall₂_of_mapM hgroups) fun _ _ hstack => exists_of_dotStack hstack
  exact ⟨groups.flatten, ⟨groups, rfl, hdeclares⟩, by rw [List.map_flatten]⟩

/-- What is read from the text of a graph is what it declares. -/
theorem read?_dot {lines : List String} (h : graph.dot program spans = .ok lines) :
    ∃ declarations, graph.Declares program spans declarations ∧
      Dot.read? (unlines lines)
        = some (.defaults [("shape", "box")] :: declarations.map Declaration.statement) := by
  obtain ⟨declarations, hdeclares, rfl⟩ := exists_of_dot h
  obtain ⟨tokens, htokens, hstatements⟩ := read_declarations declarations
  refine ⟨declarations, hdeclares, ?_⟩
  have hchars : (unlines (["digraph gss \x7b", "  node [shape=box];"]
      ++ declarations.map Declaration.line ++ ["\x7d"])).toList
        = (unlines ["digraph gss \x7b", "  node [shape=box];"]).toList
          ++ (unlines (declarations.map Declaration.line ++ ["\x7d"])).toList := by
    simp [unlines]
  rw [Dot.read?, hchars, tokens?_head htokens]
  exact graph?_headTokens hstatements

/-- Each stack is declared once, in the order in which they were made. -/
theorem Declares.nodes {declarations : List Declaration}
    (h : graph.Declares program spans declarations) :
    declarations.filterMap Declaration.node?
      = (List.range graph.members.size).map StackId.mk := by
  -- Links declare no stack, so there is one in each group, the first of it.
  have hedges {id : StackId} {links : List Link} {edges : List Declaration}
      (h : List.Forall₂ (DeclaresLink spans id) links edges) :
      edges.filterMap Declaration.node? = [] := by
    refine List.filterMap_eq_nil_iff.mpr fun edge hmem => ?_
    obtain ⟨link, -, hlink⟩ := exists_of_forall₂ h hmem
    cases hlink <;> rfl
  have hgroups {items : List (Stack × Nat)} {groups : List (List Declaration)}
      (h : List.Forall₂ (fun numbered group =>
        DeclaresStack program spans ⟨numbered.2⟩ numbered.1 group) items groups) :
      groups.flatten.filterMap Declaration.node?
        = (items.map Prod.snd).map StackId.mk := by
    induction h with
    | nil => rfl
    | cons hstack _ ih =>
      obtain ⟨-, hlinks⟩ := hstack
      rw [List.flatten_cons, List.filterMap_append, ih, List.filterMap_cons, Declaration.node?,
        hedges hlinks]
      rfl
  obtain ⟨groups, rfl, hall⟩ := h
  rw [hgroups hall, List.zipIdx_map_snd, List.range'_eq_map_range, Array.length_toList]
  simp

/-- Every edge is that of a link. -/
theorem Declares.exists_link {declarations : List Declaration}
    (h : graph.Declares program spans declarations) {source target : StackId}
    {label : Option String} (hmem : .edge source target label ∈ declarations) :
    ∃ stack link, graph.stack? source = some stack ∧ link ∈ stack.links ∧
      target = link.caller := by
  obtain ⟨groups, rfl, hall⟩ := h
  obtain ⟨group, hgroup, hmem⟩ := List.mem_flatten.mp hmem
  obtain ⟨⟨stack, index⟩, hnumbered, hstack⟩ := exists_of_forall₂ hall hgroup
  obtain ⟨-, hlinks⟩ := hstack
  rcases List.mem_cons.mp hmem with hnode | hedge
  · cases hnode
  · obtain ⟨link, hlink, hdeclares⟩ := exists_of_forall₂ hlinks hedge
    have hget := List.mem_zipIdx_iff_getElem?.mp hnumbered
    rw [Array.getElem?_toList] at hget
    have howned : link ∈ stack.links := Array.mem_toList_iff.mp hlink
    cases hdeclares with
    | plain => exact ⟨stack, link, hget, howned, rfl⟩
    | span => exact ⟨stack, link, hget, howned, rfl⟩

end Dot

end StackGraph

/-! ## Sessions -/

namespace Session

variable {σ : Type} {program : Program} {limit : Nat} {session : Session σ Unit}

/-- The caller of a link is a stack. -/
theorem Attended.caller_lt (hlaid : program.Laid) (h : Attended program limit session)
    {frame : StackId} {stack : Stack} {link : Link}
    (hstack : session.scheduler.graph.stack? frame = some stack) (hlink : link ∈ stack.links) :
    link.caller.index < session.scheduler.graph.members.size := by
  have hframe : frame.index < session.scheduler.graph.members.size :=
    (Array.getElem?_eq_some_iff.mp hstack).1
  cases stack with
  | initial => exact absurd hlink (Array.not_mem_empty link)
  | frame label origin links =>
    have hknown : session.scheduler.Knows (.link frame link) :=
      ⟨label, origin, links, hstack, hlink⟩
    obtain ⟨fed, offers, hreaches⟩ := h.reaches
    rcases hreaches.initial_or_sound hlaid with hinitial | hsound
    · have hinitial : session.scheduler = .initial program.start := hinitial
      rw [hinitial] at hknown
      exact absurd hknown (Scheduler.knows_initial trivial)
    · -- What a sound session knows of a link is that its caller is a frame or the initial stack.
      have hfact : Moment.Holds ⟨session.scheduler, offers⟩ (.link frame link) := hknown
      obtain ⟨caller, stem⟩ := link
      obtain ⟨_, _, _, _, _, _, _, -, -, hcaller, -⟩ := hsound.proper hfact
      cases hcaller with
      | initial => exact Nat.lt_of_le_of_lt (Nat.zero_le _) hframe
      | frame hcaller _ =>
        obtain ⟨_, hget⟩ := hcaller
        exact (Array.getElem?_eq_some_iff.mp hget).1

end Session

open Session in
/-- **The text of a stack graph says what the graph is.** Whatever calls were made on a session of a
compiled grammar, its stacks can be written as a graph, with the spans of prefixes or without; and
whoever reads the text finds, besides the shape of all nodes, the declarations of the stacks in the
order in which they were made, each with the text on it and followed by its links in their order.
The caller of a link is always declared too, and no two stacks have the same name.

This is so whatever characters there are in names and patterns. In a text that is escaped, quotes
and backslashes only stand behind a backslash that protects them; the text is read up to the quote
that ends it, and undoing the escape gives it back, so that no two texts are escaped to the same. -/
theorem Program.compile_dot {grammar : Grammar} {program : Program}
    (hcompile : Program.compile grammar = .ok program) :
    (∀ {σ : Type} (commands : List (Command × Tracer σ)) (trace : σ) (limit : Nat),
      (∀ command ∈ commands, command.2.Shows program) →
      let state := (after program.interpreter commands
        (.initial program.interpreter trace () limit)).scheduler
      ∀ spans : Option Forest, spans = none ∨ spans = some state.forest →
        ∃ lines declarations, state.graph.dot program spans = .ok lines ∧
          Dot.read? (unlines lines) = some (.defaults [("shape", "box")] ::
            declarations.map StackGraph.Declaration.statement) ∧
          state.graph.Declares program spans declarations ∧
          declarations.filterMap StackGraph.Declaration.node?
            = (List.range state.graph.members.size).map StackId.mk ∧
          ∀ source target label, .edge source target label ∈ declarations →
            target ∈ declarations.filterMap StackGraph.Declaration.node?) ∧
    Function.Injective StackId.text ∧
    (∀ text rest tokens, Dot.tokens? .between rest = some tokens →
      Dot.tokens? .between ('"' :: Dot.escape text ++ '"' :: rest)
        = some (.quoted (Dot.escape text) :: tokens)) ∧
    (∀ text, Dot.Guarded (Dot.escape text) ∧ Dot.unescape (Dot.escape text) = text) ∧
    Function.Injective Dot.escape := by
  have hwhole := whole_of_compile hcompile
  refine ⟨fun {σ} commands trace limit hshows => ?_, StackGraph.text_injective,
    fun text rest tokens h => ?_, fun text => ⟨Dot.guarded_escape text, Dot.unescape_escape text⟩,
    Dot.escape_injective⟩
  · intro state spans hspans
    have hattended := attended_after hwhole hshows trace limit
    have hown : ∀ forest ∈ spans, forest = state.forest := by
      intro forest hforest
      rcases hspans with hnone | hsome
      · rw [hnone] at hforest
        cases hforest
      · rw [hsome] at hforest
        exact (Option.some.inj hforest).symm
    obtain ⟨lines, hlines⟩ := hattended.exists_dot hwhole hown
    obtain ⟨declarations, hdeclares, hread⟩ := StackGraph.read?_dot hlines
    refine ⟨lines, declarations, hlines, hread, hdeclares, hdeclares.nodes, ?_⟩
    intro source target label hedge
    obtain ⟨stack, link, hstack, hlink, rfl⟩ := hdeclares.exists_link hedge
    have hlt := hattended.caller_lt hwhole.laid hstack hlink
    rw [hdeclares.nodes]
    exact List.mem_map.mpr ⟨link.caller.index, List.mem_range.mpr hlt, rfl⟩
  · have hbegin : Dot.step .between '"' = some ([], .text []) := rfl
    exact Dot.tokens?_cons hbegin (Dot.tokens?_escape h)

open Session in
/-- The stacks of a parse of the letter, without spans, are read as what they declare. -/
theorem Program.compile_dot_letter : ∃ (program : Program) (session : Session Unit Unit)
    (lines : List String) (declarations : List StackGraph.Declaration),
    Program.compile letter = .ok program ∧
      program.parse .silent () 4 "a" = .ok true session ∧
        session.scheduler.graph.dot program none = .ok lines ∧
          Dot.read? (unlines lines) = some (.defaults [("shape", "box")] ::
            declarations.map StackGraph.Declaration.statement) ∧
          declarations.filterMap StackGraph.Declaration.node?
            = (List.range session.scheduler.graph.members.size).map StackId.mk := by
  obtain ⟨program, session, hcompile, hparse⟩ := parse_letter
  have hcall : (Command.parse "a").call program.interpreter .silent
      (.initial program.interpreter () () 4) = .ok () session := bind_ok hparse rfl
  have hafter : after program.interpreter [(.parse "a", .silent)]
      (.initial program.interpreter () () 4) = session := leaves_of_ok hcall
  have hshows : ∀ command ∈ [((.parse "a", .silent) : Command × Tracer Unit)],
      command.2.Shows program := by
    intro command hmem
    rw [List.mem_singleton.mp hmem]
    exact Tracer.isTotal_silent.shows program
  have hdot := (Program.compile_dot hcompile).1 [(.parse "a", .silent)] () 4 hshows
  rw [hafter] at hdot
  obtain ⟨lines, declarations, hlines, hread, -, hnodes, -⟩ := hdot none (.inl rfl)
  exact ⟨program, session, lines, declarations, hcompile, hparse, hlines, hread, hnodes⟩

end Gll
