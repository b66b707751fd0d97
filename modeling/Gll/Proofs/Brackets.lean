import Gll.Proofs.Escapes

/-!
Sets in brackets that meet a closing parenthesis.

In brackets a parenthesis is a character like others. So a set that is not closed takes the
parenthesis of a group and is at fault only later. In between, its parts may stop at the
parenthesis, where they only look for what might follow; the next part takes it.
-/

set_option autoImplicit false

namespace Gll.Regex

namespace Reader

variable {α β : Type} {stops : Prop}

/-! ## Items -/

theorem Meets.setOfTree (tree : Tree) : Meets stops Anywhere (setOfTree tree) := by
  unfold Regex.setOfTree
  split
  · exact Meets.pure _
  · exact Meets.pure _
  · exact Meets.pure _
  · exact Meets.fault

theorem Meets.boundOfTree (tree : Tree) : Meets stops Anywhere (boundOfTree tree) := by
  unfold Regex.boundOfTree
  split
  · exact Meets.pure _
  · exact Meets.fault

theorem takes_readSetItem : Takes readSetItem := by
  refine Takes.peek fun c => ?_
  split
  · exact takes_readEscape
  · exact takes_bump.bind fun _ => shrinks_pure _

theorem shrinks_readSetItem : Shrinks readSetItem := by
  refine shrinks_peek.bind fun c => ?_
  split
  · exact shrinks_readEscape
  · exact shrinks_bump.bind fun _ => shrinks_pure _

theorem readSetItem_tracks (text : List Char) (skips : Bool) :
    Tracks stops readSetItem text skips ∨
      Hesitates (.assertion .wordBoundary) readSetItem text skips := by
  cases text with
  | nil => exact Or.inl (Tracks.of_none rfl fun more => takes_readSetItem.grips more skips)
  | cons d text =>
    by_cases hd : d = '\\'
    · subst hd
      have hsame : ∀ more, readSetItem ⟨'\\' :: more, skips⟩ = readEscape ⟨'\\' :: more, skips⟩ :=
        fun more => rfl
      exact (readEscape_tracks '\\' text skips).imp (fun h => h.congr (hsame _) fun more => hsame _)
        fun h => h.congr (hsame _) fun more => hsame _
    · have hsame : ∀ more, readSetItem ⟨d :: more, skips⟩ =
          some (.literal ⟨d, false⟩, ⟨more, skips⟩) := by
        intro more
        unfold readSetItem
        rw [peek_cons, if_neg (fun h => hd (beq_iff_eq.mp h))]
        rfl
      exact Or.inl (Or.inl ⟨_, text, skips, hsame _, fun more => hsame _⟩)

/-! ## Ranges -/

/-- The range between two items. -/
def rangeOf (first last : Tree) : Reader CharSet := do
  let first ← boundOfTree first
  let last ← boundOfTree last
  if first.char ≤ last.char then return .range first last else fault

/-- Reads the upper bound of a range, from the hyphen on. -/
def readRangeEnd (first : Tree) : Reader CharSet := do
  bumpBoth
  let _ ← peek
  let last ← readSetItem
  rangeOf first last

/-- Whether the character after a hyphen says that the hyphen makes no range. -/
def endsItem (after : Option Char) : Bool := after == some ']' || after == some '-'

/-- The character that decides whether a hyphen stands for itself, where blanks are skipped, from
the text after the hyphen, with its blanks and without them. -/
def charAhead (text : List Char) : List Char → Option Char
  | [] => text.head?
  | c :: after => if c = '#' then ((after.dropWhile isBlank).head?).or text.head? else some c

/-- The character that decides whether a hyphen stands for itself. -/
def charAfter (text : List Char) (skips : Bool) : Option Char :=
  if skips then charAhead text (text.dropWhile isBlank) else text.head?

theorem peekSpace_eq (d : Char) (text : List Char) (skips : Bool) :
    peekSpace ⟨d :: text, skips⟩ = some (charAfter text skips, ⟨d :: text, skips⟩) := by
  unfold peekSpace
  rw [rest_bind]
  cases skips with
  | false => rfl
  | true =>
    have htext : (d :: text).drop 1 = text := rfl
    rw [skipsBlanks_bind, htext, if_pos rfl, charAfter, if_pos rfl]
    generalize text.dropWhile isBlank = left
    split
    · rfl
    · next c after hc =>
      rw [charAhead, if_neg hc]
      rfl
    · rfl

theorem endsItem_head_of_dropWhile {text : List Char}
    (h : ∀ c ∈ (text.dropWhile isBlank).head?, c = '#') : endsItem text.head? = false := by
  have hblank : ∀ c, isBlank c = true → endsItem (some c) = false := by
    intro c hc
    refine Bool.eq_false_iff.mpr fun hends => ?_
    have hmark : c ∈ [')', ']', '-', '\x7b'] := by
      rcases Bool.or_eq_true_iff.mp hends with h | h
      · simp [Option.some.inj (beq_iff_eq.mp h)]
      · simp [Option.some.inj (beq_iff_eq.mp h)]
    exact Bool.false_ne_true ((isBlank_eq_false c hmark).symm.trans hc)
  cases text with
  | nil => rfl
  | cons d text =>
    cases hd : isBlank d with
    | true => exact hblank d hd
    | false =>
      rw [List.dropWhile_cons_of_neg (Bool.eq_false_iff.mp hd)] at h
      obtain rfl := h d rfl
      rfl

theorem endsItem_charAhead (text more : List Char) :
    endsItem (charAhead (text ++ ')' :: more) ((text ++ ')' :: more).dropWhile isBlank)) =
      endsItem (charAhead text (text.dropWhile isBlank)) := by
  have hclosing : (')' :: more).dropWhile isBlank = ')' :: more :=
    List.dropWhile_cons_of_neg (Bool.eq_false_iff.mp isBlank_closing)
  rw [List.dropWhile_append]
  cases htext : text.dropWhile isBlank with
  | nil =>
    -- Only blanks are left of the text: what is ahead is then one of them, or the parenthesis, or
    -- nothing, and none of these ends an item.
    rw [hclosing]
    refine (endsItem_head_of_dropWhile ?_).symm
    rw [htext]
    intro c hc
    cases hc
  | cons d rest =>
    show endsItem (charAhead _ (d :: (rest ++ ')' :: more))) = _
    rw [charAhead, charAhead]
    split
    -- A number sign is looked past, and behind it there may be blanks only.
    · next hd =>
      rw [List.dropWhile_append]
      cases hrest : rest.dropWhile isBlank with
      | nil =>
        rw [hclosing]
        refine (endsItem_head_of_dropWhile ?_).symm
        rw [htext]
        intro c hc
        exact (Option.some.inj hc).symm.trans hd
      | cons e rest => rfl
    · rfl

theorem endsItem_charAfter (text more : List Char) (skips : Bool) :
    endsItem (charAfter (text ++ ')' :: more) skips) = endsItem (charAfter text skips) := by
  cases skips with
  | true => exact endsItem_charAhead text more
  | false => cases text <;> rfl

theorem eq_none_of_bind {f : Reader α} {g : α → Reader β} {cursor : Cursor}
    (h : ∀ a next, f cursor = some (a, next) → g a next = none) : (f >>= g) cursor = none := by
  cases hfg : (f >>= g) cursor with
  | none => rfl
  | some last =>
    obtain ⟨a, between, hf, hg⟩ := exists_of_bind hfg
    rw [h a between hf] at hg
    cases hg

/-- A boundary of a word is at fault in a set, whatever follows it. -/
theorem Meets.readSetItem_bind {g : Tree → Reader β} (hg : ∀ tree, Meets stops Anywhere (g tree))
    (hboundary : ∀ cursor, g (.assertion .wordBoundary) cursor = none) :
    Meets stops Anywhere (readSetItem >>= g) := by
  refine ⟨shrinks_readSetItem.bind fun tree => (hg tree).shrinks, fun text skips _ => ?_⟩
  rcases readSetItem_tracks text skips with htracks | ⟨hnone, brace, -, -, hmore⟩
  · exact htracks.bind (fun tree => (hg tree).shrinks) fun tree left skips' _ =>
      (hg tree).tracks left skips' trivial
  · refine Tracks.of_none (bind_of_none hnone) fun more => ?_
    rcases hmore more with hpast | hbrace
    · exact hpast.bind fun tree => (hg tree).shrinks
    · rw [bind_of_some hbrace, hboundary]
      exact within_none _

theorem Meets.rangeOf (first last : Tree) : Meets stops Anywhere (rangeOf first last) := by
  unfold Reader.rangeOf
  refine (Meets.boundOfTree first).bind fun first => (Meets.boundOfTree last).bind fun last => ?_
  exact Meets.ite (Meets.pure _) Meets.fault

theorem shrinks_rangeOf (first last : Tree) : Shrinks (rangeOf first last) := by
  have h : Tame Anywhere (Reader.rangeOf first last) := Meets.rangeOf first last
  exact h.shrinks

theorem Meets.readRangeEnd (first : Tree) : Meets stops Inside (readRangeEnd first) := by
  unfold Reader.readRangeEnd
  refine Meets.bumpBoth.bind fun _ => Meets.peek (fun _ => ?_) ?_
  · refine (Meets.readSetItem_bind (Meets.rangeOf first) fun cursor => ?_).on
    exact eq_none_of_bind fun _ _ _ => rfl
  · exact (takes_readSetItem.bind (shrinks_rangeOf first)).grips

theorem readRangeEnd_boundary (assertion : Assertion) (cursor : Cursor) :
    readRangeEnd (.assertion assertion) cursor = none :=
  eq_none_of_bind fun _ _ _ => eq_none_of_bind fun _ _ _ => eq_none_of_bind fun _ _ _ => rfl

/-- Reads what may follow the first item. -/
def readRangeOf (first : Tree) : Reader CharSet := do
  bumpSpace
  let c ← peek
  let after ← peekSpace
  if c != '-' || endsItem after then setOfTree first else readRangeEnd first

theorem readSetRange_eq : readSetRange = readSetItem >>= readRangeOf := by
  unfold readSetRange readRangeOf readRangeEnd rangeOf endsItem
  simp only [Bool.or_assoc]

theorem readRangeOf_boundary (assertion : Assertion) (cursor : Cursor) :
    readRangeOf (.assertion assertion) cursor = none := by
  refine eq_none_of_bind fun _ _ _ => eq_none_of_bind fun c _ _ => ?_
  refine eq_none_of_bind fun after next _ => ?_
  split
  · rfl
  · exact readRangeEnd_boundary assertion next

/-- What is decided by the character after a hyphen is not changed by the parenthesis. -/
theorem Meets.peekSpace {g : Bool → Reader β} (hg : ∀ ends, Meets stops Inside (g ends)) :
    Meets stops Inside (peekSpace >>= fun after => g (endsItem after)) := by
  refine ⟨shrinks_peekSpace.bind fun after => (hg _).shrinks, fun text skips hinside => ?_⟩
  cases text with
  | nil => exact absurd rfl hinside
  | cons d text =>
    refine ((hg _).tracks (d :: text) skips hinside).congr
      (bind_of_some (peekSpace_eq d text skips)) fun more => ?_
    rw [List.cons_append, bind_of_some (peekSpace_eq d _ skips), endsItem_charAfter]

theorem Meets.readRangeOf (first : Tree) : Loose Anywhere (readRangeOf first) := by
  refine Meets.bumpSpace.bind fun _ => Meets.peek_loose fun c => ?_
  exact Meets.peekSpace (g := fun ends =>
    if c != '-' || ends then Regex.setOfTree first else Reader.readRangeEnd first) fun ends =>
      Meets.ite (Meets.setOfTree first).on (Meets.readRangeEnd first)

theorem Meets.readSetRange : Loose Anywhere readSetRange := by
  rw [readSetRange_eq]
  exact Meets.readSetItem_bind Meets.readRangeOf (readRangeOf_boundary _)

theorem takes_readSetRange : Takes readSetRange := by
  rw [readSetRange_eq]
  exact takes_readSetItem.bind fun first => (Meets.readRangeOf first).shrinks

/-! ## The beginning of a set -/

theorem hyphenTurn_advances : Advances hyphenTurn := by
  rintro items ⟨text, skips⟩ more left h
  cases text with
  | nil => cases h
  | cons d text =>
    unfold hyphenTurn at h
    rw [peek_cons] at h
    split at h
    · exact (takes_bumpBoth.bind fun _ => shrinks_pure _).length_lt h
    · cases h

theorem Meets.hyphens (items : List CharSet) : Loose Anywhere (Reader.loop hyphenTurn items) := by
  refine Meets.loop hyphenTurn_advances (fun items => ?_) items
  refine Meets.peek_loose fun c => Meets.ite ?_ (Meets.pure _).on
  exact Meets.bumpBoth.bind fun _ => Meets.pure _

/-- Reads the closing bracket that stands for itself at the beginning of a set. -/
def readFirstBracket (negated : Bool) (items : List CharSet) : Reader (Bool × List CharSet) := do
  let c ← peek
  if items.isEmpty && c == ']' then
    bumpBoth
    let _ ← peek
    return (negated, [.literal ⟨']', false⟩])
  else return (negated, items)

theorem Meets.readFirstBracket (negated : Bool) (items : List CharSet) :
    Loose Anywhere (readFirstBracket negated items) := by
  refine Meets.peek_loose fun c => Meets.ite ?_ (Meets.pure _).on
  exact Meets.bumpBoth.bind fun _ => Meets.peek_loose fun _ => (Meets.pure _).on

/-- Reads the beginning of a set after its bracket. -/
def readSetStart : Reader (Bool × List CharSet) := do
  let negated := (← peek) == '^'
  if negated then bumpBoth
  let items ← loop hyphenTurn []
  readFirstBracket negated items

theorem Meets.readSetStart : Loose Anywhere readSetStart := by
  have hitems : ∀ negated, Loose Anywhere
      (Reader.loop hyphenTurn [] >>= Reader.readFirstBracket negated) :=
    fun negated => (Meets.hyphens []).bind (Meets.readFirstBracket negated)
  refine Meets.peek_loose fun c => ?_
  exact Meets.ite (Meets.bumpBoth.bind fun _ => hitems (c == '^')) (hitems (c == '^')).on

theorem Meets.openBracket : Loose Inside openBracket :=
  Meets.bumpBoth.bind fun _ => Meets.readSetStart

theorem takes_openBracket : Takes openBracket :=
  takes_bumpBoth.bind fun _ => Meets.readSetStart.shrinks

/-! ## Named classes and operators -/

theorem operatorAhead_cons_cons (c d : Char) (text : List Char) :
    operatorAhead (c :: d :: text) = operatorAhead [c, d] := by
  unfold operatorAhead
  grind

theorem operatorAhead_closing {text : List Char} (h : text ≠ []) (more : List Char) :
    operatorAhead (text ++ ')' :: more) = operatorAhead text := by
  rcases text with _ | ⟨c, _ | ⟨d, text⟩⟩
  · exact absurd rfl h
  · show operatorAhead (c :: ')' :: more) = _
    unfold operatorAhead
    grind
  · exact (operatorAhead_cons_cons c d _).trans (operatorAhead_cons_cons c d text).symm

/-- The class whose name is written at the beginning of a text, up to `:]`. -/
def classIn? (negated : Bool) (text : List Char) : Option (CharSet × List Char) :=
  match text.dropWhile (· != ':') with
  | ':' :: ']' :: after =>
    (asciiClass? (text.takeWhile (· != ':'))).map fun cls => (.ascii cls negated, after)
  | _ => none

theorem namedClass?_plain {text : List Char} (h : text.head? ≠ some '^') :
    namedClass? ('[' :: ':' :: text) = classIn? false text := by
  cases text with
  | nil => rfl
  | cons c text =>
    unfold namedClass? classIn?
    grind

theorem namedClass?_other {text : List Char} (h : ∀ rest, text ≠ '[' :: ':' :: rest) :
    namedClass? text = none := by
  unfold namedClass?
  grind

theorem asciiClass?_closing {name : List Char} (h : ')' ∈ name) : asciiClass? name = none := by
  unfold asciiClass?
  rw [List.lookup_eq_none_iff]
  intro known hknown
  have hnone : known.1.toList.contains ')' = false := by
    revert known
    decide +kernel
  refine bne_iff_ne.mpr fun heq => ?_
  rw [← heq, String.toList_ofList] at hnone
  exact Bool.false_ne_true (hnone.symm.trans (List.contains_iff_mem.mpr h))
theorem takeWhile_append_of_dropWhile {p : Char → Bool} {text left : List Char} {c : Char}
    (h : text.dropWhile p = c :: left) (more : List Char) :
    (text ++ more).takeWhile p = text.takeWhile p := by
  rw [List.takeWhile_append, if_neg]
  intro hlength
  have hall := congrArg List.length (List.takeWhile_append_dropWhile (p := p) (l := text))
  rw [h, List.length_append, List.length_cons] at hall
  omega

theorem classIn?_closing (negated : Bool) (text more : List Char) :
    classIn? negated (text ++ ')' :: more) =
      (classIn? negated text).map fun found => (found.1, found.2 ++ ')' :: more) := by
  unfold classIn?
  rw [List.dropWhile_append]
  cases htext : text.dropWhile (· != ':') with
  | nil =>
    -- The text has no colon that could end the name, so a name would contain the parenthesis.
    have hname : asciiClass? ((text ++ ')' :: more).takeWhile (· != ':')) = none := by
      have htake := List.takeWhile_append_dropWhile (p := (· != ':')) (l := text)
      rw [htext, List.append_nil] at htake
      rw [List.takeWhile_append, htake, if_pos rfl]
      exact asciiClass?_closing (List.mem_append_right _ List.mem_cons_self)
    rw [hname]
    dsimp only
    split <;> rfl
  | cons c left =>
    -- The name ends in the text. Whether the class ends there too is seen from the character
    -- behind.
    rw [takeWhile_append_of_dropWhile htext]
    dsimp only [List.cons_append]
    generalize asciiClass? (text.takeWhile (· != ':')) = cls
    rcases left with _ | ⟨d, left⟩
    · grind
    · by_cases hend : c = ':' ∧ d = ']'
      · obtain ⟨rfl, rfl⟩ := hend
        cases cls <;> rfl
      · grind

/-- A class is named before the parenthesis or not at all. -/
theorem namedClass?_closing (text more : List Char) :
    namedClass? (text ++ ')' :: more) =
      (namedClass? text).map fun found => (found.1, found.2 ++ ')' :: more) := by
  -- A class begins with a bracket and a colon, and the parenthesis is neither of them.
  by_cases hopen : ∃ rest, text = '[' :: ':' :: rest
  · obtain ⟨rest, rfl⟩ := hopen
    by_cases hnegated : rest.head? = some '^'
    · cases rest with
      | nil => cases hnegated
      | cons c rest =>
        obtain rfl := Option.some.inj hnegated
        exact classIn?_closing true rest more
    · have hmore : (rest ++ ')' :: more).head? ≠ some '^' := by
        cases rest with
        | nil => exact fun h => absurd (Option.some.inj h) (by decide)
        | cons c rest => exact hnegated
      rw [namedClass?_plain hnegated, ← classIn?_closing]
      exact namedClass?_plain hmore
  · have hother : ∀ rest, text ++ ')' :: more ≠ '[' :: ':' :: rest := by
      intro rest heq
      rcases text with _ | ⟨c, _ | ⟨d, text⟩⟩
      · cases heq
      · cases heq
      · cases heq
        exact hopen ⟨text, rfl⟩
    rw [namedClass?_other hother, namedClass?_other fun rest heq => hopen ⟨rest, heq⟩]
    rfl

/-! ## Sets -/

/-- Closes the innermost set, which may be the whole. -/
def closeSet (stack : List OpenSet) (items : List CharSet) :
    Reader (Tree ⊕ List OpenSet × List CharSet) :=
  match closeOperator stack (CharSet.ofItems items.reverse) with
  | (content, .bracket around negated :: stack) =>
    if stack.isEmpty then pure (.inl (.bracketed negated content))
    else pure (.inr (stack, .bracketed negated content :: around))
  | _ => fault

/-- What is open after an operator. -/
def openOperator (operator : SetOperator) (stack : List OpenSet) (items : List CharSet) :
    List OpenSet :=
  .operator operator (closeOperator stack (CharSet.ofItems items.reverse)).1 ::
    (closeOperator stack (CharSet.ofItems items.reverse)).2

/-- Reads one thing inside brackets when a certain text is left. -/
def readSetPart (stack : List OpenSet) (items : List CharSet) (text : List Char) :
    Reader (Tree ⊕ List OpenSet × List CharSet) :=
  match text with
  | [] => fault
  | '[' :: _ =>
    match namedClass? text with
    | some (cls, after) => setRest after >>= fun _ => pure (.inr (stack, cls :: items))
    | none => openBracket >>= fun opened =>
      pure (.inr (.bracket items opened.1 :: stack, opened.2))
  | ']' :: _ => bump >>= fun _ => closeSet stack items
  | _ =>
    match operatorAhead text with
    | some operator => setRest (text.drop 2) >>= fun _ =>
      pure (.inr (openOperator operator stack items, []))
    | none => readSetRange >>= fun item => pure (.inr (stack, item :: items))

theorem setTurn_eq (stack : List OpenSet) (items : List CharSet) :
    setTurn (stack, items) = bumpSpace >>= fun _ => rest >>= readSetPart stack items := rfl

section

variable (stack : List OpenSet) (items : List CharSet)

theorem readSetPart_named {text after : List Char} {cls : CharSet}
    (h : namedClass? ('[' :: text) = some (cls, after)) (skips : Bool) :
    readSetPart stack items ('[' :: text) ⟨'[' :: text, skips⟩ =
      some (.inr (stack, cls :: items), ⟨after, skips⟩) := by
  unfold readSetPart
  simp only [h]
  rfl

theorem readSetPart_open {text : List Char} (h : namedClass? ('[' :: text) = none) :
    readSetPart stack items ('[' :: text) = openBracket >>= fun opened =>
      pure (.inr (.bracket items opened.1 :: stack, opened.2)) := by
  unfold readSetPart
  simp only [h]

theorem readSetPart_close (text : List Char) :
    readSetPart stack items (']' :: text) = bump >>= fun _ => closeSet stack items := rfl

theorem readSetPart_other {c : Char} (hopen : c ≠ '[') (hclose : c ≠ ']') (text : List Char) :
    readSetPart stack items (c :: text) =
      match operatorAhead (c :: text) with
      | some operator => setRest (text.drop 1) >>= fun _ =>
        pure (.inr (openOperator operator stack items, []))
      | none => readSetRange >>= fun item => pure (.inr (stack, item :: items)) := by
  unfold readSetPart
  split
  · next heq => cases heq
  · next heq => exact absurd (List.cons.inj heq).1 hopen
  · next heq => exact absurd (List.cons.inj heq).1 hclose
  · rfl

theorem Meets.closeSet : Meets stops Anywhere (closeSet stack items) := by
  unfold Reader.closeSet
  split
  · exact Meets.ite (Meets.pure _) (Meets.pure _)
  · exact Meets.fault

theorem classIn?_suffix {negated : Bool} {text after : List Char} {cls : CharSet}
    (h : classIn? negated text = some (cls, after)) : after <:+ text := by
  unfold classIn? at h
  split at h
  · next left hleft =>
    obtain ⟨found, -, hfound⟩ := Option.map_eq_some_iff.mp h
    obtain rfl : left = after := congrArg Prod.snd hfound
    have hdrop := List.dropWhile_suffix (l := text) (· != ':')
    rw [hleft] at hdrop
    exact ((List.suffix_cons ']' left).trans (List.suffix_cons ':' _)).trans hdrop
  · cases h

theorem namedClass?_suffix {text after : List Char} {cls : CharSet}
    (h : namedClass? ('[' :: text) = some (cls, after)) : after <:+ text := by
  by_cases hopen : ∃ rest, text = ':' :: rest
  · obtain ⟨rest, rfl⟩ := hopen
    by_cases hnegated : rest.head? = some '^'
    · cases rest with
      | nil => cases hnegated
      | cons c rest =>
        obtain rfl := Option.some.inj hnegated
        exact (classIn?_suffix h).trans ((List.suffix_cons _ _).trans (List.suffix_cons _ _))
    · rw [namedClass?_plain hnegated] at h
      exact (classIn?_suffix h).trans (List.suffix_cons _ _)
  · rw [namedClass?_other] at h
    · cases h
    · intro rest heq
      exact hopen ⟨rest, (List.cons.inj heq).2⟩

theorem takes_readSetPart : Takes (rest >>= readSetPart stack items) := by
  intro c text skips
  rw [rest_bind]
  by_cases hopen : c = '['
  · subst hopen
    cases hnamed : namedClass? ('[' :: text) with
    | none =>
      rw [readSetPart_open stack items hnamed]
      exact (takes_openBracket.bind fun opened => shrinks_pure _) _ _ _
    | some found =>
      rw [readSetPart_named stack items hnamed]
      exact within_some (namedClass?_suffix hnamed)
  · by_cases hclose : c = ']'
    · subst hclose
      have hset : Tame Anywhere (closeSet stack items) := Meets.closeSet stack items
      exact (takes_bump.bind fun _ => hset.shrinks) _ _ _
    · rw [readSetPart_other stack items hopen hclose]
      split
      · exact within_some (List.drop_suffix 1 text)
      · exact (takes_readSetRange.bind fun item => shrinks_pure _) _ _ _

theorem shrinks_setTurn (inside : List OpenSet × List CharSet) : Shrinks (setTurn inside) := by
  obtain ⟨stack, items⟩ := inside
  rw [setTurn_eq]
  exact shrinks_bumpSpace.bind fun _ => (takes_readSetPart stack items).shrinks fun _ => rfl

theorem setTurn_advances : Advances setTurn := by
  rintro ⟨stack, items⟩ cursor more left h
  rw [setTurn_eq] at h
  obtain ⟨_, ⟨text, skips⟩, hspace, hpart⟩ := exists_of_bind h
  have hlength := (shrinks_bumpSpace cursor _ _ hspace).length_le
  cases text with
  | nil => cases hpart
  | cons c text =>
    exact Nat.lt_of_lt_of_le ((takes_readSetPart stack items).length_lt hpart) hlength

theorem grips_setTurn (inside : List OpenSet × List CharSet) : Grips (setTurn inside) := by
  obtain ⟨stack, items⟩ := inside
  intro more skips
  rw [setTurn_eq]
  rw [bind_of_some (bumpSpace_cons isBlank_closing (by decide) more skips)]
  exact takes_readSetPart stack items _ _ _

end

theorem shrinks_sets (inside : List OpenSet × List CharSet) : Shrinks (loop setTurn inside) :=
  shrinks_loop shrinks_setTurn inside

theorem grips_sets (inside : List OpenSet × List CharSet) : Grips (loop setTurn inside) := by
  intro more skips
  rw [loop_eq setTurn_advances]
  exact (grips_setTurn inside more skips).bind (shrinks_goOn shrinks_sets)

/-- One thing inside brackets, and what comes after it. -/
def readSetsFrom (stack : List OpenSet) (items : List CharSet) : Reader Tree :=
  (rest >>= readSetPart stack items) >>= goOn (loop setTurn)

theorem loop_setTurn_eq (stack : List OpenSet) (items : List CharSet) :
    loop setTurn (stack, items) = bumpSpace >>= fun _ => readSetsFrom stack items := by
  rw [loop_eq setTurn_advances, setTurn_eq, bind_assoc]
  rfl

theorem shrinks_readSetsFrom (stack : List OpenSet) (items : List CharSet) :
    Shrinks (readSetsFrom stack items) :=
  ((takes_readSetPart stack items).shrinks fun _ => rfl).bind (shrinks_goOn shrinks_sets)

theorem readSetsFrom_eq {stack : List OpenSet} {items : List CharSet} {text : List Char}
    {part : Reader (Tree ⊕ List OpenSet × List CharSet)}
    (h : readSetPart stack items text = part) (skips : Bool) :
    readSetsFrom stack items ⟨text, skips⟩ = (part >>= goOn (loop setTurn)) ⟨text, skips⟩ := by
  rw [← h]
  rfl

section

-- all that comes after the next character tracks the parenthesis
variable (stack : List OpenSet) (items : List CharSet) {text : List Char} {skips : Bool}
  (ih : ∀ inside left skips', left.length ≤ text.length →
    Tracks stops (loop setTurn inside) left skips')
include ih

theorem readSetsFrom_open : Tracks stops (readSetsFrom stack items) ('[' :: text) skips := by
  have hclosing := fun more => namedClass?_closing ('[' :: text) more
  cases hnamed : namedClass? ('[' :: text) with
  | some found =>
    -- The bracket begins the name of a class.
    obtain ⟨cls, after⟩ := found
    have hafter := (namedClass?_suffix hnamed).length_le
    refine Tracks.congr (ih (stack, cls :: items) after skips hafter)
      (bind_of_some (readSetPart_named stack items hnamed skips)) fun more => ?_
    refine bind_of_some (readSetPart_named stack items ?_ skips)
    exact (hclosing more).trans (by rw [hnamed]; rfl)
  | none =>
    -- The bracket opens brackets within the brackets, also if the parenthesis follows.
    have hnone : ∀ more, namedClass? ('[' :: (text ++ ')' :: more)) = none :=
      fun more => (hclosing more).trans (by rw [hnamed]; rfl)
    have hpart : ∀ rest, namedClass? ('[' :: rest) = none →
        readSetsFrom stack items ⟨'[' :: rest, skips⟩ =
          (openBracket >>= fun opened =>
            loop setTurn (.bracket items opened.1 :: stack, opened.2)) ⟨'[' :: rest, skips⟩ := by
      intro rest h
      rw [readSetsFrom_eq (readSetPart_open stack items h), bind_assoc]
      rfl
    refine Tracks.congr ?_ (hpart text hnamed) fun more => hpart _ (hnone more)
    refine (Meets.openBracket.tracks _ skips (List.cons_ne_nil _ _)).bind_grips
      (fun _ => shrinks_sets _) (fun _ => grips_sets _) fun opened left skips' h => ?_
    exact ih _ left skips' (Nat.le_of_lt_succ (takes_openBracket.length_lt h))

theorem readSetsFrom_close : Tracks stops (readSetsFrom stack items) (']' :: text) skips := by
  have hclose : Meets stops Anywhere (closeSet stack items) := Meets.closeSet stack items
  have hset : Meets stops Inside (bump >>= fun _ => closeSet stack items) :=
    Meets.bump.bind fun _ => hclose
  have hpart : ∀ rest, readSetsFrom stack items ⟨']' :: rest, skips⟩ =
      ((bump >>= fun _ => closeSet stack items) >>= goOn (loop setTurn)) ⟨']' :: rest, skips⟩ :=
    fun rest => readSetsFrom_eq (readSetPart_close stack items rest) skips
  refine Tracks.congr ?_ (hpart text) fun more => hpart _
  refine (hset.tracks _ skips (List.cons_ne_nil _ _)).bind (shrinks_goOn shrinks_sets) ?_
  intro found left skips' h
  have hleft := (takes_bump.bind fun _ => hclose.shrinks).length_lt h
  cases found with
  | inl tree => exact (Meets.pure tree).tracks left skips' trivial
  | inr inside => exact ih inside left skips' (Nat.le_of_lt_succ hleft)

theorem readSetsFrom_other {c : Char} (hopen : c ≠ '[') (hclose : c ≠ ']') :
    Tracks stops (readSetsFrom stack items) (c :: text) skips := by
  have hclosing := operatorAhead_closing (List.cons_ne_nil c text)
  cases hoperator : operatorAhead (c :: text) with
  | some operator =>
    have hpart : ∀ rest, operatorAhead (c :: rest) = some operator →
        readSetsFrom stack items ⟨c :: rest, skips⟩ =
          loop setTurn (openOperator operator stack items, []) ⟨rest.drop 1, skips⟩ := by
      intro rest h
      rw [readSetsFrom_eq (readSetPart_other stack items hopen hclose rest), h]
      rfl
    -- the operator has two characters
    obtain ⟨d, after, rfl⟩ : ∃ d after, text = d :: after := by
      cases text with
      | nil => 
        unfold operatorAhead at hoperator
        grind
      | cons d after => exact ⟨d, after, rfl⟩
    refine Tracks.congr (ih _ after skips (Nat.le_succ _)) (hpart _ hoperator) fun more => ?_
    exact hpart _ ((hclosing more).trans hoperator)
  | none =>
    have hpart : ∀ rest, operatorAhead (c :: rest) = none →
        readSetsFrom stack items ⟨c :: rest, skips⟩ =
          (readSetRange >>= fun item => loop setTurn (stack, item :: items))
            ⟨c :: rest, skips⟩ := by
      intro rest h
      rw [readSetsFrom_eq (readSetPart_other stack items hopen hclose rest), h, bind_assoc]
      rfl
    refine Tracks.congr ?_ (hpart text hoperator)
      fun more => hpart _ ((hclosing more).trans hoperator)
    refine (Meets.readSetRange.tracks _ skips trivial).bind_grips (fun _ => shrinks_sets _)
      (fun _ => grips_sets _) fun item left skips' h => ?_
    exact ih _ left skips' (Nat.le_of_lt_succ (takes_readSetRange.length_lt h))

end

/-- The inside of brackets tracks the parenthesis: by induction on the length of the text. -/
theorem Meets.sets (inside : List OpenSet × List CharSet) :
    Meets stops Anywhere (Reader.loop setTurn inside) := by
  refine ⟨shrinks_sets inside, fun text skips hP => ?_⟩
  clear hP
  induction hlength : text.length using Nat.strongRecOn generalizing inside text skips with
  | ind length ih =>
    subst hlength
    obtain ⟨stack, items⟩ := inside
    rw [loop_setTurn_eq]
    refine (Meets.bumpSpace.tracks text skips trivial).bind
      (fun _ => shrinks_readSetsFrom stack items) fun _ left skips' h => ?_
    have hleft := (shrinks_bumpSpace _ _ _ h).length_le
    cases left with
    | nil =>
      -- Brackets that the text leaves open are a fault, and if there is more, they take the
      -- parenthesis.
      refine Tracks.of_none rfl fun more => ?_
      exact (takes_readSetPart stack items _ _ _).bind (shrinks_goOn shrinks_sets)
    | cons c left =>
      have ih' : ∀ inside rest skips', rest.length ≤ left.length →
          Tracks stops (Reader.loop setTurn inside) rest skips' :=
        fun inside rest skips' hrest =>
          ih _ (Nat.lt_of_le_of_lt hrest hleft) inside rest skips' rfl
      by_cases hopen : c = '['
      · subst hopen
        exact readSetsFrom_open stack items ih'
      · by_cases hclose : c = ']'
        · subst hclose
          exact readSetsFrom_close stack items ih'
        · exact readSetsFrom_other stack items ih' hopen hclose

theorem Meets.readBracketed : Meets stops Inside readBracketed :=
  Meets.openBracket.bind_grips (fun _ => Meets.sets _) fun _ => grips_sets _

theorem takes_readBracketed : Takes readBracketed :=
  takes_openBracket.bind fun _ => shrinks_sets _

end Reader

end Gll.Regex
