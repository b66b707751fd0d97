import Gll.Proofs.Brackets

/-!
The beginnings of groups, and repetitions, that meet a closing parenthesis.
-/

set_option autoImplicit false

namespace Gll.Regex

namespace Reader

variable {α β : Type} {stops : Prop}

/-! ## Flags -/

theorem Meets.flagTurn (flags : OpenFlags) : Loose Anywhere (flagTurn flags) := by
  unfold Regex.flagTurn
  refine Meets.peek_loose fun c => Meets.ite ?_ (Meets.ite ?_ ?_)
  · exact (Meets.ite Meets.fault (Meets.pure _)).on
  · exact Meets.bump.bind fun _ => Meets.ite Meets.fault (Meets.pure _)
  · split
    · exact Meets.bump.bind fun _ => Meets.ite Meets.fault (Meets.pure _)
    · exact Meets.fault.on

theorem flagTurn_advances : Advances flagTurn := by
  rintro flags ⟨text, skips⟩ more left h
  cases text with
  | nil => cases h
  | cons c text =>
    unfold flagTurn at h
    rw [peek_cons] at h
    split at h
    · split at h
      · cases h
      · cases h
    · split at h
      · refine (takes_bump.bind fun _ => ?_).length_lt h
        split
        · exact shrinks_fault
        · exact shrinks_pure _
      · cases hflag : flag? c with
        | none =>
          simp only [hflag] at h
          cases h
        | some flag =>
          simp only [hflag] at h
          -- A character was taken, and nothing after that gives text back.
          refine (takes_bump.bind fun _ => ?_).length_lt h
          split
          · exact shrinks_fault
          · exact shrinks_pure _

theorem Meets.flags (flags : OpenFlags) : Loose Anywhere (Reader.loop Regex.flagTurn flags) :=
  Meets.loop flagTurn_advances Meets.flagTurn flags

/-! ## Names -/

/-- Whether a group may have a certain name. -/
def isGroupName : List Char → Bool
  | [] => false
  | c :: more => isNameChar true c && more.all (isNameChar false)

theorem readName_of_nil {text : List Char} (h : text.dropWhile (· != '>') = []) (skips : Bool) :
    readName ⟨text, skips⟩ = none := by
  unfold readName
  rw [rest_bind]
  simp only [h]
  rfl

theorem readName_of_cons {text after : List Char} {c : Char}
    (h : text.dropWhile (· != '>') = c :: after) (skips : Bool) :
    readName ⟨text, skips⟩ =
      if isGroupName (text.takeWhile (· != '>')) then
        some (String.ofList (text.takeWhile (· != '>')), ⟨after, skips⟩)
      else none := by
  obtain rfl : c = '>' := by
    have hc := List.head?_dropWhile_not (· != '>') text
    rw [h] at hc
    simpa using hc
  unfold readName
  rw [rest_bind]
  simp only [h]
  cases text.takeWhile (· != '>') with
  | nil => rfl
  | cons d more =>
    show (if isGroupName (d :: more) then setRest after >>= fun _ => pure _ else fault) _ = _
    split <;> rfl

theorem Meets.readName : Meets stops Anywhere readName := by
  have hwithin : ∀ text skips,
      Within (text.dropWhile (· != '>')) (Regex.readName ⟨text, skips⟩) := by
    intro text skips
    cases htext : text.dropWhile (· != '>') with
    | nil =>
      rw [readName_of_nil htext]
      exact within_none _
    | cons c after =>
      rw [readName_of_cons htext]
      split
      · exact within_some (List.suffix_cons c after)
      · exact within_none _
  -- A name ends at the first sign of its end. If there is one, what comes after the group does not
  -- matter; if there is none, the reader runs on into what comes after.
  refine ⟨fun cursor => (hwithin _ _).mono (List.dropWhile_suffix _), fun text skips _ => ?_⟩
  cases htext : text.dropWhile (· != '>') with
  | nil =>
    refine Tracks.of_none (readName_of_nil htext skips) fun more => (hwithin _ skips).mono ?_
    rw [List.dropWhile_append, htext]
    exact List.dropWhile_suffix (l := more) (· != '>')
  | cons c after =>
    have hmore : ∀ more,
        (text ++ ')' :: more).dropWhile (· != '>') = c :: (after ++ ')' :: more) := by
      intro more
      rw [List.dropWhile_append, htext]
      rfl
    have hname := fun more => takeWhile_append_of_dropWhile htext (')' :: more)
    cases hvalid : isGroupName (text.takeWhile (· != '>')) with
    | true =>
      refine Or.inl ⟨String.ofList (text.takeWhile (· != '>')), after, skips, ?_, fun more => ?_⟩
      · rw [readName_of_cons htext, hvalid]
        rfl
      · rw [readName_of_cons (hmore more), hname, hvalid]
        rfl
    | false =>
      refine Tracks.of_none ?_ fun more => ?_
      · rw [readName_of_cons htext, hvalid]
        rfl
      · rw [readName_of_cons (hmore more), hname, hvalid]
        exact within_none _

/-! ## The beginning of a group -/

theorem isPrefixOf_closing {mark : List Char} (h : ')' ∉ mark) (text more : List Char) :
    mark.isPrefixOf (text ++ ')' :: more) = mark.isPrefixOf text := by
  induction mark generalizing text with
  | nil => simp
  | cons c mark ih =>
    have hc : (c == ')') = false := beq_eq_false_iff_ne.mpr fun heq => h (heq ▸ List.mem_cons_self)
    cases text with
    | nil =>
      show (c == ')' && _) = false
      rw [hc, Bool.false_and]
    | cons d text =>
      show (c == d && mark.isPrefixOf (text ++ ')' :: more)) = (c == d && mark.isPrefixOf text)
      rw [ih fun hmem => h (List.mem_cons_of_mem _ hmem)]

theorem Meets.bumpIf {mark : List Char} (h : ')' ∉ mark) : Meets stops Anywhere (bumpIf mark) := by
  refine ⟨shrinks_bumpIf mark, fun text skips _ => ?_⟩
  have heq : ∀ text : List Char, Reader.bumpIf mark ⟨text, skips⟩ =
      some (mark.isPrefixOf text,
        ⟨if mark.isPrefixOf text then text.drop mark.length else text, skips⟩) := by
    intro text
    unfold Reader.bumpIf
    cases mark.isPrefixOf text <;> rfl
  refine Or.inl ⟨_, _, skips, heq text, fun more => ?_⟩
  rw [heq, isPrefixOf_closing h]
  split
  · next hprefix =>
    rw [List.drop_append_of_le_length (List.isPrefixOf_iff_prefix.mp hprefix).length_le]
  · rfl

/-- A test of the text that the parenthesis does not change. -/
theorem Meets.test {p : List Char → Bool} {g : Bool → Reader β}
    (hp : ∀ text more, p (text ++ ')' :: more) = p text)
    (hg : ∀ b, Meets stops Anywhere (g b)) :
    Meets stops Anywhere (rest >>= fun text => g (p text)) := by
  refine ⟨shrinks_rest.bind fun text => (hg _).shrinks, fun text skips _ => ?_⟩
  refine ((hg (p text)).tracks text skips trivial).congr rfl fun more => ?_
  rw [rest_bind, hp]

/-- Whether a group begins that looks around. -/
def looksAround (text : List Char) : Bool :=
  ["?=", "?!", "?<=", "?<!"].any fun mark => mark.toList.isPrefixOf text

theorem looksAround_closing (text more : List Char) :
    looksAround (text ++ ')' :: more) = looksAround text := by
  have hmark : ∀ mark ∈ ["?=", "?!", "?<=", "?<!"], ')' ∉ mark.toList := by decide +kernel
  unfold looksAround
  rw [Bool.eq_iff_iff, List.any_eq_true, List.any_eq_true]
  refine exists_congr fun mark => and_congr_right fun hmem => ?_
  rw [isPrefixOf_closing (hmark mark hmem)]

/-- Reads the end of the flags that a group begins with. -/
def readFlagsEnd (settings : FlagSettings) : Reader GroupStart := do
  let c ← peek
  bump
  if c == ')' then
    if settings.isEmpty then fault else return .settings settings
  else return .group settings none

/-- Reads the beginning of a group that does not look around. -/
def readGroupKind : Reader GroupStart := do
  if ← bumpNameMark then
    return .group [] (some (← readName))
  else if ← bumpIf ['?'] then
    let settings ← loop flagTurn ⟨false, false, []⟩
    readFlagsEnd settings
  else return .group [] none

theorem readGroupStart_eq : readGroupStart = bumpBoth >>= fun _ => rest >>= fun text =>
    if looksAround text then fault else readGroupKind := rfl

theorem Meets.bumpNameMark : Meets stops Anywhere bumpNameMark := by
  refine (Meets.bumpIf (by decide)).bind fun found => Meets.ite (Meets.pure _) ?_
  exact Meets.bumpIf (by decide)

theorem takes_readFlagsEnd (settings : FlagSettings) : Takes (readFlagsEnd settings) := by
  refine Takes.peek fun c => takes_bump.bind fun _ => ?_
  split
  · split
    · exact shrinks_fault
    · exact shrinks_pure _
  · exact shrinks_pure _

theorem Meets.readFlagsEnd (settings : FlagSettings) :
    Meets stops Anywhere (readFlagsEnd settings) := by
  refine Meets.peek (fun c => Meets.bump.bind fun _ => ?_) (takes_readFlagsEnd settings).grips
  exact Meets.ite (Meets.ite Meets.fault (Meets.pure _)) (Meets.pure _)

theorem Meets.readGroupKind : Meets stops Anywhere readGroupKind := by
  refine Meets.bumpNameMark.bind fun named => Meets.ite ?_ ?_
  · exact Meets.readName.bind fun name => Meets.pure _
  · refine (Meets.bumpIf (by decide)).bind fun flagged => Meets.ite ?_ (Meets.pure _)
    exact (Meets.flags _).bind_grips Meets.readFlagsEnd fun settings =>
      (takes_readFlagsEnd settings).grips

theorem Meets.readGroupStart : Meets stops Inside readGroupStart := by
  rw [readGroupStart_eq]
  refine Meets.bumpBoth.bind fun _ => Meets.test (g := fun around =>
    if around then Reader.fault else Reader.readGroupKind) looksAround_closing fun around => ?_
  exact Meets.ite Meets.fault Meets.readGroupKind

theorem takes_readGroupStart : Takes readGroupStart := by
  have hkind : Tame Anywhere readGroupKind := Meets.readGroupKind
  rw [readGroupStart_eq]
  refine takes_bumpBoth.bind fun _ => shrinks_rest.bind fun text => ?_
  split
  · exact shrinks_fault
  · exact hkind.shrinks

/-! ## Repetitions -/

theorem Meets.skipReluctant : Meets stops Anywhere skipReluctant := by
  have heq : ∀ (text : List Char) (skips : Bool), Regex.skipReluctant ⟨text, skips⟩ =
      some ((), ⟨if text.head? = some '?' then text.drop 1 else text, skips⟩) := by
    intro text skips
    show (if text.head? == some '?' then Reader.bump else Pure.pure () : Reader Unit) _ = _
    by_cases hhead : text.head? = some '?'
    · rw [if_pos hhead, if_pos (beq_iff_eq.mpr hhead)]
      rfl
    · rw [if_neg hhead, if_neg (fun h => hhead (beq_iff_eq.mp h))]
      rfl
  refine ⟨fun cursor => ?_, fun text skips _ => ?_⟩
  · rw [heq]
    refine within_some ?_
    show (if _ then _ else _) <:+ cursor.rest
    split
    · exact List.drop_suffix 1 _
    · exact List.suffix_refl _
  · refine Or.inl ⟨(), _, skips, heq text skips, fun more => ?_⟩
    rw [heq]
    cases text with
    | nil => rfl
    | cons c text =>
      show some ((), (⟨if some c = some '?' then text ++ ')' :: more else c :: text ++ ')' :: more,
        skips⟩ : Cursor)) =
          some ((), ⟨(if some c = some '?' then text else c :: text) ++ ')' :: more, skips⟩)
      split <;> rfl

theorem Meets.repeatLast (least : Nat) (most : Option Nat) (parts : List Tree) :
    Meets stops Anywhere (repeatLast least most parts) := by
  cases parts with
  | nil => exact Meets.fault
  | cons last parts => exact Meets.ite (Meets.pure _) Meets.fault

theorem Meets.readRepetition (least : Nat) (most : Option Nat) (parts : List Tree) :
    Meets stops Inside (readRepetition least most parts) :=
  Meets.bump.bind fun _ => Meets.skipReluctant.bind fun _ => Meets.repeatLast least most parts

theorem takes_readRepetition (least : Nat) (most : Option Nat) (parts : List Tree) :
    Takes (readRepetition least most parts) := by
  have hlast : Tame Anywhere (skipReluctant >>= fun _ => repeatLast least most parts) :=
    Meets.skipReluctant.bind fun _ => Meets.repeatLast least most parts
  exact takes_bump.bind fun _ => hlast.shrinks

/-- Skips blanks, even where they count. -/
def dropBlanks : Reader Unit := rest >>= fun text => setRest (text.dropWhile isBlank)

theorem Meets.dropBlanks : Meets stops Anywhere dropBlanks := by
  refine ⟨fun cursor => within_some (List.dropWhile_suffix _), fun text skips _ => ?_⟩
  refine Or.inl ⟨(), text.dropWhile isBlank, skips, rfl, fun more => ?_⟩
  show some ((), (⟨(text ++ ')' :: more).dropWhile isBlank, skips⟩ : Cursor)) = _
  rw [List.dropWhile_append, List.dropWhile_cons_of_neg (Bool.eq_false_iff.mp isBlank_closing)]
  cases text.dropWhile isBlank <;> rfl

/-- The number that some digits write down, if it fits. -/
def numberOf (digits : List Char) : Reader (Option Nat) :=
  if digits.isEmpty then pure none
  else
    let value := digits.foldl (fun value c => value * 10 + (c.toNat - '0'.toNat)) 0
    if value < Nat.pow 2 32 then pure (some value) else fault

theorem readNumber_eq : readNumber = dropBlanks >>= fun _ =>
    gatherWhile Char.isDigit >>= fun digits => gatherWhile isBlank >>= fun _ =>
      numberOf digits := rfl

theorem Meets.readNumber : Meets stops Anywhere readNumber := by
  rw [readNumber_eq]
  refine Meets.dropBlanks.bind fun _ => (Meets.gatherWhile rfl).bind fun digits =>
    (Meets.gatherWhile isBlank_closing).bind fun _ => ?_
  exact Meets.ite (Meets.pure _) (Meets.ite (Meets.pure _) Meets.fault)

theorem gatherWhile_closing {condition : Char → Bool} (h : condition ')' = false)
    (more : List Char) (skips : Bool) :
    gatherWhile condition ⟨')' :: more, skips⟩ = some ([], ⟨')' :: more, skips⟩) := by
  unfold gatherWhile
  rw [loop_eq (gatherTurn_advances condition)]
  exact bind_of_some (gatherTurn_neg (by rintro d ⟨⟩; exact h) [] skips)

theorem readNumber_closing (more : List Char) (skips : Bool) :
    readNumber ⟨')' :: more, skips⟩ = some (none, ⟨')' :: more, skips⟩) := by
  have hblanks : dropBlanks ⟨')' :: more, skips⟩ = some ((), ⟨')' :: more, skips⟩) := by
    show some ((), (⟨(')' :: more).dropWhile isBlank, skips⟩ : Cursor)) = _
    rw [List.dropWhile_cons_of_neg (Bool.eq_false_iff.mp isBlank_closing)]
  rw [readNumber_eq, bind_of_some hblanks, bind_of_some (gatherWhile_closing rfl more skips),
    bind_of_some (gatherWhile_closing isBlank_closing more skips)]
  rfl

/-- Reads the upper bound of a counted repetition after the lower one and the next character. -/
def readMost (c : Char) : Option Nat → Reader (Nat × Option Nat)
  | none => fault
  | some least =>
    if c == ',' then do
      bumpBoth
      if (← peek) == '\x7d' then return (least, none)
      else
        match ← readNumber with
        | some most => if least ≤ most then return (least, some most) else fault
        | none => fault
    else return (least, some least)

/-- Reads the end of a counted repetition. -/
def readCountsEnd (parts : List Tree) (range : Nat × Option Nat) : Reader (List Tree) := do
  if (← peek) == '\x7d' then
    bumpBoth
    skipReluctant
    repeatLast range.1 range.2 parts
  else fault

/-- Reads a counted repetition after its opening brace. -/
def readCountsFrom (parts : List Tree) : Reader (List Tree) := do
  let _ ← peek
  let least ← readNumber
  let c ← peek
  let range ← readMost c least
  readCountsEnd parts range

theorem readCounts_eq (parts : List Tree) :
    readCounts parts = bumpBoth >>= fun _ => readCountsFrom parts := by
  unfold readCounts
  congr

theorem Meets.readMost (c : Char) (least : Option Nat) : Meets stops Inside (readMost c least) := by
  cases least with
  | none => exact Meets.fault.on
  | some least =>
    refine Meets.ite (Meets.bumpBoth.bind fun _ => ?_) (Meets.pure _).on
    refine Meets.peek (fun d => Meets.ite (Meets.pure _).on
      (Meets.readNumber.bind fun most => ?_).on) fun more skips => ?_
    · cases most with
      | none => exact Meets.fault
      | some most => exact Meets.ite (Meets.pure _) Meets.fault
    · show Within more ((Regex.readNumber >>= _) _)
      rw [bind_of_some (readNumber_closing more skips)]
      exact within_none _

theorem Meets.readCountsEnd (parts : List Tree) (range : Nat × Option Nat) :
    Meets stops Anywhere (readCountsEnd parts range) := by
  refine Meets.peek (fun c => Meets.ite ?_ Meets.fault.on) fun more skips => within_none _
  exact Meets.bumpBoth.bind fun _ => Meets.skipReluctant.bind fun _ => Meets.repeatLast _ _ parts

theorem readMost_closing (parts : List Tree) (least : Option Nat) (more : List Char)
    (skips : Bool) : (readMost ')' least >>= readCountsEnd parts) ⟨')' :: more, skips⟩ = none := by
  cases least <;> rfl

theorem Meets.readCountsFrom (parts : List Tree) : Meets stops Anywhere (readCountsFrom parts) := by
  refine Meets.peek (fun _ => (Meets.readNumber.bind fun least => ?_).on) fun more skips => ?_
  · refine Meets.peek (fun c => (Meets.readMost c least).bind (Meets.readCountsEnd parts))
      fun more skips => ?_
    rw [readMost_closing]
    exact within_none _
  · rw [bind_of_some (readNumber_closing more skips), peek_cons, readMost_closing]
    exact within_none _

theorem Meets.readCounts (parts : List Tree) : Meets stops Inside (readCounts parts) := by
  rw [readCounts_eq]
  exact Meets.bumpBoth.bind fun _ => Meets.readCountsFrom parts

theorem takes_readCounts (parts : List Tree) : Takes (readCounts parts) := by
  have hfrom : Tame Anywhere (readCountsFrom parts) := Meets.readCountsFrom parts
  rw [readCounts_eq]
  exact takes_bumpBoth.bind fun _ => hfrom.shrinks

/-! ## Single parts -/

/-- The part that a single character stands for. -/
def partOf : Char → Tree
  | '.' => .dot
  | '^' => .assertion .startLine
  | '$' => .assertion .endLine
  | c => .literal ⟨c, false⟩

theorem readPrimitive_escape (text : List Char) (skips : Bool) :
    readPrimitive ⟨'\\' :: text, skips⟩ = readEscape ⟨'\\' :: text, skips⟩ := rfl

theorem readPrimitive_other {c : Char} (h : c ≠ '\\') (text : List Char) (skips : Bool) :
    readPrimitive ⟨c :: text, skips⟩ = some (partOf c, ⟨text, skips⟩) := by
  unfold readPrimitive
  rw [peek_cons, if_neg (fun heq => h (beq_iff_eq.mp heq)), bump_cons]
  split
  · rfl
  · rfl
  · rfl
  · next hdot hstart hend =>
    rw [partOf.eq_4 c hdot hstart hend]
    rfl

theorem takes_readPrimitive : Takes readPrimitive := by
  intro c text skips
  by_cases hc : c = '\\'
  · subst hc
    exact takes_readEscape _ _ _
  · rw [readPrimitive_other hc]
    exact within_some (List.suffix_refl _)

theorem readPrimitive_tracks (c : Char) (text : List Char) (skips : Bool) :
    Tracks stops readPrimitive (c :: text) skips ∨
      Hesitates (.assertion .wordBoundary) readPrimitive (c :: text) skips := by
  by_cases hc : c = '\\'
  · subst hc
    exact (readEscape_tracks _ text skips).imp
      (fun h => h.congr (readPrimitive_escape _ _) fun more => readPrimitive_escape _ _)
      fun h => h.congr (readPrimitive_escape _ _) fun more => readPrimitive_escape _ _
  · exact Or.inl (Or.inl ⟨partOf c, text, skips, readPrimitive_other hc text skips,
      fun more => readPrimitive_other hc _ skips⟩)

end Reader

end Gll.Regex
