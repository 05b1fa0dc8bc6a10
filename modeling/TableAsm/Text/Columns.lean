import TableAsm.Text.Width

/-!
Widths of text in a terminal. A text is measured from its end, because what a character adds
depends on what follows it: letters merge into ligatures, and joiners and selectors turn
characters into emoji, which take two columns together.
-/
namespace TableAsm.Columns

/-- What follows a place in a text, as far as widths depend on it. `joined` tells that a joiner
stands before it. -/
inductive Follower where
  | other
  | lineFeed
  | alef
  | lamed (joined : Bool)
  | khmerLetter
  | bugineseYa (joined : Bool)
  /-- A vowel sign before a joined ya. -/
  | bugineseVowel
  | tifinagh (joined : Bool)
  /-- The sign that joins two Tifinagh letters. -/
  | tifinaghJoiner
  | lisuTone
  | orkhonI (joined : Bool)
  | emoji
  | skinTone
  | flagLetter
  | flagLetters
  | joinedEmoji
  /-- The frame of a key before a joined emoji. -/
  | joinedKey
  /-- Flag letters before a joined emoji: one, or more in an even or an odd number. -/
  | joinedFlagLetter
  | joinedFlagLetters (even : Bool)
  /-- Tags that name a region: how many letters of its end, and how many digits before these. -/
  | tagLetters (count : Nat)
  | tagDigits (count : Nat)
deriving DecidableEq, Repr

namespace Follower

/-- Whether this may be part of a ligature, which selectors do not change. -/
def isLigaturePart : Follower → Bool
  | alef | lamed _ | khmerLetter | bugineseYa _ | bugineseVowel | tifinagh _ | tifinaghJoiner
  | lisuTone | orkhonI _ => true
  | _ => false

/-- What follows once a joiner stands before this. -/
def join : Follower → Follower
  | lamed _ => lamed true
  | bugineseYa _ => bugineseYa true
  | tifinagh _ => tifinagh true
  | orkhonI _ => orkhonI true
  | f => f

/-- Whether a joiner, by itself or with the frame of a key, ties this to what comes before. -/
def isJoinedEmoji (f : Follower) : Bool := f = joinedEmoji || f = joinedKey

end Follower

/-- A follower, and whether a selector before it asks for an emoji or for text. -/
structure Context where
  follower : Follower
  asEmoji : Bool := false
  asText : Bool := false
deriving DecidableEq, Repr

/-- The columns that a character adds, which may take some back, and what it is for the one
before it. -/
abbrev Measure := Int × Context

def measured (columns : Int) (f : Follower := .other) : Measure := (columns, ⟨f, false, false⟩)

/-- The measure of a character that its neighbours do not change. -/
def ofChar (c : Char) : Measure :=
  if Width.marks.contains c then measured 0
  else if Width.wide.contains c then measured 2
  else if Width.emoji.contains c then measured 2 .emoji
  else if Width.skinTones.contains c then measured 2 .skinTone
  else if Width.flagLetters.contains c then measured 1 .flagLetter
  else if Width.alefs.contains c then measured 1 .alef
  else if Width.khmerLetters.contains c then measured 1 .khmerLetter
  else if Width.tifinaghLetters.contains c then measured 1 (.tifinagh false)
  else if Width.lisuSecond.contains c then measured 1 .lisuTone
  else if c = '\u05DC' then measured 1 (.lamed false)
  else if c = '\u17D8' then measured 3
  else if c = '\u1A10' then measured 1 (.bugineseYa false)
  else if c = Char.ofNat 0x10C03 then measured 1 (.orkhonI false)
  else measured 1

/-- Ligatures: the measure of a character that merges with what follows it. -/
def ligature? (c : Char) (f : Follower) : Option Measure :=
  match f with
  | .alef =>
    if Width.lams.contains c then measured 0
    else if Width.marks.contains c && !Width.barriers.contains c then measured 0 .alef
    else none
  | .lamed true => if c = '\u05D0' then measured 0 else none
  | .khmerLetter => if c = '\u17D2' then measured (-1) else none
  | .bugineseYa true => if c = '\u1A17' then measured 0 .bugineseVowel else none
  | .bugineseVowel => if c = '\u1A15' then measured 0 else none
  | .tifinagh joined =>
    if c = '\u2D7F' then measured 1 .tifinaghJoiner
    else if joined && Width.tifinaghLetters.contains c then measured 0
    else none
  | .tifinaghJoiner => if Width.tifinaghLetters.contains c then measured (-1) else none
  | .lisuTone => if Width.lisuFirst.contains c then measured 0 else none
  | .orkhonI true => if c = Char.ofNat 0x10C32 then measured 0 else none
  | _ => none

/-- The joiner of emoji. -/
def joiner : Char := '\u200D'

/-- Black flags begin the sequences of tags that name a region. -/
def blackFlag : Char := Char.ofNat 0x1F3F4

def isTagLetter (c : Char) : Bool := decide (0xE0061 ≤ c.toNat) && decide (c.toNat ≤ 0xE007A)
def isTagDigit (c : Char) : Bool := decide (0xE0030 ≤ c.toNat) && decide (c.toNat ≤ 0xE0039)

/-- Sequences of emoji: the measure of a character that is one emoji with what follows it. Flag
letters count by pairs. -/
def emojiSequence? (c : Char) (f : Follower) : Option Measure :=
  match f with
  | .emoji => if c = joiner then measured 0 .joinedEmoji else none
  | .skinTone =>
    if Width.toneBases.contains c then measured 0 .emoji
    else if c = joiner then measured 0 .joinedEmoji
    else none
  | .flagLetter => if Width.flagLetters.contains c then measured 1 .flagLetters else none
  | .flagLetters =>
    if Width.flagLetters.contains c then measured 1 .flagLetters
    else if c = joiner then measured 0 .joinedEmoji
    else none
  | .joinedEmoji =>
    if c = '\u20E3' then measured 0 .joinedKey
    else if Width.flagLetters.contains c then measured 1 .joinedFlagLetter
    else if Width.skinTones.contains c then measured 0 .skinTone
    else if c.toNat = 0xE007F then measured 0 (.tagLetters 0)
    else if Width.emoji.contains c then measured 0 .emoji
    else none
  | .joinedFlagLetter =>
    if Width.flagLetters.contains c then measured (-1) (.joinedFlagLetters true) else none
  | .joinedFlagLetters even =>
    if Width.flagLetters.contains c then
      measured (if even then 3 else -1) (.joinedFlagLetters !even)
    else if c = joiner then measured 0 .joinedEmoji
    else none
  | .tagLetters n =>
    if isTagLetter c && n < 6 then measured 0 (.tagLetters (n + 1))
    else if isTagDigit c && n < 5 then measured 0 (.tagDigits 1)
    else if c = blackFlag && 3 ≤ n then measured 0 .emoji
    else none
  | .tagDigits n =>
    if isTagDigit c && n < 3 then measured 0 (.tagDigits (n + 1))
    else if c = blackFlag && n = 3 then measured 0 .emoji
    else none
  | _ => none

/-- The measure of a character before a follower that no selector changes. -/
def beside (c : Char) (f : Follower) : Measure :=
  if f.isLigaturePart && f ≠ .alef && c = joiner then measured 0 f.join
  else if f.isLigaturePart && f ≠ .alef && Width.ligatureMarks.contains c then measured 0 f
  else ((ligature? c f).or (emojiSequence? c f)).getD (ofChar c)

/-- A selector of text before what follows. -/
def selectText (after : Context) : Context :=
  if after.follower.isLigaturePart then { after with asText := true }
  else { follower := .other, asText := true }

/-- A selector of emoji before what follows. -/
def selectEmoji (after : Context) : Context :=
  if after.follower.isLigaturePart || after.follower.isJoinedEmoji then
    { after with asEmoji := true }
  else { follower := .other, asEmoji := true }

/-- The measure of a character before what follows, unless a selector makes it an emoji. -/
def unselected (c : Char) (after : Context) : Measure :=
  if c ≤ '\u00A0' then
    if c = '\n' then measured 1 .lineFeed
    else if c = '\r' && after.follower = .lineFeed then measured 0
    else measured 1
  else if c = '\uFE0F' then (0, selectEmoji after)
  else if c = '\uFE0E' then (0, selectText after)
  else if after.asText && Width.narrowable.contains c then measured 1
  else beside c after.follower

/-- The measure of a character before what follows. A joined emoji takes its columns from what
it is joined to. -/
def measure (c : Char) (after : Context) : Measure :=
  if after.asEmoji then
    if Width.selectable.contains c then
      measured (if after.follower.isJoinedEmoji then 0 else 2) .emoji
    else if after.follower.isLigaturePart then unselected c { after with asEmoji := false }
    else unselected c ⟨.other, false, false⟩
  else unselected c after

/-- The columns that a text takes. -/
def ofText (text : String) : Nat :=
  (text.toList.foldr (fun c (columns, after) =>
    let (more, before) := measure c after
    (columns + more, before)) ((0 : Int), ⟨.other, false, false⟩)).1.toNat

end TableAsm.Columns
