import SeriesLog.Text.Emoji
import SeriesLog.Text.Width

/-! # Columns of a line

How many columns a line takes in a table. Characters that are drawn as one sign count as one:
emoji with a skin tone or with joiners between them, flags, and the ligatures of some scripts.
Whether a character joins depends on what follows it, so a line is read from its end. -/
namespace SeriesLog

def joiner : Char := '\u200D'

def emojiSelector : Char := '\uFE0F'

def textSelector : Char := '\uFE0E'

def isLam (c : Char) : Bool :=
  inRanges c.toNat [(0x644, 0x644), (0x6B5, 0x6B8), (0x76A, 0x76A), (0x8A6, 0x8A6), (0x8C7, 0x8C7)]

def isAlef (c : Char) : Bool :=
  inRanges c.toNat [(0x622, 0x623), (0x625, 0x625), (0x627, 0x627), (0x671, 0x673),
    (0x675, 0x675), (0x773, 0x774), (0x870, 0x882)]

/-- Khmer letters whose subscript form stays below the letter before it. -/
def isSubscribed (c : Char) : Bool :=
  inRanges c.toNat [(0x1780, 0x1782), (0x1784, 0x1787), (0x1789, 0x178C), (0x178E, 0x1793),
    (0x1795, 0x1798), (0x179B, 0x179D), (0x17A0, 0x17A0), (0x17A2, 0x17A2), (0x17A7, 0x17A7),
    (0x17AB, 0x17AC), (0x17AF, 0x17AF)]

def isTifinagh (c : Char) : Bool := inRanges c.toNat [(0x2D31, 0x2D65), (0x2D6F, 0x2D6F)]

def isFirstTone (c : Char) : Bool := inRanges c.toNat [(0xA4F8, 0xA4FB)]

def isSecondTone (c : Char) : Bool := inRanges c.toNat [(0xA4FC, 0xA4FD)]

def isLigatureMark (c : Char) : Bool :=
  inRanges c.toNat [(0x34F, 0x34F), (0x17B4, 0x17B5), (0x180B, 0x180D), (0x180F, 0x180F),
    (0xFE00, 0xFE0F), (0xE0100, 0xE01EF)]

/-- The start of a text, as far as the character before it may join it. In the script letters
`joined` tells of a joiner in front. -/
inductive Opening where
  | other
  | emoji
  | tone
  | flagLetter
  | flagLetters
  | joinedEmoji
  | joinedKeycap
  | joinedFlagLetter
  | joinedFlag
  /-- A joined flag and one more letter in front. -/
  | joinedFlagAfter
  /-- The tags at the end of a joined flag of a region: digits and letters after them. -/
  | joinedTags (digits letters : Nat)
  | alef
  | lamed (joined : Bool)
  | ya (joined : Bool)
  | yaWithVowel
  | tifinagh (joined : Bool)
  | tifinaghPair
  | secondTone
  | orkhonI (joined : Bool)
  | subscribed
  deriving DecidableEq, Repr

namespace Opening

def ofChar (c : Char) : Opening :=
  if isAlef c then alef
  else if c = '\u05DC' then lamed false
  else if isSubscribed c then subscribed
  else if c = '\u1A10' then ya false
  else if isTifinagh c then tifinagh false
  else if isSecondTone c then secondTone
  else if c.toNat = 0x10C03 then orkhonI false
  else if isFlagLetter c then flagLetter
  else if isTone c then tone
  else if isEmoji c then emoji
  else other

def isLetter : Opening → Bool
  | alef | lamed _ | ya _ | yaWithVowel | tifinagh _ | tifinaghPair | secondTone | orkhonI _
  | subscribed => true
  | _ => false

def allowsMarks (o : Opening) : Bool := o.isLetter && o != alef

def afterJoiner : Opening → Opening
  | lamed _ => lamed true
  | ya _ => ya true
  | tifinagh _ => tifinagh true
  | orkhonI _ => orkhonI true
  | o => o

/-- How a character joins what follows it: the columns that it adds, of which there may be one
less than none, and what stands there then. -/
def join? (c : Char) : Opening → Option (Int × Opening)
  | other | joinedKeycap => none
  | emoji => if c = joiner then some (0, joinedEmoji) else none
  | tone =>
    if takesTone c then some (0, emoji)
    else if c = joiner then some (0, joinedEmoji)
    else none
  | flagLetter => if isFlagLetter c then some (1, flagLetters) else none
  | flagLetters =>
    if isFlagLetter c then some (1, flagLetters)
    else if c = joiner then some (0, joinedEmoji)
    else none
  | joinedEmoji =>
    if c = '\u20E3' then some (0, joinedKeycap)
    else if isFlagLetter c then some (1, joinedFlagLetter)
    else if isTone c then some (0, tone)
    else if c.toNat = 0xE007F then some (0, joinedTags 0 0)
    else if isEmoji c then some (0, emoji)
    else none
  | joinedFlagLetter => if isFlagLetter c then some (-1, joinedFlag) else none
  | joinedFlag =>
    if isFlagLetter c then some (3, joinedFlagAfter)
    else if c = joiner then some (0, joinedEmoji)
    else none
  | joinedFlagAfter =>
    if isFlagLetter c then some (-1, joinedFlag)
    else if c = joiner then some (0, joinedEmoji)
    else none
  | joinedTags digits letters =>
    if isTagLetter c && digits = 0 && letters < 6 then some (0, joinedTags 0 (letters + 1))
    else if isTagDigit c && (if digits = 0 then letters ≤ 4 else digits < 3) then
      some (0, joinedTags (digits + 1) letters)
    else if c.toNat = 0x1F3F4 && (digits = 3 || (digits = 0 && 3 ≤ letters)) then some (0, emoji)
    else none
  | alef =>
    if isLam c then some (0, other) else if joinsAcross c then some (0, alef) else none
  | lamed joined => if joined && c = '\u05D0' then some (0, other) else none
  | ya joined => if joined && c = '\u1A17' then some (0, yaWithVowel) else none
  | yaWithVowel => if c = '\u1A15' then some (0, other) else none
  | tifinagh joined =>
    if c = '\u2D7F' then some (1, tifinaghPair)
    else if joined && isTifinagh c then some (0, other)
    else none
  | tifinaghPair => if isTifinagh c then some (-1, other) else none
  | secondTone => if isFirstTone c then some (0, other) else none
  | orkhonI joined => if joined && c.toNat = 0x10C32 then some (0, other) else none
  | subscribed => if c = '\u17D2' then some (-1, other) else none

end Opening

/-- What follows a place: an opening, and the selectors in front of it. -/
structure Ahead where
  opening : Opening
  emojiStyle : Bool
  textStyle : Bool
  deriving DecidableEq, Repr

namespace Ahead

def plain (opening : Opening) : Ahead := ⟨opening, false, false⟩

def nothing : Ahead := plain .other

def selectEmoji (a : Ahead) : Ahead :=
  if a.opening.isLetter then { a with emojiStyle := true }
  else if a.opening = .joinedEmoji ∨ a.opening = .joinedKeycap then ⟨a.opening, true, false⟩
  else ⟨.other, true, false⟩

def selectText (a : Ahead) : Ahead :=
  if a.opening.isLetter then { a with textStyle := true } else ⟨.other, false, true⟩

/-- What is left when the character before an emoji selector has no picture: the selector stays
without effect, and only letters join across it. -/
def dropEmoji (a : Ahead) : Ahead :=
  if !a.emojiStyle then a else if a.opening.isLetter then { a with emojiStyle := false } else nothing

def add (c : Char) (a : Ahead) : Int × Ahead :=
  if a.emojiStyle && hasTwoStyles c then
    (if a.opening.isLetter || a.opening = .other then 2 else 0, plain .emoji)
  else
    let a := a.dropEmoji
    if c.toNat ≤ 0xA0 then (1, nothing)
    else if c = emojiSelector then (0, a.selectEmoji)
    else if c = textSelector then (0, a.selectText)
    else if a.textStyle && becomesNarrow c then (1, nothing)
    else if a.opening.allowsMarks && c = joiner then (0, plain a.opening.afterJoiner)
    else if a.opening.allowsMarks && isLigatureMark c then (0, plain a.opening)
    else
      match a.opening.join? c with
      | some (width, opening) => (width, plain opening)
      | none => (charColumns c, plain (.ofChar c))

end Ahead

def columns (line : String) : Nat :=
  (line.toList.foldr (fun c (width, ahead) =>
    let (added, ahead) := ahead.add c
    (width + added, ahead)) ((0 : Int), Ahead.nothing)).1.toNat

end SeriesLog
