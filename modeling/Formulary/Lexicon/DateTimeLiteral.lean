import Formulary.Lexicon.Word

/-!
Points in time: `2020-1-31`, perhaps with a time of day behind a blank, and perhaps with a zone,
`Z` or a distance from universal time. Digits of all scripts are recognized, but only ASCII digits
count: a field of others is zero, and a year of others is none.
-/
namespace Formulary

structure DateTimeLiteral where
  year : List Char
  month : List Char
  day : List Char
  time : Option (List Char × List Char × List Char)
  /-- Hours and minutes from universal time, and whether behind it. -/
  zone : Option (Bool × List Char × List Char)

namespace DateTimeLiteral

def readDigits (least most : Nat) (text : List Char) : Option (List Char × List Char) :=
  let digits := (text.take most).takeWhile Text.isDecimalDigit
  if digits.length < least then none else some (digits, text.drop digits.length)

def readSign (sign : Char) : List Char → Option (List Char)
  | [] => none
  | c :: rest => if c = sign then some rest else none

def readTriple (sign : Char) (least most : Nat) (text : List Char) :
    Option ((List Char × List Char × List Char) × List Char) := do
  let (first, text) ← readDigits least most text
  let text ← readSign sign text
  let (second, text) ← readDigits 1 2 text
  let text ← readSign sign text
  let (third, text) ← readDigits 1 2 text
  return ((first, second, third), text)

def readTime (text : List Char) :
    Option ((List Char × List Char × List Char) × List Char) := do
  readTriple ':' 1 2 (← readSign ' ' text)

def readOffset (text : List Char) : Option ((List Char × List Char) × List Char) := do
  let (hours, text) ← readDigits 2 2 text
  let (minutes, text) ← readDigits 2 2 ((readSign ':' text).getD text)
  return ((hours, minutes), text)

/-- The zone at the front. A zone of `Z` is as good as none. -/
def readZone : List Char → Option (Bool × List Char × List Char) × List Char
  | [] => (none, [])
  | c :: rest =>
    if Lexicon.isFormOf 'z' c then (none, rest)
    else if c = '+' ∨ c = '-' then
      match readOffset rest with
      | some (offset, rest) => (some (c = '-', offset), rest)
      | none => (none, c :: rest)
    else (none, c :: rest)

/-- The literal at the front of a text, and the text behind it. A blank may stand before the zone,
    and is taken even when no zone follows. -/
def read (text : List Char) : Option (DateTimeLiteral × List Char) := do
  let ((year, month, day), text) ← readTriple '-' 4 4 text
  let (time, text) :=
    match readTime text with
    | some (time, text) => (some time, text)
    | none => (none, text)
  let (zone, text) := readZone ((readSign ' ' text).getD text)
  return (⟨year, month, day, time, zone⟩, text)

def field (digits : List Char) : Nat := (Decimal.natOfDigits? digits).getD 0

def value? (literal : DateTimeLiteral) : Option DateTime := do
  let year ← Decimal.natOfDigits? literal.year
  let date ← Date.ofFields? year (field literal.month) (field literal.day)
  let (hour, minute, second) := literal.time.getD ([], [], [])
  let time ← TimeOfDay.ofFields? (field hour) (field minute) (field second) 0
  let (behind, hours, minutes) := literal.zone.getD (false, [], [])
  let distance : Int := (field hours * 3600 + field minutes * 60 : Nat)
  let offset ← ClockOffset.ofSeconds? (if behind then -distance else distance)
  return ⟨date, time, offset⟩

end DateTimeLiteral

def Lexicon.dateTime : Scanner where
  name := "datetime"
  category := .dateTime
  recognize text := do
    let (_, rest) ← DateTimeLiteral.read text
    return text.length - rest.length
  convert lexeme :=
    match (DateTimeLiteral.read lexeme).bind fun literal => literal.1.value? with
    | some t => .ok (tokenOf (.data (.dateTime t)) lexeme)
    | none => .error (.lexical (.invalidDateTime (String.ofList lexeme)))

end Formulary
