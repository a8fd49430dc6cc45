import Formulary.Error

/-!
Reading values as numbers. Texts count if they are plain numerals: digits of any script, perhaps
with a point among or before them, perhaps with a minus in front, and no exponent.
-/
namespace Formulary

def isUnsignedNumeral (text : List Char) : Bool :=
  let whole := text.takeWhile Text.isDecimalDigit
  match text.dropWhile Text.isDecimalDigit with
  | [] => !whole.isEmpty
  | '.' :: fraction => !fraction.isEmpty && fraction.all Text.isDecimalDigit
  | _ => false

def isNumeral : List Char → Bool
  | '-' :: text => isUnsignedNumeral text
  | text => isUnsignedNumeral text

def padNumeral : List Char → List Char
  | '-' :: '.' :: rest => '-' :: '0' :: '.' :: rest
  | '.' :: rest => '0' :: '.' :: rest
  | numeral => numeral

def Number.ofText (text : String) : Outcome Number :=
  if isNumeral text.toList then
    match Decimal.ofNumeral (padNumeral text.toList) with
    | .ok d => .ok (.decimal d)
    | .error _ => .error (.notNumeric text)
  else .error (.notNumeric text)

namespace Value

/-- The value as an operand of `operation`: a decimal, or an integer where `preferInteger` is set
    and the number is whole and fits. -/
def coerce (operation : Operation) (preferInteger : Bool) (value : Value) : Outcome Number := do
  let number ← match value with
    | text s => Number.ofText s
    | number n => .ok (.decimal n.toDecimal)
    | other => .error (.unsupported operation (some other.kind))
  return if preferInteger then number.narrow else number

def toNumber : Value → Outcome Number
  | number n => .ok n
  | text s => (Number.ofText s).map Number.narrow
  | other => .error (.badArgument (.notNumeric other.kind))

def numbers : List Value → Outcome (List Number)
  | [] => .ok []
  | list items :: rest => do return (← numbers items) ++ (← numbers rest)
  | value :: rest => do return (← value.toNumber) :: (← numbers rest)

end Value

end Formulary
