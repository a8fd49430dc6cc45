import Formulary.Decimal.Arithmetic
import Formulary.Text.DecimalDigit

/-!
Writing decimals, and reading numerals of ASCII digits with an optional point and an optional
power of ten. Digits that do not fit are rounded off, if they stand behind the point.
-/
namespace Formulary

inductive NumeralError where
  | tooManyDigits
  | tooWideAfterRounding
  | unknownCharacter
  | badExponent
  | scaleExceeded (scale : Nat)
  | tooLarge
deriving DecidableEq, Repr

def NumeralError.message : NumeralError → String
  | tooManyDigits => "Invalid decimal: overflow from too many digits"
  | tooWideAfterRounding => "Invalid decimal: overflow from mantissa after rounding"
  | unknownCharacter => "Invalid decimal: unknown character"
  | badExponent => "Failed to parse"
  | scaleExceeded scale =>
    s!"Scale exceeds the maximum precision allowed: {scale} > {Decimal.maxScale}"
  | tooLarge => "Number exceeds maximum value that can be represented."

namespace Decimal

def chars (d : Decimal) : List Char :=
  let size := d.coeff.natAbs
  (if d.isNegative then ['-'] else []) ++ Nat.toDigits 10 (size / tenTo d.scale) ++
    if d.scale = 0 then []
    else '.' :: (Nat.toDigits 10 (size % tenTo d.scale)).leftpad d.scale '0'

def text (d : Decimal) : String := String.ofList d.chars

/-- Rounds `read` half up by the first of the digits that it has no room for. A coefficient that
    the rounding makes too wide loses one more digit. -/
def roundOff (read : Decimal) (dropped : List Char) : Except NumeralError Decimal :=
  match dropped.mapM Text.asciiDigit? with
  | none => .error .unknownCharacter
  | some digits =>
    if digits.headD 0 < 5 then .ok read
    else
      match ofParts? (read.coeff + 1) read.scale with
      | some rounded => .ok rounded
      | none =>
        if read.scale = 0 then .error .tooWideAfterRounding
        else
          match ofParts? ((read.coeff + 5) / 10) (read.scale - 1) with
          | some rounded => .ok rounded
          | none => .error .tooWideAfterRounding

def readDigits (pointSeen : Bool) (read : Decimal) : List Char → Except NumeralError Decimal
  | [] => .ok read
  | c :: rest =>
    if pointSeen && read.scale == maxScale then roundOff read (c :: rest)
    else
      match Text.asciiDigit? c with
      | some digit =>
        match ofParts? (read.coeff * 10 + digit) (read.scale + if pointSeen then 1 else 0) with
        | some next => readDigits pointSeen next rest
        | none => if pointSeen then roundOff read (c :: rest) else .error .tooManyDigits
      | none =>
        if c = '.' && !pointSeen then readDigits true read rest else .error .unknownCharacter

def ofNumeral : List Char → Except NumeralError Decimal
  | '-' :: rest => (readDigits false zero rest).map neg
  | numeral => readDigits false zero numeral

def natOfDigits? (digits : List Char) : Option Nat :=
  if digits.isEmpty then none
  else digits.foldl (fun sum c => do return (← sum) * 10 + (← Text.asciiDigit? c)) (some 0)

def readExponent (digits : List Char) : Except NumeralError Nat :=
  match natOfDigits? digits with
  | some exponent => if exponent < exponentBound then .ok exponent else .error .badExponent
  | none => .error .badExponent

def rescale (d : Decimal) (scale : Nat) : Except NumeralError Decimal :=
  match ofParts? d.coeff scale with
  | some d => .ok d
  | none => .error (.scaleExceeded scale)

def shift (base : Decimal) (exponent : List Char) : Except NumeralError Decimal :=
  match exponent with
  | '-' :: digits => do
    let places ← readExponent digits
    if maxScale < places then .error (.scaleExceeded places)
    else base.rescale (base.scale + places)
  | _ => do
    let places ← readExponent (if exponent.head? = some '+' then exponent.tail else exponent)
    if places ≤ base.scale then base.rescale (base.scale - places)
    else if maxScale < places then .error (.scaleExceeded places)
    else
      match (ofParts? (tenTo places) 0).bind base.mul? with
      | some product => .ok product.normalize
      | none => .error .tooLarge

def ofScientific (numeral : List Char) : Except NumeralError Decimal := do
  let isMark (c : Char) := c == 'e' || c == 'E'
  let base ← ofNumeral (numeral.takeWhile (!isMark ·))
  match numeral.dropWhile (!isMark ·) with
  | [] => return base
  | _ :: exponent => base.shift exponent

end Decimal

end Formulary
