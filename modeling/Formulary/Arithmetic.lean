import Formulary.Coercion
import Formulary.Decimal.Power
import Formulary.Decimal.Remainder

/-!
Arithmetic on values. Whole numbers are computed as such as long as operands and result fit into
64 bits, all else as decimals.
-/
namespace Formulary

namespace Number

/-- The power of an integer. From exponent 64 on only the parity of the exponent matters: a base
    farther from zero than one has outgrown 64 bits. -/
def integerPower? (base : Int) (exponent : Nat) : Option Number :=
  ofInt? (base.pow (if exponent < 64 then exponent else 64 + exponent % 2))

def wholePower? : Number → Number → Option Number
  | integer base _, integer exponent _ =>
    if 0 ≤ exponent ∧ exponent < Decimal.exponentBound then integerPower? base exponent.toNat
    else none
  | _, _ => none

/-- A power that cannot be held is too small when it tends to zero: for a large base with a
    negative exponent, and for a small base with any other. -/
def decimalPower (base exponent : Number) : Outcome Number :=
  let operation := Operation.arithmetic .exponentiation
  let b := base.toDecimal
  let e := exponent.toDecimal
  if b.isZero && e.isNegative then .error .divisionByZero
  else if b.isNegative && !e.isWhole then .error (.undefinedPower base exponent)
  else
    let result := match exponent with
      | integer e _ => b.pow? e
      | decimal e => b.realPow? e
    match result with
    | some d => .ok (decimal d)
    | none =>
      if decide (tenTo b.scale < b.coeff.natAbs) == e.isNegative then .error (.underflow operation)
      else .error (.overflow operation)

def power (base exponent : Number) : Outcome Number :=
  match wholePower? base exponent with
  | some n => .ok n
  | none => decimalPower base exponent

end Number

def Decimal.mod? (a b : Decimal) : Option Decimal := do
  let rest ← a.rem? b
  if !rest.isZero && rest.isNegative != b.isNegative then rest.add? b else some rest

namespace Arithmetic

/-- The result on integers if it is one. A remainder is left to the decimals when its quotient
    does not fit. -/
def onIntegers? (op : Arithmetic) (a b : Int) : Option Number :=
  match op with
  | addition => Number.ofInt? (a + b)
  | subtraction => Number.ofInt? (a - b)
  | multiplication => Number.ofInt? (a * b)
  | modulo => if InWord (a.tdiv b) then Number.ofInt? (a.fmod b) else none
  | division | exponentiation => none

def onDecimals? (op : Arithmetic) (a b : Decimal) : Option Decimal :=
  match op with
  | addition => a.add? b
  | subtraction => a.sub? b
  | multiplication => a.mul? b
  | division => a.div? b
  | modulo => a.mod? b
  | exponentiation => none

def onIntegerNumbers? (op : Arithmetic) : Number → Number → Option Number
  | .integer a _, .integer b _ => op.onIntegers? a b
  | _, _ => none

def compute (op : Arithmetic) (l r : Number) : Outcome Number :=
  match op with
  | exponentiation => l.power r
  | _ =>
    if op = modulo ∧ r.isZero then .error .divisionByZero
    else
      match op.onIntegerNumbers? l r with
      | some n => .ok n
      | none =>
        match op.onDecimals? l.toDecimal r.toDecimal with
        | some d => .ok (.decimal d)
        | none => .error (.overflow (.arithmetic op))

/-- A quotient is an integer whenever it is whole and fits. The divisor is looked at before the
    dividend. -/
def divide (left right : Value) : Outcome Number := do
  let operation := Operation.arithmetic division
  let divisor ← right.coerce operation false
  if divisor.isZero then .error .divisionByZero
  else
    let dividend ← left.coerce operation true
    match dividend.toDecimal.div? divisor.toDecimal with
    | some d => .ok (Number.decimal d).narrow
    | none => .error (.overflow operation)

def apply (op : Arithmetic) (left right : Value) : Outcome Number :=
  match op with
  | division => divide left right
  | _ => do
    let l ← left.coerce (.arithmetic op) true
    let r ← right.coerce (.arithmetic op) true
    op.compute l r

end Arithmetic

namespace Value

def percent (value : Value) : Outcome Number := do
  let operation := Operation.arithmetic .modulo
  let n ← value.coerce operation true
  match n.toDecimal.mul? .hundredth with
  | some d => .ok (.decimal d)
  | none => .error (.overflow operation)

def negate : Value → Outcome Value
  | number n => .ok (number n.negate)
  | other => .error (.unsupported .negation (some other.kind))

def bits (op : Operator) (value : Value) : Outcome (BitVec 64) := do
  match ← value.coerce (.bitwise op) true with
  | .integer i _ => return .ofInt 64 i
  | .decimal d => .error (.notNumeric d.text)

end Value

def Number.ofBits (bits : BitVec 64) : Number :=
  .integer bits.toInt ⟨by have := bits.le_toInt; omega, by have := bits.toInt_lt; omega⟩

def Operator.bitwise (op : Operator) (left right : Value) : Outcome Value := do
  match op with
  | bitOr =>
    let l ← left.bits op
    let r ← right.bits op
    return .number (.ofBits (l ||| r))
  | bitAnd =>
    let l ← left.bits op
    let r ← right.bits op
    return .number (.ofBits (l &&& r))
  | _ => .error (.unsupported (.bitwise op) (some left.kind))

end Formulary
