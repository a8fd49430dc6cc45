import Formulary.Arithmetic

/-! Functions that round a number to a number of places, none if not given. -/
namespace Formulary

/-- A number is rounded on the left of the point by dividing and multiplying again. -/
def Decimal.roundLeft? (mode : Rounding) (places : Nat) (d : Decimal) : Option Decimal := do
  let step ← Decimal.ten.powNat? places
  let shifted ← d.div? step
  (shifted.roundTo mode 0).mul? step

/-- `places` after the point, before it if negative. Without places after the point the result is
    an integer if it fits. -/
def Number.round (mode : Rounding) (places : Int) (n : Number) : Outcome Number :=
  if 0 < places then
    .ok (.decimal (n.toDecimal.roundTo mode (min places.toNat Decimal.maxScale)))
  else
    let rounded :=
      if places = 0 then some (n.toDecimal.roundTo mode 0)
      else n.toDecimal.roundLeft? mode places.natAbs
    match rounded with
    | some d => .ok ((Number.ofInt? d.toInt).getD (.decimal d))
    | none => .error (.overflow .rounding)

namespace RoundingFunction

def places (value : Value) : Outcome Int := do
  match (← value.toNumber).narrow with
  | .integer places _ => return places
  | .decimal d => .error (.badArgument (.fractionalPlaces d))

def optionalPlaces : Option Value → Outcome Int
  | none | some .null => .ok 0
  | some value => places value

/-- Arguments behind the second are not looked at. -/
def roundWith (mode : Rounding) (arguments : List Value) : Outcome Value :=
  match arguments with
  | [] => .error (.argumentCount "ROUND" (.atLeast 1) 0)
  | value :: rest => do
    let n ← value.toNumber
    let places ← optionalPlaces rest.head?
    return .number (← n.round mode places)

end RoundingFunction

end Formulary
