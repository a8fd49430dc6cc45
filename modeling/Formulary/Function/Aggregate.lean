import Formulary.Arithmetic

/-! Functions of any number of numbers, which may stand in lists. -/
namespace Formulary.Aggregate

def sumFrom (total : Number) : List Number → Outcome Number
  | [] => .ok total
  | n :: rest => do
    let total ← Arithmetic.addition.apply (.number total) (.number n)
    sumFrom total rest

def sum (arguments : List Value) : Outcome Value := do
  return .number (← sumFrom .zero (← Value.numbers arguments))

def average (arguments : List Value) : Outcome Value := do
  let numbers ← Value.numbers arguments
  if numbers.isEmpty then .error (.badArgument (.noNumbers "AVG"))
  else
    let total ← sum arguments
    match Number.ofInt? numbers.length with
    | some count => return .number (← Arithmetic.division.apply total (.number count))
    | none => .error (.overflow (.arithmetic .division))

/-- The first number that no other is better than. -/
def best? (better : Number → Number → Bool) : List Number → Option Number
  | [] => none
  | first :: rest => some (rest.foldl (fun best n => if better n best then n else best) first)

def extreme (name : String) (better : Number → Number → Bool) (arguments : List Value) :
    Outcome Value := do
  match best? better (← Value.numbers arguments) with
  | some n => return .number n
  | none => .error (.badArgument (.noNumbers name))

def minimum : List Value → Outcome Value := extreme "MIN" fun a b => a.order b == .lt

def maximum : List Value → Outcome Value := extreme "MAX" fun a b => a.order b == .gt

end Formulary.Aggregate
