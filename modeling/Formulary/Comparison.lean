import Formulary.Error

/-! Comparison of values, and joining truth values. -/
namespace Formulary

def Value.order? : Value → Value → Option Ordering
  | number a, number b => some (a.order b)
  | text a, text b => some (compareOfLessAndEq a b)
  | dateTime a, dateTime b => some (a.order b)
  | _, _ => none

def Comparator.holds (sign : Comparator) (order : Ordering) : Bool :=
  match sign with
  | less => order == .lt
  | lessEqual => order != .gt
  | greater => order == .gt
  | greaterEqual => order != .lt
  | unequal => order != .eq
  | equal => order == .eq

/-- All values can be tested for equality; only values that have an order can be ordered. -/
def Comparator.compare (sign : Comparator) (left right : Value) : Outcome Bool :=
  match left.order? right with
  | some order => .ok (sign.holds order)
  | none =>
    match sign with
    | equal => .ok (left.same right)
    | unequal => .ok !(left.same right)
    | _ =>
      let shared := if left.kind = right.kind then some left.kind else none
      .error (.unsupported (.comparison sign) shared)

def Combinator.join (word : Combinator) (left right : Value) : Value :=
  match word with
  | and => if left.isTruthy then right else left
  | or => if left.isTruthy then left else right

end Formulary
