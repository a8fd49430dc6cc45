import Formulary.Arithmetic
import Formulary.Comparison
import Formulary.Token

/-!
Operations with their operands. An operand is a value, or a variable whose value is looked up
when the operation is carried out. Values of the wrong kind are refused before that.
-/
namespace Formulary

inductive Operand where
  | known (value : Value)
  | named (name : String)

namespace Operand

def ofToken? (t : Token) : Option Operand :=
  match t.content with
  | .data value => some (.known value)
  | .identifier name => some (.named name)
  | _ => none

def resolve (lookup : String → Option Value) : Operand → Outcome Value
  | known v => .ok v
  | named name =>
    match lookup name with
    | some v => .ok v
    | none => .error (.unboundVariable name)

def check (operation : Operation) (expected : Kind) (category : Category) (side : Side) :
    Operand → Outcome Unit
  | known v =>
    if v.category = category then .ok ()
    else .error (.operandKind operation expected v.kind side)
  | named _ => .ok ()

end Operand

inductive Node where
  | arithmetic (op : Arithmetic) (left right : Operand)
  | percent (operand : Operand)
  | combination (word : Combinator) (left right : Operand)

namespace Node

def ofArithmetic (op : Arithmetic) (left right : Operand) : Outcome Node := do
  left.check (.arithmetic op) .numeric .numeric .left
  right.check (.arithmetic op) .numeric .numeric .right
  return arithmetic op left right

def ofPercent (operand : Operand) : Outcome Node := do
  operand.check (.arithmetic .modulo) .numeric .numeric .right
  return percent operand

def ofCombination (word : Combinator) (left right : Operand) : Outcome Node := do
  left.check (.combination word) .logical .logical .left
  right.check (.combination word) .logical .logical .right
  return combination word left right

/-- The result. The right operand of an arithmetic operation is looked up first; a combination
    looks up both, even when one decides. -/
def value (lookup : String → Option Value) : Node → Outcome Value
  | arithmetic op left right => do
    let r ← right.resolve lookup
    let l ← left.resolve lookup
    return .number (← op.apply l r)
  | percent operand => do
    return .number (← (← operand.resolve lookup).percent)
  | combination word left right => do
    let l ← left.resolve lookup
    let r ← right.resolve lookup
    return word.join l r

end Node

end Formulary
