import Formulary.Symbol

/-! The operations on values, as messages name them. -/
namespace Formulary

inductive Arithmetic where
  | addition
  | subtraction
  | multiplication
  | division
  | modulo
  | exponentiation
deriving DecidableEq, Repr

namespace Arithmetic

def name : Arithmetic → String
  | addition => "Addition"
  | subtraction => "Subtraction"
  | multiplication => "Multiplication"
  | division => "Division"
  | modulo => "Modulo"
  | exponentiation => "Exponentiation"

def operator : Arithmetic → Operator
  | addition => .add
  | subtraction => .subtract
  | multiplication => .multiply
  | division => .divide
  | modulo => .modulo
  | exponentiation => .power

def ofOperator? : Operator → Option Arithmetic
  | .add => some addition
  | .subtract => some subtraction
  | .multiply => some multiplication
  | .divide => some division
  | .modulo => some modulo
  | .power => some exponentiation
  | .bitOr | .bitAnd | .negate => none

def precedence : Arithmetic → Nat
  | addition | subtraction => 10
  | multiplication | division | modulo => 20
  | exponentiation => 30

end Arithmetic

inductive Operation where
  | arithmetic (op : Arithmetic)
  | bitwise (op : Operator)
  | negation
  | comparison (sign : Comparator)
  | combination (word : Combinator)
  | rounding
deriving DecidableEq, Repr

def Operation.name : Operation → String
  | arithmetic op => op.name
  | bitwise .bitOr => "BitwiseOr"
  | bitwise .bitAnd => "BitwiseAnd"
  | bitwise _ => "Bitwise"
  | negation => "Negation"
  | comparison _ => "Comparison"
  | combination .and => "And"
  | combination .or => "Or"
  | rounding => "Rounding"

def Operation.sign : Operation → String
  | arithmetic op => op.operator.text
  | bitwise op => op.text
  | negation => Operator.negate.text
  | comparison sign => sign.text
  | combination word => word.text
  | rounding => ""

inductive Side where
  | left
  | right
deriving DecidableEq, Repr

def Side.name : Side → String
  | left => "left"
  | right => "right"

end Formulary
