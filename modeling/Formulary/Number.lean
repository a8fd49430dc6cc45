import Formulary.Decimal.Text

/-!
Numbers: whole numbers of 64 bits, and decimals. A whole number may be held either way, and
comparison does not tell the two apart.
-/
namespace Formulary

def InWord (i : Int) : Prop := -0x8000000000000000 ≤ i ∧ i < 0x8000000000000000

instance (i : Int) : Decidable (InWord i) := inferInstanceAs (Decidable (_ ∧ _))

inductive Number where
  | integer (value : Int) (fits : InWord value)
  | decimal (value : Decimal)
deriving DecidableEq

namespace Number

def ofInt? (i : Int) : Option Number :=
  if fits : InWord i then some (integer i fits) else none

def zero : Number := integer 0 (by decide)

def toDecimal : Number → Decimal
  | integer i fits => .ofInt i (by unfold InWord at fits; unfold Decimal.widthBound; omega)
  | decimal d => d

def narrow : Number → Number
  | integer i fits => integer i fits
  | decimal d => if d.isWhole then (ofInt? d.toInt).getD (decimal d) else decimal d

def isZero (n : Number) : Bool := n.toDecimal.isZero

def isInteger : Number → Bool
  | integer _ _ => true
  | decimal _ => false

/-- The least integer has no negative of its kind and becomes a decimal. -/
def negate : Number → Number
  | integer i fits => (ofInt? (-i)).getD (decimal (integer i fits).toDecimal.neg)
  | decimal d => decimal d.neg

def order (a b : Number) : Ordering := a.toDecimal.order b.toDecimal

def text (n : Number) : String := n.toDecimal.normalize.text

end Number

end Formulary
