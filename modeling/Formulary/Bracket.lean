import Formulary.Token

/-! Depth of brackets. A bracket that closes what was not opened has no depth behind it. -/
namespace Formulary

def depthAfter? (depth : Nat) (t : Token) : Option Nat :=
  if t.isOpening then some (depth + 1)
  else if t.isClosing then
    match depth with
    | 0 => none
    | depth + 1 => some depth
  else some depth

def endDepth? (depth : Nat) : List Token → Option Nat
  | [] => some depth
  | t :: rest => (depthAfter? depth t).bind fun depth => endDepth? depth rest

theorem endDepth?_append (depth : Nat) (left right : List Token) :
    endDepth? depth (left ++ right) = (endDepth? depth left).bind (endDepth? · right) := by
  induction left generalizing depth with
  | nil => rfl
  | cons t left ih =>
    simp only [List.cons_append, endDepth?, Option.bind_assoc]
    congr 1
    funext depth
    exact ih depth

end Formulary
