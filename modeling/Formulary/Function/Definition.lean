import Formulary.Error
import Formulary.Pattern

/-! Functions that expressions can call. -/
namespace Formulary

inductive Signature where
  /-- No most means any number. -/
  | between (least : Nat) (most : Option Nat)
  /-- One argument for each name. -/
  | parameters (names : List String)
deriving DecidableEq

def Signature.refusal? (signature : Signature) (count : Nat) : Option ArgumentBound :=
  match signature with
  | between least most =>
    if count < least then some (.atLeast least)
    else
      match most with
      | some most => if most < count then some (.atMost most) else none
      | none => none
  | parameters names => if names.length = count then none else some (.exactly names.length)

structure Definition where
  name : Name
  signature : Signature
  body : List Value → Outcome Value

namespace Definition

def variadic (name : String) (least : Nat) (most : Option Nat) (body : List Value → Outcome Value) :
    Definition :=
  ⟨.ofText name, .between least most, body⟩

def withParameters (name : String) (parameters : List String) (body : List Value → Outcome Value) :
    Definition :=
  ⟨.ofText name, .parameters parameters, body⟩

def checkCount (d : Definition) (count : Nat) : Outcome Unit :=
  match d.signature.refusal? count with
  | some expected => .error (.argumentCount (Text.upper d.name.text) expected count)
  | none => .ok ()

def call (d : Definition) (arguments : List Value) : Outcome Value := do
  d.checkCount arguments.length
  d.body arguments

/-- What stands between the brackets of a call. A call with the wrong number of arguments only
    matches if the signature is variadic. -/
def argumentPattern (signature : Signature) : Pattern :=
  match signature with
  | .between _ _ => [.arguments]
  | .parameters names => (names.map fun _ => Matcher.run).intersperse .comma

def pattern (d : Definition) : Pattern :=
  [.function d.name, .callOpening] ++ argumentPattern d.signature ++ [.closing]

end Definition

end Formulary
