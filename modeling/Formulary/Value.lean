import Formulary.DateTime
import Formulary.Number

/-! Values of expressions, and of the variables in them. -/
namespace Formulary

inductive Value where
  | number (n : Number)
  | text (s : String)
  | logical (b : Bool)
  | dateTime (t : DateTime)
  /-- No expression builds a list; variables may hold one. -/
  | list (items : List Value)
  | null

inductive Kind where
  | numeric
  | text
  | logical
  | dateTime
  | list
  | null
deriving DecidableEq, Repr

def Kind.name : Kind → String
  | numeric => "numeric"
  | text => "string"
  | logical => "logical"
  | dateTime => "datetime"
  | list => "list"
  | null => "null"

namespace Value

def integer (i : Int) (fits : InWord i := by decide) : Value := number (.integer i fits)

def decimal (d : Decimal) : Value := number (.decimal d)

def kind : Value → Kind
  | number _ => .numeric
  | text _ => .text
  | logical _ => .logical
  | dateTime _ => .dateTime
  | list _ => .list
  | null => .null

/-- All but `false` and null counts as true, zero and the empty text included. -/
def isTruthy : Value → Bool
  | logical b => b
  | null => false
  | _ => true

def number? : Value → Option Number
  | number n => some n
  | _ => none

def logical? : Value → Option Bool
  | logical b => some b
  | _ => none

mutual

def display : Value → String
  | number n => n.text
  | text s => s
  | logical b => if b then "true" else "false"
  | dateTime t => t.text
  | list items => "[" ++ displayItems items ++ "]"
  | null => "null"

def displayItems : List Value → String
  | [] => ""
  | [item] => display item
  | item :: next :: rest => display item ++ ", " ++ displayItems (next :: rest)

end

mutual

/-- Equal in meaning: numbers by their size, points in time by their instant. -/
def same : Value → Value → Bool
  | number a, number b => a.order b == .eq
  | text a, text b => a == b
  | logical a, logical b => a == b
  | dateTime a, dateTime b => a.order b == .eq
  | list a, list b => sameItems a b
  | null, null => true
  | _, _ => false

def sameItems : List Value → List Value → Bool
  | [], [] => true
  | a :: as, b :: bs => same a b && sameItems as bs
  | _, _ => false

end

end Value

end Formulary
