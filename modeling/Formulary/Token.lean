import Formulary.Symbol
import Formulary.Value

/-! Tokens: what text is cut into, and what rules rewrite. -/
namespace Formulary

inductive Category where
  | numeric
  | text
  | logical
  | dateTime
  | identifier
  | operator
  | comparator
  | combinator
  | grouping
  | function
  | case
  | blank
  | null
deriving DecidableEq, Repr

def Category.name : Category → String
  | numeric => "Numeric"
  | text => "String"
  | logical => "Logical"
  | dateTime => "DateTime"
  | identifier => "Identifier"
  | operator => "Operator"
  | comparator => "Comparator"
  | combinator => "Combinator"
  | grouping => "Grouping"
  | function => "Function"
  | case => "Case"
  | blank => "Whitespace"
  | null => "Null"

def Symbol.category : Symbol → Category
  | operator _ => .operator
  | comparator _ => .comparator
  | combinator _ => .combinator
  | grouping _ => .grouping
  | function _ => .function
  | caseWord _ => .case

/-- Lists travel with the numbers, so that arithmetic meets them and refuses them. -/
def Value.category : Value → Category
  | number _ => .numeric
  | text _ => .text
  | logical _ => .logical
  | dateTime _ => .dateTime
  | list _ => .numeric
  | null => .null

inductive Content where
  | data (value : Value)
  /-- The name of a variable, in lower case. -/
  | identifier (name : String)
  | symbol (symbol : Symbol)
  | blank

def Content.same : Content → Content → Bool
  | data a, data b => a.same b
  | identifier a, identifier b => a == b
  | symbol a, symbol b => a == b
  | blank, blank => true
  | _, _ => false

/-- What a token is, and how many bytes of text it was read from: none if it was computed. -/
structure Token where
  content : Content
  width : Nat := 0

namespace Token

def data (value : Value) : Token := ⟨.data value, 0⟩

def identifier (name : String) : Token := ⟨.identifier (Text.lower name), 0⟩

def symbol (symbol : Symbol) : Token := ⟨.symbol symbol, 0⟩

def operator (op : Operator) : Token := symbol (.operator op)

def comparator (sign : Comparator) : Token := symbol (.comparator sign)

def combinator (word : Combinator) : Token := symbol (.combinator word)

def grouping (mark : Grouping) : Token := symbol (.grouping mark)

def function (name : String) : Token := symbol (.function (.ofText name))

def same (a b : Token) : Bool := a.content.same b.content

def category (t : Token) : Category :=
  match t.content with
  | .data value => value.category
  | .identifier _ => .identifier
  | .symbol symbol => symbol.category
  | .blank => .blank

def symbol? (t : Token) : Option Symbol :=
  match t.content with
  | .symbol symbol => some symbol
  | _ => none

def data? (t : Token) : Option Value :=
  match t.content with
  | .data value => some value
  | _ => none

def number? (t : Token) : Option Number := t.data?.bind Value.number?

def isGrouping (mark : Grouping) (t : Token) : Bool := t.symbol? == some (.grouping mark)

def isOpening (t : Token) : Bool := t.isGrouping .opening || t.isGrouping .callOpening

def isClosing (t : Token) : Bool := t.isGrouping .closing

def isComma (t : Token) : Bool := t.isGrouping .comma

/-- Texts are written in double quotes, whatever they contain. -/
def display (t : Token) : String :=
  match t.content with
  | .data (.text s) => "\"" ++ s ++ "\""
  | .data value => value.display
  | .identifier name => name
  | .symbol symbol => symbol.text
  | .blank => " "

end Token

def render (tokens : List Token) : String := " ".intercalate (tokens.map Token.display)

end Formulary
