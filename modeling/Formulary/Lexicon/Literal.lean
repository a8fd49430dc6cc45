import Formulary.Lexicon.Word

/-! Numbers and quoted texts. -/
namespace Formulary.Lexicon

def digitsLength (text : List Char) : Nat := (text.takeWhile Text.isDecimalDigit).length

def fractionLength : List Char → Nat
  | '.' :: rest => if digitsLength rest = 0 then 0 else digitsLength rest + 1
  | _ => 0

def exponentLength : List Char → Nat
  | mark :: rest =>
    let sign := if rest.head? = some '+' ∨ rest.head? = some '-' then 1 else 0
    let digits := digitsLength (rest.drop sign)
    if isFormOf 'e' mark ∧ digits ≠ 0 then 1 + sign + digits else 0
  | [] => 0

/-- The length of the longest numeral that ends a word: with fraction and exponent, else without
    the exponent, else without the fraction. -/
def numeralLength? (text : List Char) : Option Nat :=
  let whole := digitsLength text
  let fraction := fractionLength (text.drop whole)
  if whole + fraction = 0 then none
  else
    let exponent := exponentLength (text.drop (whole + fraction))
    let lengths := [whole + fraction + exponent, whole + fraction] ++
      if whole = 0 then [] else [whole]
    lengths.find? fun length => Text.wordEndsBefore (text.drop length)

def numeralValue (numeral : List Char) : Outcome Number :=
  let padded := if numeral.head? = some '.' then '0' :: numeral else numeral
  let decimal :=
    match Decimal.ofScientific padded with
    | .ok d => .ok (.decimal d)
    | .error cause => .error (.lexical (.invalidNumeral (String.ofList numeral) cause))
  match (Decimal.natOfDigits? padded).bind fun n => Number.ofInt? n with
  | some n => .ok n
  | none => decimal

def numeric : Scanner where
  name := "numeric"
  category := .numeric
  recognize := numeralLength?
  convert lexeme := do return tokenOf (.data (.number (← numeralValue lexeme))) lexeme

def quotedLength? (quote : Char) : List Char → Option Nat
  | [] => none
  | c :: rest =>
    let inner := (rest.takeWhile (· != quote)).length
    if c = quote ∧ inner < rest.length then some (inner + 2) else none

def quotedScanner (name : String) (quote : Char) : Scanner where
  name := name
  category := .text
  recognize := quotedLength? quote
  convert lexeme := .ok (tokenOf (.data (.text (String.ofList lexeme.tail.dropLast))) lexeme)

def doubleQuoted : Scanner := quotedScanner "double_quoted_string" '"'

def singleQuoted : Scanner := quotedScanner "single_quoted_string" '\''

end Formulary.Lexicon
