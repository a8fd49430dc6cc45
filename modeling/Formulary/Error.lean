import Formulary.Operation
import Formulary.Value

/-! What can go wrong with an expression, and how it is said. -/
namespace Formulary

inductive LexicalError where
  /-- No scanner reads a token at the start of `rest`. -/
  | unmatched (rest : String)
  /-- The scanner read a token of no characters. -/
  | zeroWidth (scanner rest : String)
  | tooManyClosing
  | tooManyOpening
  | invalidNumeral (numeral : String) (cause : NumeralError)
  | invalidDateTime (literal : String)
  | unknownLexeme (kind lexeme : String)
  | other (message : String)
deriving DecidableEq, Repr

def LexicalError.message : LexicalError → String
  | unmatched rest => s!"parse error at: '{rest}'"
  | zeroWidth scanner rest => s!"unexpected zero-width match ({scanner}) at '{rest}'"
  | tooManyClosing => "too many closing parentheses"
  | tooManyOpening => "too many opening parentheses"
  | invalidNumeral numeral cause => s!"invalid numeric literal '{numeral}': {cause.message}"
  | invalidDateTime literal => s!"invalid date-time literal '{literal}'"
  | unknownLexeme kind lexeme => s!"unknown {kind} '{lexeme}'"
  | other message => message

inductive ArgumentBound where
  | exactly (count : Nat)
  | atLeast (count : Nat)
  | atMost (count : Nat)
deriving DecidableEq, Repr

def ArgumentBound.text : ArgumentBound → String
  | exactly count => toString count
  | atLeast count => s!"at least {count}"
  | atMost count => s!"at most {count}"

inductive ArgumentError where
  | notNumeric (kind : Kind)
  | noNumbers (function : String)
  | fractionalPlaces (places : Decimal)
  | other (message : String)
deriving DecidableEq

def ArgumentError.message : ArgumentError → String
  | notNumeric kind => s!"expected a numeric value, got {kind.name}"
  | noNumbers function => s!"{function} of an empty list"
  | fractionalPlaces places => s!"precision must be a whole number, got {places.text}"
  | other message => message

inductive FormulaError where
  | lexical (cause : LexicalError)
  /-- An operand of a known kind that the operation cannot have on that side. -/
  | operandKind (operation : Operation) (expected actual : Kind) (side : Side)
  /-- A text, or a number of digits, that is not the number asked for. -/
  | notNumeric (value : String)
  /-- None stands for two operands of different kinds. -/
  | unsupported (operation : Operation) (actual : Option Kind)
  | divisionByZero
  | overflow (operation : Operation)
  | underflow (operation : Operation)
  /-- A negative base with an exponent that is not whole. -/
  | undefinedPower (base exponent : Number)
  | argumentCount (function : String) (expected : ArgumentBound) (actual : Nat)
  | badArgument (cause : ArgumentError)
  | unknownFunction (function : String)
  | unreducible (rendered : String)
  | unboundVariable (name : String)
  | stepLimit (limit : Nat)
deriving DecidableEq

namespace FormulaError

def message : FormulaError → String
  | lexical cause => s!"Tokenize error: {cause.message}"
  | operandKind operation expected actual side =>
    s!"Type error: {operation.name} requires {expected.name} {side.name} operand, got {actual.name}"
  | notNumeric value => s!"Invalid value: '{value}' is not coercible to numeric"
  | unsupported operation actual =>
    let operand := (actual.map Kind.name).getD "mixed operands"
    s!"Invalid operator: {operation.name} does not support '{operation.sign}' on {operand}"
  | divisionByZero => "Division by zero"
  | overflow operation => s!"Numeric overflow in {operation.name}"
  | underflow operation =>
    s!"Numeric underflow in {operation.name}: result is below the smallest representable decimal"
  | undefinedPower base exponent =>
    s!"Domain error: Exponentiation is undefined for negative base {base.text} with " ++
      s!"fractional exponent {exponent.text}"
  | argumentCount function expected actual =>
    s!"Wrong number of arguments for {function}: expected {expected.text}, given {actual}"
  | badArgument cause => s!"Invalid argument: {cause.message}"
  | unknownFunction function => s!"Unknown function: {function}"
  | unreducible rendered => s!"Unreducible expression: no rule matches {rendered}"
  | unboundVariable name => s!"Unbound variable: {name}"
  | stepLimit limit => s!"Step limit of {limit} reductions exceeded"

end FormulaError

abbrev Outcome (α : Type) := Except FormulaError α

end Formulary
