import Formulary.Function.Definition

/-!
Rewriting rules: a pattern, and what becomes of the tokens that match it. A profile of the tokens
at hand rules out most patterns before they are tried.
-/
namespace Formulary

inductive Action where
  | choose
  | round
  | roundInteger
  | negateLogical
  | call
  | evaluateGroup
  | negate
  | apply
  /-- Applies an operator to an operand with a minus in front. -/
  | powerNegated
  | scaleNegated
  | percentage
  /-- Makes two comparisons of a chain of two. -/
  | expandRange
deriving DecidableEq, Repr

def Action.name : Action → String
  | choose => "If"
  | round => "Round"
  | roundInteger => "RoundInt"
  | negateLogical => "Not"
  | call => "Function"
  | evaluateGroup => "EvaluateGroup"
  | negate => "Negate"
  | apply => "Apply"
  | powerNegated => "PowNegate"
  | scaleNegated => "MulNegate"
  | percentage => "Percentage"
  | expandRange => "ExpandRange"

structure Profile where
  categories : List Category
  symbols : List Symbol
deriving DecidableEq

def distinct {α : Type} [BEq α] : List α → List α
  | [] => []
  | a :: rest => a :: (distinct rest).filter (· != a)

def Profile.ofTokens (tokens : List Token) : Profile :=
  ⟨distinct (tokens.map Token.category), distinct (tokens.filterMap Token.symbol?)⟩

structure Rule where
  name : String
  pattern : Pattern
  action : Action

namespace Rule

def categories (r : Rule) : List Category := r.pattern.flatMap Matcher.categories

def symbols (r : Rule) : List Symbol := r.pattern.flatMap Matcher.symbols

/-- Whether the rule could match among tokens with this profile: they share a category with the
    pattern, and a symbol if the pattern asks for any. -/
def appliesTo (r : Rule) (profile : Profile) : Bool :=
  r.categories.any profile.categories.contains &&
    (r.symbols.isEmpty || r.symbols.any profile.symbols.contains)

end Rule

def Definition.rule (d : Definition) : Rule := ⟨d.name.text, d.pattern, .call⟩

def callPattern (name : Name) (arguments : Pattern) : Pattern :=
  [.function name, .callOpening] ++ arguments ++ [.closing]

/-- The rules that are always there, first those that bind most tightly. -/
def coreRules : List Rule := [
  ⟨"if", callPattern (.mk "if") [.run, .comma, .run, .comma, .run], .choose⟩,
  ⟨"round", callPattern (.mk "round") [.arguments], .round⟩,
  ⟨"roundup", callPattern (.mk "roundup") [.arguments], .roundInteger⟩,
  ⟨"rounddown", callPattern (.mk "rounddown") [.arguments], .roundInteger⟩,
  ⟨"not", callPattern (.mk "not") [.run], .negateLogical⟩,
  ⟨"function", [.ofCategory .function, .callOpening, .arguments, .closing], .call⟩,
  ⟨"group", [.opening, .optionalRun, .closing], .evaluateGroup⟩,
  ⟨"start_neg", [.leadingMinus, .numeric], .negate⟩,
  ⟨"math_pow", [.numeric, .power, .numeric], .apply⟩,
  ⟨"math_neg_pow", [.numeric, .power, .minus, .numeric], .powerNegated⟩,
  ⟨"math_mod", [.numeric, .modulo, .numeric], .apply⟩,
  ⟨"math_mul", [.numeric, .multiplyDivide, .numeric], .apply⟩,
  ⟨"math_neg_mul", [.numeric, .multiplyDivide, .minus, .numeric], .scaleNegated⟩,
  ⟨"math_add", [.numeric, .addSubtract, .numeric], .apply⟩,
  ⟨"math_bit", [.numeric, .bitwise, .numeric], .apply⟩,
  ⟨"percentage", [.numeric, .modulo], .percentage⟩,
  ⟨"negation", [.minus, .numeric], .negate⟩,
  ⟨"range_asc", [.numeric, .ascending, .numeric, .ascending, .numeric], .expandRange⟩,
  ⟨"range_desc", [.numeric, .descending, .numeric, .descending, .numeric], .expandRange⟩,
  ⟨"num_comp", [.numeric, .comparator, .numeric], .apply⟩,
  ⟨"str_comp", [.text, .comparator, .text], .apply⟩,
  ⟨"time_comp", [.dateTime, .comparator, .dateTime], .apply⟩,
  ⟨"combine", [.logical, .combinator, .logical], .apply⟩]

end Formulary
