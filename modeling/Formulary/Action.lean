import Formulary.Node
import Formulary.RuleBook

/-!
What becomes of matched tokens. An action either knows at once what replaces them, or asks for
the values of spans among them.
-/
namespace Formulary

def Token.toValue (t : Token) : Outcome Value :=
  match t.content with
  | .data value => .ok value
  | .identifier name => .error (.unboundVariable name)
  | _ => .error (.unreducible t.display)

def Token.toOperand (t : Token) : Outcome Operand :=
  match Operand.ofToken? t with
  | some operand => .ok operand
  | none => .error (.unreducible t.display)

def interior (lead : Nat) (matched : List Token) : List Token := (matched.drop lead).dropLast

def noVariables : String → Option Value := fun _ => none

def applyTokens (left op right : Token) : Outcome Value := do
  let l ← left.toOperand
  let r ← right.toOperand
  match op.symbol? with
  | some (.operator o) =>
    match Arithmetic.ofOperator? o with
    | some arithmetic => (← Node.ofArithmetic arithmetic l r).value noVariables
    | none => o.bitwise (← l.resolve noVariables) (← r.resolve noVariables)
  | some (.comparator sign) => do
    return .logical (← sign.compare (← l.resolve noVariables) (← r.resolve noVariables))
  | some (.combinator word) => (← Node.ofCombination word l r).value noVariables
  | _ => .error (.unreducible (render [left, op, right]))

def negateToken (t : Token) : Outcome Value := do
  (← (← t.toOperand).resolve noVariables).negate

def percentOfToken (t : Token) : Outcome Value := do
  (← Node.ofPercent (← t.toOperand)).value noVariables

inductive Request where
  | choose (condition consequent alternative : List Token)
  | call (name : Name) (arguments : List (List Token))
  | invert (span : List Token)
  | evaluate (span : List Token)

def Request.spans : Request → List (List Token)
  | choose condition consequent alternative => [condition, consequent, alternative]
  | call _ arguments => arguments
  | invert span => [span]
  | evaluate span => [span]

inductive Plan where
  | value (outcome : Outcome Value)
  | tokens (replacement : List Token)
  | request (request : Request)

def Plan.mismatch (matched : List Token) : Plan := value (.error (.unreducible (render matched)))

def Action.plan (action : Action) (matched : List Token) : Plan :=
  match action with
  | choose =>
    match splitArguments (interior 2 matched) with
    | [condition, consequent, alternative] =>
      .request (.choose condition consequent alternative)
    | arguments => .value (.error (.argumentCount "IF" (.exactly 3) arguments.length))
  | round | roundInteger | call =>
    match matched.head?.bind Token.symbol? with
    | some (.function name) => .request (.call name (splitArguments (interior 2 matched)))
    | _ => .mismatch matched
  | negateLogical => .request (.invert (interior 2 matched))
  | evaluateGroup => .request (.evaluate (interior 1 matched))
  | negate =>
    match matched.getLast? with
    | some t => .value (negateToken t)
    | none => .mismatch matched
  | apply =>
    match matched with
    | [left, op, right] => .value (applyTokens left op right)
    | _ => .mismatch matched
  | powerNegated | scaleNegated =>
    match matched with
    | [left, op, _, right] => .value do applyTokens left op (.data (← negateToken right))
    | _ => .mismatch matched
  | percentage =>
    match matched with
    | t :: _ => .value (percentOfToken t)
    | [] => .mismatch matched
  | expandRange =>
    match matched with
    | [a, first, b, second, c] => .tokens [a, first, b, .combinator .and, b, second, c]
    | _ => .mismatch matched

/-- The result of a call. The names of the core constructs are not registered, but known. -/
def RuleBook.call (book : RuleBook) (name : Name) (arguments : List Value) : Outcome Value :=
  match book.function? name.text with
  | some d => d.call arguments
  | none =>
    if name.text = "if" then .error (.argumentCount "IF" (.exactly 3) arguments.length)
    else if name.text = "not" then .error (.argumentCount "NOT" (.exactly 1) arguments.length)
    else .error (.unknownFunction (Text.upper name.text))

end Formulary
