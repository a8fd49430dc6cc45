/-!
The options of the command line. Options and the expression may come in any order; behind `--`
all is expression. Short options may stand together, the last of them with its value.
-/
namespace Formulary.CommandLine

structure Options where
  expression : Option String := none
  bindings : List String := []
  maxSteps : Option Nat := none
  tokens : Bool := false
  verbose : Bool := false

inductive UsageError where
  | unknownOption (argument : String)
  | missingValue
  | unexpectedValue (option : String)
  | invalidNumber (text : String)
  | repeated (option : String)
  | secondExpression (argument : String)
deriving DecidableEq, Repr

inductive ValuedOption where
  | binding
  | maxSteps
deriving DecidableEq, Repr

namespace Options

abbrev stepBound : Nat := 0x10000000000000000

def readNumber? (text : String) : Option Nat :=
  let digits := match text.toList with
    | '+' :: rest => rest
    | all => all
  if digits.isEmpty || !digits.all Char.isDigit then none
  else
    let n := digits.foldl (fun sum c => sum * 10 + (c.toNat - 48)) 0
    if n < stepBound then some n else none

def setExpression (o : Options) (argument : String) : Except UsageError Options :=
  if o.expression.isSome then .error (.secondExpression argument)
  else .ok { o with expression := some argument }

def setTokens (o : Options) : Except UsageError Options :=
  if o.tokens then .error (.repeated "tokens") else .ok { o with tokens := true }

def setVerbose (o : Options) : Except UsageError Options :=
  if o.verbose then .error (.repeated "verbose") else .ok { o with verbose := true }

def setValue (o : Options) (option : ValuedOption) (value : String) : Except UsageError Options :=
  match option with
  | .binding => .ok { o with bindings := o.bindings ++ [value] }
  | .maxSteps =>
    if o.maxSteps.isSome then .error (.repeated "max-steps")
    else
      match readNumber? value with
      | some n => .ok { o with maxSteps := some n }
      | none => .error (.invalidNumber value)

end Options

structure Reading where
  options : Options := {}
  awaited : Option ValuedOption := none
  /-- `--` has been read. -/
  optionsEnded : Bool := false

namespace Reading

def readShort (r : Reading) : List Char → Except UsageError Reading
  | [] => .ok r
  | 't' :: letters => do readShort { r with options := ← r.options.setTokens } letters
  | ['v'] => .ok { r with awaited := some .binding }
  | 'v' :: '=' :: value => do
    return { r with options := ← r.options.setValue .binding (String.ofList value) }
  | 'v' :: value => do
    return { r with options := ← r.options.setValue .binding (String.ofList value) }
  | letter :: _ => .error (.unknownOption (String.singleton letter))

def readLong (r : Reading) (name : String) (value : Option String) : Except UsageError Reading :=
  let valued (option : ValuedOption) : Except UsageError Reading :=
    match value with
    | some value => do return { r with options := ← r.options.setValue option value }
    | none => .ok { r with awaited := some option }
  let plain (set : Options → Except UsageError Options) : Except UsageError Reading :=
    if value.isSome then .error (.unexpectedValue name)
    else do return { r with options := ← set r.options }
  if name = "var" then valued .binding
  else if name = "max-steps" then valued .maxSteps
  else if name = "tokens" then plain Options.setTokens
  else if name = "verbose" then plain Options.setVerbose
  else .error (.unknownOption name)

def next (r : Reading) (argument : String) : Except UsageError Reading := do
  let expression := return { r with options := ← r.options.setExpression argument }
  if r.optionsEnded then expression
  else
    match r.awaited, argument.toList with
    | some _, '-' :: _ :: _ => .error .missingValue
    | some option, _ =>
      return { r with options := ← r.options.setValue option argument, awaited := none }
    | none, ['-', '-'] => return { r with optionsEnded := true }
    | none, '-' :: '-' :: long =>
      let name := long.takeWhile (· != '=')
      let value := match long.dropWhile (· != '=') with
        | [] => none
        | _ :: value => some (String.ofList value)
      r.readLong (String.ofList name) value
    | none, '-' :: letter :: letters => r.readShort (letter :: letters)
    | none, _ => expression

end Reading

def Options.ofArguments (arguments : List String) : Except UsageError Options := do
  let reading ← arguments.foldlM Reading.next {}
  if reading.awaited.isSome then .error .missingValue else return reading.options

end Formulary.CommandLine
