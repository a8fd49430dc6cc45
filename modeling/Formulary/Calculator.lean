import Formulary.Evaluation
import Formulary.TokenStream

/-!
Calculators: a lexicon, a rule book, a limit on steps, and a memory of named values. Names are
kept in lower case. Variables get their values before anything is evaluated.
-/
namespace Formulary

abbrev Bindings := List (String × Value)

namespace Bindings

def find? (b : Bindings) (name : String) : Option Value := b.lookup name

def bind (b : Bindings) (name : String) (value : Value) : Bindings :=
  (Text.lower name, value) :: List.filter (·.1 != Text.lower name) b

def bindAll (b : Bindings) (pairs : List (String × Value)) : Bindings :=
  pairs.foldl (fun b pair => b.bind pair.1 pair.2) b

end Bindings

def Token.resolve (lookup : String → Option Value) (t : Token) : Outcome Token :=
  match t.content with
  | .identifier name =>
    match lookup name with
    | some value => .ok ⟨.data value, t.width⟩
    | none => .error (.unboundVariable name)
  | _ => .ok t

structure Calculator where
  scanners : ScannerSet := .standard
  book : RuleBook := .core
  maxSteps : Option Nat := none
  memory : Bindings := []

namespace Calculator

def addFunction (c : Calculator) (d : Definition) : Calculator :=
  { c with book := c.book.register d }

def store (c : Calculator) (name : String) (value : Value) : Calculator :=
  { c with memory := c.memory.bind name value }

def storeAll (c : Calculator) (pairs : List (String × Value)) : Calculator :=
  { c with memory := c.memory.bindAll pairs }

def lookup? (c : Calculator) (name : String) : Option Value := c.memory.find? (Text.lower name)

def clear (c : Calculator) : Calculator := { c with memory := [] }

def isEmpty (c : Calculator) : Bool := c.memory.isEmpty

def tokenize (c : Calculator) (expression : String) : Outcome (List Token) :=
  c.scanners.tokenize expression

def evaluator (c : Calculator) : Evaluator := ⟨c.book, c.maxSteps⟩

def evaluation (c : Calculator) (expression : String) (pairs : List (String × Value)) :
    Run Value := do
  let bindings := Bindings.bindAll [] pairs
  let lookup (name : String) := (bindings.find? name).or (c.memory.find? name)
  let tokens ← Run.ofOutcome (c.tokenize expression)
  let tokens ← Run.ofOutcome (tokens.mapM (Token.resolve lookup))
  c.evaluator.evaluate tokens

def evaluateWith (c : Calculator) (expression : String) (pairs : List (String × Value)) :
    Outcome Value :=
  ((c.evaluation expression pairs).run {}).1

def evaluate (c : Calculator) (expression : String) : Outcome Value := c.evaluateWith expression []

def dependencies (c : Calculator) (expression : String) : Outcome (List String) := do
  let tokens ← c.tokenize expression
  let names := tokens.filterMap fun t =>
    match t.content with
    | .identifier name => some name
    | _ => none
  return (distinct names).filter fun name => (c.lookup? name).isNone

end Calculator

end Formulary
