import Formulary.Calculator
import Formulary.CommandLine.Options

/-!
What the program prints. With an expression it answers it; without one it answers each line of its
input, and a line that fails does not stop it.
-/
namespace Formulary.CommandLine

structure Printed where
  code : Nat
  output : String := ""
  errors : String := ""

inductive Failure where
  | bindingWithoutValue (binding : String)
  | bindingWithoutName (binding : String)
  | evaluation (expression : String) (cause : FormulaError)
  | tokenization (expression : String) (cause : FormulaError)

namespace Failure

def context : Failure → String
  | bindingWithoutValue binding => s!"Invalid binding '{binding}': expected NAME=VALUE"
  | bindingWithoutName binding => s!"Invalid binding '{binding}': empty name"
  | evaluation expression _ => s!"Failed to evaluate '{expression}'"
  | tokenization expression _ => s!"Failed to tokenize '{expression}'"

def cause? : Failure → Option FormulaError
  | evaluation _ cause => some cause
  | tokenization _ cause => some cause
  | _ => none

def indent (text : String) : String :=
  "\n".intercalate ((text.splitOn "\n").map ("    " ++ ·))

def report (f : Failure) : String :=
  "Error: " ++ f.context ++ "\n" ++
    match f.cause? with
    | some cause => "\nCaused by:\n" ++ indent cause.message ++ "\n"
    | none => ""

def lineReport (f : Failure) : String :=
  "error: " ++ f.context ++ ((f.cause?.map fun cause => ": " ++ cause.message).getD "") ++ "\n"

end Failure

def tokenLine (t : Token) : String := t.category.name ++ "\t" ++ t.display ++ "\n"

def answer (c : Calculator) (tokens : Bool) (expression : String) : Except Failure String :=
  if tokens then
    match c.tokenize expression with
    | .ok tokens => .ok (String.join (tokens.map tokenLine))
    | .error e => .error (.tokenization expression e)
  else
    match c.evaluate expression with
    | .ok value => .ok (value.display ++ "\n")
    | .error e => .error (.evaluation expression e)

def trimmed (text : List Char) : String := String.ofList (Text.trim text)

def bind (c : Calculator) (binding : String) : Except Failure Calculator :=
  let text := binding.toList
  match text.dropWhile (· != '=') with
  | [] => .error (.bindingWithoutValue binding)
  | _ :: value =>
    let name := trimmed (text.takeWhile (· != '='))
    if name.isEmpty then .error (.bindingWithoutName binding)
    else
      match c.evaluate (String.ofList value) with
      | .ok v => .ok (c.store name v)
      | .error _ => .ok (c.store name (.text (trimmed value)))

def bindAll (c : Calculator) : List String → Except Failure Calculator
  | [] => .ok c
  | binding :: rest => do bindAll (← bind c binding) rest

/-- The lines of a text without their ends, which may be `\n` or `\r\n`. A last line without an
    end counts if it is not empty. -/
def linesOf (text : List Char) : List (List Char) :=
  let lines := text.splitOn '\n'
  let ended := lines.dropLast.map fun line =>
    if line.getLast? = some '\r' then line.dropLast else line
  ended ++ (lines.getLast?.toList.filter (!·.isEmpty))

def answerLines (c : Calculator) (tokens : Bool) : List (List Char) → String × String
  | [] => ("", "")
  | line :: rest =>
    let (output, errors) := answerLines c tokens rest
    if line.all Text.isBlank then (output, errors)
    else
      match answer c tokens (String.ofList line) with
      | .ok text => (text ++ output, errors)
      | .error f => (output, f.lineReport ++ errors)

def runWith (o : Options) (input : String) : Printed :=
  match bindAll { maxSteps := o.maxSteps } o.bindings with
  | .error f => { code := 1, errors := f.report }
  | .ok c =>
    match o.expression with
    | some expression =>
      match answer c o.tokens expression with
      | .ok text => { code := 0, output := text }
      | .error f => { code := 1, errors := f.report }
    | none =>
      let (output, errors) := answerLines c o.tokens (linesOf input.toList)
      { code := 0, output, errors }

def usage : String := "Usage: formulary [OPTIONS] [EXPRESSION]\n"

def run (arguments : List String) (input : String) : Printed :=
  match Options.ofArguments arguments with
  | .error _ => { code := 2, errors := usage }
  | .ok options => runWith options input

end Formulary.CommandLine
