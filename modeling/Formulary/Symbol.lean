import Formulary.Text.LowerCase

/-! The signs and words of expressions, apart from literals and names of variables. -/
namespace Formulary

/-- The name of a function, in lower case. -/
@[ext]
structure Name where
  text : String
  lower : text = Text.lower text := by rfl
deriving DecidableEq, Repr

namespace Name

def ofText (written : String) : Name := ⟨Text.lower written, (Text.lower_lower written).symm⟩

@[simp]
theorem ofText_text (name : Name) : ofText name.text = name := Name.ext name.lower.symm

end Name

inductive Operator where
  | add
  | subtract
  | multiply
  | divide
  | modulo
  | power
  | bitOr
  | bitAnd
  /-- A minus that stands where no left operand can end. -/
  | negate
deriving DecidableEq, Repr

def Operator.text : Operator → String
  | add => "+"
  | subtract => "-"
  | multiply => "*"
  | divide => "/"
  | modulo => "%"
  | power => "^"
  | bitOr => "|"
  | bitAnd => "&"
  | negate => "-"

inductive Comparator where
  | less
  | lessEqual
  | greater
  | greaterEqual
  | unequal
  | equal
deriving DecidableEq, Repr

def Comparator.text : Comparator → String
  | less => "<"
  | lessEqual => "<="
  | greater => ">"
  | greaterEqual => ">="
  | unequal => "!="
  | equal => "="

inductive Combinator where
  | and
  | or
deriving DecidableEq, Repr

def Combinator.text : Combinator → String
  | and => "and"
  | or => "or"

inductive Grouping where
  | opening
  /-- The bracket directly behind the name of a function. -/
  | callOpening
  | closing
  | comma
deriving DecidableEq, Repr

def Grouping.text : Grouping → String
  | opening => "("
  | callOpening => "("
  | closing => ")"
  | comma => ","

inductive CaseWord where
  | beginCase
  | condition
  | consequent
  | alternative
  | endCase
deriving DecidableEq, Repr

def CaseWord.text : CaseWord → String
  | beginCase => "case"
  | condition => "when"
  | consequent => "then"
  | alternative => "else"
  | endCase => "end"

inductive Symbol where
  | operator (op : Operator)
  | comparator (sign : Comparator)
  | combinator (word : Combinator)
  | grouping (mark : Grouping)
  | function (name : Name)
  | caseWord (word : CaseWord)
deriving DecidableEq, Repr

def Symbol.text : Symbol → String
  | operator op => op.text
  | comparator sign => sign.text
  | combinator word => word.text
  | grouping mark => mark.text
  | function name => name.text
  | caseWord word => word.text

end Formulary
