import Formulary.Function.Registry
import Formulary.Rule

/-!
Rule books: the rules an evaluation goes by, and the functions behind them. Registering a function
puts its rule in front of all others and takes away the one it replaces.
-/
namespace Formulary

/-- The registered functions, the latest in front. Rules and functions both derive from them. -/
structure RuleBook where
  custom : List Definition

structure RuleMatch where
  index : Nat
  rule : Rule
  stretch : Stretch

namespace RuleBook

def core : RuleBook := ⟨[]⟩

def register (book : RuleBook) (d : Definition) : RuleBook :=
  ⟨d :: book.custom.filter (·.name != d.name)⟩

def rules (book : RuleBook) : List Rule := book.custom.map Definition.rule ++ coreRules

def rule? (book : RuleBook) (index : Nat) : Option Rule := book.rules[index]?

def functions (book : RuleBook) : Registry :=
  book.custom.foldr (fun d registry => registry.register d) .builtin

def function? (book : RuleBook) (name : String) : Option Definition := book.functions.get? name

def candidates (book : RuleBook) (profile : Profile) : List Nat :=
  (book.rules.zipIdx.filter fun entry => entry.1.appliesTo profile).map (·.2)

def relevant (book : RuleBook) (tokens : List Token) : List Nat :=
  book.candidates (.ofTokens tokens)

def find? (book : RuleBook) (tokens : List Token) : Option RuleMatch :=
  (book.relevant tokens).findSome? fun index => do
    let rule ← book.rule? index
    let stretch ← rule.pattern.find? tokens
    return ⟨index, rule, stretch⟩

end RuleBook

end Formulary
