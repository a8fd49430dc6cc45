import Formulary.RuleBook

/-!
Rule indices: the rules and the functions as they are stored, and what is known about them. The
rules of registered functions and the functions themselves are kept apart, and each is brought up
to date on its own. Which rules are relevant for a profile is remembered. That holds for one set of
rules only: it is forgotten when a function is registered, and copies start without it.
-/
namespace Formulary

def Rule.calls (r : Rule) (name : Name) : Bool :=
  r.action == .call && r.symbols.contains (.function name)

def Profile.alike (p q : Profile) : Bool :=
  p.categories.all q.categories.contains && q.categories.all p.categories.contains &&
    p.symbols.all q.symbols.contains && q.symbols.all p.symbols.contains

structure RuleIndex where
  /-- The rules of registered functions, the latest in front. -/
  custom : List Rule
  core : List Rule
  functions : Registry
  remembered : List (Profile × List Nat) := []

namespace RuleIndex

def initial : RuleIndex := { custom := [], core := coreRules, functions := .builtin }

def rules (index : RuleIndex) : List Rule := index.custom ++ index.core

def size (index : RuleIndex) : Nat := index.custom.length + index.core.length

def rule? (index : RuleIndex) (place : Nat) : Option Rule :=
  if place < index.custom.length then index.custom[place]?
  else index.core[place - index.custom.length]?

def register (index : RuleIndex) (d : Definition) : RuleIndex where
  custom := d.rule :: index.custom.filter fun r => !r.calls d.name
  core := index.core
  functions := index.functions.register d

def copy (index : RuleIndex) : RuleIndex := { index with remembered := [] }

def candidates (index : RuleIndex) (profile : Profile) : List Nat :=
  (index.rules.zipIdx.filter fun entry => entry.1.appliesTo profile).map (·.2)

def memory? (index : RuleIndex) (profile : Profile) : Option (Profile × List Nat) :=
  index.remembered.find? fun entry => entry.1.alike profile

def relevant (index : RuleIndex) (tokens : List Token) : List Nat × RuleIndex :=
  let profile := Profile.ofTokens tokens
  match index.memory? profile with
  | some entry => (entry.2, index)
  | none =>
    let found := index.candidates profile
    (found, { index with remembered := (profile, found) :: index.remembered })

def find? (index : RuleIndex) (tokens : List Token) : Option RuleMatch × RuleIndex :=
  let (places, index) := index.relevant tokens
  let found := places.findSome? fun place => do
    let rule ← index.rule? place
    let stretch ← rule.pattern.find? tokens
    return ⟨place, rule, stretch⟩
  (found, index)

end RuleIndex

end Formulary
