import Formulary.Bracket

/-!
Patterns of tokens. A matcher takes one token of a certain look, or a run of tokens whose brackets
close within it. Matching works on what is left of the tokens: a count of tokens taken is all that
a match says.
-/
namespace Formulary

/-- The length of the run before the first closing bracket that was not opened in it. Commas
    outside all brackets end it too, unless it goes through them. -/
def runLength (throughCommas : Bool) (depth : Nat) : List Token → Nat
  | [] => 0
  | t :: rest =>
    match depthAfter? depth t with
    | none => 0
    | some next =>
      if t.isComma && depth == 0 && !throughCommas then 0 else runLength throughCommas next rest + 1

def extendPiece (t : Token) : List (List Token) → List (List Token)
  | [] => [[t]]
  | piece :: others => (t :: piece) :: others

/-- The pieces between commas outside all brackets, and between closing brackets that were not
    opened. There is one piece more than there are such tokens. -/
def pieces (depth : Nat) : List Token → List (List Token)
  | [] => [[]]
  | t :: rest =>
    match depthAfter? depth t with
    | none => [] :: pieces 0 rest
    | some next =>
      if t.isComma && depth == 0 then [] :: pieces 0 rest else extendPiece t (pieces next rest)

def splitArguments (tokens : List Token) : List (List Token) :=
  if tokens.isEmpty then [] else pieces 0 tokens

theorem runLength_le (throughCommas : Bool) (depth : Nat) (tokens : List Token) :
    runLength throughCommas depth tokens ≤ tokens.length := by
  induction tokens generalizing depth with
  | nil => exact Nat.le_refl 0
  | cons t rest ih =>
    unfold runLength
    split
    · exact Nat.zero_le _
    · next inner _ =>
      split
      · exact Nat.zero_le _
      · exact Nat.succ_le_succ (ih inner)

/-- Goes from the cursor on through runs, each behind the comma that ends the one before. It stops
    where a run ends at `stop`, or where there is none. -/
def argumentsEnd? (tokens : List Token) (stop cursor : Nat) : Option Nat :=
  let taken := runLength false 0 (tokens.drop cursor)
  if taken = 0 then none
  else if cursor + taken = stop then some stop
  else argumentsEnd? tokens stop (cursor + taken + 1)
termination_by tokens.length - cursor
decreasing_by
  have within := runLength_le false 0 (tokens.drop cursor)
  rw [List.length_drop] at within
  omega

def argumentsLength? (tokens : List Token) : Option Nat :=
  let total := runLength true 0 tokens
  if total = 0 then some 0 else argumentsEnd? tokens total 0

inductive Shape where
  /-- One token of these categories that is one of these symbols. An empty list allows all. -/
  | one (categories : List Category) (symbols : List Symbol)
  | run
  | optionalRun
  | arguments

/-- An anchored matcher only matches at the first of all tokens. -/
structure Matcher where
  shape : Shape
  anchored : Bool := false

namespace Matcher

def categories (m : Matcher) : List Category :=
  match m.shape with
  | .one categories _ => categories
  | _ => []

def symbols (m : Matcher) : List Symbol :=
  match m.shape with
  | .one _ symbols => symbols
  | _ => []

def accepts (m : Matcher) (t : Token) : Bool :=
  (m.categories.isEmpty || m.categories.contains t.category) &&
    (m.symbols.isEmpty || t.symbol?.any m.symbols.contains)

def take? (m : Matcher) (atStart : Bool) (tokens : List Token) : Option Nat :=
  if m.anchored && !atStart then none
  else
    match m.shape, tokens with
    | .one _ _, [] => none
    | .one _ _, t :: _ => if m.accepts t then some 1 else none
    | .run, _ =>
      let length := runLength false 0 tokens
      if length = 0 then none else some length
    | .optionalRun, _ => some (runLength false 0 tokens)
    | .arguments, _ => argumentsLength? tokens

def any : Matcher := ⟨.one [] [], false⟩

def ofCategory (category : Category) : Matcher := ⟨.one [category] [], false⟩

def numeric : Matcher := ofCategory .numeric

def text : Matcher := ofCategory .text

def logical : Matcher := ofCategory .logical

def dateTime : Matcher := ofCategory .dateTime

def comparator : Matcher := ofCategory .comparator

def operators (ops : List Operator) : Matcher := ⟨.one [.operator] (ops.map .operator), false⟩

def comparators (signs : List Comparator) : Matcher :=
  ⟨.one [.comparator] (signs.map .comparator), false⟩

def addSubtract : Matcher := operators [.add, .subtract]

def minus : Matcher := operators [.subtract, .negate]

def anchor (m : Matcher) : Matcher := { m with anchored := true }

def leadingMinus : Matcher := minus.anchor

def multiplyDivide : Matcher := operators [.multiply, .divide]

def power : Matcher := operators [.power]

def modulo : Matcher := operators [.modulo]

def bitwise : Matcher := operators [.bitOr, .bitAnd]

def ascending : Matcher := comparators [.less, .lessEqual]

def descending : Matcher := comparators [.greater, .greaterEqual]

def combinator : Matcher := ⟨.one [.combinator] [.combinator .and, .combinator .or], false⟩

def grouping (mark : Grouping) : Matcher := ⟨.one [.grouping] [.grouping mark], false⟩

def opening : Matcher := grouping .opening

def callOpening : Matcher := grouping .callOpening

def closing : Matcher := grouping .closing

def comma : Matcher := grouping .comma

def function (name : Name) : Matcher := ⟨.one [.function] [.function name], false⟩

def run : Matcher := ⟨.run, false⟩

def optionalRun : Matcher := ⟨.optionalRun, false⟩

def arguments : Matcher := ⟨.arguments, false⟩

end Matcher

abbrev Pattern := List Matcher

structure Stretch where
  start : Nat
  length : Nat
deriving DecidableEq, Repr

namespace Stretch

def select (s : Stretch) (tokens : List Token) : List Token :=
  (tokens.drop s.start).take s.length

def splice (s : Stretch) (tokens replacement : List Token) : List Token :=
  tokens.take s.start ++ replacement ++ tokens.drop (s.start + s.length)

theorem splice_select (s : Stretch) (tokens : List Token) :
    s.splice tokens (s.select tokens) = tokens := by
  simp [splice, select, ← List.drop_drop]

end Stretch

namespace Pattern

def take? : Pattern → (atStart : Bool) → List Token → Option Nat
  | [], _, _ => some 0
  | m :: rest, atStart, tokens => do
    let taken ← m.take? atStart tokens
    let more ← take? rest (atStart && taken == 0) (tokens.drop taken)
    return taken + more

def matchAt? (pattern : Pattern) (tokens : List Token) (start : Nat) : Option Nat :=
  pattern.take? (start == 0) (tokens.drop start)

def findFrom? (pattern : Pattern) (start : Nat) : List Token → Option Stretch
  | [] => none
  | t :: rest =>
    match pattern.take? (start == 0) (t :: rest) with
    | some length => some ⟨start, length⟩
    | none => findFrom? pattern (start + 1) rest

def isAnchored (pattern : Pattern) : Bool := pattern.head?.any (·.anchored)

def find? (pattern : Pattern) (tokens : List Token) : Option Stretch :=
  if pattern.isAnchored then (pattern.take? true tokens).map fun length => ⟨0, length⟩
  else pattern.findFrom? 0 tokens

end Pattern

end Formulary
