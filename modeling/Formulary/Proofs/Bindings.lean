import Formulary.Calculator
import Formulary.Proofs.LowerCase
import Formulary.Proofs.Reading
import Formulary.Proofs.Registration

/-!
What variables stand for. Bindings answer with the latest value that was bound to a name, in
whatever letter case, and those of one evaluation come before those in memory. An evaluation
depends on them only through the variables of its expression.
-/
namespace Formulary

namespace Bindings

variable {b : Bindings} {name : String}

theorem lookup_filter {key : String} (other : name ≠ key) (b : Bindings) :
    (List.filter (·.1 != key) b).lookup name = b.lookup name := by
  induction b with
  | nil => rfl
  | cons pair b ih =>
    by_cases same : pair.1 = key
    · rw [List.filter_cons_of_neg (by simp [same]), ih, List.lookup_cons,
        beq_false_of_ne (same ▸ other)]
    · rw [List.filter_cons_of_pos (by simpa using same), List.lookup_cons, List.lookup_cons, ih]

theorem find?_bind (b : Bindings) (key : String) (value : Value) (name : String) :
    (b.bind key value).find? name =
      if name = Text.lower key then some value else b.find? name := by
  unfold bind find?
  rw [List.lookup_cons]
  by_cases same : name = Text.lower key
  · rw [if_pos same, same, beq_self_eq_true]
  · rw [if_neg same, beq_false_of_ne same]
    exact lookup_filter same b

/-- Bindings layered over others answer like the ones written into the others. -/
theorem find?_bindAll (b : Bindings) (pairs : List (String × Value)) (name : String) :
    (b.bindAll pairs).find? name = ((bindAll [] pairs).find? name).or (b.find? name) := by
  induction pairs generalizing b with
  | nil => rfl
  | cons pair pairs ih =>
    have first : (b.bind pair.1 pair.2).find? name =
        ((bind [] pair.1 pair.2).find? name).or (b.find? name) := by
      rw [find?_bind, find?_bind]
      split <;> rfl
    calc
      (b.bindAll (pair :: pairs)).find? name = ((b.bind pair.1 pair.2).bindAll pairs).find? name :=
        rfl
      _ = ((bindAll [] pairs).find? name).or ((b.bind pair.1 pair.2).find? name) := ih _
      _ = (((bindAll [] pairs).find? name).or ((bind [] pair.1 pair.2).find? name)).or
          (b.find? name) := by rw [first, Option.or_assoc]
      _ = ((bindAll [] (pair :: pairs)).find? name).or (b.find? name) := by
        rw [← ih (bind [] pair.1 pair.2)]
        rfl

theorem find?_bindAll_ne_none {pairs : List (String × Value)} {pair : String × Value}
    (member : pair ∈ pairs) : (bindAll [] pairs).find? (Text.lower pair.1) ≠ none := by
  induction pairs with
  | nil => cases member
  | cons first pairs ih =>
    have split : (bindAll [] (first :: pairs)).find? (Text.lower pair.1) =
        ((bindAll [] pairs).find? (Text.lower pair.1)).or
          ((bind [] first.1 first.2).find? (Text.lower pair.1)) :=
      find?_bindAll (bind [] first.1 first.2) pairs _
    rw [split, ne_eq, Option.or_eq_none_iff]
    rintro ⟨later, now⟩
    rcases List.mem_cons.mp member with rfl | there
    · rw [find?_bind, if_pos rfl] at now
      cases now
    · exact ih there later

inductive IsStored : Bindings → Prop where
  | empty : IsStored []
  | bind {b : Bindings} (stored : IsStored b) (name : String) (value : Value) :
      IsStored (b.bind name value)

theorem IsStored.bindAll (stored : b.IsStored) (pairs : List (String × Value)) :
    (b.bindAll pairs).IsStored := by
  induction pairs generalizing b with
  | nil => exact stored
  | cons pair pairs ih => exact ih (stored.bind pair.1 pair.2)

theorem IsStored.lower (stored : b.IsStored) {value : Value} (found : b.find? name = some value) :
    Text.lower name = name := by
  induction stored with
  | empty => cases found
  | bind stored key value ih =>
    rw [find?_bind] at found
    split at found
    · next same => rw [same, Text.lower_lower]
    · exact ih found

end Bindings

/-! Variables among tokens -/

def mentioned (tokens : List Token) : List String :=
  tokens.filterMap fun t =>
    match t.content with
    | .identifier name => some name
    | _ => none

theorem mem_mentioned {tokens : List Token} {name : String} :
    name ∈ mentioned tokens ↔ ∃ t ∈ tokens, t.content = .identifier name := by
  unfold mentioned
  rw [List.mem_filterMap]
  refine exists_congr fun t => and_congr_right fun _ => ?_
  split
  · next other content => simp [content]
  · next other => exact ⟨nofun, fun content => absurd content (other name)⟩

theorem mentioned_append (left right : List Token) :
    mentioned (left ++ right) = mentioned left ++ mentioned right := List.filterMap_append

namespace Calculator

variable {c d : Calculator} {expression : String}

def evaluationBy (c : Calculator) (lookup : String → Option Value) (expression : String) :
    Run Value := do
  let tokens ← Run.ofOutcome (c.tokenize expression)
  let tokens ← Run.ofOutcome (tokens.mapM (Token.resolve lookup))
  c.evaluator.evaluate tokens

def scope (c : Calculator) (pairs : List (String × Value)) (name : String) : Option Value :=
  ((Bindings.bindAll [] pairs).find? name).or (c.memory.find? name)

theorem evaluation_eq (c : Calculator) (expression : String) (pairs : List (String × Value)) :
    c.evaluation expression pairs = c.evaluationBy (c.scope pairs) expression := rfl

def Mentions (c : Calculator) (expression name : String) : Prop :=
  ∃ tokens, c.tokenize expression = .ok tokens ∧ name ∈ mentioned tokens

theorem resolve_congr {f g : String → Option Value} {t : Token}
    (agree : ∀ name, t.content = .identifier name → f name = g name) :
    t.resolve f = t.resolve g := by
  unfold Token.resolve
  split
  · next name content => rw [agree name content]
  · rfl

theorem evaluationBy_congr {f g : String → Option Value}
    (agree : ∀ name, c.Mentions expression name → f name = g name) :
    c.evaluationBy f expression = c.evaluationBy g expression := by
  unfold evaluationBy
  cases read : c.tokenize expression with
  | error e => rfl
  | ok tokens =>
    have same : tokens.mapM (Token.resolve f) = tokens.mapM (Token.resolve g) :=
      mapM_congr fun t member => resolve_congr fun name content =>
        agree name ⟨tokens, read, mem_mentioned.mpr ⟨t, member, content⟩⟩
    show (pure tokens >>= _ : Run Value) = pure tokens >>= _
    rw [pure_bind, pure_bind, same]

theorem scope_storeAll (c : Calculator) (pairs : List (String × Value)) :
    (c.storeAll pairs).scope [] = c.scope pairs :=
  funext fun name => Bindings.find?_bindAll c.memory pairs name

theorem scope_of_lookup? (storedLeft : c.memory.IsStored) (storedRight : d.memory.IsStored)
    {name : String} (agree : c.lookup? name = d.lookup? name) :
    c.scope [] name = d.scope [] name := by
  have here : c.memory.find? name = d.memory.find? name := by
    by_cases low : Text.lower name = name
    · have same : c.memory.find? (Text.lower name) = d.memory.find? (Text.lower name) := agree
      rwa [low] at same
    · -- a custom scanner may make such a name, but nothing is stored under it
      have none {b : Bindings} (stored : b.IsStored) : b.find? name = none :=
        Option.eq_none_iff_forall_ne_some.mpr fun _ found => low (stored.lower found)
      rw [none storedLeft, none storedRight]
  exact here

/-- Bindings of one evaluation mean what they would mean if they had been stored before it, to the
    last step. Calculators that read and evaluate alike give the same results if their memories
    give the same answers about the variables of the expression. -/
theorem bindings_like_stored :
    (∀ (c : Calculator) (expression : String) (pairs : List (String × Value)),
      c.evaluation expression pairs = (c.storeAll pairs).evaluation expression [] ∧
      c.evaluateWith expression pairs = (c.storeAll pairs).evaluate expression) ∧
    ∀ (c d : Calculator) (expression : String), c.scanners = d.scanners → c.book = d.book →
      c.maxSteps = d.maxSteps → c.memory.IsStored → d.memory.IsStored →
      (∀ name, c.Mentions expression name → c.lookup? name = d.lookup? name) →
      c.evaluate expression = d.evaluate expression := by
  constructor
  · intro c expression pairs
    have same : c.evaluation expression pairs = (c.storeAll pairs).evaluation expression [] := by
      rw [evaluation_eq, evaluation_eq, scope_storeAll]
      rfl
    exact ⟨same, congrArg (fun run : Run Value => (run.run {}).1) same⟩
  · intro c d expression scanners book maxSteps storedLeft storedRight agree
    have there : d.evaluationBy (d.scope []) expression =
        c.evaluationBy (d.scope []) expression := by
      unfold evaluationBy tokenize evaluator
      rw [scanners, book, maxSteps]
    have same : c.evaluation expression [] = d.evaluation expression [] := by
      rw [evaluation_eq, evaluation_eq, there]
      exact evaluationBy_congr fun name mentions =>
        scope_of_lookup? storedLeft storedRight (agree name mentions)
    exact congrArg (fun run : Run Value => (run.run {}).1) same

set_option maxRecDepth 20000 in
/-- One memory holds more than the other, but the same under the only name that is asked for. -/
theorem bindings_like_stored_name :
    let one : Value := .integer 1
    let c : Calculator := { memory := Bindings.bindAll [] [("X", one)] }
    let d : Calculator := { memory := Bindings.bindAll [] [("x", .null), ("y", .null), ("x", one)] }
    c.memory.IsStored ∧ d.memory.IsStored ∧
      (∀ name, c.Mentions "x" name → c.lookup? name = d.lookup? name) ∧
      c.evaluate "x" = d.evaluate "x" := by
  intro one c d
  have read : ScannerSet.standard.scan none ['x'] =
      .ok (some ⟨[⟨.identifier "x", 1⟩], ['x'], []⟩) := rfl
  have reads : ScannerSet.standard.Reads none "x".toList [⟨.identifier "x", 1⟩] [] :=
    .lexeme read (.nothing _ _)
  have accepted : c.tokenize "x" = .ok [⟨.identifier "x", 1⟩] :=
    ScannerSet.tokenizeFrom_eq_ok_iff.mpr ⟨reads, rfl⟩
  have agree : ∀ name, c.Mentions "x" name → c.lookup? name = d.lookup? name := by
    rintro name ⟨tokens, same, member⟩
    obtain rfl := Except.ok.inj (accepted.symm.trans same)
    obtain rfl : name = "x" := List.mem_singleton.mp member
    have lowX : Text.lower "X" = "x" := by decide +kernel
    have lowx : Text.lower "x" = "x" := by decide +kernel
    simp only [lookup?, c, d, Bindings.bindAll, List.foldl_cons, List.foldl_nil,
      Bindings.find?_bind, lowX, lowx, if_true]
  have storedLeft : c.memory.IsStored := .bindAll .empty _
  have storedRight : d.memory.IsStored := .bindAll .empty _
  exact ⟨storedLeft, storedRight, agree,
    bindings_like_stored.2 c d "x" rfl rfl rfl storedLeft storedRight agree⟩

end Calculator

end Formulary
