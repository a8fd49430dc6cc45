import Formulary.Bracket

/-!
Chains of comparisons. Two comparisons at one level of brackets are chained if neither a truth
value nor a combinator parts them; each chained pair may cost one expansion of the tokens. The
weight of tokens counts them, and every rewriting step makes it smaller.
-/
namespace Formulary

inductive Mark where
  | opens
  | closes
  | compares
  | parts
  | passes
deriving DecidableEq, Repr

def Category.mark : Category → Mark
  | comparator => .compares
  | combinator => .parts
  | logical => .parts
  | _ => .passes

def Token.mark (t : Token) : Mark :=
  if t.isOpening then .opens else if t.isClosing then .closes else t.category.mark

/-- Whether a comparison precedes that is not parted from here, at this level and at the levels
    around it, the nearest first. -/
structure Row where
  compared : Bool
  outer : List Bool

namespace Row

def start : Row := ⟨false, []⟩

def after (r : Row) : Mark → Row
  | .opens => ⟨false, r.compared :: r.outer⟩
  | .closes => ⟨r.outer.headD false, r.outer.tail⟩
  | .compares => ⟨true, r.outer⟩
  | .parts => ⟨false, r.outer⟩
  | .passes => r

def afterAll (r : Row) : List Token → Row
  | [] => r
  | t :: rest => (r.after t.mark).afterAll rest

def links (r : Row) : Mark → Nat
  | .compares => if r.compared then 1 else 0
  | _ => 0

def Le (r s : Row) : Prop :=
  (r.compared = true → s.compared = true) ∧
    ∀ level, r.outer.getD level false = true → s.outer.getD level false = true

theorem Le.refl (r : Row) : r.Le r := ⟨id, fun _ => id⟩

theorem Le.trans {r s u : Row} (low : r.Le s) (high : s.Le u) : r.Le u :=
  ⟨high.1 ∘ low.1, fun level => high.2 level ∘ low.2 level⟩

theorem start_le (r : Row) : start.Le r := by
  constructor <;> simp [start]

theorem after_le_after {r s : Row} (le : r.Le s) (mark : Mark) :
    (r.after mark).Le (s.after mark) := by
  cases mark with
  | opens =>
    refine ⟨id, fun level => ?_⟩
    cases level with
    | zero => exact le.1
    | succ level => exact le.2 level
  | closes =>
    refine ⟨?_, fun level => ?_⟩
    · have := le.2 0
      simpa [after, List.headD_eq_head?_getD, List.head?_eq_getElem?] using this
    · have := le.2 (level + 1)
      simpa [after] using this
  | compares => exact ⟨id, le.2⟩
  | parts => exact ⟨id, le.2⟩
  | passes => exact le

theorem links_le_links {r s : Row} (le : r.Le s) (mark : Mark) : r.links mark ≤ s.links mark := by
  cases mark with
  | compares =>
    by_cases compared : r.compared = true
    · simp [links, compared, le.1 compared]
    · simp [links, compared]
  | _ => exact Nat.le_refl 0

theorem afterAll_append (r : Row) (left right : List Token) :
    r.afterAll (left ++ right) = (r.afterAll left).afterAll right := by
  induction left generalizing r with
  | nil => rfl
  | cons t left ih => exact ih (r.after t.mark)

end Row

def chained (r : Row) : List Token → Nat
  | [] => 0
  | t :: rest => r.links t.mark + chained (r.after t.mark) rest

theorem chained_append (r : Row) (left right : List Token) :
    chained r (left ++ right) = chained r left + chained (r.afterAll left) right := by
  induction left generalizing r with
  | nil => simp [chained, Row.afterAll]
  | cons t left ih => simp only [List.cons_append, chained, Row.afterAll, ih]; omega

theorem chained_mono {r s : Row} (le : r.Le s) (tokens : List Token) :
    chained r tokens ≤ chained s tokens := by
  induction tokens generalizing r s with
  | nil => exact Nat.le_refl 0
  | cons t rest ih =>
    have here := Row.links_le_links le t.mark
    have there := ih (Row.after_le_after le t.mark)
    simp only [chained]
    omega

/-- No smaller than the number of steps that the tokens can take. -/
def weight (tokens : List Token) : Nat := tokens.length + 3 * chained Row.start tokens

theorem weight_lt_of_infix {part whole : List Token} (inside : part <:+: whole)
    (shorter : part.length < whole.length) : weight part < weight whole := by
  obtain ⟨before, behind, rfl⟩ := inside
  have lower := chained_mono (Row.start_le (Row.start.afterAll before)) part
  simp only [weight, chained_append]
  omega

namespace Token

theorem mark_data (v : Value) : (data v).mark = .parts ∨ (data v).mark = .passes := by
  cases v <;> simp [mark, data, isOpening, isClosing, isGrouping, symbol?, category,
    Value.category, Category.mark]

/-- Replacing tokens by their value makes them lighter, if they were two or more and left no fewer
    comparisons before what follows than the value does. -/
theorem weight_value_lt {matched : List Token} {v : Value} (several : 2 ≤ matched.length)
    (row : ∀ r : Row, (r.after (data v).mark).Le (r.afterAll matched))
    (before behind : List Token) :
    weight (before ++ [data v] ++ behind) < weight (before ++ matched ++ behind) := by
  have none (r : Row) : r.links (data v).mark = 0 := by
    rcases mark_data v with h | h <;> rw [h] <;> rfl
  have rest := chained_mono (row (Row.start.afterAll before)) behind
  simp only [weight, chained_append, chained, none, List.length_append, List.length_cons,
    List.length_nil, Row.afterAll_append, Row.afterAll]
  omega

theorem after_data_le (r : Row) (v : Value) : (r.after (data v).mark).Le r := by
  rcases mark_data v with h | h <;> rw [h]
  · exact ⟨fun impossible => by simp [Row.after] at impossible, fun _ => id⟩
  · exact .refl r

end Token

theorem Row.afterAll_of_endDepth? {depth final : Nat} {tokens : List Token}
    (ends : endDepth? depth tokens = some final) (compared : Bool) (inner base : List Bool)
    (deep : inner.length = depth) :
    ∃ (compared' : Bool) (inner' : List Bool), inner'.length = final ∧
      Row.afterAll ⟨compared, inner ++ base⟩ tokens = ⟨compared', inner' ++ base⟩ := by
  induction tokens generalizing depth compared inner with
  | nil => exact ⟨compared, inner, by simpa [endDepth?, deep] using ends, rfl⟩
  | cons t rest ih =>
    obtain ⟨next, here, there⟩ := Option.bind_eq_some_iff.mp ends
    by_cases opens : t.isOpening = true
    · have : next = depth + 1 := by simpa [depthAfter?, opens] using here.symm
      simp only [afterAll, Token.mark, opens, if_true, after]
      exact ih there false (compared :: inner) (by simp [deep, this])
    · by_cases closes : t.isClosing = true
      · cases depth with
        | zero => simp [depthAfter?, opens, closes] at here
        | succ depth =>
          have : next = depth := by simpa [depthAfter?, opens, closes] using here.symm
          cases inner with
          | nil => simp at deep
          | cons first inner =>
            simp only [afterAll, Token.mark, opens, closes, if_true, after]
            exact ih there first inner (by simp at deep; omega)
      · have : next = depth := by simpa [depthAfter?, opens, closes] using here.symm
        have same : ∃ compared', Row.after ⟨compared, inner ++ base⟩ t.mark =
            ⟨compared', inner ++ base⟩ := by
          unfold Token.mark
          rw [if_neg opens, if_neg closes]
          cases t.category <;> exact ⟨_, rfl⟩
        obtain ⟨compared', same⟩ := same
        simp only [afterAll, same]
        exact ih there compared' inner (by omega)

theorem Row.afterAll_enclosed (r : Row) {opening closing : Token} {inner : List Token}
    (opens : opening.isOpening = true) (closes : closing.isClosing = true)
    (balanced : endDepth? 0 inner = some 0) : r.afterAll (opening :: inner ++ [closing]) = r := by
  have notOpening : closing.isOpening = false := by
    simp only [Token.isClosing, Token.isOpening, Token.isGrouping] at closes ⊢
    simp only [beq_iff_eq] at closes
    simp [closes]
  obtain ⟨compared, within, empty, done⟩ :=
    afterAll_of_endDepth? balanced false [] (r.compared :: r.outer) rfl
  have : within = [] := List.length_eq_zero_iff.mp empty
  subst this
  rw [List.cons_append, afterAll, afterAll_append]
  have first : r.after opening.mark = ⟨false, [] ++ r.compared :: r.outer⟩ := by
    simp [Token.mark, opens, after]
  rw [first, done]
  simp [afterAll, Token.mark, notOpening, closes, after]

end Formulary
