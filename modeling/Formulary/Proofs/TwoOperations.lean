import Formulary.Proofs.Precedence

/-!
Two operations on three numbers. Which of them is done first follows from the levels of the
operators. Their precedence says the same, except that a remainder binds more tightly than a
product or a quotient, and its precedence is that of both.
-/
namespace Formulary

/-! Two operators, level by level -/

section

variable {remaining : List (List Operator)} {op other : Operator} (a b c : Value)

theorem settle_alone (remaining : List (List Operator)) :
    settle remaining ⟨a, []⟩ = .ok ⟨a, []⟩ := by
  induction remaining with
  | nil => rfl
  | cons level remaining ih => exact ih

theorem settle_single (known : ∃ level ∈ remaining, op ∈ level) :
    (settle remaining ⟨a, [(op, b)]⟩).map Series.first = op.join a b := by
  induction remaining with
  | nil => simp at known
  | cons level remaining ih =>
    by_cases joined : op ∈ level
    · simp only [settle, compute, if_pos joined]
      cases op.join a b with
      | error e => rfl
      | ok v => exact congrArg (Except.map Series.first) (settle_alone v remaining)
    · have later : ∃ level ∈ remaining, op ∈ level := by simpa [joined] using known
      simp only [settle, compute, if_neg joined]
      exact ih later

theorem settle_pair (known : ∃ level ∈ remaining, op ∈ level)
    (also : ∃ level ∈ remaining, other ∈ level) :
    (settle remaining ⟨a, [(op, b), (other, c)]⟩).map Series.first =
      if remaining.findIdx (other ∈ ·) < remaining.findIdx (op ∈ ·) then
        (do op.join a (← other.join b c))
      else (do other.join (← op.join a b) c) := by
  induction remaining with
  | nil => simp at known
  | cons level remaining ih =>
    -- the first level that has either of them decides
    by_cases left : op ∈ level
    · have first : ¬ (level :: remaining).findIdx (other ∈ ·) <
          (level :: remaining).findIdx (op ∈ ·) := by
        simp [List.findIdx_cons, left]
      rw [if_neg first]
      simp only [settle, compute, if_pos left]
      cases op.join a b with
      | error e => rfl
      | ok v => exact settle_single v c also
    · have later : ∃ level ∈ remaining, op ∈ level := by simpa [left] using known
      by_cases right : other ∈ level
      · have first : (level :: remaining).findIdx (other ∈ ·) <
            (level :: remaining).findIdx (op ∈ ·) := by
          simp [List.findIdx_cons, left, right]
        rw [if_pos first]
        simp only [settle, compute, if_neg left, if_pos right]
        cases other.join b c with
        | error e => rfl
        | ok v => exact settle_single a v later
      · have further : ∃ level ∈ remaining, other ∈ level := by simpa [right] using also
        simp only [List.findIdx_cons, left, right, decide_false, cond_false,
          Nat.add_lt_add_iff_right]
        rw [← ih later further, settle, compute, if_neg left, compute, if_neg right]
        rfl

end

namespace Arithmetic

def pair (p q : Arithmetic) (a b c : Number) : Series Number :=
  ⟨a, [(p.operator, b), (q.operator, c)]⟩

def leftFirst (p q : Arithmetic) (a b c : Number) : Outcome Number := do
  q.apply (.number (← p.apply (.number a) (.number b))) (.number c)

def rightFirst (p q : Arithmetic) (a b c : Number) : Outcome Number := do
  p.apply (.number a) (.number (← q.apply (.number b) (.number c)))

/-- What binds more tightly is done first, and of two equal operations the left one. -/
def byPrecedence (p q : Arithmetic) (a b c : Number) : Outcome Number :=
  if p.precedence < q.precedence then rightFirst p q a b c else leftFirst p q a b c

theorem rank_lt_iff (p q : Arithmetic) : q.operator.rank < p.operator.rank ↔
    p.precedence < q.precedence ∨ q = modulo ∧ p ∈ [multiplication, division] := by
  cases p <;> cases q <;> decide

theorem join_leftFirst (p q : Arithmetic) (a b c : Number) :
    (do q.operator.join (← p.operator.join (.number a) (.number b)) (.number c)) =
      (leftFirst p q a b c).map Value.number := by
  simp only [join_arithmetic, leftFirst]
  cases p.apply (.number a) (.number b) <;> rfl

theorem join_rightFirst (p q : Arithmetic) (a b c : Number) :
    (do p.operator.join (.number a) (← q.operator.join (.number b) (.number c))) =
      (rightFirst p q a b c).map Value.number := by
  simp only [join_arithmetic, rightFirst]
  cases q.apply (.number b) (.number c) <;> rfl

end Arithmetic

open Arithmetic

namespace RuleBook

variable {a b c : Number} {tokens : List Token}

/-- The two operations come to the one applied to the result of the other, or to the error of
    either. -/
theorem evaluate_operations (book : RuleBook) (p q : Arithmetic)
    (spelled : tokens.map Token.content = ((pair p q a b c).map Value.number).contents) :
    book.evaluate tokens =
      (if p.precedence < q.precedence ∨ q = modulo ∧ p ∈ [multiplication, division]
        then rightFirst p q a b c else leftFirst p q a b c).map Value.number := by
  have left := operator_ne_negate p
  have right := operator_ne_negate q
  have binary : ∀ step ∈ (pair p q a b c).rest, step.1 ≠ .negate := by simp [pair, left, right]
  have settled := settle_pair (.number a) (.number b) (.number c) (mem_levels left)
    (mem_levels right)
  refine (book.evaluate_settle binary spelled).trans (settled.trans ?_)
  rw [join_leftFirst, join_rightFirst, ← apply_ite]
  exact congrArg (Except.map Value.number) (if_congr (rank_lt_iff p q) rfl rfl)

/-- Wherever the two operations stand side by side, they are done in the order of their
    precedence. -/
def FollowsPrecedence (book : RuleBook) (p q : Arithmetic) : Prop :=
  ∀ (a b c : Number) (tokens : List Token),
    tokens.map Token.content = ((pair p q a b c).map Value.number).contents →
      book.evaluate tokens = (byPrecedence p q a b c).map Value.number

/-- `8 * 4 % 3` and `8 / 4 % 3` are 8 by the rules. By their precedence they would be 2. -/
theorem not_followsPrecedence (book : RuleBook) {p : Arithmetic}
    (before : p ∈ [multiplication, division]) : ¬ book.FollowsPrecedence p modulo := by
  intro follows
  let s := pair p modulo (.integer 8 (by decide)) (.integer 4 (by decide)) (.integer 3 (by decide))
  let tokens : List Token := (s.map Value.number).contents.map fun content => ⟨content, 1⟩
  have spelled : tokens.map Token.content = (s.map Value.number).contents := rfl
  have published := follows _ _ _ _ spelled
  rw [book.evaluate_operations p modulo spelled] at published
  simp only [List.mem_cons, List.not_mem_nil, or_false] at before
  rcases before with rfl | rfl
  · cases published
  · cases published

/-- Two operations on three numbers evaluate to the one applied to the result of the other, or to
    the error of either. Their order is that of their precedence, unless a remainder stands behind a
    product or a quotient: it goes first, though its precedence is the same. -/
theorem evaluate_two_operations (book : RuleBook) (p q : Arithmetic) :
    (∀ (a b c : Number) (tokens : List Token),
      tokens.map Token.content = ((pair p q a b c).map Value.number).contents →
        book.evaluate tokens =
          (if p.precedence < q.precedence ∨ q = modulo ∧ p ∈ [multiplication, division]
            then rightFirst p q a b c else leftFirst p q a b c).map Value.number) ∧
      (book.FollowsPrecedence p q ↔ ¬ (q = modulo ∧ p ∈ [multiplication, division])) := by
  refine ⟨fun a b c tokens spelled => book.evaluate_operations p q spelled, ?_, ?_⟩
  · rintro follows ⟨rfl, before⟩
    exact book.not_followsPrecedence before follows
  · intro usual a b c tokens spelled
    rw [book.evaluate_operations p q spelled, byPrecedence]
    simp only [usual, or_false]

/-- `20 - 2 ^ 3` evaluates to 12: the power goes first. -/
theorem evaluate_two_operations_power :
    let s := pair subtraction exponentiation (.integer 20 (by decide)) (.integer 2 (by decide))
      (.integer 3 (by decide))
    let tokens : List Token := (s.map Value.number).contents.map fun content => ⟨content, 1⟩
    tokens.map Token.content = (s.map Value.number).contents ∧
      core.FollowsPrecedence subtraction exponentiation ∧
      core.evaluate tokens = .ok (.integer 12) := by
  intro s tokens
  have spelled : tokens.map Token.content = (s.map Value.number).contents := rfl
  obtain ⟨value, follows⟩ := core.evaluate_two_operations subtraction exponentiation
  exact ⟨spelled, follows.mpr (by decide), value _ _ _ _ spelled⟩

/-- `8 * 4 % 3` evaluates to 8: the remainder goes first, though its precedence is the same. -/
theorem remainder_before_product :
    let s := pair multiplication modulo (.integer 8 (by decide)) (.integer 4 (by decide))
      (.integer 3 (by decide))
    let tokens : List Token := (s.map Value.number).contents.map fun content => ⟨content, 1⟩
    tokens.map Token.content = (s.map Value.number).contents ∧
      ¬ multiplication.precedence < modulo.precedence ∧
      leftFirst multiplication modulo (.integer 8 (by decide)) (.integer 4 (by decide))
        (.integer 3 (by decide)) = .ok (.integer 2 (by decide)) ∧
      core.evaluate tokens = .ok (.integer 8) := by
  intro s tokens
  have spelled : tokens.map Token.content = (s.map Value.number).contents := rfl
  exact ⟨spelled, by decide, rfl, core.evaluate_operations multiplication modulo spelled⟩

end RuleBook

end Formulary
