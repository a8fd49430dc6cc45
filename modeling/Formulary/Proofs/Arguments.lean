import Formulary.Proofs.AnsweredCalls

/-!
Arguments: tokens whose brackets close, and that no comma parts. Answering the calls among them
leaves them such. A run that stops behind them takes all of them.
-/
namespace Formulary

/-- Tokens that can stand as one argument: there are some, their brackets close, and no comma
    stands outside them. -/
structure IsArgument (span : List Token) : Prop where
  nonempty : span ≠ []
  balanced : endDepth? 0 span = some 0
  whole : ∀ before t behind, span = before ++ t :: behind → endDepth? 0 before = some 0 →
    t.isComma = false

def freeDepth? (depth : Nat) : List Token → Option Nat
  | [] => some depth
  | t :: rest =>
    if t.isComma && depth == 0 then none
    else (depthAfter? depth t).bind fun depth => freeDepth? depth rest

theorem freeDepth?_append (depth : Nat) (left right : List Token) :
    freeDepth? depth (left ++ right) = (freeDepth? depth left).bind (freeDepth? · right) := by
  induction left generalizing depth with
  | nil => rfl
  | cons t left ih =>
    simp only [List.cons_append, freeDepth?]
    split
    · rfl
    · rw [Option.bind_assoc]
      congr 1
      funext depth
      exact ih depth

theorem freeDepth?_cons {depth : Nat} {t : Token} (other : t.isComma = false) (rest : List Token) :
    freeDepth? depth (t :: rest) =
      (depthAfter? depth t).bind fun depth => freeDepth? depth rest := by
  simp [freeDepth?, other]

theorem freeDepth?_cons_eq_some {depth final : Nat} {t : Token} {rest : List Token}
    (free : freeDepth? depth (t :: rest) = some final) : ¬ (t.isComma && depth == 0) = true ∧
      ∃ next, depthAfter? depth t = some next ∧ freeDepth? next rest = some final := by
  unfold freeDepth? at free
  split at free
  · cases free
  · next goesOn => exact ⟨goesOn, Option.bind_eq_some_iff.mp free⟩

theorem freeDepth?_of_endDepth? {depth final : Nat} {tokens : List Token}
    (ends : endDepth? depth tokens = some final)
    (whole : ∀ before t behind, tokens = before ++ t :: behind → endDepth? depth before = some 0 →
      t.isComma = false) : freeDepth? depth tokens = some final := by
  induction tokens generalizing depth with
  | nil => exact ends
  | cons t rest ih =>
    obtain ⟨next, here, there⟩ := Option.bind_eq_some_iff.mp ends
    have goesOn : (t.isComma && depth == 0) = false := by
      by_cases zero : depth = 0
      · have other := whole [] t rest rfl (by rw [zero]; rfl)
        simp [other]
      · simp [zero]
    have further : ∀ before u behind, rest = before ++ u :: behind →
        endDepth? next before = some 0 → u.isComma = false := by
      intro before u behind same reached
      refine whole (t :: before) u behind (by rw [same]; rfl) ?_
      rw [endDepth?, here]
      exact reached
    simp only [freeDepth?, goesOn, here]
    exact ih there further

theorem endDepth?_of_freeDepth? {depth final : Nat} {tokens : List Token}
    (free : freeDepth? depth tokens = some final) : endDepth? depth tokens = some final := by
  induction tokens generalizing depth with
  | nil => exact free
  | cons t rest ih =>
    obtain ⟨_, next, here, there⟩ := freeDepth?_cons_eq_some free
    rw [endDepth?, here]
    exact ih there

theorem IsArgument.freeDepth? {span : List Token} (argument : IsArgument span) :
    freeDepth? 0 span = some 0 :=
  freeDepth?_of_endDepth? argument.balanced argument.whole

theorem isComma_of_freeDepth? {depth final : Nat} {before behind : List Token} {t : Token}
    (free : freeDepth? depth (before ++ t :: behind) = some final)
    (reached : endDepth? depth before = some 0) : t.isComma = false := by
  rw [freeDepth?_append] at free
  obtain ⟨here, ends, rest⟩ := Option.bind_eq_some_iff.mp free
  rw [endDepth?_of_freeDepth? ends] at reached
  cases reached
  simpa using (freeDepth?_cons_eq_some rest).1

theorem isArgument_iff {span : List Token} :
    IsArgument span ↔ span ≠ [] ∧ freeDepth? 0 span = some 0 := by
  constructor
  · exact fun argument => ⟨argument.nonempty, argument.freeDepth?⟩
  · rintro ⟨nonempty, free⟩
    refine ⟨nonempty, endDepth?_of_freeDepth? free, fun before t behind same reached => ?_⟩
    rw [same] at free
    exact isComma_of_freeDepth? free reached

instance (span : List Token) : Decidable (IsArgument span) := decidable_of_iff _ isArgument_iff.symm

theorem freeDepth?_inner {depth final : Nat} {tokens : List Token}
    (ends : endDepth? depth tokens = some final) (around : Nat) :
    freeDepth? (depth + (around + 1)) tokens = some (final + (around + 1)) := by
  induction tokens generalizing depth with
  | nil =>
    cases ends
    rfl
  | cons t rest ih =>
    obtain ⟨next, here, there⟩ := Option.bind_eq_some_iff.mp ends
    have inside : (t.isComma && depth + (around + 1) == 0) = false := by simp
    simp only [freeDepth?, inside, depthAfter?_add here]
    exact ih there

theorem isComma_of_category {t : Token} (other : t.category ≠ .grouping) : t.isComma = false :=
  Token.not_isGrouping other .comma

theorem isComma_of_bracket {t : Token} (bracket : t.isOpening = true ∨ t.isClosing = true) :
    t.isComma = false := by
  cases comma : t.isComma with
  | false => rfl
  | true =>
    simp only [Token.isComma, Token.isGrouping, beq_iff_eq] at comma
    simp [Token.isOpening, Token.isClosing, Token.isGrouping, comma] at bracket

theorem IsCall.freeDepth? {head opening closing : Token} {inner : List Token}
    (call : IsCall head opening inner closing) (depth : Nat) :
    freeDepth? depth (head :: opening :: (inner ++ [closing])) = some depth := by
  have function : head.category ≠ .grouping := by
    rw [call.function]
    decide
  have within := freeDepth?_inner call.balanced depth
  rw [Nat.zero_add] at within
  rw [freeDepth?_cons (isComma_of_category function), depthAfter?_of_category function,
    Option.bind_some, freeDepth?_cons (isComma_of_bracket (.inl call.opens)),
    depthAfter?_of_isOpening call.opens, Option.bind_some, freeDepth?_append, within,
    Option.bind_some, freeDepth?_cons (isComma_of_bracket (.inr call.closes)),
    depthAfter?_of_isClosing call.closes]
  rfl

theorem IsArgument.answered {book : RuleBook} {span answered : List Token}
    (argument : IsArgument span) (done : book.answerCalls span = .ok answered) :
    IsArgument answered := by
  refine (RuleBook.answerCalls_preserves (fun tokens m after found rewritten before => ?_)
    done argument).1
  obtain ⟨front, behind, head, opening, inner, closing, v, call, rfl, rfl⟩ :=
    RuleBook.rewrite_call found rewritten
  have value (depth : Nat) :
      Formulary.freeDepth? depth (.data v :: behind) = Formulary.freeDepth? depth behind := by
    rw [freeDepth?_cons (isComma_of_category (category_data v)),
      depthAfter?_of_category (category_data v), Option.bind_some]
  have whole := before.freeDepth?
  simp only [freeDepth?_append, call.freeDepth?, Option.bind_some] at whole
  refine isArgument_iff.mpr ⟨by simp, ?_⟩
  simp only [freeDepth?_append, value]
  exact whole

theorem depthAfter?_zero_of_isClosing {t : Token} (closes : t.isClosing = true) :
    depthAfter? 0 t = none := by
  simp [depthAfter?, closes, isOpening_of_isClosing closes]

theorem runLength_of_freeDepth? {depth : Nat} {span : List Token}
    (free : freeDepth? depth span = some 0) {stop : Token}
    (stops : stop.isComma = true ∨ stop.isClosing = true) (more : List Token) :
    runLength false depth (span ++ stop :: more) = span.length := by
  induction span generalizing depth with
  | nil =>
    cases free
    rcases stops with comma | closing
    · simp [runLength, depthAfter?_comma comma, comma]
    · simp [runLength, depthAfter?_zero_of_isClosing closing]
  | cons t span ih =>
    obtain ⟨goesOn, next, here, there⟩ := freeDepth?_cons_eq_some free
    have inside : (t.isComma && depth == 0 && !false) = false := by simpa using goesOn
    simp only [List.cons_append, runLength, here, inside, Bool.false_eq_true, if_false, ih there,
      List.length_cons]

theorem runLength_of_endDepth? {depth : Nat} {tokens : List Token}
    (balanced : endDepth? depth tokens = some 0) {stop : Token} (stops : stop.isClosing = true)
    (more : List Token) : runLength true depth (tokens ++ stop :: more) = tokens.length := by
  induction tokens generalizing depth with
  | nil =>
    cases balanced
    simp [runLength, depthAfter?_zero_of_isClosing stops]
  | cons t rest ih =>
    obtain ⟨next, here, there⟩ := Option.bind_eq_some_iff.mp balanced
    simp [runLength, here, ih there]

theorem pieces_of_freeDepth? {depth : Nat} {span : List Token}
    (free : freeDepth? depth span = some 0) : pieces depth span = [span] ∧
      ∀ stop more, stop.isComma = true →
        pieces depth (span ++ stop :: more) = span :: pieces 0 more := by
  induction span generalizing depth with
  | nil =>
    cases free
    constructor
    · rfl
    · intro stop more comma
      simp [pieces, depthAfter?_comma comma, comma]
  | cons t span ih =>
    obtain ⟨goesOn, next, here, there⟩ := freeDepth?_cons_eq_some free
    obtain ⟨alone, followed⟩ := ih there
    constructor
    · simp only [pieces, here, if_neg goesOn, alone]
      rfl
    · intro stop more comma
      simp only [List.cons_append, pieces, here, if_neg goesOn, followed stop more comma]
      rfl

end Formulary
