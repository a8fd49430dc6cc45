import Formulary.Proofs.CallSites

/-!
Calls of registered functions are answered where they stand, before anything else is evaluated. In
parts of the tokens that no call goes across they are answered as they would be on their own.
-/
namespace Formulary

structure IsCall (head opening : Token) (inner : List Token) (closing : Token) : Prop where
  function : head.category = .function
  opens : opening.isOpening = true
  closes : closing.isClosing = true
  balanced : endDepth? 0 inner = some 0

theorem isOpening_of_isClosing {t : Token} (closes : t.isClosing = true) :
    t.isOpening = false := by
  simp only [Token.isClosing, Token.isGrouping, beq_iff_eq] at closes
  simp [Token.isOpening, Token.isGrouping, closes]

theorem depthAfter?_of_isClosing {t : Token} (closes : t.isClosing = true) (depth : Nat) :
    depthAfter? (depth + 1) t = some depth := by
  simp [depthAfter?, closes, isOpening_of_isClosing closes]

theorem IsCall.endDepth? {head opening closing : Token} {inner : List Token}
    (call : IsCall head opening inner closing) (depth : Nat) :
    endDepth? depth (head :: opening :: (inner ++ [closing])) = some depth := by
  have function : head.category ≠ .grouping := by
    rw [call.function]
    decide
  have within := endDepth?_add call.balanced (depth + 1)
  rw [Nat.zero_add] at within
  simp only [Formulary.endDepth?, depthAfter?_of_category function,
    depthAfter?_of_isOpening call.opens, Option.bind_some, endDepth?_append, within,
    depthAfter?_of_isClosing call.closes]

theorem category_data (v : Value) : (Token.data v).category ≠ .grouping := by
  cases v <;> simp [Token.data, Token.category, Value.category]

namespace RuleBook

variable {book : RuleBook}

theorem findCall?_take {tokens : List Token} {m : RuleMatch}
    (found : book.findCall? tokens = some m) :
    ∃ head opening inner closing, IsCall head opening inner closing ∧
      m.stretch.select tokens = head :: opening :: (inner ++ [closing]) := by
  obtain ⟨d, _, _, taken⟩ := findCall?_eq_some found
  obtain ⟨head, opening, inner, closing, same, function, opens, closes, balanced⟩ :=
    Pattern.take?_call d.enclosed rfl taken
  exact ⟨head, opening, inner, closing, ⟨function, opens, closes, balanced⟩, same⟩

theorem findCall?_inside {tokens : List Token} {m : RuleMatch}
    (found : book.findCall? tokens = some m) :
    m.stretch.start + m.stretch.length ≤ tokens.length := by
  obtain ⟨d, _, _, taken⟩ := findCall?_eq_some found
  obtain ⟨head, opening, inner, closing, _, same⟩ := findCall?_take found
  have short := Pattern.take?_le taken
  have size := congrArg List.length same
  simp only [Stretch.select, List.length_take, List.length_drop, List.length_cons,
    List.length_append] at short size
  omega

theorem rewrite_call {tokens : List Token} {m : RuleMatch}
    (found : book.findCall? tokens = some m) {after : List Token}
    (done : book.rewrite tokens m = .ok after) :
    ∃ before behind head opening inner closing v, IsCall head opening inner closing ∧
      tokens = before ++ (head :: opening :: (inner ++ [closing]) ++ behind) ∧
      after = before ++ (.data v :: behind) := by
  obtain ⟨d, _, rule, _⟩ := findCall?_eq_some found
  obtain ⟨head, opening, inner, closing, call, same⟩ := findCall?_take found
  obtain ⟨replaced, yields, rfl⟩ := yields_of_rewrite done
  have value : ∃ v, replaced = [.data v] := by
    rw [rule] at yields
    rcases Action.yields_cases yields with value | ⟨_, _, _, _, _, range, _⟩
    · exact value
    · cases range
  obtain ⟨v, rfl⟩ := value
  have whole := m.stretch.splice_select tokens
  rw [same] at whole
  refine ⟨tokens.take m.stretch.start, tokens.drop (m.stretch.start + m.stretch.length),
    head, opening, inner, closing, v, call, ?_, ?_⟩
  · rw [← List.append_assoc]
    exact whole.symm
  · simp [Stretch.splice]

theorem endDepth?_rewrite {tokens : List Token} {m : RuleMatch}
    (found : book.findCall? tokens = some m) {after : List Token}
    (done : book.rewrite tokens m = .ok after) (depth : Nat) :
    endDepth? depth after = endDepth? depth tokens := by
  obtain ⟨before, behind, head, opening, inner, closing, v, call, rfl, rfl⟩ :=
    rewrite_call found done
  have value (inner : Nat) : endDepth? inner (.data v :: behind) = endDepth? inner behind := by
    rw [endDepth?, depthAfter?_of_category (category_data v), Option.bind_some]
  simp only [endDepth?_append, call.endDepth?, value, Option.bind_some]

/-! A part of the tokens -/

theorem rewrite_append_right (book : RuleBook) {left : List Token} {m : RuleMatch}
    (inside : m.stretch.start + m.stretch.length ≤ left.length) (right : List Token) :
    book.rewrite (left ++ right) m = (book.rewrite left m).map (· ++ right) := by
  have selected : m.stretch.select (left ++ right) = m.stretch.select left := by
    unfold Stretch.select
    rw [List.drop_append_of_le_length (by omega),
      List.take_append_of_le_length (by rw [List.length_drop]; omega)]
  have spliced (replaced : List Token) :
      m.stretch.splice (left ++ right) replaced = m.stretch.splice left replaced ++ right := by
    unfold Stretch.splice
    rw [List.take_append_of_le_length (by omega), List.drop_append_of_le_length inside]
    simp only [List.append_assoc]
  unfold rewrite
  rw [selected]
  cases book.replacement (m.rule.action.plan (m.stretch.select left)) with
  | error e => rfl
  | ok replaced => exact congrArg Except.ok (spliced replaced)

theorem rewrite_append_left (book : RuleBook) (left right : List Token) (m : RuleMatch) :
    book.rewrite (left ++ right) (m.shift left.length) =
      (book.rewrite right m).map (left ++ ·) := by
  have rule : (m.shift left.length).rule = m.rule := rfl
  have selected : (m.shift left.length).stretch.select (left ++ right) =
      m.stretch.select right := by
    simp only [Stretch.select, RuleMatch.shift, Stretch.shift]
    rw [Nat.add_comm, List.drop_length_add_append]
  have spliced (replaced : List Token) :
      (m.shift left.length).stretch.splice (left ++ right) replaced =
        left ++ m.stretch.splice right replaced := by
    simp only [Stretch.splice, RuleMatch.shift, Stretch.shift]
    rw [Nat.add_comm m.stretch.start, List.take_length_add_append, Nat.add_assoc,
      List.drop_length_add_append]
    simp only [List.append_assoc]
  unfold rewrite
  rw [rule, selected]
  cases book.replacement (m.rule.action.plan (m.stretch.select right)) with
  | error e => rfl
  | ok replaced => exact congrArg Except.ok (spliced replaced)

/-! Calls, one after the other -/

/-- The tokens when no call is left among them, each being replaced by its value. -/
def answerCalls (book : RuleBook) (tokens : List Token) : Outcome (List Token) :=
  match _found : book.findCall? tokens with
  | none => .ok tokens
  | some m =>
    match _done : book.rewrite tokens m with
    | .error e => .error e
    | .ok after => answerCalls book after
termination_by weight tokens
decreasing_by exact rewrite_lighter (find?_of_findCall? _found) _done

theorem answerCalls_none {tokens : List Token} (none : book.findCall? tokens = none) :
    book.answerCalls tokens = .ok tokens := by
  rw [answerCalls]
  split
  · rfl
  · next found => rw [none] at found; cases found

theorem answerCalls_some {tokens : List Token} {m : RuleMatch}
    (found : book.findCall? tokens = some m) :
    book.answerCalls tokens = book.rewrite tokens m >>= book.answerCalls := by
  rw [answerCalls]
  split
  · next none => rw [found] at none; cases none
  · next other here =>
    obtain rfl := Option.some.inj (here.symm.trans found)
    split
    · next failed => rw [failed]; rfl
    · next done => rw [done]; rfl

theorem answerCalls_error {tokens : List Token} {m : RuleMatch}
    (found : book.findCall? tokens = some m) {e : FormulaError}
    (failed : book.rewrite tokens m = .error e) : book.answerCalls tokens = .error e := by
  rw [answerCalls_some found, failed]
  rfl

theorem answerCalls_ok {tokens : List Token} {m : RuleMatch}
    (found : book.findCall? tokens = some m) {after : List Token}
    (done : book.rewrite tokens m = .ok after) :
    book.answerCalls tokens = book.answerCalls after := by
  rw [answerCalls_some found, done]
  rfl

theorem answerCalls_preserves {P : List Token → Prop}
    (step : ∀ tokens m after, book.findCall? tokens = some m →
      book.rewrite tokens m = .ok after → P tokens → P after)
    {tokens answered : List Token} (done : book.answerCalls tokens = .ok answered)
    (before : P tokens) : P answered ∧ book.findCall? answered = none := by
  induction size : weight tokens using Nat.strongRecOn generalizing tokens with
  | ind n ih =>
    cases found : book.findCall? tokens with
    | none =>
      rw [answerCalls_none found] at done
      cases done
      exact ⟨before, found⟩
    | some m =>
      rw [answerCalls_some found] at done
      obtain ⟨after, rewritten, done⟩ := bind_eq_ok.mp done
      have lighter := rewrite_lighter (find?_of_findCall? found) rewritten
      exact ih _ (size ▸ lighter) done (step tokens m after found rewritten before) rfl

theorem evaluate_answerCalls (book : RuleBook) (tokens : List Token) :
    book.evaluate tokens = book.answerCalls tokens >>= book.evaluate := by
  induction size : weight tokens using Nat.strongRecOn generalizing tokens with
  | ind n ih =>
    cases found : book.findCall? tokens with
    | none =>
      rw [answerCalls_none found]
      rfl
    | some m =>
      have long : ¬ tokens.length ≤ 1 := by
        obtain ⟨head, opening, inner, closing, _, same⟩ := findCall?_take found
        have size := congrArg List.length same
        simp only [Stretch.select, List.length_take, List.length_drop, List.length_cons] at size
        omega
      rw [evaluate_step book long (find?_of_findCall? found), answerCalls_some found, bind_assoc]
      cases rewritten : book.rewrite tokens m with
      | error e => rfl
      | ok after =>
        have lighter := rewrite_lighter (find?_of_findCall? found) rewritten
        exact ih _ (size ▸ lighter) after rfl

/-- Calls on both sides of a token are answered apart from each other, in some order: all of them
    are answered, or one of the sides fails. -/
inductive AnsweredApart (book : RuleBook) (left : List Token) (t : Token) (right : List Token) :
    Prop where
  | answered (l r : List Token) : book.answerCalls left = .ok l → book.answerCalls right = .ok r →
      book.answerCalls (left ++ t :: right) = .ok (l ++ t :: r) → AnsweredApart book left t right
  | failed (e : FormulaError) :
      book.answerCalls left = .error e ∨ book.answerCalls right = .error e →
      book.answerCalls (left ++ t :: right) = .error e → AnsweredApart book left t right

theorem AnsweredApart.congr {left left' right right' : List Token} {t : Token}
    (sameLeft : book.answerCalls left = book.answerCalls left')
    (sameRight : book.answerCalls right = book.answerCalls right')
    (same : book.answerCalls (left ++ t :: right) = book.answerCalls (left' ++ t :: right'))
    (apart : book.AnsweredApart left' t right') : book.AnsweredApart left t right := by
  cases apart with
  | answered l r doneLeft doneRight done =>
    exact .answered l r (sameLeft.trans doneLeft) (sameRight.trans doneRight) (same.trans done)
  | failed e either failed =>
    refine .failed e ?_ (same.trans failed)
    rcases either with failedLeft | failedRight
    · exact .inl (sameLeft.trans failedLeft)
    · exact .inr (sameRight.trans failedRight)

theorem answeredApart {left : List Token} {t : Token} (parts : book.Parts left t)
    (right : List Token) : book.AnsweredApart left t right := by
  -- By induction on the weight: the next call belongs to one of the sides, where it is the next
  -- call as well.
  induction size : weight (left ++ t :: right) using Nat.strongRecOn generalizing left right with
  | ind n ih =>
    obtain ⟨noCall, someCall⟩ := findCall?_append parts right
    cases found : book.findCall? (left ++ t :: right) with
    | none =>
      obtain ⟨noLeft, noRight⟩ := noCall.mp found
      exact .answered left right (answerCalls_none noLeft) (answerCalls_none noRight)
        (answerCalls_none found)
    | some m =>
      rcases someCall m found with inLeft | ⟨m', inRight, rfl⟩
      · have whole := rewrite_append_right book (findCall?_inside inLeft) (t :: right)
        cases rewritten : book.rewrite left m with
        | error e =>
          rw [rewritten] at whole
          exact .failed e (.inl (answerCalls_error inLeft rewritten))
            (answerCalls_error found whole)
        | ok after =>
          rw [rewritten] at whole
          have apart : Matcher.callOpening.accepts t = false := by
            rcases parts.apart with rfl | apart
            · obtain ⟨_, _, _, _, _, same⟩ := findCall?_take inLeft
              simp [Stretch.select] at same
            · exact apart
          have balanced : endDepth? 0 after = some 0 := by
            rw [endDepth?_rewrite inLeft rewritten, parts.balanced]
          have lighter := rewrite_lighter (find?_of_findCall? found) whole
          exact .congr (answerCalls_ok inLeft rewritten) rfl (answerCalls_ok found whole)
            (ih _ (size ▸ lighter) ⟨parts.begins, balanced, .inr apart⟩ right rfl)
      · have split : left ++ t :: right = (left ++ [t]) ++ right := by simp
        have place : left.length + 1 = (left ++ [t]).length := by simp
        have whole := rewrite_append_left book (left ++ [t]) right m'
        rw [← place, ← split] at whole
        cases rewritten : book.rewrite right m' with
        | error e =>
          rw [rewritten] at whole
          exact .failed e (.inr (answerCalls_error inRight rewritten))
            (answerCalls_error found whole)
        | ok after =>
          have whole : book.rewrite (left ++ t :: right) (m'.shift (left.length + 1)) =
              .ok (left ++ t :: after) := by simpa [rewritten, Except.map] using whole
          have lighter := rewrite_lighter (find?_of_findCall? found) whole
          exact .congr rfl (answerCalls_ok inRight rewritten) (answerCalls_ok found whole)
            (ih _ (size ▸ lighter) parts after rfl)

theorem answerCalls_nil (book : RuleBook) : book.answerCalls [] = .ok [] := by
  refine answerCalls_none (findCall?_eq_none_iff.mpr fun d _ => ?_)
  rw [d.find?_eq]
  rfl

theorem answerCalls_cons {t : Token}
    (begins : ∀ d ∈ book.custom, (Matcher.function d.name).accepts t = false)
    (right : List Token) :
    book.answerCalls (t :: right) = (book.answerCalls right).map (t :: ·) := by
  have nothing := book.answerCalls_nil
  cases answeredApart ⟨begins, rfl, .inl rfl⟩ right with
  | answered l r doneLeft doneRight done =>
    rw [nothing] at doneLeft
    cases doneLeft
    rw [doneRight]
    exact done
  | failed e either failed =>
    rcases either with failedLeft | failedRight
    · rw [nothing] at failedLeft
      cases failedLeft
    · rw [failedRight]
      exact failed

theorem answerCalls_concat {left : List Token} {t : Token} (parts : book.Parts left t) :
    book.answerCalls (left ++ [t]) = (book.answerCalls left).map (· ++ [t]) := by
  have nothing := book.answerCalls_nil
  cases answeredApart parts [] with
  | answered l r doneLeft doneRight done =>
    rw [nothing] at doneRight
    cases doneRight
    rw [doneLeft]
    exact done
  | failed e either failed =>
    rcases either with failedLeft | failedRight
    · rw [failedLeft]
      exact failed
    · rw [nothing] at failedRight
      cases failedRight

end RuleBook

end Formulary
