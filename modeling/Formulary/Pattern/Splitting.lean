import Formulary.Pattern

/-!
The scans over runs of tokens, one in terms of the other. A stretch is split where its runs end, and
the loop over a list of arguments goes from piece to piece.
-/
namespace Formulary

theorem depthAfter?_comma {t : Token} (comma : t.isComma = true) (depth : Nat) :
    depthAfter? depth t = some depth := by
  simp only [Token.isComma, Token.isGrouping, beq_iff_eq] at comma
  simp [depthAfter?, Token.isOpening, Token.isClosing, Token.isGrouping, comma]

theorem runLength_take (throughCommas : Bool) (depth k : Nat) (tokens : List Token) :
    runLength throughCommas depth (tokens.take k) =
      min k (runLength throughCommas depth tokens) := by
  induction tokens generalizing depth k with
  | nil => simp [runLength]
  | cons t rest ih =>
    cases k with
    | zero => simp [runLength]
    | succ k =>
      simp only [List.take_succ_cons, runLength]
      split
      · rfl
      · split
        · rfl
        · rw [ih, Nat.succ_min_succ]

/-- The first piece is the first run, and the token behind it is dropped. -/
theorem pieces_eq (depth : Nat) (tokens : List Token) :
    pieces depth tokens = tokens.take (runLength false depth tokens) ::
      match tokens.drop (runLength false depth tokens) with
      | [] => []
      | _ :: behind => pieces 0 behind := by
  induction tokens generalizing depth with
  | nil => rfl
  | cons t rest ih =>
    cases next : depthAfter? depth t with
    | none => simp [pieces, runLength, next]
    | some inner =>
      cases stops : t.isComma && depth == 0 with
      | true => simp [pieces, runLength, next, stops]
      | false => simp [pieces, runLength, next, stops, ih inner, extendPiece]

theorem runLength_through (depth : Nat) (tokens : List Token) :
    runLength true depth tokens = runLength false depth tokens +
      match tokens.drop (runLength false depth tokens) with
      | [] => 0
      | t :: behind => if t.isComma then runLength true 0 behind + 1 else 0 := by
  induction tokens generalizing depth with
  | nil => rfl
  | cons t rest ih =>
    cases comma : t.isComma with
    | true =>
      have through := depthAfter?_comma comma depth
      cases depth with
      | zero => simp [runLength, through, comma]
      | succ depth =>
        simp only [runLength, through, ih (depth + 1)]
        simp
        omega
    | false =>
      cases next : depthAfter? depth t with
      | none => simp [runLength, next, comma]
      | some inner =>
        simp [runLength, next, comma, ih inner]
        omega

theorem run_or_comma (tokens : List Token) :
    runLength true 0 tokens = runLength false 0 tokens ∨
      ∃ comma behind, tokens.drop (runLength false 0 tokens) = comma :: behind ∧
        comma.isComma = true ∧
        runLength true 0 tokens = runLength false 0 tokens + 1 + runLength true 0 behind := by
  have whole := runLength_through 0 tokens
  cases rest : tokens.drop (runLength false 0 tokens) with
  | nil =>
    rw [rest] at whole
    exact .inl whole
  | cons t behind =>
    rw [rest] at whole
    cases comma : t.isComma with
    | false =>
      simp only [comma] at whole
      exact .inl whole
    | true =>
      simp only [comma, if_true] at whole
      exact .inr ⟨t, behind, rfl, comma, by omega⟩

theorem isEmpty_take_run (throughCommas : Bool) (tokens : List Token) :
    (tokens.take (runLength throughCommas 0 tokens)).isEmpty =
      (runLength throughCommas 0 tokens == 0) := by
  have size := List.length_take_of_le (runLength_le throughCommas 0 tokens)
  rw [Bool.eq_iff_iff, List.isEmpty_iff_length_eq_zero, size, beq_iff_eq]

theorem pieces_run (tokens : List Token) :
    pieces 0 (tokens.take (runLength false 0 tokens)) =
      [tokens.take (runLength false 0 tokens)] := by
  rw [pieces_eq, runLength_take, Nat.min_self, List.take_take, Nat.min_self,
    List.drop_eq_nil_of_le (List.length_take_le _ tokens)]

theorem pieces_comma {tokens behind : List Token} {comma : Token}
    (rest : tokens.drop (runLength false 0 tokens) = comma :: behind) (more : Nat) :
    pieces 0 (tokens.take (runLength false 0 tokens + 1 + more)) =
      tokens.take (runLength false 0 tokens) :: pieces 0 (behind.take more) := by
  have short : runLength false 0 (tokens.take (runLength false 0 tokens + 1 + more)) =
      runLength false 0 tokens := by
    rw [runLength_take]
    omega
  have left : (tokens.take (runLength false 0 tokens + 1 + more)).drop (runLength false 0 tokens) =
      comma :: behind.take more := by
    rw [List.drop_take, rest, Nat.add_assoc, Nat.add_sub_cancel_left, Nat.add_comm 1,
      List.take_succ_cons]
  rw [pieces_eq, short, left, List.take_take]
  congr 2
  omega

/-! The loop over a list of arguments -/

/-- One turn: what is left of the tokens is one run, or the loop goes on behind a comma. -/
theorem turn_step {tokens : List Token} {stop cursor : Nat}
    (ends : cursor + runLength true 0 (tokens.drop cursor) = stop) :
    let taken := runLength false 0 (tokens.drop cursor)
    let first := (tokens.drop cursor).take taken
    let next := cursor + taken + 1
    (cursor + taken = stop ∧ pieces 0 ((tokens.drop cursor).take (stop - cursor)) = [first]) ∨
      (next + runLength true 0 (tokens.drop next) = stop ∧
        pieces 0 ((tokens.drop cursor).take (stop - cursor)) =
          first :: pieces 0 ((tokens.drop next).take (stop - next))) := by
  intro taken first next
  have left : stop - cursor = runLength true 0 (tokens.drop cursor) := by omega
  rw [left]
  rcases run_or_comma (tokens.drop cursor) with whole | ⟨comma, behind, rest, _, total⟩
  · refine .inl ⟨by omega, ?_⟩
    rw [whole, pieces_run]
  · have later : tokens.drop next = behind := by
      rw [show next = cursor + (taken + 1) from rfl, ← List.drop_drop, ← List.drop_drop, rest]
      rfl
    have more : stop - next = runLength true 0 behind := by omega
    refine .inr ⟨by rw [later]; omega, ?_⟩
    rw [later, more, total, pieces_comma rest]

theorem argumentsEnd?_eq {tokens : List Token} {stop cursor : Nat}
    (ends : cursor + runLength true 0 (tokens.drop cursor) = stop) :
    argumentsEnd? tokens stop cursor =
      if (pieces 0 ((tokens.drop cursor).take (stop - cursor))).all (!·.isEmpty) then some stop
      else none := by
  fun_induction argumentsEnd? tokens stop cursor with
  | case1 cursor taken nothing =>
    have first := isEmpty_take_run false (tokens.drop cursor)
    rw [beq_iff_eq.mpr nothing] at first
    rcases turn_step ends with ⟨_, split⟩ | ⟨_, split⟩ <;>
      rw [split, List.all_cons, first, Bool.not_true, Bool.false_and, if_neg Bool.false_ne_true]
  | case2 cursor taken some_token reached =>
    have first := isEmpty_take_run false (tokens.drop cursor)
    rw [beq_eq_false_iff_ne.mpr some_token] at first
    rcases turn_step ends with ⟨_, split⟩ | ⟨further, _⟩
    · rw [split, List.all_cons, first]
      rfl
    · omega
  | case3 cursor taken some_token short ih =>
    have first := isEmpty_take_run false (tokens.drop cursor)
    rw [beq_eq_false_iff_ne.mpr some_token] at first
    rcases turn_step ends with ⟨whole, _⟩ | ⟨further, split⟩
    · exact absurd whole short
    · rw [ih further, split, List.all_cons, first, Bool.not_false, Bool.true_and]

theorem argumentsLength?_eq (tokens : List Token) :
    argumentsLength? tokens =
      if (splitArguments (tokens.take (runLength true 0 tokens))).all (!·.isEmpty) then
        some (runLength true 0 tokens)
      else none := by
  unfold argumentsLength? splitArguments
  rw [isEmpty_take_run]
  by_cases nothing : runLength true 0 tokens = 0
  · simp [nothing]
  · have ends : 0 + runLength true 0 (tokens.drop 0) = runLength true 0 tokens := Nat.zero_add _
    rw [beq_eq_false_iff_ne.mpr nothing, if_neg nothing, argumentsEnd?_eq ends]
    rfl

theorem argumentsLength?_eq_some {tokens : List Token} {n : Nat}
    (found : argumentsLength? tokens = some n) : n = runLength true 0 tokens := by
  rw [argumentsLength?_eq] at found
  split at found
  · exact (Option.some.inj found).symm
  · cases found

end Formulary
