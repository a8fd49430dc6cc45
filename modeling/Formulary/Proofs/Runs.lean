import Formulary.Proofs.FunctionCalls
import Formulary.Proofs.Reading

/-!
Runs by counting brackets. Tokens that close no bracket but their own are cut into runs at the
commas outside all brackets, and the pieces with these commas between are the tokens again.
-/
namespace Formulary

def ClosesOwn (run : List Token) : Prop :=
  ∀ front, front <+: run → closings front ≤ openings front

structure IsRun (run : List Token) : Prop where
  closesOwn : ClosesOwn run
  /-- A comma only stands where a bracket is open. -/
  enclosed : ∀ front comma behind, run = front ++ comma :: behind → comma.isComma = true →
    closings front < openings front

/-! Counting, and the scans -/

theorem closesOwn_iff {run : List Token} :
    ClosesOwn run ↔ ∃ depth, endDepth? 0 run = some depth := by
  constructor
  · intro own
    have whole := own run List.prefix_rfl
    refine ⟨openings run - closings run, endDepth?_eq_some_iff.mpr ⟨fun n => ?_, by omega⟩⟩
    rw [Nat.zero_add]
    exact own _ (List.take_prefix n run)
  · rintro ⟨depth, ends⟩ front begins
    have here := (endDepth?_eq_some_iff.mp ends).1 front.length
    rwa [← List.prefix_iff_eq_take.mp begins, Nat.zero_add] at here

theorem isRun_iff {run : List Token} : IsRun run ↔ ∃ depth, freeDepth? 0 run = some depth := by
  constructor
  · rintro ⟨own, enclosed⟩
    obtain ⟨depth, ends⟩ := closesOwn_iff.mp own
    refine ⟨depth, freeDepth?_of_endDepth? ends fun before t behind same reached => ?_⟩
    rw [Bool.eq_false_iff]
    intro comma
    have open_there := enclosed before t behind same comma
    have closed_there := (endDepth?_eq_some_iff.mp reached).2
    omega
  · rintro ⟨depth, free⟩
    have own : ClosesOwn run := closesOwn_iff.mpr ⟨depth, endDepth?_of_freeDepth? free⟩
    refine ⟨own, fun front comma behind same isComma => ?_⟩
    have begins : front <+: run := same ▸ List.prefix_append front (comma :: behind)
    refine Nat.lt_of_le_of_ne (own front begins) fun level => ?_
    -- If as many are closed as opened, the comma stands outside all brackets, where none may.
    have reached : endDepth? 0 front = some 0 := by
      refine endDepth?_eq_some_iff.mpr ⟨fun n => ?_, by omega⟩
      rw [Nat.zero_add]
      exact own _ ((List.take_prefix n front).trans begins)
    rw [same] at free
    rw [isComma_of_freeDepth? free reached] at isComma
    cases isComma

theorem IsRun.freeDepth?_of_closed {run : List Token} (isRun : IsRun run)
    (closed : closings run = openings run) : freeDepth? 0 run = some 0 := by
  obtain ⟨depth, free⟩ := isRun_iff.mp isRun
  have counted := (endDepth?_eq_some_iff.mp (endDepth?_of_freeDepth? free)).2
  obtain rfl : depth = 0 := by omega
  exact free

theorem runLength_eq_length_of_free {depth final : Nat} {run : List Token}
    (free : freeDepth? depth run = some final) : runLength false depth run = run.length := by
  induction run generalizing depth with
  | nil => rfl
  | cons t rest ih =>
    obtain ⟨goesOn, next, here, there⟩ := freeDepth?_cons_eq_some free
    have inside : (t.isComma && depth == 0 && !false) = false := by simpa using goesOn
    simp only [runLength, here, inside, Bool.false_eq_true, if_false, ih there, List.length_cons]

theorem runLength_eq_length_of_ends {depth final : Nat} {run : List Token}
    (ends : endDepth? depth run = some final) : runLength true depth run = run.length := by
  induction run generalizing depth with
  | nil => rfl
  | cons t rest ih =>
    obtain ⟨next, here, there⟩ := Option.bind_eq_some_iff.mp ends
    simp [runLength, here, ih there]

theorem IsRun.runLength {run : List Token} (isRun : IsRun run) :
    runLength false 0 run = run.length := by
  obtain ⟨_, free⟩ := isRun_iff.mp isRun
  exact runLength_eq_length_of_free free

theorem ClosesOwn.runLength {run : List Token} (own : ClosesOwn run) :
    runLength true 0 run = run.length := by
  obtain ⟨_, ends⟩ := closesOwn_iff.mp own
  exact runLength_eq_length_of_ends ends

/-! Splitting -/

theorem Token.content_of_isComma {t : Token} (comma : t.isComma = true) :
    t.content = .symbol (.grouping .comma) := by
  simp only [isComma, isGrouping, beq_iff_eq] at comma
  exact content_of_symbol? comma

theorem freeDepth?_take_runLength (depth : Nat) (tokens : List Token) :
    ∃ final, freeDepth? depth (tokens.take (runLength false depth tokens)) = some final ∧
      (tokens.drop (runLength false depth tokens) ≠ [] → final = 0) := by
  induction tokens generalizing depth with
  | nil => exact ⟨depth, rfl, fun more => absurd rfl more⟩
  | cons t rest ih =>
    cases next : depthAfter? depth t with
    | none =>
      exact ⟨depth, by simp [runLength, next, freeDepth?], fun _ => depthAfter?_eq_none next⟩
    | some inner =>
      cases stops : t.isComma && depth == 0 with
      | true =>
        refine ⟨depth, by simp [runLength, next, stops, freeDepth?], fun _ => ?_⟩
        simpa using (Bool.and_eq_true_iff.mp stops).2
      | false =>
        obtain ⟨final, ends, closed⟩ := ih inner
        refine ⟨final, ?_, ?_⟩
        · simp [runLength, next, stops, freeDepth?, ends]
        · simpa [runLength, next, stops] using closed

theorem IsRun.pieces {run : List Token} (isRun : IsRun run) : pieces 0 run = [run] := by
  have alone := pieces_run run
  rwa [isRun.runLength, List.take_length] at alone

/-- Tokens that close their own brackets are one run, or a run, a comma, and such tokens again. -/
theorem ClosesOwn.cut {run : List Token} (own : ClosesOwn run) :
    IsRun run ∨ ∃ first comma behind, run = first ++ comma :: behind ∧ IsRun first ∧
      closings first = openings first ∧ comma.isComma = true ∧ ClosesOwn behind := by
  obtain ⟨final, free, closed⟩ := freeDepth?_take_runLength 0 run
  have isRun : IsRun (run.take (Formulary.runLength false 0 run)) := isRun_iff.mpr ⟨final, free⟩
  rcases run_or_comma run with alone | ⟨comma, behind, rest, isComma, _⟩
  · rw [← alone, own.runLength, List.take_length] at isRun
    exact .inl isRun
  · rw [closed (by simp [rest])] at free
    have ends := endDepth?_of_freeDepth? free
    have counted := (endDepth?_eq_some_iff.mp ends).2
    have split : run = run.take (Formulary.runLength false 0 run) ++ comma :: behind := by
      rw [← rest, List.take_append_drop]
    have later : ClosesOwn behind := by
      obtain ⟨depth, whole⟩ := closesOwn_iff.mp own
      rw [split, endDepth?_append, ends, Option.bind_some, endDepth?, depthAfter?_comma isComma,
        Option.bind_some] at whole
      exact closesOwn_iff.mpr ⟨depth, whole⟩
    exact .inr ⟨_, comma, behind, split, isRun, by omega, isComma, later⟩

@[elab_as_elim]
theorem ClosesOwn.byCuts {motive : List Token → Prop} (alone : ∀ run, IsRun run → motive run)
    (further : ∀ first comma behind, IsRun first → closings first = openings first →
      comma.isComma = true → ClosesOwn behind → motive behind → motive (first ++ comma :: behind))
    {run : List Token} (own : ClosesOwn run) : motive run := by
  -- Induction on such tokens. What is behind a comma is shorter.
  rcases own.cut with isRun | ⟨first, comma, behind, split, isRun, closed, isComma, later⟩
  · exact alone run isRun
  · have shorter : behind.length < run.length := by
      rw [split, List.length_append, List.length_cons]
      omega
    rw [split]
    exact further first comma behind isRun closed isComma later (byCuts alone further later)
termination_by run.length

theorem pieces_closed {first behind : List Token} {comma : Token} (isRun : IsRun first)
    (closed : closings first = openings first) (isComma : comma.isComma = true) :
    pieces 0 (first ++ comma :: behind) = first :: pieces 0 behind :=
  (pieces_of_freeDepth? (isRun.freeDepth?_of_closed closed)).2 comma behind isComma

theorem ClosesOwn.separated {run : List Token} (own : ClosesOwn run) :
    Separated (pieces 0 run) run := by
  refine own.byCuts (fun run isRun => ?_) fun first comma behind isRun closed isComma _ ih => ?_
  · rw [isRun.pieces]
    exact .last run
  · rw [pieces_closed isRun closed isComma]
    rw [pieces_eq] at ih ⊢
    exact .cons (Token.content_of_isComma isComma) ih

theorem ClosesOwn.separated_splitArguments {run : List Token} (own : ClosesOwn run) :
    Separated (splitArguments run) run := by
  cases run with
  | nil => exact .none
  | cons t rest => exact own.separated

theorem ClosesOwn.freeDepth?_pieces {run : List Token} (own : ClosesOwn run) :
    closings run = openings run → ∀ piece ∈ pieces 0 run, freeDepth? 0 piece = some 0 := by
  refine own.byCuts (fun run isRun closed => ?_)
    fun first comma behind isRun closed isComma _ ih whole => ?_
  · rw [isRun.pieces]
    exact List.forall_mem_singleton.mpr (isRun.freeDepth?_of_closed closed)
  · have level := depthAfter?_count (depthAfter?_comma isComma 0)
    rw [closings_append, openings_append, closings_cons, openings_cons] at whole
    rw [pieces_closed isRun closed isComma]
    exact List.forall_mem_cons.mpr ⟨isRun.freeDepth?_of_closed closed, ih (by omega)⟩

end Formulary
