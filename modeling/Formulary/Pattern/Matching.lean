import Formulary.Pattern.Splitting

/-! What tokens look like that a pattern has matched. -/
namespace Formulary

theorem depthAfter?_eq_none {depth : Nat} {t : Token} (unmatched : depthAfter? depth t = none) :
    depth = 0 := by
  unfold depthAfter? at unmatched
  split at unmatched
  · cases unmatched
  · split at unmatched
    · cases depth with
      | zero => rfl
      | succ depth => cases unmatched
    · cases unmatched

theorem endDepth?_take_runLength (throughCommas : Bool) (depth : Nat) (tokens : List Token) :
    ∃ final, endDepth? depth (tokens.take (runLength throughCommas depth tokens)) = some final ∧
      (tokens.drop (runLength throughCommas depth tokens) ≠ [] → final = 0) := by
  induction tokens generalizing depth with
  | nil => exact ⟨depth, rfl, fun more => absurd rfl more⟩
  | cons t rest ih =>
    cases next : depthAfter? depth t with
    | none =>
      refine ⟨depth, ?_, fun _ => depthAfter?_eq_none next⟩
      simp [runLength, next, endDepth?]
    | some inner =>
      by_cases stops : (t.isComma && depth == 0 && !throughCommas) = true
      · refine ⟨depth, ?_, fun _ => ?_⟩
        · simp [runLength, next, stops, endDepth?]
        · simp only [Bool.and_eq_true, beq_iff_eq] at stops
          exact stops.1.2
      · obtain ⟨final, ends, closed⟩ := ih inner
        refine ⟨final, ?_, ?_⟩
        · simp [runLength, next, stops, endDepth?, ends]
        · simpa [runLength, next, stops] using closed

namespace Matcher

theorem take?_one {m : Matcher} {categories : List Category} {symbols : List Symbol}
    (shape : m.shape = .one categories symbols) {atStart : Bool} {tokens : List Token} {n : Nat}
    (taken : m.take? atStart tokens = some n) :
    ∃ t rest, tokens = t :: rest ∧ m.accepts t = true ∧ n = 1 := by
  unfold take? at taken
  split at taken
  · cases taken
  · rw [shape] at taken
    cases tokens with
    | nil => cases taken
    | cons t rest =>
      by_cases accepted : m.accepts t = true
      · simp only [accepted, if_true, Option.some.injEq] at taken
        exact ⟨t, rest, rfl, accepted, taken.symm⟩
      · simp [accepted] at taken

theorem take?_balanced {m : Matcher}
    (shape : ∀ categories symbols, m.shape ≠ .one categories symbols)
    {atStart : Bool} {tokens : List Token} {n : Nat} (taken : m.take? atStart tokens = some n)
    (more : tokens.drop n ≠ []) : endDepth? 0 (tokens.take n) = some 0 := by
  have balanced (throughCommas : Bool) (run : n = runLength throughCommas 0 tokens) :
      endDepth? 0 (tokens.take n) = some 0 := by
    obtain ⟨final, ends, closed⟩ := endDepth?_take_runLength throughCommas 0 tokens
    rw [← run] at ends closed
    rw [ends, closed more]
  unfold take? at taken
  split at taken
  · cases taken
  · cases kind : m.shape with
    | one categories symbols => exact absurd kind (shape categories symbols)
    | run =>
      simp only [kind] at taken
      split at taken
      · cases taken
      · exact balanced false (Option.some.inj taken).symm
    | optionalRun =>
      simp only [kind] at taken
      exact balanced false (Option.some.inj taken).symm
    | arguments =>
      simp only [kind] at taken
      exact balanced true (argumentsLength?_eq_some taken)

theorem isClosing_of_accepts {t : Token} (accepted : closing.accepts t = true) :
    t.isClosing = true := by
  cases symbol : t.symbol? <;>
    simp_all [accepts, closing, grouping, categories, symbols, Token.isClosing, Token.isGrouping]

theorem isOpening_of_accepts {t : Token}
    (accepted : opening.accepts t = true ∨ callOpening.accepts t = true) : t.isOpening = true := by
  rcases accepted with accepted | accepted <;> cases symbol : t.symbol? <;>
    simp_all [accepts, opening, callOpening, grouping, categories, symbols, Token.isOpening,
      Token.isGrouping]

theorem isComma_of_accepts {t : Token} (accepted : comma.accepts t = true) : t.isComma = true := by
  cases symbol : t.symbol? <;>
    simp_all [accepts, comma, grouping, categories, symbols, Token.isComma, Token.isGrouping]

end Matcher

namespace Pattern

theorem take?_cons {m : Matcher} {rest : Pattern} {atStart : Bool} {tokens : List Token} {n : Nat}
    (taken : take? (m :: rest) atStart tokens = some n) :
    ∃ first others, m.take? atStart tokens = some first ∧
      take? rest (atStart && first == 0) (tokens.drop first) = some others ∧
      n = first + others := by
  simp only [take?, Option.bind_eq_bind, Option.bind_eq_some_iff] at taken
  obtain ⟨first, here, others, there, sum⟩ := taken
  exact ⟨first, others, here, there, (Option.some.inj sum).symm⟩

def Accepts : Pattern → List Token → Prop
  | [], [] => True
  | m :: pattern, t :: tokens => m.accepts t = true ∧ Accepts pattern tokens
  | _, _ => False

theorem accepts_of_take? {pattern : Pattern}
    (single : ∀ m ∈ pattern, ∃ categories symbols, m.shape = .one categories symbols)
    {atStart : Bool} {tokens : List Token} {n : Nat}
    (taken : pattern.take? atStart tokens = some n) :
    pattern.Accepts (tokens.take n) := by
  induction pattern generalizing atStart tokens n with
  | nil =>
    have : n = 0 := by simpa [take?] using taken.symm
    simp [this, Accepts]
  | cons m pattern ih =>
    obtain ⟨first, others, here, there, rfl⟩ := take?_cons taken
    obtain ⟨_, _, shape⟩ := single m (by simp)
    obtain ⟨t, rest, rfl, accepted, rfl⟩ := Matcher.take?_one shape here
    rw [Nat.add_comm]
    exact ⟨accepted, ih (fun m member => single m (by simp [member])) there⟩

def Enclosed (pattern : Pattern) : Prop :=
  ∀ {atStart : Bool} {tokens : List Token} {n : Nat},
    take? (pattern ++ [.closing]) atStart tokens = some n →
      ∃ inner closing, tokens.take n = inner ++ [closing] ∧ closing.isClosing = true ∧
        endDepth? 0 inner = some 0

theorem enclosed_nil : Enclosed [] := by
  intro atStart tokens n taken
  obtain ⟨first, others, here, there, rfl⟩ := take?_cons taken
  obtain ⟨t, rest, rfl, accepted, rfl⟩ := Matcher.take?_one rfl here
  have : others = 0 := by simpa [take?] using there.symm
  exact ⟨[], t, by simp [this], Matcher.isClosing_of_accepts accepted, rfl⟩

theorem append_inner {tokens inner : List Token} {closing : Token} {first others : Nat}
    (balanced : endDepth? 0 (tokens.take first) = some 0)
    (rest : (tokens.drop first).take others = inner ++ [closing])
    (ends : endDepth? 0 inner = some 0) :
    tokens.take (first + others) = (tokens.take first ++ inner) ++ [closing] ∧
      endDepth? 0 (tokens.take first ++ inner) = some 0 := by
  constructor
  · rw [List.take_add, rest, List.append_assoc]
  · rw [endDepth?_append, balanced]
    exact ends

theorem enclosed_cons {m : Matcher} {pattern : Pattern}
    (shape : ∀ categories symbols, m.shape ≠ .one categories symbols)
    (enclosed : Enclosed pattern) :
    Enclosed (m :: pattern) := by
  intro atStart tokens n taken
  obtain ⟨first, others, here, there, rfl⟩ := take?_cons taken
  obtain ⟨inner, closing, rest, closes, ends⟩ := enclosed there
  have more : tokens.drop first ≠ [] := by
    intro nothing
    simp [nothing] at rest
  have whole := append_inner (Matcher.take?_balanced shape here more) rest ends
  exact ⟨_, closing, whole.1, closes, whole.2⟩

theorem enclosed_comma {pattern : Pattern} (enclosed : Enclosed pattern) :
    Enclosed (.comma :: pattern) := by
  intro atStart tokens n taken
  obtain ⟨first, others, here, there, rfl⟩ := take?_cons taken
  obtain ⟨inner, closing, rest, closes, ends⟩ := enclosed there
  obtain ⟨t, behind, rfl, accepted, rfl⟩ := Matcher.take?_one rfl here
  have balanced : endDepth? 0 ((t :: behind).take 1) = some 0 := by
    simp [endDepth?, depthAfter?_comma (Matcher.isComma_of_accepts accepted)]
  have whole := append_inner balanced rest ends
  exact ⟨_, closing, whole.1, closes, whole.2⟩

theorem enclosed_runs (names : List String) :
    Enclosed ((names.map fun _ => Matcher.run).intersperse .comma) := by
  induction names with
  | nil => exact enclosed_nil
  | cons name names ih =>
    cases names with
    | nil => exact enclosed_cons (by simp [Matcher.run]) enclosed_nil
    | cons next names => exact enclosed_cons (by simp [Matcher.run]) (enclosed_comma ih)

end Pattern

end Formulary
