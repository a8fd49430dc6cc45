import Formulary.Proofs.Brackets

/-!
Steps in a part of the tokens. As long as rules for calls or groups match, a step whose match
begins in a part whose brackets close is the step that the part itself would take next.
-/
namespace Formulary

theorem Pattern.Bracketed.matchAt?_within {pattern : Pattern} (bracketed : pattern.Bracketed)
    {span : List Token} (balanced : endDepth? 0 span = some 0) {stop : Token}
    (apart : Matcher.callOpening.accepts stop = false) (left right : List Token) {start : Nat}
    (inside : start < span.length) :
    pattern.matchAt? (left ++ (span ++ stop :: right)) (left.length + start) =
      pattern.matchAt? span start := by
  have split := endDepth?_append 0 (span.take start) (span.drop start)
  rw [List.take_append_drop, balanced] at split
  obtain ⟨depth, _, closes⟩ := Option.bind_eq_some_iff.mp split.symm
  have nonempty : span.drop start ≠ [] := by
    rw [ne_eq, List.drop_eq_nil_iff]
    omega
  unfold matchAt?
  rw [List.drop_length_add_append, List.drop_append_of_le_length (Nat.le_of_lt inside)]
  exact bracketed.take?_append nonempty closes apart _ _ right

theorem Pattern.Bracketed.rejects {pattern : Pattern} (bracketed : pattern.Bracketed) {t : Token}
    {mark : Grouping} (content : t.content = .symbol (.grouping mark)) (other : mark ≠ .opening)
    (atStart : Bool) (rest : List Token) : pattern.take? atStart (t :: rest) = none := by
  cases bracketed with
  | call names inner =>
    have category : t.category = .grouping := Token.category_of_symbol content
    exact take?_cons_of_rejects ⟨_, _, rfl⟩
      (Matcher.rejects_of_category rfl (by rw [category]; decide)) _ _ _
  | group inner =>
    exact take?_cons_of_rejects ⟨_, _, rfl⟩ (Matcher.rejects_grouping content other) _ _ _

theorem Enclosing.several {matched : List Token} (enclosing : Enclosing matched) :
    2 ≤ matched.length := by
  cases enclosing <;> simp

theorem Plan.yields_ne_nil {action : Action} {matched replaced : List Token}
    (yields : (action.plan matched).Yields replaced) : replaced ≠ [] := by
  obtain ⟨v, rfl⟩ | ⟨_, _, _, _, _, _, _, rfl⟩ := Action.yields_cases yields <;> simp

namespace RuleBook

variable {book : RuleBook} {left span right : List Token} {stop : Token} {m : RuleMatch}

theorem find?_of_matchAt? {tokens : List Token} {index : Nat} {rule : Rule}
    (known : book.rules[index]? = some rule) {start n : Nat}
    (taken : rule.pattern.matchAt? tokens start = some n) :
    ∃ m, book.find? tokens = some m ∧ m.index ≤ index := by
  cases found : book.find? tokens with
  | none =>
    rw [find?_eq_search, search_eq_none_iff] at found
    have member := List.mem_of_getElem? known
    have nowhere := (Pattern.find?_eq_none_iff (isHeaded_of_mem_rules member).headed).mp
      (found rule member)
    rw [nowhere start] at taken
    cases taken
  | some m =>
    refine ⟨m, rfl, Nat.le_of_not_lt fun earlier => ?_⟩
    rw [(firstMatch_of_find? found).first index earlier rule known start] at taken
    cases taken

theorem FirstMatch.within (first : book.FirstMatch (left ++ (span ++ stop :: right)) m)
    (early : m.index < book.custom.length + 7) (balanced : endDepth? 0 span = some 0)
    (apart : Matcher.callOpening.accepts stop = false) (behind : left.length ≤ m.stretch.start)
    (before : m.stretch.start < left.length + span.length) :
    ∃ part : RuleMatch, m = part.shift left.length ∧ book.FirstMatch span part := by
  have same {index : Nat} {rule : Rule} (known : book.rules[index]? = some rule)
      (below : index ≤ m.index) {start : Nat} (inside : start < span.length) :
      rule.pattern.matchAt? span start =
        rule.pattern.matchAt? (left ++ (span ++ stop :: right)) (left.length + start) :=
    ((bracketed_of_index (by omega) known).pattern.matchAt?_within balanced apart left right
      inside).symm
  obtain ⟨index, rule, start, n⟩ := m
  dsimp only at early behind before same
  obtain ⟨known, here, leftmost, earlier⟩ := first
  dsimp only at known here leftmost earlier
  obtain ⟨place, rfl⟩ := Nat.exists_eq_add_of_le behind
  refine ⟨⟨index, rule, ⟨place, n⟩⟩, by simp [RuleMatch.shift, Stretch.shift, Nat.add_comm],
    known, ?_, ?_, ?_⟩
  · have inside : place < span.length := by omega
    exact (same known (Nat.le_refl index) inside).trans here
  · intro start (sooner : start < place)
    rw [same known (Nat.le_refl index) (by omega)]
    exact leftmost _ (by omega)
  · intro other (below : other < index) rule known start
    by_cases inside : start < span.length
    · rw [same known (Nat.le_of_lt below) inside]
      exact earlier other below rule known _
    · exact Pattern.matchAt?_of_length_le
        (isHeaded_of_mem_rules (List.mem_of_getElem? known)).headed (by omega)

theorem start_ne_of_grouping {tokens : List Token} (found : book.find? tokens = some m)
    (early : m.index < book.custom.length + 7) {t : Token} (split : tokens = left ++ t :: right)
    {mark : Grouping} (content : t.content = .symbol (.grouping mark)) (other : mark ≠ .opening) :
    m.stretch.start ≠ left.length := by
  intro same
  have first := firstMatch_of_find? found
  have here := first.here
  unfold Pattern.matchAt? at here
  rw [same, split, List.drop_left,
    (bracketed_of_index early first.known).pattern.rejects content other] at here
  cases here

theorem length_of_find? {tokens : List Token} (found : book.find? tokens = some m)
    (early : m.index < book.custom.length + 7) :
    2 ≤ m.stretch.length ∧ m.stretch.start + m.stretch.length ≤ tokens.length := by
  have first := firstMatch_of_find? found
  have enclosing := (bracketed_of_index early first.known).pattern.enclosing first.here
  have short := Pattern.take?_le first.here
  have several := enclosing.several
  simp only [List.length_take, List.length_drop] at short several
  omega

theorem rewrite_matched (book : RuleBook) (left matched right : List Token) (index : Nat)
    (rule : Rule) :
    book.rewrite (left ++ (matched ++ right)) ⟨index, rule, ⟨left.length, matched.length⟩⟩ =
      (book.replacement (rule.action.plan matched)).map fun replaced =>
        left ++ (replaced ++ right) := by
  have selected : Stretch.select ⟨left.length, matched.length⟩ (left ++ (matched ++ right)) =
      matched := by simp [Stretch.select]
  have spliced (replaced : List Token) :
      Stretch.splice ⟨left.length, matched.length⟩ (left ++ (matched ++ right)) replaced =
        left ++ (replaced ++ right) := by simp [Stretch.splice]
  simp only [rewrite, selected, spliced]
  cases book.replacement (rule.action.plan matched) <;> rfl

theorem rewrite_within (book : RuleBook) (left : List Token) (m : RuleMatch)
    (inside : m.stretch.start + m.stretch.length ≤ span.length) (right : List Token) :
    book.rewrite (left ++ (span ++ right)) (m.shift left.length) =
      (book.rewrite span m).map fun after => left ++ (after ++ right) := by
  rw [rewrite_append_left, rewrite_append_right book inside]
  cases book.rewrite span m <;> rfl

/-- A step in a part: either the part fails, with the error of the step, or it goes on. -/
theorem steps_within (found : book.find? (left ++ (span ++ stop :: right)) = some m)
    (early : m.index < book.custom.length + 7) (balanced : endDepth? 0 span = some 0)
    (apart : Matcher.callOpening.accepts stop = false) (behind : left.length ≤ m.stretch.start)
    (before : m.stretch.start < left.length + span.length) :
    (∃ e, book.evaluate span = .error e ∧
      book.rewrite (left ++ (span ++ stop :: right)) m = .error e) ∨
    ∃ after, book.evaluate span = book.evaluate after ∧ after ≠ [] ∧
      (∀ depth, freeDepth? depth after = freeDepth? depth span) ∧
      book.rewrite (left ++ (span ++ stop :: right)) m =
        .ok (left ++ (after ++ stop :: right)) := by
  obtain ⟨part, rfl, first⟩ := (firstMatch_of_find? found).within early balanced apart behind before
  have here := find?_of_firstMatch first
  obtain ⟨several, inside⟩ := length_of_find? here early
  have step := book.evaluate_step (show ¬ span.length ≤ 1 by omega) here
  have whole := book.rewrite_within left part inside (stop :: right)
  cases rewritten : book.rewrite span part with
  | error e =>
    rw [rewritten] at step whole
    exact .inl ⟨e, step, whole⟩
  | ok after =>
    rw [rewritten] at step whole
    obtain ⟨replaced, yields, rfl⟩ := yields_of_rewrite rewritten
    have some := Plan.yields_ne_nil yields
    exact .inr ⟨_, step, by simp [Stretch.splice, some], freeDepth?_rewrite here rewritten, whole⟩

end RuleBook

end Formulary
