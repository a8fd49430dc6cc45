import Formulary.Proofs.Precedence
import Formulary.Proofs.Signs
import Formulary.Proofs.Skipping

/-!
The steps that the rules take at signed numbers: a single sign in front of all, an operand without
signs at the leftmost operator that it can join by, and a sign when nothing can join any more.
-/
namespace Formulary

/-! Signed numbers and operators as tokens -/

def Token.IsNumeric (ops : List Operator) (t : Token) : Prop :=
  t.category = .numeric ∨ ∃ op ∈ ops, t.content = .symbol (.operator op)

def Profile.signed (ops : List Operator) : Profile := ⟨[.numeric, .operator], ops.map .operator⟩

theorem Profile.signed_uncalled (ops : List Operator) :
    .function ∉ (Profile.signed ops).categories := by simp [signed]

theorem Token.IsNumeric.within {ops : List Operator} {t : Token} (numeric : t.IsNumeric ops) :
    t.content.Within (.signed ops) := by
  rcases numeric with number | ⟨op, known, content⟩
  · refine ⟨List.mem_cons.mpr (.inl number), fun symbol content => ?_⟩
    rw [Token.category_of_symbol content] at number
    cases symbol <;> cases number
  · rw [content]
    refine ⟨List.mem_cons_of_mem _ List.mem_cons_self, fun symbol same => ?_⟩
    cases same
    exact List.mem_map_of_mem known

theorem Matcher.numeric_rejects {t : Token} {op : Operator}
    (content : t.content = .symbol (.operator op)) : numeric.accepts t = false := by
  have category : t.category = .operator := Token.category_of_symbol content
  exact rejects_of_category rfl (by rw [category]; decide)

theorem Matcher.operators_reject (ops : List Operator) {t : Token} {n : Number}
    (content : t.content = .data (.number n)) : (operators ops).accepts t = false := by
  have category : t.category = .numeric := Token.category_of_data content
  exact rejects_of_category rfl (by rw [category]; decide)

theorem content_of_signs {signs : Nat} {minuses : List Token}
    (spelled : minuses.map Token.content = List.replicate signs (.symbol (.operator .negate))) :
    ∀ t ∈ minuses, t.content = .symbol (.operator .negate) := by
  intro t member
  have inside : t.content ∈ minuses.map Token.content := List.mem_map_of_mem member
  rw [spelled] at inside
  exact (List.mem_replicate.mp inside).2

theorem spelled_signed {x : Signed} {more : List Content} {tokens : List Token}
    (spelled : tokens.map Token.content = x.contents ++ more) :
    ∃ minuses t behind, tokens = minuses ++ t :: behind ∧
      minuses.map Token.content = List.replicate x.signs (.symbol (.operator .negate)) ∧
      t.content = .data (.number x.number) ∧ behind.map Token.content = more := by
  rw [Signed.contents, List.append_assoc, List.singleton_append] at spelled
  obtain ⟨minuses, others, rfl, isSigns, rest⟩ := List.map_eq_append_iff.mp spelled
  obtain ⟨t, behind, rfl, isNumber, isBehind⟩ := List.map_eq_cons_iff.mp rest
  exact ⟨minuses, t, behind, rfl, isSigns, isNumber, isBehind⟩

theorem between_take?_apart (level : List Operator) {left t next : Token} {op : Operator}
    (content : next.content = .symbol (.operator op)) (atStart : Bool) (rest : List Token) :
    (between level).take? atStart (left :: t :: next :: rest) = none := by
  unfold between
  rw [Pattern.take?_cons_single Matcher.isSingle_numeric rfl,
    Pattern.take?_cons_single (Matcher.isSingle_operators level) rfl,
    Pattern.take?_cons_of_rejects Matcher.isSingle_numeric (Matcher.numeric_rejects content)]
  split
  · split <;> rfl
  · rfl

/-- What has been passed when an operand with so many signs is next. -/
structure Passed (level ops : List Operator) (passed : List Token) (signs : Nat) : Prop where
  numeric : ∀ t ∈ passed, t.IsNumeric ops
  skips : ∀ minuses behind, minuses.map Token.content =
    List.replicate signs (.symbol (.operator .negate)) →
      (between level).Skips (minuses ++ behind) passed
  start : ∀ minuses t n behind, minuses.map Token.content =
    List.replicate signs (.symbol (.operator .negate)) → t.content = .data (.number n) →
      Pattern.find? [.leadingMinus, .numeric] (passed ++ (minuses ++ t :: behind)) = none

namespace Passed

variable {level ops : List Operator}

theorem nil (level ops : List Operator) {signs : Nat} (other : signs ≠ 1) :
    Passed level ops [] signs := by
  have single : Matcher.leadingMinus.IsSingle := ⟨_, _, rfl⟩
  have anchored : Pattern.isAnchored [.leadingMinus, .numeric] = true := rfl
  refine ⟨by simp, fun _ _ _ => trivial, fun minuses t n behind isSigns isNumber => ?_⟩
  have apart : Pattern.take? [.leadingMinus, .numeric] true (minuses ++ t :: behind) = none := by
    match minuses, isSigns with
    | [], _ =>
      exact Pattern.take?_cons_of_rejects single
        (Matcher.operators_reject [.subtract, .negate] isNumber) _ _ _
    | [minus], isSigns => exact absurd (by simpa using congrArg List.length isSigns) (Ne.symm other)
    | minus :: second :: minuses, isSigns =>
      have content := content_of_signs isSigns second (by simp)
      cases taken : Pattern.take? [.leadingMinus, .numeric] true
          (minus :: second :: (minuses ++ t :: behind)) with
      | none => exact taken
      | some k =>
        obtain ⟨_, _, here, there, _⟩ := Pattern.take?_cons taken
        obtain ⟨_, _, _, _, rfl⟩ := Matcher.take?_one rfl here
        rw [List.drop_one, List.tail_cons, Pattern.take?_cons_of_rejects Matcher.isSingle_numeric
          (Matcher.numeric_rejects content)] at there
        cases there
  unfold Pattern.find?
  rw [if_pos anchored, List.nil_append, apart]
  rfl

theorem next {passed : List Token} {signs : Nat} (before : Passed level ops passed signs)
    (negate : .negate ∈ ops) {minuses : List Token} (isSigns : minuses.map Token.content =
      List.replicate signs (.symbol (.operator .negate))) {t : Token} {n : Number}
    (isNumber : t.content = .data (.number n)) {sign : Token} {op : Operator}
    (isOperator : sign.content = .symbol (.operator op)) (known : op ∈ ops) {others : Nat}
    (signed : others ≠ 0) : Passed level ops (passed ++ (minuses ++ [t, sign])) others := by
  have numericSigns : ∀ u ∈ minuses, u.IsNumeric ops := fun u member =>
    .inr ⟨.negate, negate, content_of_signs isSigns u member⟩
  refine ⟨fun u member => ?_, fun further behind isFurther => ?_, fun further u k behind _ _ => ?_⟩
  · simp only [List.mem_append, List.mem_cons, List.not_mem_nil, or_false] at member
    rcases member with earlier | inSigns | rfl | rfl
    · exact before.numeric u earlier
    · exact numericSigns u inSigns
    · exact .inl (Token.category_of_data isNumber)
    · exact .inr ⟨op, known, isOperator⟩
  · obtain ⟨minus, others, rfl⟩ : ∃ minus others, further = minus :: others := by
      cases further with
      | nil => exact absurd (by simpa using congrArg List.length isFurther) (Ne.symm signed)
      | cons minus others => exact ⟨minus, others, rfl⟩
    have isMinus := content_of_signs isFurther minus List.mem_cons_self
    refine .append ?_ (.append (Pattern.skips_of_rejects Matcher.isSingle_numeric fun u member =>
      Matcher.numeric_rejects (content_of_signs isSigns u member)) ?_)
    · rw [List.append_assoc]
      exact before.skips minuses _ isSigns
    · exact ⟨fun atStart => between_take?_apart level isMinus atStart _,
        fun atStart => between_take?_operator level isOperator atStart _, trivial⟩
  · have apart := before.start minuses t n (sign :: (further ++ u :: behind)) isSigns isNumber
    simpa using apart

theorem skips_signed {passed : List Token} {current : Signed}
    (before : Passed level ops passed current.signs) (negate : .negate ∈ ops)
    {rest : List (Arithmetic × Signed)}
    (signed : ∀ step ∈ rest, step.1.operator ∈ ops ∧ step.2.signs ≠ 0) {tokens : List Token}
    (spelled : tokens.map Token.content = current.contents ++ SignedSeries.following rest) :
    (between level).Skips [] (passed ++ tokens) := by
  induction rest generalizing passed current tokens with
  | nil =>
    obtain ⟨minuses, t, behind, rfl, isSigns, isNumber, nothing⟩ := spelled_signed spelled
    obtain rfl := List.map_eq_nil_iff.mp nothing
    refine .append (by simpa using before.skips minuses [t] isSigns) (.append
      (Pattern.skips_of_rejects Matcher.isSingle_numeric fun u member =>
        Matcher.numeric_rejects (content_of_signs isSigns u member)) ⟨fun atStart => ?_, trivial⟩)
    unfold between
    rw [Pattern.take?_cons_single Matcher.isSingle_numeric rfl]
    have nothing : Pattern.take? [.operators level, .numeric] false [] = none :=
      Pattern.take?_nil_of_headed ⟨_, _, rfl, Matcher.isSingle_operators level⟩ false
    split
    · rw [List.append_nil, nothing]
      rfl
    · rfl
  | cons step rest ih =>
    obtain ⟨op, x⟩ := step
    obtain ⟨known, hasSigns⟩ := signed (op, x) List.mem_cons_self
    obtain ⟨minuses, t, behind, rfl, isSigns, isNumber, spelled⟩ := spelled_signed spelled
    obtain ⟨sign, behind, rfl, isSign, spelled⟩ := List.map_eq_cons_iff.mp spelled
    have further := ih (before.next negate isSigns isNumber isSign known hasSigns)
      (fun step member => signed step (List.mem_cons_of_mem _ member)) spelled
    simpa using further

end Passed

/-! Steps -/

inductive IsLevel : List Operator → Nat → Prop
  | products : IsLevel [.multiply, .divide] 11
  | sums : IsLevel [.add, .subtract] 13

namespace IsLevel

variable {level : List Operator} {place : Nat}

theorem rule (isLevel : IsLevel level place) :
    ∃ name, coreRules[place]? = some ⟨name, between level, .apply⟩ := by
  cases isLevel <;> exact ⟨_, rfl⟩

theorem foreign (isLevel : IsLevel level place) :
    ForeignBefore place (.signed (.negate :: level)) [7] := by
  cases isLevel <;> unfold ForeignBefore <;> decide

theorem foreign_start (isLevel : IsLevel level place) :
    ForeignBefore 7 (.signed (.negate :: level)) [] := by
  cases isLevel <;> unfold ForeignBefore <;> decide

end IsLevel

theorem foreign_negation : ForeignBefore 16 (.signed [.negate, .add, .subtract]) [7, 13] := by
  unfold ForeignBefore
  decide

theorem foreign_scale : ForeignBefore 12 (.signed [.negate, .multiply, .divide]) [7, 11] := by
  unfold ForeignBefore
  decide

theorem applyTokens_numbers {left sign right : Token} {l r : Number} {op : Arithmetic}
    (isLeft : left.content = .data (.number l))
    (isSign : sign.content = .symbol (.operator op.operator))
    (isRight : right.content = .data (.number r)) :
    applyTokens left sign right = (op.apply (.number l) (.number r)).map Value.number := by
  have known : Arithmetic.ofOperator? op.operator = some op := by cases op <;> rfl
  rw [applyTokens_operator isLeft rfl isSign isRight rfl, Operator.join, known]
  dsimp only
  cases op.apply (.number l) (.number r) <;> rfl

theorem negateToken_number {t : Token} {n : Number} (content : t.content = .data (.number n)) :
    negateToken t = .ok (.number n.negate) := by
  unfold negateToken
  rw [Token.toOperand_of_data content]
  rfl

namespace RuleBook

theorem Becomes.evaluate {book : RuleBook} {tokens : List Token} {outcome : Outcome Number}
    (run : book.Becomes [] tokens (outcome.map fun n => [.data (.number n)])) :
    book.evaluate tokens = outcome.map Value.number := by
  cases outcome with
  | error e => exact run
  | ok n =>
    obtain ⟨after, contents, same⟩ := run
    obtain ⟨last, none, rfl, content, nothing⟩ := List.map_eq_cons_iff.mp contents
    obtain rfl := List.map_eq_nil_iff.mp nothing
    rw [List.nil_append, List.nil_append] at same
    rw [same, book.evaluate_short (show [last].length ≤ 1 from Nat.le_refl 1)]
    simp [Token.toValue, content, Except.map]

variable {level : List Operator} {place : Nat}

theorem numeric_operand {x : Signed} {t : Token} (inside : t.content ∈ x.contents) :
    t.IsNumeric (.negate :: level) := by
  rcases List.mem_append.mp inside with sign | number
  · exact .inr ⟨.negate, List.mem_cons_self, (List.mem_replicate.mp sign).2⟩
  · exact .inl (Token.category_of_data (List.mem_singleton.mp number))

theorem numeric_spelled {x : Signed} {rest : List (Arithmetic × Signed)}
    (known : ∀ step ∈ rest, step.1.operator ∈ level) {tokens : List Token}
    (spelled : tokens.map Token.content = x.contents ++ SignedSeries.following rest) :
    ∀ t ∈ tokens, t.IsNumeric (.negate :: level) := by
  intro t member
  have inside : t.content ∈ x.contents ++ SignedSeries.following rest :=
    spelled ▸ List.mem_map_of_mem member
  rcases List.mem_append.mp inside with first | behind
  · exact numeric_operand first
  · obtain ⟨step, among, here⟩ := List.mem_flatMap.mp behind
    rcases List.mem_cons.mp here with content | operand
    · exact .inr ⟨_, List.mem_cons_of_mem _ (known step among), content⟩
    · exact numeric_operand operand

theorem joins_signed (book : RuleBook) (isLevel : IsLevel level place) {passed : List Token}
    {current : Signed} (before : Passed level (.negate :: level) passed current.signs)
    {op : Arithmetic} (known : op.operator ∈ level) {n : Number}
    {rest : List (Arithmetic × Signed)} (others : ∀ step ∈ rest, step.1.operator ∈ level)
    {tokens : List Token} (spelled : tokens.map Token.content =
      current.contents ++ SignedSeries.following ((op, ⟨0, n⟩) :: rest)) :
    book.Becomes passed tokens ((op.apply (.number current.number) (.number n)).map fun joined =>
      (⟨current.signs, joined⟩ : Signed).contents ++ SignedSeries.following rest) := by
  have among : ∀ step ∈ (op, ⟨0, n⟩) :: rest, step.1.operator ∈ level :=
    List.forall_mem_cons.mpr ⟨known, others⟩
  have whole : ∀ t ∈ passed ++ tokens, t.IsNumeric (.negate :: level) :=
    List.forall_mem_append.mpr ⟨before.numeric, numeric_spelled among spelled⟩
  obtain ⟨minuses, left, behind, rfl, isSigns, isLeft, spelled⟩ := spelled_signed spelled
  rw [SignedSeries.following_cons] at spelled
  obtain ⟨sign, behind, rfl, isSign, spelled⟩ := List.map_eq_cons_iff.mp spelled
  obtain ⟨right, behind, rfl, isRight, spelled⟩ := List.map_eq_cons_iff.mp spelled
  obtain ⟨name, rule⟩ := isLevel.rule
  have split (middle : List Token) : passed ++ (minuses ++ (middle ++ behind)) =
      (passed ++ minuses) ++ (middle ++ behind) := by simp
  have numeric : ∀ t ∈ (passed ++ minuses) ++ ([left, sign, right] ++ behind),
      t.IsNumeric (.negate :: level) := by
    rw [← split]
    exact whole
  have skips : (between level).Skips ([left, sign, right] ++ behind) (passed ++ minuses) :=
    .append (before.skips minuses _ isSigns) (Pattern.skips_of_rejects Matcher.isSingle_numeric
      fun u member => Matcher.numeric_rejects (content_of_signs isSigns u member))
  have found := skips.find? rfl rfl (between_take? isLeft rfl isSign known isRight rfl · behind)
  have start : ∀ index ∈ [7], ∀ other, coreRules[index]? = some other →
      other.pattern.find? ((passed ++ minuses) ++ ([left, sign, right] ++ behind)) = none := by
    intro index member other there
    obtain rfl := List.mem_singleton.mp member
    cases there
    rw [← split]
    exact before.start minuses left current.number _ isSigns isLeft
  have step := book.evaluate_core isLevel.foreign (Profile.signed_uncalled _) rule (by simp)
    (fun t member => (numeric t member).within) found start
  simp only [Action.plan, applyTokens_numbers isLeft isSign isRight, ← split] at step
  cases joined : op.apply (.number current.number) (.number n) with
  | error e =>
    rw [joined] at step
    exact step
  | ok total =>
    rw [joined] at step
    refine ⟨minuses ++ ([Token.data (.number total)] ++ behind), ?_, step⟩
    have isBehind : behind.map Token.content = SignedSeries.following rest := spelled
    simp [isSigns, isBehind, Signed.contents, Token.data]

/-! Signs -/

theorem isSingle_minus : Matcher.minus.IsSingle := ⟨_, _, rfl⟩

theorem minus_take? {minus t : Token} {n : Number}
    (isMinus : minus.content = .symbol (.operator .negate))
    (isNumber : t.content = .data (.number n)) (atStart : Bool) (behind : List Token) :
    Pattern.take? [.minus, .numeric] atStart (minus :: t :: behind) = some 2 := by
  have accepted : Matcher.minus.accepts minus = true :=
    (Matcher.accepts_operators [.subtract, .negate] isMinus).mpr (by simp)
  rw [Pattern.take?_cons_of_accepts isSingle_minus rfl accepted,
    Pattern.take?_cons_of_accepts Matcher.isSingle_numeric rfl
      (Matcher.accepts_numeric isNumber rfl)]
  rfl

theorem negates_first (book : RuleBook) (isLevel : IsLevel level place) {n : Number}
    {rest : List (Arithmetic × Signed)} (known : ∀ step ∈ rest, step.1.operator ∈ level)
    {tokens : List Token} (spelled : tokens.map Token.content =
      (⟨1, n⟩ : Signed).contents ++ SignedSeries.following rest) :
    book.Becomes [] tokens
      (.ok ((⟨0, n.negate⟩ : Signed).contents ++ SignedSeries.following rest)) := by
  have numeric := numeric_spelled known spelled
  obtain ⟨minus, others, rfl, isMinus, spelled⟩ := List.map_eq_cons_iff.mp spelled
  obtain ⟨t, behind, rfl, isNumber, isBehind⟩ := List.map_eq_cons_iff.mp spelled
  have rule : coreRules[7]? = some ⟨"start_neg", [.leadingMinus, .numeric], .negate⟩ := rfl
  have found : Pattern.find? [.leadingMinus, .numeric] ([] ++ ([minus, t] ++ behind)) =
      some ⟨0, 2⟩ := by
    have anchored : Pattern.isAnchored [.leadingMinus, .numeric] = true := rfl
    have taken : Pattern.take? [.leadingMinus, .numeric] true (minus :: t :: behind) = some 2 :=
      minus_take? isMinus isNumber true behind
    unfold Pattern.find?
    rw [if_pos anchored, List.nil_append, List.cons_append, List.singleton_append, taken]
    rfl
  have step := book.evaluate_core isLevel.foreign_start (Profile.signed_uncalled _) rule (by simp)
    (fun t member => (numeric t member).within) found (by simp)
  simp only [Action.plan, List.getLast?_cons_cons, List.getLast?_singleton,
    negateToken_number isNumber] at step
  refine ⟨[Token.data (.number n.negate)] ++ behind, ?_, step⟩
  simp [Token.data, isBehind, Signed.contents]

theorem negates (book : RuleBook) {passed behind : List Token} {minus t : Token} {n : Number}
    (isMinus : minus.content = .symbol (.operator .negate))
    (isNumber : t.content = .data (.number n))
    (numeric : ∀ u ∈ passed ++ ([minus, t] ++ behind), u.IsNumeric [.negate, .add, .subtract])
    (start : Pattern.find? [.leadingMinus, .numeric] (passed ++ ([minus, t] ++ behind)) = none)
    (apart : (between [.add, .subtract]).find? (passed ++ ([minus, t] ++ behind)) = none)
    (skips : Pattern.Skips [.minus, .numeric] ([minus, t] ++ behind) passed) :
    book.evaluate (passed ++ ([minus, t] ++ behind)) =
      book.evaluate (passed ++ ([.data (.number n.negate)] ++ behind)) := by
  have rule : coreRules[16]? = some ⟨"negation", [.minus, .numeric], .negate⟩ := rfl
  have found := skips.find? rfl rfl fun atStart => minus_take? isMinus isNumber atStart behind
  have others : ∀ index ∈ [7, 13], ∀ other, coreRules[index]? = some other →
      other.pattern.find? (passed ++ ([minus, t] ++ behind)) = none := by
    intro index member other there
    rcases List.mem_cons.mp member with rfl | member
    · cases there
      exact start
    · obtain rfl := List.mem_singleton.mp member
      cases there
      exact apart
  have step := book.evaluate_core foreign_negation (Profile.signed_uncalled _) rule (by simp)
    (fun t member => (numeric t member).within) found others
  simp only [Action.plan, List.getLast?_cons_cons, List.getLast?_singleton,
    negateToken_number isNumber] at step
  exact step

theorem skips_operators {passed behind : List Token} {minus : Token}
    (isMinus : minus.content = .symbol (.operator .negate))
    (operators : ∀ t ∈ passed, ∃ op, t.content = .symbol (.operator op)) :
    Pattern.Skips [.minus, .numeric] (minus :: behind) passed := by
  induction passed with
  | nil => trivial
  | cons t passed ih =>
    have others : ∀ u ∈ passed, ∃ op, u.content = .symbol (.operator op) := fun u member =>
      operators u (List.mem_cons_of_mem t member)
    refine ⟨fun atStart => ?_, ih others⟩
    obtain ⟨next, rest, same, op, isOperator⟩ : ∃ next rest, passed ++ minus :: behind =
        next :: rest ∧ ∃ op, next.content = .symbol (.operator op) := by
      cases passed with
      | nil => exact ⟨minus, behind, rfl, _, isMinus⟩
      | cons next passed => exact ⟨next, _, rfl, others next List.mem_cons_self⟩
    rw [same, Pattern.take?_cons_single isSingle_minus rfl,
      Pattern.take?_cons_of_rejects Matcher.isSingle_numeric (Matcher.numeric_rejects isOperator)]
    split <;> rfl

theorem strips_sign (book : RuleBook) {rest : List (Arithmetic × Signed)}
    (known : ∀ step ∈ rest, step.1.operator ∈ [Operator.add, .subtract])
    (signed : ∀ step ∈ rest, step.2.signs ≠ 0) {front : List Token} {signs : Nat}
    (before : Passed [.add, .subtract] [.negate, .add, .subtract] front (signs + 1))
    (skips : ∀ minus behind, minus.content = .symbol (.operator .negate) →
      Pattern.Skips [.minus, .numeric] (minus :: behind) front) {n : Number} {tokens : List Token}
    (spelled : tokens.map Token.content =
      (⟨signs + 1, n⟩ : Signed).contents ++ SignedSeries.following rest) :
    book.Becomes front tokens
      (.ok ((⟨signs, n.negate⟩ : Signed).contents ++ SignedSeries.following rest)) := by
  have whole : ∀ u ∈ front ++ tokens, u.IsNumeric [.negate, .add, .subtract] :=
    List.forall_mem_append.mpr ⟨before.numeric, numeric_spelled known spelled⟩
  obtain ⟨minuses, t, behind, rfl, isSigns, isNumber, isBehind⟩ := spelled_signed spelled
  have apart := (before.skips_signed List.mem_cons_self
    (fun step member => ⟨List.mem_cons_of_mem _ (known step member), signed step member⟩)
    spelled).find?_eq_none rfl
  have start := before.start minuses t n behind isSigns isNumber
  have isMinuses := content_of_signs isSigns
  rw [List.replicate_succ'] at isSigns
  obtain ⟨passed, last, rfl, isPassed, isLast⟩ := List.map_eq_append_iff.mp isSigns
  obtain ⟨minus, none, rfl, isMinus, isNone⟩ := List.map_eq_cons_iff.mp isLast
  obtain rfl := List.map_eq_nil_iff.mp isNone
  have split : front ++ ((passed ++ [minus]) ++ t :: behind) =
      (front ++ passed) ++ ([minus, t] ++ behind) := by simp
  rw [split] at apart start
  have numeric : ∀ u ∈ (front ++ passed) ++ ([minus, t] ++ behind),
      u.IsNumeric [.negate, .add, .subtract] := by
    rw [← split]
    exact whole
  have skipped : Pattern.Skips [.minus, .numeric] ([minus, t] ++ behind) (front ++ passed) := by
    refine .append ?_ (skips_operators isMinus fun u member =>
      ⟨_, content_of_signs isPassed u member⟩)
    cases passed with
    | nil => exact skips minus _ isMinus
    | cons first passed => exact skips first _ (isMinuses first (by simp))
  have step := book.negates isMinus isNumber numeric start apart skipped
  refine ⟨passed ++ ([.data (.number n.negate)] ++ behind), ?_, ?_⟩
  · simp [isPassed, isBehind, Signed.contents, Token.data]
  · rw [split, step, List.append_assoc]

theorem joins_negated (book : RuleBook) {op : Arithmetic}
    (known : op.operator ∈ [Operator.multiply, .divide]) {n total : Number}
    {rest : List (Arithmetic × Signed)}
    (others : ∀ step ∈ rest, step.1.operator ∈ [Operator.multiply, .divide])
    (single : ∀ step ∈ rest, step.2.signs = 1) {tokens : List Token}
    (spelled : tokens.map Token.content =
      (⟨0, total⟩ : Signed).contents ++ SignedSeries.following ((op, ⟨1, n⟩) :: rest)) :
    book.Becomes [] tokens ((op.apply (.number total) (.number n.negate)).map fun joined =>
      (⟨0, joined⟩ : Signed).contents ++ SignedSeries.following rest) := by
  have among : ∀ step ∈ (op, ⟨1, n⟩) :: rest, step.1.operator ∈ [Operator.multiply, .divide] :=
    List.forall_mem_cons.mpr ⟨known, others⟩
  have signed : ∀ step ∈ (op, (⟨1, n⟩ : Signed)) :: rest, step.2.signs ≠ 0 :=
    List.forall_mem_cons.mpr
      ⟨Nat.one_ne_zero, fun step member => by rw [single step member]; decide⟩
  have numeric := numeric_spelled among spelled
  have nothing : Passed [.multiply, .divide] [.negate, .multiply, .divide] []
      (⟨0, total⟩ : Signed).signs := .nil _ _ Nat.zero_ne_one
  have apart := (nothing.skips_signed List.mem_cons_self (fun step member =>
    ⟨List.mem_cons_of_mem _ (among step member), signed step member⟩) spelled).find?_eq_none rfl
  obtain ⟨left, behind, rfl, isLeft, spelled⟩ := List.map_eq_cons_iff.mp spelled
  obtain ⟨sign, behind, rfl, isSign, spelled⟩ := List.map_eq_cons_iff.mp spelled
  obtain ⟨minus, behind, rfl, isMinus, spelled⟩ := List.map_eq_cons_iff.mp spelled
  obtain ⟨right, behind, rfl, isRight, isBehind⟩ := List.map_eq_cons_iff.mp spelled
  have rule : coreRules[12]? = some ⟨"math_neg_mul",
    [.numeric, .multiplyDivide, .minus, .numeric], .scaleNegated⟩ := rfl
  have taken (atStart : Bool) : Pattern.take? [.numeric, .multiplyDivide, .minus, .numeric]
      atStart (left :: sign :: minus :: right :: behind) = some 4 := by
    have accepted : Matcher.multiplyDivide.accepts sign = true :=
      (Matcher.accepts_operators [.multiply, .divide] isSign).mpr (.inr known)
    have single : Matcher.multiplyDivide.IsSingle := ⟨_, _, rfl⟩
    rw [Pattern.take?_cons_of_accepts Matcher.isSingle_numeric rfl
        (Matcher.accepts_numeric isLeft rfl),
      Pattern.take?_cons_of_accepts single rfl accepted, minus_take? isMinus isRight false behind]
    rfl
  have skips : Pattern.Skips [.numeric, .multiplyDivide, .minus, .numeric]
      ([left, sign, minus, right] ++ behind) [] := trivial
  have found := skips.find? rfl rfl taken
  have earlier : ∀ index ∈ [7, 11], ∀ other, coreRules[index]? = some other →
      other.pattern.find? ([] ++ ([left, sign, minus, right] ++ behind)) = none := by
    intro index member other there
    rcases List.mem_cons.mp member with rfl | member
    · cases there
      exact nothing.start [] left total _ rfl isLeft
    · obtain rfl := List.mem_singleton.mp member
      cases there
      exact apart
  have step := book.evaluate_core foreign_scale (Profile.signed_uncalled _) rule (by simp)
    (fun t member => (numeric t member).within) found earlier
  have negated : Token.content (.data (.number n.negate)) = .data (.number n.negate) := rfl
  simp only [Action.plan, negateToken_number isRight, bind, Except.bind,
    applyTokens_numbers isLeft isSign negated] at step
  cases joined : op.apply (.number total) (.number n.negate) with
  | error e =>
    rw [joined] at step
    exact step
  | ok k =>
    rw [joined] at step
    exact ⟨[Token.data (.number k)] ++ behind, congrArg _ isBehind, step⟩

end RuleBook

end Formulary
