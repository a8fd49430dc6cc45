import Formulary.Proofs.SignSteps

/-!
Runs of the rules over signed numbers. First the single sign in front of all, then operands without
signs, from the left. What is left has signs, and is joined from the left. So the rules give a
series of signed numbers the value that is theirs, errors included.
-/
namespace Formulary

namespace RuleBook

theorem bundles (book : RuleBook) {level : List Operator} {place : Nat}
    (isLevel : IsLevel level place) {passed : List Token}
    {current : Signed} (before : Passed level (.negate :: level) passed current.signs)
    {rest : List (Arithmetic × Signed)} (known : ∀ step ∈ rest, step.1.operator ∈ level)
    {tokens : List Token}
    (spelled : tokens.map Token.content = current.contents ++ SignedSeries.following rest) :
    book.Becomes passed tokens
      ((SignedSeries.bundle current rest).map SignedSeries.contents) := by
  -- All operands without signs join what stands before them, from the left. By induction on what is
  -- still behind: an operand without signs joins next, any other is passed.
  induction rest generalizing passed current tokens with
  | nil => exact ⟨tokens, spelled, rfl⟩
  | cons step rest ih =>
    obtain ⟨op, x⟩ := step
    have here : op.operator ∈ level := known (op, x) List.mem_cons_self
    have others : ∀ step ∈ rest, step.1.operator ∈ level := fun step member =>
      known step (List.mem_cons_of_mem _ member)
    by_cases plain : x.signs = 0
    · obtain ⟨signs, n⟩ := x
      dsimp only at plain
      subst plain
      have step := book.joins_signed isLevel before here others spelled
      simp only [SignedSeries.bundle, if_true]
      refine step.bind fun total after _ spelled => ?_
      have still : Passed level (.negate :: level) passed
          (⟨current.signs, total⟩ : Signed).signs := before
      exact ih still others spelled
    · obtain ⟨minuses, t, behind, rfl, isSigns, isNumber, spelled⟩ := spelled_signed spelled
      obtain ⟨sign, behind, rfl, isSign, spelled⟩ := List.map_eq_cons_iff.mp spelled
      have further := before.next List.mem_cons_self isSigns isNumber isSign
        (List.mem_cons_of_mem _ here) plain
      have run := ih further others spelled
      have regroup (after : List Token) : (passed ++ (minuses ++ [t, sign])) ++ after =
          passed ++ (minuses ++ t :: sign :: after) := by simp
      simp only [SignedSeries.bundle, if_neg plain]
      cases bundled : SignedSeries.bundle x rest with
      | error e =>
        rw [bundled] at run
        exact (congrArg book.evaluate (regroup behind)).symm.trans run
      | ok s =>
        rw [bundled] at run
        obtain ⟨after, contents, same⟩ := run
        rw [regroup, regroup] at same
        refine ⟨minuses ++ t :: sign :: after, ?_, same⟩
        simp only [List.map_append, List.map_cons, isSigns, isNumber, isSign, contents]
        simp [SignedSeries.contents, SignedSeries.following, Signed.contents]

section Sums

variable {rest : List (Arithmetic × Signed)}
  (known : ∀ step ∈ rest, step.1.operator ∈ [Operator.add, .subtract])
  (signed : ∀ step ∈ rest, step.2.signs ≠ 0)

include known signed

theorem strips_first (book : RuleBook) {x : Signed} {tokens : List Token}
    (spelled : tokens.map Token.content = x.contents ++ SignedSeries.following rest) :
    book.Becomes [] tokens (.ok ((⟨0, x.value⟩ : Signed).contents ++
      SignedSeries.following rest)) := by
  obtain ⟨signs, n⟩ := x
  induction signs generalizing n tokens with
  | zero => exact ⟨tokens, spelled, rfl⟩
  | succ signs ih =>
    rw [Signed.value_succ]
    by_cases single : signs = 0
    · subst single
      exact book.negates_first .sums known spelled
    · have step :=
        book.strips_sign known signed (.nil _ _ (by omega)) (fun _ _ _ => trivial) spelled
      exact step.trans fun after spelled => ih n.negate spelled

theorem strips_next (book : RuleBook) {total sign : Token} {n : Number} {op : Arithmetic}
    (isTotal : total.content = .data (.number n))
    (isSign : sign.content = .symbol (.operator op.operator))
    (here : op.operator ∈ [Operator.add, .subtract]) {x : Signed} {tokens : List Token}
    (spelled : tokens.map Token.content = x.contents ++ SignedSeries.following rest) :
    book.Becomes [total, sign] tokens (.ok ((⟨0, x.value⟩ : Signed).contents ++
      SignedSeries.following rest)) := by
  obtain ⟨signs, k⟩ := x
  induction signs generalizing k tokens with
  | zero => exact ⟨tokens, spelled, rfl⟩
  | succ signs ih =>
    have nothing : Passed [.add, .subtract] [.negate, .add, .subtract] [] 0 := .nil _ _ (by decide)
    have noSigns : [].map Token.content = List.replicate 0 (.symbol (.operator .negate)) := rfl
    have before := nothing.next List.mem_cons_self noSigns isTotal isSign
      (List.mem_cons_of_mem _ here) (Nat.succ_ne_zero signs)
    have skips (minus : Token) (behind : List Token)
        (isMinus : minus.content = .symbol (.operator .negate)) :
        Pattern.Skips [.minus, .numeric] (minus :: behind) [total, sign] :=
      ⟨fun atStart => Pattern.take?_cons_of_rejects isSingle_minus
          (Matcher.operators_reject [.subtract, .negate] isTotal) _ _ _,
        skips_operators isMinus fun t member => ⟨_, List.mem_singleton.mp member ▸ isSign⟩⟩
    rw [Signed.value_succ]
    have step := book.strips_sign known signed before skips spelled
    exact step.trans fun after spelled => ih k.negate spelled

theorem joins_sums (book : RuleBook) {total : Number} {tokens : List Token}
    (spelled : tokens.map Token.content =
      (⟨0, total⟩ : Signed).contents ++ SignedSeries.following rest) :
    book.Becomes [] tokens
      ((SignedSeries.joinFrom total rest).map fun n => [.data (.number n)]) := by
  induction rest generalizing total tokens with
  | nil => exact ⟨tokens, spelled, rfl⟩
  | cons step rest ih =>
    obtain ⟨op, x⟩ := step
    have here : op.operator ∈ [Operator.add, .subtract] := known (op, x) List.mem_cons_self
    have others : ∀ step ∈ rest, step.1.operator ∈ [Operator.add, .subtract] :=
      fun step member => known step (List.mem_cons_of_mem _ member)
    have later : ∀ step ∈ rest, step.2.signs ≠ 0 := fun step member =>
      signed step (List.mem_cons_of_mem _ member)
    obtain ⟨t, behind, rfl, isTotal, spelled⟩ := List.map_eq_cons_iff.mp spelled
    obtain ⟨sign, behind, rfl, isSign, spelled⟩ := List.map_eq_cons_iff.mp spelled
    obtain ⟨after, contents, same⟩ := book.strips_next others later isTotal isSign here spelled
    have stripped : book.Becomes [] (t :: sign :: behind) (.ok ((⟨0, total⟩ : Signed).contents ++
        SignedSeries.following ((op, ⟨0, x.value⟩) :: rest))) :=
      ⟨t :: sign :: after, by simp [isTotal, isSign, contents, Signed.contents], same⟩
    refine stripped.trans fun after spelled => ?_
    have step := book.joins_signed .sums (.nil _ _ Nat.zero_ne_one) here others spelled
    exact step.bind fun n after _ spelled => ih others later spelled

end Sums

theorem joins_products (book : RuleBook) {rest : List (Arithmetic × Signed)}
    (known : ∀ step ∈ rest, step.1.operator ∈ [Operator.multiply, .divide])
    (single : ∀ step ∈ rest, step.2.signs = 1) {total : Number} {tokens : List Token}
    (spelled : tokens.map Token.content =
      (⟨0, total⟩ : Signed).contents ++ SignedSeries.following rest) :
    book.Becomes [] tokens
      ((SignedSeries.joinFrom total rest).map fun n => [.data (.number n)]) := by
  induction rest generalizing total tokens with
  | nil => exact ⟨tokens, spelled, rfl⟩
  | cons step rest ih =>
    obtain ⟨op, signs, n⟩ := step
    obtain rfl : signs = 1 := single (op, ⟨signs, n⟩) List.mem_cons_self
    have here : op.operator ∈ [Operator.multiply, .divide] := known (op, ⟨1, n⟩) List.mem_cons_self
    have others : ∀ step ∈ rest, step.1.operator ∈ [Operator.multiply, .divide] :=
      fun step member => known step (List.mem_cons_of_mem _ member)
    have later : ∀ step ∈ rest, step.2.signs = 1 := fun step member =>
      single step (List.mem_cons_of_mem _ member)
    exact (book.joins_negated here others later spelled).bind fun n after _ spelled =>
      ih others later spelled

/-! The whole series -/

theorem leads_signed (book : RuleBook) {level : List Operator} {place : Nat}
    (isLevel : IsLevel level place) {s : SignedSeries}
    (known : ∀ step ∈ s.rest, step.1.operator ∈ level) {tokens : List Token}
    (spelled : tokens.map Token.content = s.contents) :
    book.Becomes [] tokens (.ok (s.lead.contents ++ SignedSeries.following s.rest)) := by
  obtain ⟨⟨signs, n⟩, rest⟩ := s
  unfold SignedSeries.lead
  split
  · next single =>
    dsimp only at single
    subst single
    exact book.negates_first isLevel known spelled
  · exact ⟨tokens, spelled, rfl⟩

theorem evaluate_byRules (book : RuleBook) {level : List Operator} {place : Nat}
    (isLevel : IsLevel level place) {s : SignedSeries}
    (known : ∀ step ∈ s.rest, step.1.operator ∈ level)
    (joins : ∀ bundled after, SignedSeries.bundle s.lead s.rest = .ok bundled →
      after.map Token.content = bundled.contents →
        book.Becomes [] after (bundled.leftToRight.map fun n => [.data (.number n)]))
    {tokens : List Token} (spelled : tokens.map Token.content = s.contents) :
    book.evaluate tokens = s.byRules.map Value.number := by
  have led := book.leads_signed isLevel known spelled
  have run : book.Becomes [] tokens (s.byRules.map fun n => [.data (.number n)]) :=
    led.trans fun after spelled =>
      (book.bundles isLevel (.nil level _ s.lead_signs) known spelled).bind joins
  exact run.evaluate

theorem evaluate_sum (book : RuleBook) {s : SignedSeries}
    (known : ∀ step ∈ s.rest, step.1.operator ∈ [Operator.add, .subtract]) {tokens : List Token}
    (spelled : tokens.map Token.content = s.contents) :
    book.evaluate tokens = s.byRules.map Value.number := by
  refine book.evaluate_byRules .sums known (fun t tokens bundled spelled => ?_) spelled
  have among := SignedSeries.mem_bundle bundled
  have known' : ∀ step ∈ t.rest, step.1.operator ∈ [Operator.add, .subtract] := by
    intro step member
    obtain ⟨_, other, inside, same, _⟩ := among step member
    exact same ▸ known other inside
  have signed : ∀ step ∈ t.rest, step.2.signs ≠ 0 := fun step member => (among step member).1
  exact (book.strips_first known' signed spelled).trans fun after spelled =>
    book.joins_sums known' signed spelled

theorem evaluate_product (book : RuleBook) {s : SignedSeries}
    (known : ∀ step ∈ s.rest, step.1.operator ∈ [Operator.multiply, .divide])
    (first : s.first.signs ≤ 1) (single : ∀ step ∈ s.rest, step.2.signs ≤ 1)
    {tokens : List Token} (spelled : tokens.map Token.content = s.contents) :
    book.evaluate tokens = s.byRules.map Value.number := by
  refine book.evaluate_byRules .products known (fun t tokens bundled spelled => ?_) spelled
  have among := SignedSeries.mem_bundle bundled
  have known' : ∀ step ∈ t.rest, step.1.operator ∈ [Operator.multiply, .divide] := by
    intro step member
    obtain ⟨_, other, inside, same, _⟩ := among step member
    exact same ▸ known other inside
  have single' : ∀ step ∈ t.rest, step.2.signs = 1 := by
    intro step member
    obtain ⟨signed, other, inside, _, same⟩ := among step member
    have least := single other inside
    omega
  have unsigned : t.first.signs = 0 := by
    have kept := SignedSeries.signs_bundle bundled
    have other := s.lead_signs
    have least : s.lead.signs ≤ 1 := by
      unfold SignedSeries.lead
      split
      · exact Nat.zero_le 1
      · exact first
    omega
  obtain ⟨⟨signs, n⟩, rest⟩ := t
  dsimp only at unsigned
  subst unsigned
  exact book.joins_products known' single' spelled

end RuleBook

end Formulary
