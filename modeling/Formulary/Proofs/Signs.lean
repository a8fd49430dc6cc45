import Formulary.Proofs.Rewriting

/-!
Numbers with minus signs in front, and operators of one level between them. By convention each sign
negates its own number. The rules bind otherwise: operands without signs join what stands before
them first, and a sign negates all that has joined its number.
-/
namespace Formulary

theorem swap_of_errors {α β γ : Type} {P : Outcome γ → Prop}
    (errors : ∀ e e', P (.error e) → P (.error e')) {a : Outcome α} {b : Outcome β}
    {next : α → β → Outcome γ} (swapped : P (b >>= fun y => a >>= fun x => next x y)) :
    P (a >>= fun x => b >>= fun y => next x y) := by
  cases a with
  | ok x => exact swapped
  | error e =>
    cases b with
    | ok y => exact swapped
    | error e' => exact errors e' e swapped

structure Signed where
  signs : Nat
  number : Number

namespace Signed

def contents (x : Signed) : List Content :=
  List.replicate x.signs (.symbol (.operator .negate)) ++ [.data (.number x.number)]

def value (x : Signed) : Number := x.signs.repeat Number.negate x.number

theorem value_unsigned (n : Number) : (⟨0, n⟩ : Signed).value = n := rfl

theorem value_succ (signs : Nat) (n : Number) :
    (⟨signs + 1, n⟩ : Signed).value = (⟨signs, n.negate⟩ : Signed).value := by
  unfold value
  induction signs with
  | zero => rfl
  | succ signs ih =>
    dsimp only [Nat.repeat] at ih ⊢
    rw [ih]

end Signed

structure SignedSeries where
  first : Signed
  rest : List (Arithmetic × Signed)

namespace SignedSeries

def following (rest : List (Arithmetic × Signed)) : List Content :=
  rest.flatMap fun step => .symbol (.operator step.1.operator) :: step.2.contents

@[simp] theorem following_nil : following [] = [] := rfl

@[simp] theorem following_cons (op : Arithmetic) (x : Signed) (rest : List (Arithmetic × Signed)) :
    following ((op, x) :: rest) =
      .symbol (.operator op.operator) :: (x.contents ++ following rest) := rfl

def contents (s : SignedSeries) : List Content := s.first.contents ++ following s.rest

def joinFrom (total : Number) : List (Arithmetic × Signed) → Outcome Number
  | [] => .ok total
  | (op, x) :: rest => do joinFrom (← op.apply (.number total) (.number x.value)) rest

def leftToRight (s : SignedSeries) : Outcome Number := joinFrom s.first.value s.rest

/-- A single sign in front of all negates its number before anything is joined. -/
def lead (s : SignedSeries) : Signed :=
  if s.first.signs = 1 then ⟨0, s.first.number.negate⟩ else s.first

/-- Joins operands without signs to the numbers before them. -/
def bundle (current : Signed) : List (Arithmetic × Signed) → Outcome SignedSeries
  | [] => .ok ⟨current, []⟩
  | (op, x) :: rest =>
    if x.signs = 0 then do
      bundle ⟨current.signs, ← op.apply (.number current.number) (.number x.number)⟩ rest
    else do
      let others ← bundle x rest
      return ⟨current, (op, others.first) :: others.rest⟩

def byRules (s : SignedSeries) : Outcome Number := bundle s.lead s.rest >>= leftToRight

/-- No operand without a sign stands behind one with a sign, a single sign in front of all apart. -/
def Uncaptured (s : SignedSeries) : Prop :=
  (s.lead :: s.rest.map Prod.snd).Pairwise fun before behind =>
    behind.signs = 0 → before.signs = 0

instance (s : SignedSeries) : Decidable s.Uncaptured :=
  inferInstanceAs (Decidable (List.Pairwise ..))

theorem value_lead (s : SignedSeries) : s.lead.value = s.first.value := by
  obtain ⟨⟨signs, n⟩, rest⟩ := s
  unfold lead
  split
  · next single =>
    dsimp only at single
    subst single
    rfl
  · rfl

theorem lead_signs (s : SignedSeries) : s.lead.signs ≠ 1 := by
  unfold lead
  split
  · exact Nat.zero_ne_one
  · assumption

theorem signs_bundle {current : Signed} {rest : List (Arithmetic × Signed)} {s : SignedSeries}
    (bundled : bundle current rest = .ok s) : s.first.signs = current.signs := by
  induction rest generalizing current s with
  | nil =>
    cases bundled
    rfl
  | cons step rest ih =>
    obtain ⟨op, x⟩ := step
    unfold bundle at bundled
    split at bundled
    · obtain ⟨joined, _, further⟩ := bind_eq_ok.mp bundled
      have kept := ih further
      exact kept
    · obtain ⟨others, _, same⟩ := bind_eq_ok.mp bundled
      cases same
      rfl

theorem mem_bundle {current : Signed} {rest : List (Arithmetic × Signed)} {s : SignedSeries}
    (bundled : bundle current rest = .ok s) : ∀ step ∈ s.rest, step.2.signs ≠ 0 ∧
      ∃ other ∈ rest, other.1 = step.1 ∧ other.2.signs = step.2.signs := by
  induction rest generalizing current s with
  | nil =>
    cases bundled
    simp
  | cons step rest ih =>
    obtain ⟨op, x⟩ := step
    have further {s : SignedSeries} {current : Signed} (bundled : bundle current rest = .ok s) :
        ∀ step ∈ s.rest, step.2.signs ≠ 0 ∧
          ∃ other ∈ (op, x) :: rest, other.1 = step.1 ∧ other.2.signs = step.2.signs := by
      intro step member
      obtain ⟨signed, other, inside, same⟩ := ih bundled step member
      exact ⟨signed, other, List.mem_cons_of_mem _ inside, same⟩
    unfold bundle at bundled
    split at bundled
    · obtain ⟨joined, _, later⟩ := bind_eq_ok.mp bundled
      exact further later
    · next signed =>
      obtain ⟨others, later, same⟩ := bind_eq_ok.mp bundled
      cases same
      intro step member
      rcases List.mem_cons.mp member with rfl | member
      · have kept := signs_bundle later
        exact ⟨kept ▸ signed, (op, x), List.mem_cons_self, rfl, kept.symm⟩
      · exact further later step member

theorem bundle_of_signed {current : Signed} {rest : List (Arithmetic × Signed)}
    (signed : ∀ step ∈ rest, step.2.signs ≠ 0) : bundle current rest = .ok ⟨current, rest⟩ := by
  induction rest generalizing current with
  | nil => rfl
  | cons step rest ih =>
    obtain ⟨op, x⟩ := step
    have here : x.signs ≠ 0 := signed (op, x) List.mem_cons_self
    have others : bundle x rest = .ok ⟨x, rest⟩ := ih fun step member =>
      signed step (List.mem_cons_of_mem _ member)
    simp only [bundle, if_neg here, others]
    rfl

theorem bundle_leftToRight {current : Signed} {rest : List (Arithmetic × Signed)}
    (apart : (current :: rest.map Prod.snd).Pairwise fun before behind =>
      behind.signs = 0 → before.signs = 0) :
    (bundle current rest >>= leftToRight) = joinFrom current.value rest := by
  induction rest generalizing current with
  | nil => rfl
  | cons step rest ih =>
    obtain ⟨op, x⟩ := step
    obtain ⟨first, others⟩ := List.pairwise_cons.mp apart
    obtain ⟨second, later⟩ := List.pairwise_cons.mp others
    by_cases plain : x.signs = 0
    · have unsigned : current.signs = 0 := first x List.mem_cons_self plain
      obtain ⟨_, n⟩ := current
      obtain ⟨_, k⟩ := x
      dsimp only at plain unsigned
      subst plain unsigned
      simp only [bundle, if_true, joinFrom, Signed.value_unsigned]
      cases op.apply (.number n) (.number k) with
      | error e => rfl
      | ok joined =>
        have unsigned : ((⟨0, joined⟩ : Signed) :: rest.map Prod.snd).Pairwise fun before behind =>
            behind.signs = 0 → before.signs = 0 :=
          List.pairwise_cons.mpr ⟨fun _ _ _ => rfl, later⟩
        exact ih unsigned
    · have signed : ∀ step ∈ (op, x) :: rest, step.2.signs ≠ 0 := by
        intro step member unsigned
        rcases List.mem_cons.mp member with rfl | member
        · exact plain unsigned
        · exact plain (second step.2 (List.mem_map_of_mem member) unsigned)
      rw [bundle_of_signed signed]
      rfl

/-- Where nothing is captured, the rules keep to the convention. -/
theorem byRules_of_uncaptured {s : SignedSeries} (apart : s.Uncaptured) :
    s.byRules = s.leftToRight := by
  unfold byRules
  rw [bundle_leftToRight apart, value_lead]
  rfl

/-! An operand that is still to be joined to what stands before it -/

def joinBundle (join : Number → Outcome Number) (current : Signed)
    (rest : List (Arithmetic × Signed)) : Outcome Number :=
  bundle current rest >>= fun t => join t.first.value >>= (joinFrom · t.rest)

theorem byRules_eq (s : SignedSeries) : s.byRules = joinBundle .ok s.lead s.rest := rfl

theorem joinBundle_nil (join : Number → Outcome Number) (current : Signed) :
    joinBundle join current [] = join current.value := by
  simp only [joinBundle, bundle, bind, Except.bind, joinFrom]
  cases join current.value <;> rfl

theorem joinBundle_unsigned (join : Number → Outcome Number) (current : Signed) (op : Arithmetic)
    (n : Number) (rest : List (Arithmetic × Signed)) :
    joinBundle join current ((op, ⟨0, n⟩) :: rest) =
      op.apply (.number current.number) (.number n) >>= fun joined =>
        joinBundle join ⟨current.signs, joined⟩ rest := by
  simp only [joinBundle, bundle, if_true, bind_assoc]

/-- An operand with signs waits until those behind have joined it. For what says nothing about
    which error there is, the operand before may as well be joined first. -/
theorem joinBundle_signed {P : Outcome Number → Prop}
    (errors : ∀ e e', P (.error e) → P (.error e')) {join : Number → Outcome Number}
    {current : Signed} {op : Arithmetic} {x : Signed} (signed : x.signs ≠ 0)
    {rest : List (Arithmetic × Signed)} (joined : P (join current.value >>= fun n =>
      joinBundle (fun v => op.apply (.number n) (.number v)) x rest)) :
    P (joinBundle join current ((op, x) :: rest)) := by
  simp only [joinBundle, bundle, if_neg signed, bind_assoc, pure_bind, joinFrom]
  exact swap_of_errors errors joined

end SignedSeries

end Formulary
