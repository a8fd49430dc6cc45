import Mathlib.Tactic.Ring
import Formulary.Proofs.SignRuns
import Formulary.Proofs.WholeNumbers

/-!
Sums of integers with minus signs. By the rules an operand without signs counts the way the number
before it does that has captured it. Where that is the other way, the sum is not the one by
convention.
-/
namespace Formulary

def Arithmetic.direction : Arithmetic → Int
  | subtraction => -1
  | _ => 1

theorem Arithmetic.onWhole?_sum {op : Arithmetic} (sums : op = addition ∨ op = subtraction)
    (a b : Int) : op.onWhole? a b = some (a + op.direction * b) := by
  rcases sums with rfl | rfl
  · simp [onWhole?, direction]
  · simp [onWhole?, direction, Int.sub_eq_add_neg]

def Number.toInt : Number → Int
  | integer i _ => i
  | decimal d => d.toInt

def Number.IsNatural : Number → Prop
  | integer i _ => 0 ≤ i
  | decimal _ => False

instance : (n : Number) → Decidable n.IsNatural
  | .integer i _ => inferInstanceAs (Decidable (0 ≤ i))
  | .decimal _ => .isFalse id

theorem Number.IsNatural.integer {n : Number} (natural : n.IsNatural) :
    ∃ i fits, 0 ≤ i ∧ n = .integer i fits := by
  cases n with
  | integer i fits => exact ⟨i, fits, natural, rfl⟩
  | decimal d => exact natural.elim

namespace Signed

def turn (x : Signed) : Int := (-1) ^ x.signs

def toInt (x : Signed) : Int := x.turn * x.number.toInt

theorem isWhole_value {signs : Nat} {n : Number} {i : Int} (whole : n.IsWhole i) :
    (⟨signs, n⟩ : Signed).value.IsWhole ((-1) ^ signs * i) := by
  induction signs generalizing n i with
  | zero => simpa [value_unsigned] using whole
  | succ signs ih =>
    rw [value_succ]
    have negated := ih whole.negate
    rwa [show (-1) ^ signs * -i = (-1) ^ (signs + 1) * i by ring] at negated

end Signed

namespace SignedSeries

def totals (total : Int) : List (Arithmetic × Signed) → List Int
  | [] => [total]
  | (op, x) :: rest => total :: totals (total + op.direction * x.toInt) rest

def sum (s : SignedSeries) : Int :=
  s.first.toInt + (s.rest.map fun step => step.1.direction * step.2.toInt).sum

/-- The running totals by the rules, one behind each run of operands that join a number first.
    The whole run counts the way its first operand does. -/
def runTotals (way total : Int) : List (Arithmetic × Signed) → List Int
  | [] => [total]
  | (op, x) :: rest =>
    if x.signs = 0 then runTotals way (total + way * (op.direction * x.number.toInt)) rest
    else total :: runTotals (op.direction * x.turn) (total + op.direction * x.toInt) rest

/-- What the operands come to that runs capture which count the other way. -/
def captured (way : Int) : List (Arithmetic × Signed) → Int
  | [] => 0
  | (op, x) :: rest =>
    if x.signs = 0 then
      (if way = 1 then 0 else op.direction * x.number.toInt) + captured way rest
    else captured (op.direction * x.turn) rest

theorem runTotals_ne_nil (way total : Int) (rest : List (Arithmetic × Signed)) :
    runTotals way total rest ≠ [] := by
  induction rest generalizing way total with
  | nil => exact List.cons_ne_nil _ _
  | cons step rest ih =>
    unfold runTotals
    split
    · exact ih _ _
    · exact List.cons_ne_nil _ _

end SignedSeries

/-- The last of the totals if a decimal can hold each of them, and an error if not. -/
structure GivesLast (outcome : Outcome Number) (totals : List Int) : Prop where
  value : (∀ t ∈ totals, t.natAbs < Decimal.widthBound) →
    ∃ n, outcome = .ok n ∧ ∃ last, totals.getLast? = some last ∧ n.IsWhole last
  error : (∃ t ∈ totals, Decimal.widthBound ≤ t.natAbs) → ∃ e, outcome = .error e

namespace GivesLast

variable {totals : List Int}

theorem single {outcome : Outcome Number} {total : Int} (gives : GivesWhole outcome total) :
    GivesLast outcome [total] := by
  constructor
  · intro fits
    obtain ⟨n, done, whole⟩ := gives.1 (fits total List.mem_cons_self)
    exact ⟨n, done, total, rfl, whole⟩
  · rintro ⟨t, member, wide⟩
    exact gives.2 (List.mem_singleton.mp member ▸ wide)

theorem cons {first : Outcome Number} {total : Int} (gives : GivesWhole first total)
    (some : totals ≠ []) {next : Number → Outcome Number}
    (others : ∀ n, n.IsWhole total → GivesLast (next n) totals) :
    GivesLast (first >>= next) (total :: totals) := by
  constructor
  · intro fits
    obtain ⟨n, done, whole⟩ := gives.1 (fits total List.mem_cons_self)
    obtain ⟨k, later, last, isLast, wholeLast⟩ :=
      (others n whole).value fun t member => fits t (List.mem_cons_of_mem _ member)
    refine ⟨k, by rw [done]; exact later, last, ?_, wholeLast⟩
    rw [List.getLast?_cons_of_ne_nil some, isLast]
  · rintro ⟨t, member, wide⟩
    cases first with
    | error e => exact ⟨e, rfl⟩
    | ok n =>
      have whole := gives.isWhole
      rcases List.mem_cons.mp member with rfl | member
      · exact absurd whole.natAbs_lt (Nat.not_lt.mpr wide)
      · exact (others n whole).error ⟨t, member, wide⟩

theorem errors (e e' : FormulaError) (gives : GivesLast (.error e) totals) :
    GivesLast (.error e') totals := by
  refine ⟨fun fits => ?_, fun _ => ⟨e', rfl⟩⟩
  obtain ⟨n, done, _⟩ := gives.value fits
  cases done

end GivesLast

namespace SignedSeries

section

variable {op : Arithmetic} (sum : op = .addition ∨ op = .subtraction) {n : Number} {m total : Int}
  (whole : n.IsWhole m)

include sum whole

theorem apply_near (near : (m - total).natAbs ≤ 0x10000000000000000) {i : Int} (fits : InWord i)
    (next : InWord (total + op.direction * i)) :
    ∃ joined, op.apply (.number n) (.number (.integer i fits)) = .ok joined ∧
      joined.IsWhole (m + op.direction * i) := by
  have small : (m + op.direction * i).natAbs < Decimal.widthBound := by
    unfold InWord at next
    unfold Decimal.widthBound
    omega
  exact (Arithmetic.apply_whole (Arithmetic.onWhole?_sum sum m i) whole
    (Number.isWhole_integer i fits)).1 small

theorem apply_turned (x : Signed) {k : Number} {j : Int} (operand : k.IsWhole j) :
    GivesWhole (op.apply (.number n) (.number (⟨x.signs, k⟩ : Signed).value))
      (m + op.direction * x.turn * j) := by
  have applied := Arithmetic.apply_whole (Arithmetic.onWhole?_sum sum m (x.turn * j)) whole
    (Signed.isWhole_value operand)
  rwa [← Int.mul_assoc] at applied

end

theorem joinBundle_givesLast {rest : List (Arithmetic × Signed)}
    (sums : ∀ step ∈ rest, step.1 = .addition ∨ step.1 = .subtraction)
    (natural : ∀ step ∈ rest, step.2.number.IsNatural) {current : Signed} {m total : Int}
    (whole : current.number.IsWhole m) (near : (m - total).natAbs ≤ 0x10000000000000000)
    (inWord : ∀ t ∈ totals total rest, InWord t) (join : Number → Outcome Number) (base way : Int)
    (joins : ∀ n k, n.IsWhole k →
      GivesWhole (join (⟨current.signs, n⟩ : Signed).value) (base + way * k)) :
    GivesLast (joinBundle join current rest) (runTotals way (base + way * m) rest) := by
  -- The sum of a run keeps the same distance from the running total by convention, so that it is
  -- never too wide. By induction on what is still behind: an operand without signs joins the run,
  -- any other ends it and begins the next.
  induction rest generalizing current m total join base way with
  | nil =>
    rw [joinBundle_nil]
    exact .single (joins current.number m whole)
  | cons step rest ih =>
    obtain ⟨op, x⟩ := step
    have others : ∀ step ∈ rest, step.1 = .addition ∨ step.1 = .subtraction := fun step member =>
      sums step (List.mem_cons_of_mem _ member)
    have naturals : ∀ step ∈ rest, step.2.number.IsNatural := fun step member =>
      natural step (List.mem_cons_of_mem _ member)
    have sum : op = .addition ∨ op = .subtraction := sums (op, x) List.mem_cons_self
    obtain ⟨i, fits, -, isInteger⟩ := (natural (op, x) List.mem_cons_self).integer
    dsimp only at isInteger
    have later : ∀ t ∈ totals (total + op.direction * x.toInt) rest, InWord t :=
      fun t member => inWord t (List.mem_cons_of_mem _ member)
    have next : InWord (total + op.direction * x.toInt) := by
      refine later _ ?_
      cases rest <;> exact List.mem_cons_self
    by_cases plain : x.signs = 0
    · have own : x.toInt = i := by simp [Signed.toInt, Signed.turn, plain, isInteger, Number.toInt]
      obtain ⟨signs, n⟩ := x
      dsimp only at plain isInteger
      subst plain isInteger
      rw [own] at later next
      obtain ⟨joined, value, isJoined⟩ := apply_near sum whole near fits next
      have still : (m + op.direction * i - (total + op.direction * i)).natAbs ≤
          0x10000000000000000 := by omega
      have run : GivesLast (joinBundle join ⟨current.signs, joined⟩ rest)
          (runTotals way (base + way * (m + op.direction * i)) rest) :=
        ih others naturals isJoined still later join base way joins
      rw [joinBundle_unsigned, value]
      simp only [runTotals, if_true, Number.toInt]
      rw [Int.add_assoc, ← Int.mul_add]
      exact run
    · have isWhole : x.number.IsWhole i := isInteger ▸ Number.isWhole_integer i fits
      have near : (i - (total + op.direction * x.toInt)).natAbs ≤ 0x10000000000000000 := by
        unfold InWord at fits next
        omega
      have own : op.direction * x.toInt = op.direction * x.turn * i := by
        rw [Signed.toInt, isInteger, Number.toInt, Int.mul_assoc]
      have run (n : Number) (isTotal : n.IsWhole (base + way * m)) :
          GivesLast (joinBundle (fun v => op.apply (.number n) (.number v)) x rest)
            (runTotals (op.direction * x.turn) (base + way * m + op.direction * x.turn * i) rest) :=
        ih others naturals isWhole near later _ _ _ fun _ _ => apply_turned sum isTotal x
      simp only [runTotals, if_neg plain, own]
      exact joinBundle_signed (P := (GivesLast · _)) GivesLast.errors plain
        (.cons (joins current.number m whole) (runTotals_ne_nil _ _ _) run)

theorem turn_cases (x : Signed) : x.turn = 1 ∨ x.turn = -1 := neg_one_pow_eq_or Int x.signs

theorem direction_cases (op : Arithmetic) : op.direction = 1 ∨ op.direction = -1 := by
  cases op <;> simp [Arithmetic.direction]

theorem getLast?_runTotals {way : Int} (either : way = 1 ∨ way = -1) (total : Int)
    (rest : List (Arithmetic × Signed)) :
    (runTotals way total rest).getLast? = some (total +
      (rest.map fun step => step.1.direction * step.2.toInt).sum - 2 * captured way rest) := by
  induction rest generalizing way total with
  | nil => simp [runTotals, captured]
  | cons step rest ih =>
    obtain ⟨op, x⟩ := step
    simp only [runTotals, captured, List.map_cons, List.sum_cons]
    by_cases plain : x.signs = 0
    · have own : x.toInt = x.number.toInt := by simp [Signed.toInt, Signed.turn, plain]
      simp only [if_pos plain, ih either, own, Option.some.injEq]
      rcases either with rfl | rfl
      · rw [if_pos rfl]
        ring
      · rw [if_neg (by decide)]
        ring
    · have further : op.direction * x.turn = 1 ∨ op.direction * x.turn = -1 := by
        rcases direction_cases op with same | same <;> rcases turn_cases x with turned | turned <;>
          simp [same, turned]
      simp only [if_neg plain, List.getLast?_cons_of_ne_nil (runTotals_ne_nil _ _ rest), ih further,
        Option.some.injEq]
      ring

/-- Integers that are not negative, with plus and minus between them, and running totals that fit
    into a word. -/
structure IsSum (s : SignedSeries) : Prop where
  sums : ∀ step ∈ s.rest, step.1 = .addition ∨ step.1 = .subtraction
  natural : ∀ x ∈ s.first :: s.rest.map Prod.snd, x.number.IsNatural
  inWord : ∀ t ∈ totals s.first.toInt s.rest, InWord t

instance (s : SignedSeries) : Decidable s.IsSum :=
  decidable_of_iff
    ((∀ step ∈ s.rest, step.1 = .addition ∨ step.1 = .subtraction) ∧
      (∀ x ∈ s.first :: s.rest.map Prod.snd, x.number.IsNatural) ∧
        ∀ t ∈ totals s.first.toInt s.rest, InWord t)
    ⟨fun ⟨sums, natural, inWord⟩ => ⟨sums, natural, inWord⟩,
      fun isSum => ⟨isSum.sums, isSum.natural, isSum.inWord⟩⟩

variable {s : SignedSeries}

theorem IsSum.natural_rest (isSum : s.IsSum) : ∀ step ∈ s.rest, step.2.number.IsNatural :=
  fun _ member => isSum.natural _ (List.mem_cons_of_mem _ (List.mem_map_of_mem member))

theorem IsSum.first_inWord (isSum : s.IsSum) : InWord s.first.toInt := by
  refine isSum.inWord _ ?_
  cases s.rest <;> exact List.mem_cons_self

theorem isWhole_lead (natural : s.first.number.IsNatural) : ∃ m, s.lead.number.IsWhole m ∧
    s.lead.turn * m = s.first.toInt ∧ m.natAbs ≤ 0x8000000000000000 := by
  obtain ⟨⟨signs, n⟩, rest⟩ := s
  obtain ⟨i, fits, nonneg, rfl⟩ := natural.integer
  have whole := Number.isWhole_integer i fits
  unfold lead
  by_cases single : signs = 1
  · subst single
    refine ⟨-i, whole.negate, by simp [Signed.turn, Signed.toInt, Number.toInt], ?_⟩
    unfold InWord at fits
    omega
  · rw [if_neg single]
    refine ⟨i, whole, rfl, ?_⟩
    unfold InWord at fits
    omega

theorem IsSum.givesLast (isSum : s.IsSum) :
    GivesLast s.byRules (runTotals s.lead.turn s.first.toInt s.rest) := by
  obtain ⟨m, whole, same, small⟩ := isWhole_lead (isSum.natural _ List.mem_cons_self)
  have near : (m - s.first.toInt).natAbs ≤ 0x10000000000000000 := by
    have fits := isSum.first_inWord
    unfold InWord at fits
    omega
  have starts (n : Number) (k : Int) (isWhole : n.IsWhole k) :
      GivesWhole (.ok (⟨s.lead.signs, n⟩ : Signed).value) (0 + s.lead.turn * k) := by
    have value : (⟨s.lead.signs, n⟩ : Signed).value.IsWhole ((-1) ^ s.lead.signs * k) :=
      Signed.isWhole_value isWhole
    rw [Int.zero_add]
    exact value.gives
  have run := joinBundle_givesLast isSum.sums isSum.natural_rest whole near isSum.inWord .ok 0
    s.lead.turn starts
  rw [Int.zero_add, same, ← byRules_eq] at run
  exact run

theorem getLast?_totals (total : Int) (rest : List (Arithmetic × Signed)) :
    (totals total rest).getLast? =
      some (total + (rest.map fun step => step.1.direction * step.2.toInt).sum) := by
  induction rest generalizing total with
  | nil => simp [totals]
  | cons step rest ih =>
    obtain ⟨op, x⟩ := step
    have some : totals (total + op.direction * x.toInt) rest ≠ [] := by
      cases rest <;> exact List.cons_ne_nil _ _
    simp only [totals, List.getLast?_cons_of_ne_nil some, ih, List.map_cons, List.sum_cons,
      Int.add_assoc]

theorem IsSum.inWord_sum (isSum : s.IsSum) : InWord s.sum :=
  isSum.inWord _ (List.mem_of_getLast? (getLast?_totals s.first.toInt s.rest))

/-- The value by the rules is the sum by convention if what has been captured comes to nothing,
    as long as decimals are wide enough for the totals on the way. -/
theorem IsSum.byRules_iff (isSum : s.IsSum) :
    (∃ n, s.byRules = .ok n ∧
      (Value.number n).same (.integer s.sum isSum.inWord_sum) = true) ↔
    captured s.lead.turn s.rest = 0 ∧
      ∀ t ∈ runTotals s.lead.turn s.first.toInt s.rest, t.natAbs < Decimal.widthBound := by
  have gives := isSum.givesLast
  have last := getLast?_runTotals (turn_cases s.lead) s.first.toInt s.rest
  constructor
  · rintro ⟨n, done, same⟩
    have fits : ∀ t ∈ runTotals s.lead.turn s.first.toInt s.rest,
        t.natAbs < Decimal.widthBound := by
      intro t member
      by_contra wide
      obtain ⟨e, failed⟩ := gives.error ⟨t, member, Nat.le_of_not_lt wide⟩
      rw [done] at failed
      cases failed
    obtain ⟨k, equal, total, isLast, whole⟩ := gives.value fits
    rw [done] at equal
    cases equal
    rw [last] at isLast
    cases isLast
    have sum := (whole.same_iff (Number.isWhole_integer _ _)).mp same
    unfold SignedSeries.sum at sum
    exact ⟨by omega, fits⟩
  · rintro ⟨none, fits⟩
    obtain ⟨n, done, total, isLast, whole⟩ := gives.value fits
    rw [last, none] at isLast
    cases isLast
    refine ⟨n, done, (whole.same_iff (Number.isWhole_integer _ _)).mpr ?_⟩
    simp [sum]

/-! Where nothing is captured -/

theorem value_natural {x : Signed} (natural : x.number.IsNatural) :
    ∃ fits, x.value = .integer x.toInt fits := by
  obtain ⟨signs, n⟩ := x
  obtain ⟨i, fits, nonneg, same⟩ := natural.integer
  dsimp only at same
  have least : -0x8000000000000000 < i := by omega
  clear nonneg natural
  subst same
  induction signs generalizing i with
  | zero =>
    have own : (⟨0, .integer i fits⟩ : Signed).toInt = i := by
      simp [Signed.toInt, Signed.turn, Number.toInt]
    exact ⟨by rw [own]; exact fits, by simp only [own]; rfl⟩
  | succ signs ih =>
    have turned : InWord (-i) := by
      unfold InWord at fits ⊢
      omega
    have negated : (Number.integer i fits).negate = .integer (-i) turned := by
      simp only [Number.negate, Number.ofInt?, dif_pos turned]
      rfl
    have own : (⟨signs + 1, .integer i fits⟩ : Signed).toInt =
        (⟨signs, .integer (-i) turned⟩ : Signed).toInt := by
      simp only [Signed.toInt, Signed.turn, Number.toInt]
      ring
    rw [own, Signed.value_succ, negated]
    exact ih (-i) turned (by unfold InWord at fits; omega)

theorem joinFrom_integer {rest : List (Arithmetic × Signed)}
    (sums : ∀ step ∈ rest, step.1 = .addition ∨ step.1 = .subtraction)
    (natural : ∀ step ∈ rest, step.2.number.IsNatural) {total : Int} (fits : InWord total)
    (inWord : ∀ t ∈ totals total rest, InWord t) :
    ∃ fits', joinFrom (.integer total fits) rest = .ok (.integer
      (total + (rest.map fun step => step.1.direction * step.2.toInt).sum) fits') := by
  induction rest generalizing total with
  | nil => exact ⟨by simpa using fits, by simp [joinFrom]⟩
  | cons step rest ih =>
    obtain ⟨op, x⟩ := step
    have later : ∀ t ∈ totals (total + op.direction * x.toInt) rest, InWord t :=
      fun t member => inWord t (List.mem_cons_of_mem _ member)
    have next : InWord (total + op.direction * x.toInt) := by
      refine later _ ?_
      cases rest <;> exact List.mem_cons_self
    obtain ⟨operand, value⟩ := value_natural (natural (op, x) List.mem_cons_self)
    have known := Arithmetic.onWhole?_sum (sums (op, x) List.mem_cons_self) total x.toInt
    have joined := Arithmetic.apply_integer known fits operand next
    obtain ⟨fits', done⟩ := ih (fun step member => sums step (List.mem_cons_of_mem _ member))
      (fun step member => natural step (List.mem_cons_of_mem _ member)) next later
    simp only [joinFrom, value, joined, List.map_cons, List.sum_cons, ← Int.add_assoc]
    exact ⟨fits', done⟩

theorem IsSum.byRules_integer (isSum : s.IsSum) (apart : s.Uncaptured) :
    s.byRules = .ok (.integer s.sum isSum.inWord_sum) := by
  obtain ⟨first, value⟩ := value_natural (isSum.natural _ List.mem_cons_self)
  obtain ⟨_, joined⟩ := joinFrom_integer isSum.sums isSum.natural_rest first isSum.inWord
  rw [byRules_of_uncaptured apart, leftToRight, value]
  exact joined

end SignedSeries

namespace RuleBook

/-- What a sum of integers with minus signs evaluates to. A sign negates all that joins its number
    first: it is the sum by convention exactly if the operands captured by a number that counts the
    other way come to nothing, and no total on the way is too wide for a decimal. -/
theorem evaluate_signed_sum (book : RuleBook) {s : SignedSeries} (isSum : s.IsSum)
    {tokens : List Token} (spelled : tokens.map Token.content = s.contents) :
    book.evaluate tokens = s.byRules.map Value.number ∧
    ((∃ v, book.evaluate tokens = .ok v ∧ v.same (.integer s.sum isSum.inWord_sum) = true) ↔
      SignedSeries.captured s.lead.turn s.rest = 0 ∧
        ∀ t ∈ SignedSeries.runTotals s.lead.turn s.first.toInt s.rest,
          t.natAbs < Decimal.widthBound) ∧
    (s.Uncaptured → book.evaluate tokens = .ok (.integer s.sum isSum.inWord_sum)) := by
  have known : ∀ step ∈ s.rest, step.1.operator ∈ [Operator.add, .subtract] := by
    intro step member
    rcases isSum.sums step member with same | same <;> rw [same] <;> decide
  have value := book.evaluate_sum known spelled
  refine ⟨value, ?_, fun apart => ?_⟩
  · rw [← isSum.byRules_iff, value]
    constructor
    · rintro ⟨v, done, same⟩
      cases here : s.byRules with
      | error e =>
        rw [here] at done
        cases done
      | ok n =>
        rw [here] at done
        cases done
        exact ⟨n, rfl, same⟩
    · rintro ⟨n, here, same⟩
      exact ⟨.number n, by rw [here]; rfl, same⟩
  · rw [value, isSum.byRules_integer apart]
    rfl

/-- `5 + 2 + -3`, where the sign captures nothing. -/
theorem evaluate_signed_sum_last :
    let s : SignedSeries := ⟨⟨0, .integer 5 (by decide)⟩,
      [(.addition, ⟨0, .integer 2 (by decide)⟩), (.addition, ⟨1, .integer 3 (by decide)⟩)]⟩
    let tokens : List Token := s.contents.map fun content => ⟨content, 1⟩
    s.IsSum ∧ tokens.map Token.content = s.contents ∧
      core.evaluate tokens = .ok (.integer 4) := by
  intro s tokens
  have isSum : s.IsSum := by decide
  have spelled : tokens.map Token.content = s.contents := rfl
  have apart : s.Uncaptured := by decide
  exact ⟨isSum, spelled, (core.evaluate_signed_sum isSum spelled).2.2 apart⟩

/-- `5 + -3 + 2` evaluates to 0: the sign has captured the sum of 3 and 2. -/
theorem signed_sum_captured :
    let s : SignedSeries := ⟨⟨0, .integer 5 (by decide)⟩,
      [(.addition, ⟨1, .integer 3 (by decide)⟩), (.addition, ⟨0, .integer 2 (by decide)⟩)]⟩
    let tokens : List Token := s.contents.map fun content => ⟨content, 1⟩
    s.IsSum ∧ tokens.map Token.content = s.contents ∧ s.sum = 4 ∧
      core.evaluate tokens = .ok (.integer 0) := by
  have value : (⟨⟨0, .integer 5 (by decide)⟩, [(.addition, ⟨1, .integer 3 (by decide)⟩),
      (.addition, ⟨0, .integer 2 (by decide)⟩)]⟩ : SignedSeries).byRules =
        .ok (.integer 0 (by decide)) := rfl
  intro s tokens
  have isSum : s.IsSum := by decide
  have spelled : tokens.map Token.content = s.contents := rfl
  have known : ∀ step ∈ s.rest, step.1.operator ∈ [Operator.add, .subtract] := by decide
  refine ⟨isSum, spelled, by decide, ?_⟩
  rw [core.evaluate_sum known spelled, value]
  rfl

end RuleBook

end Formulary
