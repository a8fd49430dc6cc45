import Formulary.Proofs.Conventional

/-!
Computing level by level. The value of the conventional tree is what is left when the operators of
each level, the tightest first, have joined the values next to them.
-/
namespace Formulary

def compute (level : List Operator) (first : Value) :
    List (Operator × Value) → Outcome (Series Value)
  | [] => .ok ⟨first, []⟩
  | (op, next) :: rest =>
    if op ∈ level then do compute level (← op.join first next) rest
    else do
      let others ← compute level next rest
      return ⟨first, (op, others.first) :: others.rest⟩

def settle : List (List Operator) → Series Value → Outcome (Series Value)
  | [], s => .ok s
  | level :: others, s => do settle others (← compute level s.first s.rest)

/-! The operators that are left -/

theorem operators_compute {level : List Operator} {first : Value}
    {rest : List (Operator × Value)} {s : Series Value}
    (computed : compute level first rest = .ok s) :
    s.rest.map Prod.fst = (rest.map Prod.fst).filter (· ∉ level) := by
  induction rest generalizing first s with
  | nil =>
    cases computed
    rfl
  | cons step rest ih =>
    obtain ⟨op, next⟩ := step
    unfold compute at computed
    by_cases joined : op ∈ level
    · rw [if_pos joined] at computed
      obtain ⟨v, _, rest⟩ := bind_eq_ok.mp computed
      simp [joined, ih rest]
    · rw [if_neg joined] at computed
      obtain ⟨others, inner, same⟩ := bind_eq_ok.mp computed
      cases same
      simp [joined, ih inner]

theorem operators_settle {remaining : List (List Operator)} {s after : Series Value}
    (settled : settle remaining s = .ok after) :
    after.rest.map Prod.fst =
      (s.rest.map Prod.fst).filter fun op => ∀ level ∈ remaining, op ∉ level := by
  induction remaining generalizing s with
  | nil =>
    cases settled
    exact (filter_no_level _).symm
  | cons level remaining ih =>
    obtain ⟨next, computed, rest⟩ := bind_eq_ok.mp settled
    rw [ih rest, operators_compute computed, filter_level]

theorem settle_levels_rest {s after : Series Value} (binary : ∀ step ∈ s.rest, step.1 ≠ .negate)
    (settled : settle levels s = .ok after) : after.rest = [] := by
  have left := operators_settle settled
  rw [filter_levels binary] at left
  exact List.map_eq_nil_iff.mp left

/-! Values of trees, and values that are computed -/

namespace Series

def restValues? : List (Operator × Tree) → Option (List (Operator × Value))
  | [] => some []
  | (op, tree) :: rest => do
    let v ← tree.evaluate.toOption
    let vs ← restValues? rest
    return (op, v) :: vs

def values? (s : Series Tree) : Option (Series Value) := do
  let v ← s.first.evaluate.toOption
  let vs ← restValues? s.rest
  return ⟨v, vs⟩

theorem values?_cons (first next : Tree) (op : Operator) (rest : List (Operator × Tree)) :
    (⟨first, (op, next) :: rest⟩ : Series Tree).values? =
      first.evaluate.toOption.bind fun v => (⟨next, rest⟩ : Series Tree).values?.bind fun s =>
        some ⟨v, (op, s.first) :: s.rest⟩ := by
  simp only [values?, restValues?]
  cases first.evaluate.toOption with
  | none => rfl
  | some l =>
    cases next.evaluate.toOption with
    | none => rfl
    | some r => cases restValues? rest <;> rfl

theorem values?_node (first next : Tree) (op : Operator) (rest : List (Operator × Tree)) :
    (⟨.node op first next, rest⟩ : Series Tree).values? =
      first.evaluate.toOption.bind fun l => (⟨next, rest⟩ : Series Tree).values?.bind fun s =>
        (op.join l s.first).toOption.bind fun v => some ⟨v, s.rest⟩ := by
  simp only [values?, Tree.evaluate, toOption_bind]
  cases first.evaluate.toOption with
  | none => rfl
  | some l =>
    cases next.evaluate.toOption with
    | none => rfl
    | some r =>
      cases restValues? rest with
      | none => cases joined : (op.join l r).toOption <;> simp [joined]
      | some vs => rfl

/-- A failure on the one side is a failure on the other, if not the same one: trees may be
    evaluated in another order. -/
theorem values?_gather (level : List Operator) (first : Tree) (rest : List (Operator × Tree)) :
    (gather level first rest).values? =
      (⟨first, rest⟩ : Series Tree).values?.bind fun s =>
        (compute level s.first s.rest).toOption := by
  induction rest generalizing first with
  | nil =>
    simp only [gather, values?, restValues?]
    cases first.evaluate <;> rfl
  | cons step rest ih =>
    obtain ⟨op, next⟩ := step
    rw [values?_cons]
    by_cases joined : op ∈ level
    · rw [gather, if_pos joined, ih, values?_node]
      simp only [Option.bind_assoc, Option.bind_some, compute, if_pos joined, toOption_bind]
    · rw [gather, if_neg joined, values?_cons, ih]
      simp only [Option.bind_assoc, Option.bind_some, compute, if_neg joined, toOption_bind]
      rfl

theorem values?_group (remaining : List (List Operator)) (s : Series Tree) :
    (group remaining s).values? =
      s.values?.bind fun values => (settle remaining values).toOption := by
  induction remaining generalizing s with
  | nil =>
    rw [group]
    cases s.values? <;> rfl
  | cons level remaining ih =>
    rw [group, ih, values?_gather, Option.bind_assoc]
    simp only [settle, toOption_bind]

theorem values?_leaves (s : Series Number) :
    (s.map Tree.leaf).values? = some (s.map Value.number) := by
  have rest : restValues? (s.map Tree.leaf).rest = some (s.map Value.number).rest := by
    unfold map
    induction s.rest with
    | nil => rfl
    | cons step rest ih =>
      simp only [List.map_cons, restValues?, Tree.evaluate] at ih ⊢
      rw [ih]
      rfl
  simp only [values?, rest]
  rfl

theorem conventional_toOption {s : Series Number}
    (binary : ∀ step ∈ s.rest, step.1 ≠ .negate) :
    s.conventional.evaluate.toOption =
      (settle levels (s.map .number)).toOption.map Series.first := by
  have grouped := values?_group levels (s.map .leaf)
  rw [values?_leaves, Option.bind_some] at grouped
  rw [← grouped, values?, group_leaves_rest binary]
  unfold conventional
  cases Tree.evaluate _ <;> rfl

end Series

end Formulary
