import Formulary.Proofs.Rewriting

/-!
Operators by convention: which bind tighter than others, and the tree that groups a series of
operands accordingly. It is the only tree that reads like the series and is grouped so.
-/
namespace Formulary

def levels : List (List Operator) :=
  [[.power], [.modulo], [.multiply, .divide], [.add, .subtract], [.bitOr, .bitAnd]]

structure Series (α : Type) where
  first : α
  rest : List (Operator × α)

def Series.map {α β : Type} (f : α → β) (s : Series α) : Series β :=
  ⟨f s.first, s.rest.map fun step => (step.1, f step.2)⟩

def Series.contents (s : Series Value) : List Content :=
  .data s.first :: s.rest.flatMap fun step => [.symbol (.operator step.1), .data step.2]

def Operator.rank (op : Operator) : Nat := levels.findIdx (op ∈ ·)

inductive Tree where
  | leaf (n : Number)
  | node (op : Operator) (left right : Tree)

def Operator.join (op : Operator) (left right : Value) : Outcome Value :=
  match Arithmetic.ofOperator? op with
  | some arithmetic => do return .number (← arithmetic.apply left right)
  | none => op.bitwise left right

theorem operator_ne_negate (op : Arithmetic) : op.operator ≠ .negate := by
  cases op <;> exact nofun

theorem join_arithmetic (op : Arithmetic) (l r : Value) :
    op.operator.join l r = (op.apply l r).map Value.number := by
  have known : Arithmetic.ofOperator? op.operator = some op := by cases op <;> rfl
  rw [Operator.join, known]
  dsimp only
  cases op.apply l r <;> rfl

namespace Tree

def evaluate : Tree → Outcome Value
  | leaf n => .ok (.number n)
  | node op left right => do op.join (← left.evaluate) (← right.evaluate)

def subtrees : Tree → List Tree
  | leaf n => [leaf n]
  | node op left right => node op left right :: (left.subtrees ++ right.subtrees)

def contents : Tree → List Content
  | leaf n => [.data (.number n)]
  | node op left right => left.contents ++ .symbol (.operator op) :: right.contents

def operators : Tree → List Operator
  | leaf _ => []
  | node op left right => left.operators ++ op :: right.operators

/-- What binds more loosely stands further up, and what binds equally joins from left to right. -/
def Grouped : Tree → Prop
  | leaf _ => True
  | node op left right => left.Grouped ∧ right.Grouped ∧
      (∀ other ∈ left.operators, other.rank ≤ op.rank) ∧
      ∀ other ∈ right.operators, other.rank < op.rank

theorem evaluate_fails {tree part : Tree} (member : part ∈ tree.subtrees) {e : FormulaError}
    (failed : part.evaluate = .error e) : ∃ e', tree.evaluate = .error e' := by
  induction tree with
  | leaf n =>
    obtain rfl := List.mem_singleton.mp member
    exact ⟨e, failed⟩
  | node op left right ihLeft ihRight =>
    rcases List.mem_cons.mp member with rfl | inner
    · exact ⟨e, failed⟩
    · rcases List.mem_append.mp inner with inLeft | inRight
      · obtain ⟨e', here⟩ := ihLeft inLeft
        exact ⟨e', by simp only [evaluate, here]; rfl⟩
      · obtain ⟨e', here⟩ := ihRight inRight
        cases there : left.evaluate with
        | error other => exact ⟨other, by simp only [evaluate, there]; rfl⟩
        | ok l => exact ⟨e', by simp only [evaluate, there, here]; rfl⟩

end Tree

def gather (level : List Operator) (first : Tree) : List (Operator × Tree) → Series Tree
  | [] => ⟨first, []⟩
  | (op, next) :: rest =>
    if op ∈ level then gather level (.node op first next) rest
    else
      let others := gather level next rest
      ⟨first, (op, others.first) :: others.rest⟩

def group : List (List Operator) → Series Tree → Series Tree
  | [], s => s
  | level :: others, s => group others (gather level s.first s.rest)

/-- The tree that is left when all levels are grouped, the tightest first. -/
def Series.conventional (s : Series Number) : Tree := (group levels (s.map .leaf)).first

/-! The operators that are left -/

theorem operators_gather (level : List Operator) (first : Tree) (rest : List (Operator × Tree)) :
    (gather level first rest).rest.map Prod.fst =
      (rest.map Prod.fst).filter (· ∉ level) := by
  induction rest generalizing first with
  | nil => rfl
  | cons step rest ih =>
    obtain ⟨op, next⟩ := step
    by_cases joined : op ∈ level
    · simp [gather, joined, ih]
    · simp [gather, joined, ih]

theorem filter_level (level : List Operator) (others : List (List Operator))
    (ops : List Operator) :
    ((ops.filter (· ∉ level)).filter fun op => ∀ other ∈ others, op ∉ other) =
      ops.filter fun op => ∀ other ∈ level :: others, op ∉ other := by
  rw [List.filter_filter]
  refine List.filter_congr fun op _ => ?_
  simp [Bool.and_comm]

theorem filter_no_level (ops : List Operator) :
    (ops.filter fun op => ∀ other ∈ ([] : List (List Operator)), op ∉ other) = ops := by
  simp

theorem operators_group (remaining : List (List Operator)) (s : Series Tree) :
    (group remaining s).rest.map Prod.fst =
      (s.rest.map Prod.fst).filter fun op => ∀ level ∈ remaining, op ∉ level := by
  induction remaining generalizing s with
  | nil => exact (filter_no_level _).symm
  | cons level remaining ih => rw [group, ih, operators_gather, filter_level]

theorem mem_levels {op : Operator} (binary : op ≠ .negate) : ∃ level ∈ levels, op ∈ level := by
  cases op <;> first | exact absurd rfl binary | decide

theorem filter_levels {α : Type} {rest : List (Operator × α)}
    (binary : ∀ step ∈ rest, step.1 ≠ .negate) :
    ((rest.map Prod.fst).filter fun op => ∀ level ∈ levels, op ∉ level) = [] := by
  rw [List.filter_eq_nil_iff]
  intro op member
  obtain ⟨step, inside, rfl⟩ := List.mem_map.mp member
  obtain ⟨level, known, joined⟩ := mem_levels (binary step inside)
  simp only [decide_eq_true_eq]
  intro none
  exact none level known joined

theorem Series.map_binary {α β : Type} {f : α → β} {s : Series α}
    (binary : ∀ step ∈ s.rest, step.1 ≠ .negate) : ∀ step ∈ (s.map f).rest, step.1 ≠ .negate := by
  intro step member
  obtain ⟨operand, inside, rfl⟩ := List.mem_map.mp member
  exact binary operand inside

theorem group_leaves_rest {s : Series Number} (binary : ∀ step ∈ s.rest, step.1 ≠ .negate) :
    (group levels (s.map Tree.leaf)).rest = [] := by
  have left := operators_group levels (s.map .leaf)
  rw [filter_levels (Series.map_binary binary)] at left
  exact List.map_eq_nil_iff.mp left

/-! The shape of the tree -/

namespace Tree

theorem mem_operators_iff {tree : Tree} {op : Operator} :
    op ∈ tree.operators ↔ .symbol (.operator op) ∈ tree.contents := by
  induction tree with
  | leaf n => simp [operators, contents]
  | node root left right ihLeft ihRight => simp [operators, contents, ihLeft, ihRight]

/-- Of two grouped trees that read the same, neither has its root first: the other root would stand
    on its right and bind more tightly, and it would stand on the left of the other and not. -/
theorem Grouped.root_first {op op' : Operator} {left right left' right' : Tree}
    (grouped : (node op left right).Grouped) (also : (node op' left' right').Grouped)
    {between : List Content} (front : left'.contents = left.contents ++ between)
    (behind : .symbol (.operator op) :: right.contents =
      between ++ .symbol (.operator op') :: right'.contents) : between = [] := by
  obtain ⟨_, _, _, onRight⟩ := grouped
  obtain ⟨_, _, onLeft, _⟩ := also
  cases between with
  | nil => rfl
  | cons content between =>
    exfalso
    obtain ⟨rfl, later⟩ := List.cons.inj behind
    have inRight : op' ∈ right.operators := by
      rw [mem_operators_iff, later]
      simp
    have inLeft : op ∈ left'.operators := by
      rw [mem_operators_iff, front]
      simp
    have tighter := onRight op' inRight
    have looser := onLeft op inLeft
    omega

theorem Grouped.unique {tree other : Tree} (grouped : tree.Grouped) (also : other.Grouped)
    (same : tree.contents = other.contents) : tree = other := by
  induction tree generalizing other with
  | leaf n =>
    cases other with
    | leaf m =>
      obtain ⟨equal, _⟩ := List.cons.inj same
      cases equal
      rfl
    | node op left right =>
      have inside : Content.symbol (.operator op) ∈ (leaf n).contents := by
        rw [same]
        simp [contents]
      simp [contents] at inside
  | node op left right ihLeft ihRight =>
    cases other with
    | leaf m =>
      have inside : Content.symbol (.operator op) ∈ (leaf m).contents := by
        rw [← same]
        simp [contents]
      simp [contents] at inside
    | node op' left' right' =>
      have equal : left.contents = left'.contents ∧
          Content.symbol (.operator op) :: right.contents =
            .symbol (.operator op') :: right'.contents := by
        rcases List.append_eq_append_iff.mp same with
          ⟨between, front, behind⟩ | ⟨between, front, behind⟩
        · obtain rfl := Grouped.root_first grouped also front behind
          rw [List.append_nil] at front
          exact ⟨front.symm, behind⟩
        · obtain rfl := Grouped.root_first also grouped front behind
          rw [List.append_nil] at front
          exact ⟨front, behind.symm⟩
      obtain ⟨sameLeft, rest⟩ := equal
      obtain ⟨root, sameRight⟩ := List.cons.inj rest
      cases root
      obtain ⟨groupedLeft, groupedRight, _⟩ := grouped
      obtain ⟨alsoLeft, alsoRight, _⟩ := also
      rw [ihLeft groupedLeft alsoLeft sameLeft, ihRight groupedRight alsoRight sameRight]

end Tree

/-! The tree that is built -/

def Series.reading (s : Series Tree) : List Content :=
  s.first.contents ++ s.rest.flatMap fun step => .symbol (.operator step.1) :: step.2.contents

theorem reading_gather (level : List Operator) (first : Tree) (rest : List (Operator × Tree)) :
    (gather level first rest).reading = (⟨first, rest⟩ : Series Tree).reading := by
  induction rest generalizing first with
  | nil => rfl
  | cons step rest ih =>
    obtain ⟨op, next⟩ := step
    by_cases joined : op ∈ level
    · rw [gather, if_pos joined, ih]
      simp [Series.reading, Tree.contents]
    · have later := ih next
      simp only [Series.reading] at later
      simp [gather, joined, Series.reading, later]

theorem reading_group (remaining : List (List Operator)) (s : Series Tree) :
    (group remaining s).reading = s.reading := by
  induction remaining generalizing s with
  | nil => rfl
  | cons level remaining ih => rw [group, ih, reading_gather]

theorem reading_leaves (s : Series Number) :
    (s.map Tree.leaf).reading = (s.map Value.number).contents := by
  simp [Series.reading, Series.contents, Series.map, Tree.contents, List.flatMap_map]

theorem rank_of_mem {place : Nat} {level : List Operator} (known : levels[place]? = some level)
    {op : Operator} (joined : op ∈ level) : op.rank = place := by
  match place, known with
  | 0, rfl | 1, rfl | 2, rfl | 3, rfl | 4, rfl => cases op <;> first | rfl | simp at joined

/-- Grouped trees whose operators all bind more tightly than what is still to be joined. -/
def Below (bound : Nat) (tree : Tree) : Prop :=
  tree.Grouped ∧ ∀ op ∈ tree.operators, op.rank < bound

theorem below_gather {place : Nat} {level : List Operator} (known : levels[place]? = some level)
    {first : Tree} {rest : List (Operator × Tree)} (here : Below (place + 1) first)
    (later : ∀ step ∈ rest, Below place step.2) :
    Below (place + 1) (gather level first rest).first ∧
      ∀ step ∈ (gather level first rest).rest, Below (place + 1) step.2 := by
  induction rest generalizing first with
  | nil => exact ⟨here, by simp [gather]⟩
  | cons step rest ih =>
    obtain ⟨op, next⟩ := step
    obtain ⟨grouped, tight⟩ := later (op, next) List.mem_cons_self
    have others : ∀ step ∈ rest, Below place step.2 := fun step member =>
      later step (List.mem_cons_of_mem _ member)
    by_cases joined : op ∈ level
    · have rank := rank_of_mem known joined
      rw [gather, if_pos joined]
      refine ih ⟨⟨here.1, grouped, fun other inside => ?_, fun other inside => ?_⟩, ?_⟩ others
      · have := here.2 other inside
        omega
      · have := tight other inside
        omega
      · intro other inside
        rcases List.mem_append.mp inside with inLeft | inside
        · exact here.2 other inLeft
        · rcases List.mem_cons.mp inside with rfl | inRight
          · omega
          · exact Nat.lt_succ_of_lt (tight other inRight)
    · obtain ⟨start, behind⟩ := ih
        ⟨grouped, fun other inside => Nat.lt_succ_of_lt (tight other inside)⟩ others
      simp only [gather, if_neg joined]
      constructor
      · exact here
      · intro step member
        rcases List.mem_cons.mp member with rfl | member
        · exact start
        · exact behind step member

theorem below_group {done remaining : List (List Operator)} (split : levels = done ++ remaining)
    {s : Series Tree} (here : Below done.length s.first)
    (later : ∀ step ∈ s.rest, Below done.length step.2) :
    (group remaining s).first.Grouped := by
  induction remaining generalizing done s with
  | nil => exact here.1
  | cons level remaining ih =>
    have known : levels[done.length]? = some level := by simp [split]
    have wider : Below (done.length + 1) s.first :=
      ⟨here.1, fun op inside => Nat.lt_succ_of_lt (here.2 op inside)⟩
    obtain ⟨start, behind⟩ := below_gather known wider later
    have size : (done ++ [level]).length = done.length + 1 := by simp
    have further : levels = (done ++ [level]) ++ remaining := by simp [split]
    exact ih further (by rw [size]; exact start) (by rw [size]; exact behind)

namespace Series

theorem contents_conventional {s : Series Number} (binary : ∀ step ∈ s.rest, step.1 ≠ .negate) :
    s.conventional.contents = (s.map Value.number).contents := by
  rw [← reading_leaves, ← reading_group levels, reading, group_leaves_rest binary]
  simp [conventional]

theorem grouped_conventional (s : Series Number) : s.conventional.Grouped := by
  have leaf (n : Number) : Below 0 (.leaf n) := ⟨trivial, by simp [Tree.operators]⟩
  refine below_group (List.nil_append levels).symm (leaf s.first) fun step member => ?_
  obtain ⟨number, _, rfl⟩ := List.mem_map.mp member
  exact leaf number.2

/-- The conventional tree is the one that reads like the series and is grouped. -/
theorem eq_conventional_iff {s : Series Number} (binary : ∀ step ∈ s.rest, step.1 ≠ .negate)
    {tree : Tree} : tree = s.conventional ↔
      tree.Grouped ∧ tree.contents = (s.map Value.number).contents := by
  have reads := contents_conventional binary
  have grouped := s.grouped_conventional
  constructor
  · rintro rfl
    exact ⟨grouped, reads⟩
  · rintro ⟨also, same⟩
    exact also.unique grouped (same.trans reads.symm)

end Series

end Formulary
