import Formulary.Proofs.Comparisons

/-!
Conditions joined by words. The value is what their truth values give from the left, and all of
them are asked for: no word decides before the rest has been computed.
-/
namespace Formulary

inductive Condition where
  | truth (b : Bool)
  | numbers (left : Series Number) (sign : Comparator) (right : Series Number)
  | texts (left : String) (sign : Comparator) (right : String)
  | times (left : DateTime) (sign : Comparator) (right : DateTime)

namespace Condition

def clause : Condition → Clause
  | truth b => .truth b
  | numbers left sign right => .comparison (left.map .number) sign (right.map .number)
  | texts left sign right => .comparison ⟨.text left, []⟩ sign ⟨.text right, []⟩
  | times left sign right => .comparison ⟨.dateTime left, []⟩ sign ⟨.dateTime right, []⟩

def series : Condition → List (Series Number)
  | numbers left _ right => [left, right]
  | _ => []

/-- The truth value. Both sides of a comparison have the value of their conventional tree. -/
def holds : Condition → Outcome Bool
  | truth b => .ok b
  | numbers left sign right => do
    sign.compare (← left.conventional.evaluate) (← right.conventional.evaluate)
  | texts left sign right => sign.compare (.text left) (.text right)
  | times left sign right => sign.compare (.dateTime left) (.dateTime right)

end Condition

/-- The words join the truth values from the left, and equally tightly. Every one is computed. -/
def Junction.evaluate (j : Junction Condition) : Outcome Value := do
  let first ← j.first.holds
  let b ← j.rest.foldlM (fun b step => do return step.1.unite b (← step.2.holds)) first
  return .logical b

namespace Junction

theorem evaluate_of_rel {j : Junction Condition} {k : Junction Bool}
    (rel : j.Rel (fun c b => c.holds = .ok b) k) : j.evaluate = .ok (.logical k.value) := by
  obtain ⟨first, rest⟩ := j
  obtain ⟨b, others⟩ := k
  obtain ⟨here, later⟩ := rel
  dsimp only at here later
  have folded : rest.foldlM (fun b step => do return step.1.unite b (← step.2.holds)) b =
      (.ok (Junction.value ⟨b, others⟩) : Outcome Bool) := by
    clear here
    induction later generalizing b with
    | nil => rfl
    | @cons step other _ _ related _ ih =>
      rw [List.foldlM_cons, related.2, related.1]
      exact ih (other.1.unite b other.2)
  unfold evaluate
  rw [here]
  dsimp only [bind, Except.bind] at folded ⊢
  rw [folded]
  rfl

theorem holds_of_evaluate {j : Junction Condition} {v : Value} (value : j.evaluate = .ok v) :
    ∀ c ∈ j.operands, ∃ b, c.holds = .ok b := by
  obtain ⟨first, rest⟩ := j
  obtain ⟨b, here, later⟩ := bind_eq_ok.mp value
  obtain ⟨last, folded, _⟩ := bind_eq_ok.mp later
  refine List.forall_mem_cons.mpr ⟨⟨b, here⟩, ?_⟩
  clear here later value
  dsimp only at folded ⊢
  induction rest generalizing b with
  | nil => simp
  | cons step rest ih =>
    rw [List.foldlM_cons] at folded
    obtain ⟨united, next, others⟩ := bind_eq_ok.mp folded
    obtain ⟨c, holds, _⟩ := bind_eq_ok.mp next
    exact List.forall_mem_cons.mpr ⟨⟨c, holds⟩, ih united others⟩

end Junction

/-! One condition -/

theorem Tree.number_of_evaluate {tree : Tree} {v : Value} (value : tree.evaluate = .ok v) :
    ∃ n, v = .number n := by
  cases tree with
  | leaf n => exact ⟨n, (Except.ok.inj value).symm⟩
  | node op left right =>
    obtain ⟨l, _, rest⟩ := bind_eq_ok.mp value
    obtain ⟨r, _, joined⟩ := bind_eq_ok.mp rest
    exact number_of_join joined

theorem Tree.evaluates_iff {tree : Tree} : (∃ v, tree.evaluate = .ok v) ↔
    ∀ part ∈ tree.subtrees, ∃ v, part.evaluate = .ok v := by
  constructor
  · rintro ⟨v, value⟩ part member
    cases failed : part.evaluate with
    | ok w => exact ⟨w, rfl⟩
    | error e =>
      obtain ⟨e', fails⟩ := evaluate_fails member failed
      rw [value] at fails
      cases fails
  · intro all
    refine all tree ?_
    cases tree <;> exact List.mem_cons_self

theorem Series.settle_conventional {s : Series Number}
    (binary : ∀ step ∈ s.rest, step.1 ≠ .negate) :
    (∃ n, settle levels (s.map .number) = .ok ⟨.number n, []⟩ ∧
      s.conventional.evaluate = .ok (.number n)) ∨
    ∃ e e', settle levels (s.map .number) = .error e ∧ s.conventional.evaluate = .error e' := by
  have same := conventional_toOption binary
  cases settled : settle levels (s.map .number) with
  | error e =>
    rw [settled] at same
    cases value : s.conventional.evaluate with
    | error e' => exact .inr ⟨e, e', rfl, rfl⟩
    | ok v =>
      rw [value] at same
      cases same
  | ok after =>
    rw [settled] at same
    cases value : s.conventional.evaluate with
    | error e' =>
      rw [value] at same
      cases same
    | ok v =>
      rw [value] at same
      obtain ⟨n, rfl⟩ := Tree.number_of_evaluate value
      have none := settle_levels_rest (Series.map_binary binary) settled
      obtain ⟨first, rest⟩ := after
      obtain rfl : Value.number n = first := Option.some.inj same
      obtain rfl : rest = [] := none
      exact .inl ⟨n, rfl, rfl⟩

namespace Condition

variable {c : Condition}

/-- The arithmetic of a condition, done by levels, leaves a clause with the same truth value, or
    fails as the condition does. -/
theorem settle (binary : ∀ s ∈ c.series, ∀ step ∈ s.rest, step.1 ≠ .negate) :
    (∃ done, c.clause.settle levels = .ok done ∧ done.Simple ∧ c.holds = .ok done.holds) ∨
    ∃ e e', c.clause.settle levels = .error e ∧ c.holds = .error e' := by
  cases c with
  | truth b => exact .inl ⟨.truth b, rfl, trivial, rfl⟩
  | texts left sign right =>
    have alone (s : String) : Formulary.settle levels ⟨.text s, []⟩ = .ok ⟨.text s, []⟩ := rfl
    exact .inl ⟨_, Clause.settle_comparison.mpr ⟨_, _, alone left, alone right, rfl⟩,
      ⟨rfl, rfl, _, rfl⟩, rfl⟩
  | times left sign right =>
    have alone (t : DateTime) :
        Formulary.settle levels ⟨.dateTime t, []⟩ = .ok ⟨.dateTime t, []⟩ := rfl
    exact .inl ⟨_, Clause.settle_comparison.mpr ⟨_, _, alone left, alone right, rfl⟩,
      ⟨rfl, rfl, _, rfl⟩, rfl⟩
  | numbers left sign right =>
    have fails (failed : ∀ done, (numbers left sign right).clause.settle levels ≠ .ok done) :
        ∃ e, (numbers left sign right).clause.settle levels = .error e := by
      cases settled : (numbers left sign right).clause.settle levels with
      | error e => exact ⟨e, rfl⟩
      | ok done => exact absurd settled (failed done)
    have sides := List.forall_mem_cons.mp binary
    rcases Series.settle_conventional sides.1 with ⟨l, isLeft, valueLeft⟩ |
      ⟨e, e', failed, failed'⟩
    · rcases Series.settle_conventional (sides.2 right List.mem_cons_self) with
        ⟨r, isRight, valueRight⟩ | ⟨e, e', failed, failed'⟩
      · refine .inl ⟨_, Clause.settle_comparison.mpr ⟨_, _, isLeft, isRight, rfl⟩,
          ⟨rfl, rfl, _, rfl⟩, ?_⟩
        exact bind_eq_ok.mpr ⟨_, valueLeft, bind_eq_ok.mpr ⟨_, valueRight, rfl⟩⟩
      · obtain ⟨first, error⟩ := fails fun done settled => by
          obtain ⟨_, _, _, isRight, _⟩ := Clause.settle_comparison.mp settled
          rw [failed] at isRight
          cases isRight
        exact .inr ⟨first, e', error, by simp [holds, valueLeft, failed', bind, Except.bind]⟩
    · obtain ⟨first, error⟩ := fails fun done settled => by
        obtain ⟨_, _, isLeft, _⟩ := Clause.settle_comparison.mp settled
        rw [failed] at isLeft
        cases isLeft
      exact .inr ⟨first, e', error, by simp [holds, failed', bind, Except.bind]⟩

theorem holds_iff : (∃ b, c.holds = .ok b) ↔
    ∀ s ∈ c.series, ∃ v, s.conventional.evaluate = .ok v := by
  cases c with
  | truth b => exact ⟨fun _ => by simp [series], fun _ => ⟨b, rfl⟩⟩
  | texts left sign right =>
    exact ⟨fun _ => by simp [series], fun _ => ⟨sign.holds (compareOfLessAndEq left right), rfl⟩⟩
  | times left sign right =>
    exact ⟨fun _ => by simp [series], fun _ => ⟨sign.holds (left.order right), rfl⟩⟩
  | numbers left sign right =>
    constructor
    · rintro ⟨b, value⟩
      obtain ⟨l, isLeft, rest⟩ := bind_eq_ok.mp value
      obtain ⟨r, isRight, _⟩ := bind_eq_ok.mp rest
      simp [series, isLeft, isRight]
    · intro values
      obtain ⟨l, isLeft⟩ := values left List.mem_cons_self
      obtain ⟨r, isRight⟩ := values right (List.mem_cons_of_mem _ List.mem_cons_self)
      obtain ⟨n, rfl⟩ := Tree.number_of_evaluate isLeft
      obtain ⟨m, rfl⟩ := Tree.number_of_evaluate isRight
      exact ⟨sign.holds (n.order m),
        bind_eq_ok.mpr ⟨_, isLeft, bind_eq_ok.mpr ⟨_, isRight, rfl⟩⟩⟩

theorem clause_of (binary : ∀ s ∈ c.series, ∀ step ∈ s.rest, step.1 ≠ .negate) :
    c.clause.Of (RuleBook.LeftBy []) := by
  have numbers {s : Series Number} (binary : ∀ step ∈ s.rest, step.1 ≠ .negate) :
      (s.map Value.number).Of (RuleBook.LeftBy []) := by
    refine ⟨nofun, fun _ => ⟨rfl, fun step member => ?_⟩, fun step member =>
      ⟨Series.map_binary binary step member, by simp⟩⟩
    obtain ⟨origin, _, rfl⟩ := List.mem_map.mp member
    rfl
  have alone {v : Value} (some : v.category ≠ .null) :
      (⟨v, []⟩ : Series Value).Of (RuleBook.LeftBy []) :=
    ⟨some, fun several => absurd rfl several, by simp⟩
  cases c with
  | truth b => trivial
  | texts left sign right => exact ⟨alone nofun, alone nofun⟩
  | times left sign right => exact ⟨alone nofun, alone nofun⟩
  | numbers left sign right =>
    exact ⟨numbers (binary left List.mem_cons_self),
      numbers (binary right (List.mem_cons_of_mem _ List.mem_cons_self))⟩

end Condition

namespace RuleBook

theorem evaluate_junction (book : RuleBook) {j : Junction Condition}
    (binary : ∀ c ∈ j.operands, ∀ s ∈ c.series, ∀ step ∈ s.rest, step.1 ≠ .negate)
    {tokens : List Token} (spelled : tokens.map Token.content = (j.map Condition.clause).contents) :
    (∃ v, book.evaluate tokens = .ok v ∧ j.evaluate = .ok v) ∨
    ∃ c ∈ j.operands, ∃ e e', c.holds = .error e ∧ book.evaluate tokens = .error e' := by
  have left : ∀ c ∈ (j.map Condition.clause).operands, c.Of (LeftBy []) := by
    rw [Junction.operands_map]
    exact List.forall_mem_map.mpr fun c member => Condition.clause_of (binary c member)
  rcases book.settles_clauses (List.nil_append levels).symm left spelled with
    ⟨d, rel, after, isAfter, same⟩ | ⟨clause, member, e, e', failed, fails⟩
  · have settled := Junction.rel_map_left.mp rel
    have simple : ∀ done ∈ d.operands, done.Simple := by
      intro done member
      obtain ⟨c, inside, became⟩ := settled.mem member
      rcases Condition.settle (binary c inside) with ⟨_, settles, simple, _⟩ | ⟨e, _, fails, _⟩
      · obtain rfl := Except.ok.inj (became.symm.trans settles)
        exact simple
      · rw [became] at fails
        cases fails
    have holds : j.Rel (fun c b => c.holds = .ok b) (d.map Clause.holds) := by
      refine Junction.rel_map_right.mpr (settled.imp fun c inside done became => ?_)
      rcases Condition.settle (binary c inside) with ⟨_, settles, _, value⟩ | ⟨e, _, fails, _⟩
      · obtain rfl := Except.ok.inj (became.symm.trans settles)
        exact value
      · rw [became] at fails
        cases fails
    refine .inl ⟨_, ?_, Junction.evaluate_of_rel holds⟩
    rw [List.nil_append, List.nil_append] at same
    rw [same]
    exact book.evaluate_simple simple isAfter
  · rw [Junction.operands_map] at member
    obtain ⟨c, inside, rfl⟩ := List.mem_map.mp member
    rcases Condition.settle (binary c inside) with ⟨_, settles, _⟩ | ⟨_, e', _, fails'⟩
    · rw [failed] at settles
      cases settles
    · exact .inr ⟨c, inside, _, _, fails', fails⟩

/-- Conditions joined by words, whatever functions are registered: the outcome is `ok` exactly if
    every part of every series of numbers has a value, and then it is what the truth values give
    from the left. -/
theorem evaluate_conditions (book : RuleBook) {j : Junction Condition}
    (binary : ∀ c ∈ j.operands, ∀ s ∈ c.series, ∀ step ∈ s.rest, step.1 ≠ .negate)
    {tokens : List Token} (spelled : tokens.map Token.content = (j.map Condition.clause).contents) :
    (∀ v, book.evaluate tokens = .ok v ↔ j.evaluate = .ok v) ∧
    ((∃ v, book.evaluate tokens = .ok v) ↔ ∀ c ∈ j.operands, ∀ s ∈ c.series,
      ∀ part ∈ s.conventional.subtrees, ∃ v, part.evaluate = .ok v) := by
  have parts : (∀ c ∈ j.operands, ∃ b, c.holds = .ok b) ↔ ∀ c ∈ j.operands, ∀ s ∈ c.series,
      ∀ part ∈ s.conventional.subtrees, ∃ v, part.evaluate = .ok v :=
    forall₂_congr fun c _ => Condition.holds_iff.trans
      (forall₂_congr fun s _ => Tree.evaluates_iff)
  rw [← parts]
  rcases book.evaluate_junction binary spelled with
    ⟨v, here, there⟩ | ⟨c, member, e, e', fails, failed⟩
  · rw [here, there]
    exact ⟨fun _ => Iff.rfl, ⟨fun _ => Junction.holds_of_evaluate there, fun _ => ⟨v, rfl⟩⟩⟩
  · have none : ¬ ∀ c ∈ j.operands, ∃ b, c.holds = .ok b := by
      intro all
      obtain ⟨b, holds⟩ := all c member
      rw [fails] at holds
      cases holds
    rw [failed]
    refine ⟨fun v => ⟨nofun, fun value => absurd (Junction.holds_of_evaluate value) none⟩,
      ⟨fun ⟨v, impossible⟩ => (nomatch impossible), fun all => absurd all none⟩⟩

/-- `1 + 2 < 4 or 7 % 0 = 0 and false`, with the core rules: there is no remainder, though what
    stands before `or` is true already. With `7 % 7` the value is false, as `and` binds no
    tighter. -/
theorem evaluate_conditions_unskipped :
    let number (i : Int) (fits : InWord i) : Number := .integer i fits
    let sum : Series Number := ⟨number 1 (by decide), [(.add, number 2 (by decide))]⟩
    let remainder (n : Number) : Series Number := ⟨number 7 (by decide), [(.modulo, n)]⟩
    let j (n : Number) : Junction Condition := ⟨.numbers sum .less ⟨number 4 (by decide), []⟩,
      [(.or, .numbers (remainder n) .equal ⟨number 0 (by decide), []⟩), (.and, .truth false)]⟩
    let tokens (n : Number) : List Token :=
      ((j n).map Condition.clause).contents.map fun content => ⟨content, 1⟩
    (∀ n, ∀ c ∈ (j n).operands, ∀ s ∈ c.series, ∀ step ∈ s.rest, step.1 ≠ .negate) ∧
      (∀ n, (tokens n).map Token.content = ((j n).map Condition.clause).contents) ∧
      core.evaluate (tokens (number 7 (by decide))) = .ok (.logical false) ∧
      ∀ v, core.evaluate (tokens (number 0 (by decide))) ≠ .ok v := by
  have defined : Junction.evaluate ⟨.numbers
      ⟨.integer 1 (by decide), [(.add, .integer 2 (by decide))]⟩ .less ⟨.integer 4 (by decide), []⟩,
      [(.or, .numbers ⟨.integer 7 (by decide), [(.modulo, .integer 7 (by decide))]⟩ .equal
        ⟨.integer 0 (by decide), []⟩), (.and, .truth false)]⟩ = .ok (.logical false) := by rfl
  have undefined : Junction.evaluate ⟨.numbers
      ⟨.integer 1 (by decide), [(.add, .integer 2 (by decide))]⟩ .less ⟨.integer 4 (by decide), []⟩,
      [(.or, .numbers ⟨.integer 7 (by decide), [(.modulo, .integer 0 (by decide))]⟩ .equal
        ⟨.integer 0 (by decide), []⟩), (.and, .truth false)]⟩ = .error .divisionByZero := by rfl
  intro number sum remainder j tokens
  have binary (n : Number) :
      ∀ c ∈ (j n).operands, ∀ s ∈ c.series, ∀ step ∈ s.rest, step.1 ≠ .negate := by
    simp [j, sum, remainder, Junction.operands, Condition.series]
  have spelled (n : Number) :
      (tokens n).map Token.content = ((j n).map Condition.clause).contents := by
    simp [tokens, Function.comp_def]
  refine ⟨binary, spelled, ?_, fun v value => ?_⟩
  · exact ((core.evaluate_conditions (binary _) (spelled _)).1 _).mpr defined
  · have there := ((core.evaluate_conditions (binary _) (spelled _)).1 v).mp value
    cases undefined.symm.trans there

end RuleBook

end Formulary
