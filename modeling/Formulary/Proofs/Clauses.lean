import Mathlib.Data.List.Forall2
import Formulary.Proofs.Precedence
import Formulary.Proofs.Skipping

/-!
Comparisons joined by words. Each rule sees all of the tokens, and works through them from the
left: so a run is a number of passes, in each of which one rule has taken all that it can take,
clause by clause.
-/
namespace Formulary

structure Junction (α : Type) where
  first : α
  rest : List (Combinator × α)

namespace Junction

variable {α β γ : Type}

def map (f : α → β) (j : Junction α) : Junction β :=
  ⟨f j.first, j.rest.map fun step => (step.1, f step.2)⟩

def operands (j : Junction α) : List α := j.first :: j.rest.map Prod.snd

def Rel (R : α → β → Prop) (j : Junction α) (k : Junction β) : Prop :=
  R j.first k.first ∧ List.Forall₂ (fun a b => a.1 = b.1 ∧ R a.2 b.2) j.rest k.rest

theorem Rel.cons {R : α → β → Prop} {a : α} {b : β} (first : R a b) {word : Combinator}
    {j : Junction α} {k : Junction β} (rest : j.Rel R k) :
    (⟨a, (word, j.first) :: j.rest⟩ : Junction α).Rel R ⟨b, (word, k.first) :: k.rest⟩ :=
  ⟨first, .cons ⟨rfl, rest.1⟩ rest.2⟩

theorem Rel.mem {R : α → β → Prop} {j : Junction α} {k : Junction β} (rel : j.Rel R k) {b : β}
    (member : b ∈ k.operands) : ∃ a ∈ j.operands, R a b := by
  obtain ⟨first, rest⟩ := j
  obtain ⟨head, others⟩ := k
  obtain ⟨related, rel⟩ := rel
  dsimp only at related rel
  induction rel generalizing first head with
  | nil =>
    obtain rfl := List.mem_singleton.mp member
    exact ⟨first, List.mem_cons_self, related⟩
  | cons step _ ih =>
    rcases List.mem_cons.mp member with rfl | member
    · exact ⟨first, List.mem_cons_self, related⟩
    · obtain ⟨a, inside, also⟩ := ih _ _ member step.2
      exact ⟨a, List.mem_cons_of_mem _ inside, also⟩

theorem rel_map_left {f : α → β} {R : β → γ → Prop} {j : Junction α} {k : Junction γ} :
    (j.map f).Rel R k ↔ j.Rel (fun a c => R (f a) c) k :=
  and_congr_right fun _ => List.forall₂_map_left_iff

theorem rel_map_right {g : γ → β} {R : α → β → Prop} {j : Junction α} {k : Junction γ} :
    j.Rel R (k.map g) ↔ j.Rel (fun a c => R a (g c)) k :=
  and_congr_right fun _ => List.forall₂_map_right_iff

theorem Rel.imp {R S : α → β → Prop} {j : Junction α} {k : Junction β}
    (imp : ∀ a ∈ j.operands, ∀ b, R a b → S a b) (rel : j.Rel R k) : j.Rel S k := by
  obtain ⟨first, rest⟩ := j
  obtain ⟨_, others⟩ := k
  obtain ⟨here, later⟩ := List.forall_mem_cons.mp imp
  obtain ⟨one, rel⟩ := rel
  refine ⟨here _ one, ?_⟩
  dsimp only at later rel ⊢
  clear here imp one
  induction rel with
  | nil => exact .nil
  | cons step _ ih =>
    obtain ⟨next, others⟩ := List.forall_mem_cons.mp later
    exact .cons ⟨step.1, next _ step.2⟩ (ih others)

theorem Rel.trans {R : α → β → Prop} {S : β → γ → Prop} {T : α → γ → Prop}
    (compose : ∀ {a b c}, R a b → S b c → T a c) {j : Junction α} {k : Junction β}
    {l : Junction γ} (one : j.Rel R k) (two : k.Rel S l) : j.Rel T l := by
  obtain ⟨first, rest⟩ := j
  obtain ⟨second, others⟩ := k
  obtain ⟨third, last⟩ := l
  refine ⟨compose one.1 two.1, ?_⟩
  have here := one.2
  have there := two.2
  dsimp only at here there ⊢
  clear one two
  induction here generalizing last with
  | nil =>
    cases there
    exact .nil
  | cons step _ ih =>
    cases there with
    | cons also more => exact .cons ⟨step.1.trans also.1, compose step.2 also.2⟩ (ih _ more)

theorem Rel.eq_map {f : α → β} {j : Junction α} {k : Junction β}
    (rel : j.Rel (fun a b => f a = b) k) : k = j.map f := by
  obtain ⟨first, rest⟩ := j
  obtain ⟨_, others⟩ := k
  obtain ⟨rfl, rel⟩ := rel
  dsimp only at rel
  suffices others = rest.map fun step => (step.1, f step.2) by rw [this]; rfl
  induction rel with
  | nil => rfl
  | cons step _ ih => rw [List.map_cons, ← ih, step.1, step.2]

theorem map_map (f : α → β) (g : β → γ) (j : Junction α) : (j.map f).map g = j.map (g ∘ f) := by
  simp [map]

theorem map_congr {f g : α → β} {j : Junction α} (same : ∀ a ∈ j.operands, f a = g a) :
    j.map f = j.map g := by
  obtain ⟨first, rest⟩ := List.forall_mem_cons.mp same
  unfold map
  rw [first, List.map_congr_left fun step member => by rw [rest _ (List.mem_map_of_mem member)]]

theorem operands_map (f : α → β) (j : Junction α) : (j.map f).operands = j.operands.map f := by
  simp [operands, map]

end Junction

inductive Clause where
  | truth (b : Bool)
  | comparison (left : Series Value) (sign : Comparator) (right : Series Value)

def Clause.contents : Clause → List Content
  | truth b => [.data (.logical b)]
  | comparison left sign right => left.contents ++ .symbol (.comparator sign) :: right.contents

namespace Junction

def following (rest : List (Combinator × Clause)) : List Content :=
  rest.flatMap fun step => .symbol (.combinator step.1) :: step.2.contents

def contents (j : Junction Clause) : List Content := j.first.contents ++ following j.rest

end Junction

open Junction

namespace RuleBook

theorem passes (book : RuleBook) {f : Clause → Outcome Clause} {Passed : List Token → Prop}
    {Ready : Clause → Prop}
    (one : ∀ {passed first rest tokens}, Passed passed → Ready first →
      (∀ step ∈ rest, Ready step.2) →
      tokens.map Token.content = first.contents ++ following rest →
      book.Becomes passed tokens ((f first).map fun done => done.contents ++ following rest))
    (next : ∀ {passed first done word tokens}, Passed passed → Ready first → f first = .ok done →
      tokens.map Token.content = done.contents ++ [.symbol (.combinator word)] →
      Passed (passed ++ tokens))
    {passed tokens : List Token} (front : Passed passed) {j : Junction Clause}
    (ready : ∀ c ∈ j.operands, Ready c) (spelled : tokens.map Token.content = j.contents) :
    (∃ d, j.Rel (fun c done => f c = .ok done) d ∧ book.Becomes passed tokens (.ok d.contents)) ∨
      ∃ c ∈ j.operands, ∃ e, f c = .error e ∧ book.evaluate (passed ++ tokens) = .error e := by
  obtain ⟨first, rest⟩ := j
  induction rest generalizing passed first tokens with
  | nil =>
    have run := one front (ready first List.mem_cons_self) (by simp) spelled
    cases value : f first with
    | error e =>
      rw [value] at run
      exact .inr ⟨first, List.mem_cons_self, e, value, run⟩
    | ok done =>
      rw [value] at run
      exact .inl ⟨⟨done, []⟩, ⟨value, .nil⟩, run⟩
  | cons step rest ih =>
    obtain ⟨word, clause⟩ := step
    obtain ⟨here, later⟩ := List.forall_mem_cons.mp ready
    have run := one front here (fun step member => later _ (List.mem_map_of_mem member)) spelled
    cases value : f first with
    | error e =>
      rw [value] at run
      exact .inr ⟨first, List.mem_cons_self, e, value, run⟩
    | ok done =>
      rw [value] at run
      obtain ⟨after, contents, same⟩ := run
      have parted : after.map Token.content = (done.contents ++ [.symbol (.combinator word)]) ++
          (⟨clause, rest⟩ : Junction Clause).contents := by
        rw [contents]
        simp [following, Junction.contents]
      obtain ⟨before, behind, rfl, isBefore, isBehind⟩ := List.map_eq_append_iff.mp parted
      rw [← List.append_assoc] at same
      rcases ih (next front here value isBefore) clause later isBehind with
        ⟨d, rel, after, contents, also⟩ | ⟨c, member, e, fails, also⟩
      · refine .inl ⟨⟨done, (word, d.first) :: d.rest⟩,
          .cons (R := fun c done => f c = .ok done) value rel, before ++ after, ?_, ?_⟩
        · rw [List.map_append, isBefore, contents]
          simp [following, Junction.contents]
        · rw [same, also, List.append_assoc]
      · exact .inr ⟨c, List.mem_cons_of_mem _ member, e, fails, same.trans also⟩

end RuleBook

end Formulary
