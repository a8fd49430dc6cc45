import Formulary.Proofs.ExactSums

/-!
The least and the greatest of numbers, which may stand in lists at any depth and be spelt as texts.
The first leaf that is no number decides, if there is one. Else the first number wins that no other
is ahead of. The order of the leaves only tells which of several equal numbers that is.
-/
namespace Formulary

open Value (leaves)

/-! Reading the leaves -/

namespace Value

variable {values : List Value}

theorem mapM_toNumber_eq_ok_iff {ns : List Number} :
    values.mapM toNumber = .ok ns ↔ List.Forall₂ (fun v n => v.toNumber = .ok n) values ns := by
  induction values generalizing ns with
  | nil =>
    rw [List.mapM_nil, List.forall₂_nil_left_iff]
    exact ⟨fun done => (Except.ok.inj done).symm, fun none => congrArg Except.ok none.symm⟩
  | cons v values ih =>
    rw [List.mapM_cons, List.forall₂_cons_left_iff, bind_eq_ok]
    constructor
    · rintro ⟨n, here, done⟩
      obtain ⟨others, there, same⟩ := bind_eq_ok.mp done
      cases same
      exact ⟨n, others, here, ih.mp there, rfl⟩
    · rintro ⟨n, others, here, there, rfl⟩
      exact ⟨n, here, bind_eq_ok.mpr ⟨others, ih.mpr there, rfl⟩⟩

theorem exists_of_mapM_error {e : FormulaError} (failed : values.mapM toNumber = .error e) :
    ∃ before leaf behind, values = before ++ leaf :: behind ∧
      (∀ v ∈ before, ∃ n, v.toNumber = .ok n) ∧ leaf.toNumber = .error e := by
  induction values with
  | nil => cases failed
  | cons v values ih =>
    rw [List.mapM_cons] at failed
    rcases bind_eq_error.mp failed with here | ⟨n, here, failed⟩
    · exact ⟨[], v, values, rfl, by simp, here⟩
    · rcases bind_eq_error.mp failed with there | ⟨_, _, finished⟩
      · obtain ⟨before, leaf, behind, rfl, numbers, first⟩ := ih there
        exact ⟨v :: before, leaf, behind, rfl, List.forall_mem_cons.mpr ⟨⟨n, here⟩, numbers⟩, first⟩
      · cases finished

theorem read_of_mem {ns : List Number} {v : Value}
    (each : List.Forall₂ (fun v n => v.toNumber = .ok n) values ns) (member : v ∈ values) :
    ∃ n ∈ ns, v.toNumber = .ok n := by
  induction each with
  | nil => cases member
  | cons here _ ih =>
    rcases List.mem_cons.mp member with rfl | later
    · exact ⟨_, List.mem_cons_self, here⟩
    · exact (ih later).imp fun n known => ⟨List.mem_cons_of_mem _ known.1, known.2⟩

end Value

namespace Aggregate

/-! The first number that none is ahead of -/

section

variable {ahead : ℚ → ℚ → Prop} {ns : List Number} {first best n : Number}

/-- A number that is ahead of all before it, and that none behind it is ahead of. -/
inductive FirstBest (ahead : ℚ → ℚ → Prop) : List Number → Number → Prop
  | mk {before behind : List Number} {best : Number}
      (earlier : ∀ n ∈ before, ahead best.toRat n.toRat)
      (later : ∀ n ∈ behind, ¬ ahead n.toRat best.toRat) :
      FirstBest ahead (before ++ best :: behind) best

namespace FirstBest

theorem mem (found : FirstBest ahead ns best) : best ∈ ns := by
  cases found
  simp

theorem not_ahead [IsStrictTotalOrder ℚ ahead] (found : FirstBest ahead ns best) :
    ∀ n ∈ ns, ¬ ahead n.toRat best.toRat := by
  obtain ⟨earlier, later⟩ := found
  intro n member
  rcases List.mem_append.mp member with before | here
  · exact asymm (earlier n before)
  · rcases List.mem_cons.mp here with rfl | behind
    · exact irrefl n.toRat
    · exact later n behind

theorem cons (found : FirstBest ahead ns best) (less : ahead best.toRat first.toRat) :
    FirstBest ahead (first :: ns) best := by
  obtain ⟨earlier, later⟩ := found
  rw [← List.cons_append]
  exact ⟨List.forall_mem_cons.mpr ⟨less, earlier⟩, later⟩

theorem insert [IsStrictTotalOrder ℚ ahead] (found : FirstBest ahead (first :: ns) best)
    (notAhead : ¬ ahead n.toRat first.toRat) : FirstBest ahead (first :: n :: ns) best := by
  generalize whole : first :: ns = all at found
  obtain ⟨earlier, later⟩ := found
  rename_i before behind
  cases before with
  | nil =>
    obtain ⟨rfl, rfl⟩ := List.cons.inj whole
    exact @mk ahead [] (n :: ns) first (by simp) (List.forall_mem_cons.mpr ⟨notAhead, later⟩)
  | cons other before =>
    obtain ⟨rfl, rfl⟩ := List.cons.inj whole
    obtain ⟨overFirst, others⟩ := List.forall_mem_cons.mp earlier
    have inserted : ∀ m ∈ n :: before, ahead best.toRat m.toRat :=
      List.forall_mem_cons.mpr ⟨trans_trichotomous_right overFirst notAhead, others⟩
    exact @mk ahead (first :: n :: before) behind best
      (List.forall_mem_cons.mpr ⟨overFirst, inserted⟩) later

end FirstBest

variable [IsStrictTotalOrder ℚ ahead] {better : Number → Number → Bool}
  (prefers : ∀ a b, better a b = true ↔ ahead a.toRat b.toRat)

include prefers

theorem firstBest_foldl (first : Number) (ns : List Number) :
    FirstBest ahead (first :: ns)
      (ns.foldl (fun best n => if better n best then n else best) first) := by
  -- By induction with the best so far free.
  induction ns generalizing first with
  | nil => exact @FirstBest.mk ahead [] [] first (by simp) (by simp)
  | cons n ns ih =>
    rw [List.foldl_cons]
    split
    · next replaced =>
      have found := ih n
      have atLeast := found.not_ahead n List.mem_cons_self
      exact found.cons (trans_trichotomous_left atLeast ((prefers n first).mp replaced))
    · next kept => exact (ih first).insert (mt (prefers n first).mpr kept)

theorem extreme_first (name : String) {arguments : List Value}
    (reads : Value.numbers arguments = .ok ns) (nonempty : ns ≠ []) :
    ∃ best, extreme name better arguments = .ok (.number best) ∧ FirstBest ahead ns best := by
  obtain ⟨first, others, rfl⟩ := List.exists_cons_of_ne_nil nonempty
  refine ⟨_, ?_, firstBest_foldl prefers first others⟩
  rw [extreme, reads]
  rfl

end

/-! What the leaves decide -/

/-- How the leaves decide what a function gives that looks for the number that is ahead. -/
inductive Picks (name : String) (ahead : ℚ → ℚ → Prop) : List Value → Outcome Value → Prop
  | nothing : Picks name ahead [] (.error (.badArgument (.noNumbers name)))
  | refused {before behind : List Value} {leaf : Value} {e : FormulaError}
      (numbers : ∀ v ∈ before, ∃ n, v.toNumber = .ok n) (first : leaf.toNumber = .error e) :
      Picks name ahead (before ++ leaf :: behind) (.error e)
  | first {before behind : List Value} {leaf : Value} {n : Number}
      (reads : leaf.toNumber = .ok n)
      (earlier : ∀ v ∈ before, ∃ m, v.toNumber = .ok m ∧ ahead n.toRat m.toRat)
      (later : ∀ v ∈ behind, ∃ m, v.toNumber = .ok m ∧ ¬ ahead m.toRat n.toRat) :
      Picks name ahead (before ++ leaf :: behind) (.ok (.number n))

section

variable {name : String} {ahead : ℚ → ℚ → Prop} {values others : List Value}
  {outcome : Outcome Value} {n : Number}

theorem picks_of_firstBest {ns : List Number}
    (reads : List.Forall₂ (fun v n => v.toNumber = .ok n) values ns)
    (found : FirstBest ahead ns n) : Picks name ahead values (.ok (.number n)) := by
  obtain ⟨earlier, later⟩ := found
  rename_i before behind
  have front := List.forall₂_take_append values before (n :: behind) reads
  have back := List.forall₂_drop_append values before (n :: behind) reads
  obtain ⟨leaf, after, here, rest, split⟩ := List.forall₂_cons_right_iff.mp back
  rw [← List.take_append_drop before.length values, split]
  refine .first here (fun v member => ?_) (fun v member => ?_)
  · obtain ⟨m, known, read⟩ := Value.read_of_mem front member
    exact ⟨m, read, earlier m known⟩
  · obtain ⟨m, known, read⟩ := Value.read_of_mem rest member
    exact ⟨m, read, later m known⟩

theorem picks_extreme [IsStrictTotalOrder ℚ ahead] {better : Number → Number → Bool}
    (prefers : ∀ a b, better a b = true ↔ ahead a.toRat b.toRat) (arguments : List Value) :
    Picks name ahead (leaves arguments) (extreme name better arguments) := by
  cases read : Value.numbers arguments with
  | error e =>
    rw [extreme, read]
    rw [Value.numbers_eq_mapM] at read
    obtain ⟨before, leaf, behind, split, numbers, first⟩ := Value.exists_of_mapM_error read
    rw [split]
    exact .refused numbers first
  | ok ns =>
    have each := Value.mapM_toNumber_eq_ok_iff.mp (Value.numbers_eq_mapM arguments ▸ read)
    by_cases nonempty : ns = []
    · subst nonempty
      rw [extreme, read, List.forall₂_nil_right_iff.mp each]
      exact .nothing
    · obtain ⟨best, made, found⟩ := extreme_first prefers name read nonempty
      rw [made]
      exact picks_of_firstBest each found

namespace Picks

theorem isOk_iff (picks : Picks name ahead values outcome) :
    (∃ v, outcome = .ok v) ↔ values ≠ [] ∧ ∀ v ∈ values, ∃ n, v.toNumber = .ok n := by
  cases picks with
  | nothing => simp
  | refused numbers first =>
    refine iff_of_false nofun fun ⟨_, all⟩ => ?_
    obtain ⟨n, reads⟩ := all _ (List.mem_append_right _ List.mem_cons_self)
    rw [first] at reads
    cases reads
  | @first before behind leaf n reads earlier later =>
    refine iff_of_true ⟨_, rfl⟩ ⟨by simp, fun v member => ?_⟩
    rcases List.mem_append.mp member with before | here
    · exact (earlier v before).imp fun m held => held.1
    · rcases List.mem_cons.mp here with rfl | behind
      · exact ⟨n, reads⟩
      · exact (later v behind).imp fun m held => held.1

theorem exists_number {v : Value} (picks : Picks name ahead values (.ok v)) :
    ∃ n, v = .number n := by
  cases picks
  exact ⟨_, rfl⟩

variable [IsStrictTotalOrder ℚ ahead]

theorem best (picks : Picks name ahead values (.ok (.number n))) :
    (∃ leaf ∈ values, leaf.toNumber = .ok n) ∧
      ∀ leaf ∈ values, ∃ m, leaf.toNumber = .ok m ∧ ¬ ahead m.toRat n.toRat := by
  cases picks with
  | @first before behind leaf _ reads earlier later =>
    refine ⟨⟨leaf, by simp, reads⟩, fun other member => ?_⟩
    rcases List.mem_append.mp member with before | here
    · exact (earlier other before).imp fun m held => ⟨held.1, asymm held.2⟩
    · rcases List.mem_cons.mp here with rfl | behind
      · exact ⟨n, reads, irrefl n.toRat⟩
      · exact later other behind

/-- Each of two picks from the same leaves is among what the other was picked from. -/
theorem of_perm (picks : Picks name ahead values (.ok (.number n)))
    (picks' : Picks name ahead others outcome) (perm : values.Perm others) :
    ∃ m, outcome = .ok (.number m) ∧ n.toRat = m.toRat := by
  obtain ⟨some_leaf, all⟩ := picks.isOk_iff.mp ⟨_, rfl⟩
  obtain ⟨_, rfl⟩ := picks'.isOk_iff.mpr
    ⟨mt (fun none => (none ▸ perm).eq_nil) some_leaf, fun leaf member =>
      all leaf (perm.mem_iff.mpr member)⟩
  obtain ⟨m, rfl⟩ := picks'.exists_number
  obtain ⟨⟨leaf, member, reads⟩, noneAhead⟩ := picks.best
  obtain ⟨⟨leaf', member', reads'⟩, noneAhead'⟩ := picks'.best
  obtain ⟨_, again, notAhead'⟩ := noneAhead' leaf (perm.mem_iff.mp member)
  obtain ⟨_, again', notAhead⟩ := noneAhead leaf' (perm.mem_iff.mpr member')
  rw [reads] at again
  rw [reads'] at again'
  cases again
  cases again'
  exact ⟨m, rfl, Std.Trichotomous.trichotomous _ _ notAhead' notAhead⟩

end Picks

end

/-- What is said of a function that looks for the number that is ahead. -/
structure FindsBest (name : String) (ahead : ℚ → ℚ → Prop) (f : List Value → Outcome Value) :
    Prop where
  picks : ∀ arguments, Picks name ahead (leaves arguments) (f arguments)
  answers : ∀ arguments, (∃ v, f arguments = .ok v) ↔
    leaves arguments ≠ [] ∧ ∀ leaf ∈ leaves arguments, ∃ n, leaf.toNumber = .ok n
  /-- The numbers are equal, but may be written in two ways. -/
  permuted : ∀ arguments others, (leaves arguments).Perm (leaves others) →
    ∀ n, f arguments = .ok (.number n) → ∃ m, f others = .ok (.number m) ∧ n.order m = .eq
  nested : ∀ arguments others, leaves arguments = leaves others → f arguments = f others

theorem findsBest_extreme (name : String) {ahead : ℚ → ℚ → Prop} [IsStrictTotalOrder ℚ ahead]
    {better : Number → Number → Bool}
    (prefers : ∀ a b, better a b = true ↔ ahead a.toRat b.toRat) :
    FindsBest name ahead (extreme name better) where
  picks := picks_extreme prefers
  answers arguments := Picks.isOk_iff (picks_extreme prefers arguments : Picks name ahead _ _)
  permuted arguments others perm n found := by
    have picks : Picks name ahead (leaves arguments) (.ok (.number n)) :=
      found ▸ picks_extreme prefers arguments
    obtain ⟨m, found', equal⟩ := picks.of_perm (picks_extreme prefers others) perm
    exact ⟨m, found', (n.order_eq_iff m).mpr equal⟩
  nested arguments others equal := by
    rw [extreme, extreme, Value.numbers_eq_mapM, Value.numbers_eq_mapM, equal]

theorem less_iff (a b : Number) : (a.order b == .lt) = true ↔ a.toRat < b.toRat := by
  rw [beq_iff_eq, Number.order_eq_compare, compare_lt_iff_lt]

theorem greater_iff (a b : Number) : (a.order b == .gt) = true ↔ a.toRat > b.toRat := by
  rw [beq_iff_eq, Number.order_eq_compare, compare_gt_iff_gt]

/-- The least and the greatest number are the first leaves that none is less or greater than. What
is no number is reported by the first leaf of that sort, and that there are no leaves, too. -/
theorem extremes_first : FindsBest "MIN" (· < ·) minimum ∧ FindsBest "MAX" (· > ·) maximum :=
  ⟨findsBest_extreme "MIN" less_iff, findsBest_extreme "MAX" greater_iff⟩

/-- Of two equal leaves the first is given, as the decimal that it is. -/
example : minimum [.list [.text "3", .list [.decimal ⟨20, 1, by decide, by decide⟩]], .text "2"] =
    .ok (.decimal ⟨20, 1, by decide, by decide⟩) := by cbv

end Aggregate

end Formulary
