import Formulary.Text.Casing

/-! What has been put into lower case does not change any more. -/
namespace Formulary.Text

namespace CaseRun

def low (run : CaseRun) : Nat := (run.first + run.shift).toNat

def high (run : CaseRun) : Nat := (run.last + run.shift).toNat

def image (run : CaseRun) (c : Char) : Char := Char.ofNat (c.toNat + run.shift).toNat

/-- The run leads to no code point of the other: to lower ones, to higher ones, or to those between
    its steps. -/
def misses (run other : CaseRun) : Bool :=
  Nat.ble (run.high + 1) other.first || Nat.ble (other.last + 1) run.low ||
    (Nat.beq run.step 2 || Nat.beq run.first run.last) && Nat.beq other.step 2 &&
      Nat.beq ((run.low + other.first) % 2) 1

end CaseRun

section

variable {run : CaseRun} {c : Char}

theorem lowerRuns_valid : ∀ run ∈ lowerRuns, 0 < run.low ∧ 0 < run.step ∧
    (run.high < 0xD800 ∨ 0xDFFF < run.low ∧ run.high < 0x110000) := by decide +kernel

theorem lowerRuns_miss : (lowerRuns.all fun run => lowerRuns.all run.misses) = true := by
  decide +kernel

theorem lowerRuns_dotted : ∀ run ∈ lowerRuns, run.high < 0x130 ∨ 0x130 < run.low := by
  decide +kernel

theorem CaseRun.covers_iff : run.covers c = true ↔
    run.first ≤ c.toNat ∧ c.toNat ≤ run.last ∧ (c.toNat - run.first) % run.step = 0 := by
  simp [covers, and_assoc]

theorem recase_cases (runs : List CaseRun) (c : Char) :
    (∀ run ∈ runs, run.covers c = false) ∧ recase runs c = c ∨
      ∃ run ∈ runs, run.covers c = true ∧ recase runs c = run.image c := by
  unfold recase
  cases found : runs.find? (·.covers c) with
  | none =>
    exact .inl ⟨fun run member => by simpa using List.find?_eq_none.mp found run member, rfl⟩
  | some run => exact .inr ⟨run, List.mem_of_find?_eq_some found,
    List.find?_some (p := fun run : CaseRun => run.covers c) found, rfl⟩

theorem recase_of_uncovered {runs : List CaseRun} (free : ∀ run ∈ runs, run.covers c = false) :
    recase runs c = c := by
  rcases recase_cases runs c with ⟨_, same⟩ | ⟨run, member, covers, _⟩
  · exact same
  · rw [free run member] at covers
    cases covers

theorem toNat_image (member : run ∈ lowerRuns) (covers : run.covers c = true) :
    ((run.image c).toNat : Int) = c.toNat + run.shift ∧ run.low ≤ (run.image c).toNat ∧
      (run.image c).toNat ≤ run.high := by
  obtain ⟨above, below, _⟩ := CaseRun.covers_iff.mp covers
  obtain ⟨positive, _, valid⟩ := lowerRuns_valid run member
  simp only [CaseRun.low, CaseRun.high] at positive valid ⊢
  have code : (run.image c).toNat = (c.toNat + run.shift).toNat := by
    have isValid : (c.toNat + run.shift).toNat.isValidChar := by
      unfold Nat.isValidChar
      omega
    rw [CaseRun.image, Char.ofNat, dif_pos isValid]
    rfl
  omega

theorem image_uncovered (member : run ∈ lowerRuns) (covers : run.covers c = true) :
    ∀ other ∈ lowerRuns, other.covers (run.image c) = false := by
  intro other here
  obtain ⟨code, low, high⟩ := toNat_image member covers
  obtain ⟨above, below, step⟩ := CaseRun.covers_iff.mp covers
  have missed := List.all_eq_true.mp (List.all_eq_true.mp lowerRuns_miss run member) other here
  simp only [CaseRun.misses, Bool.or_eq_true, Bool.and_eq_true, Nat.ble_eq, Nat.beq_eq] at missed
  rw [Bool.eq_false_iff, ne_eq, CaseRun.covers_iff]
  rintro ⟨first, last, steps⟩
  rcases missed with (beneath | beyond) | ⟨⟨single, two⟩, odd⟩
  · omega
  · omega
  · have positive := (lowerRuns_valid run member).1
    simp only [CaseRun.low] at odd positive
    rw [two] at steps
    rcases single with twice | alone
    · rw [twice] at step
      omega
    · omega

end

inductive Lowers : Char → List Char → Prop where
  | sigma {m : Char} (either : m = 'σ' ∨ m = 'ς') : Lowers 'Σ' [m]
  | dotted : Lowers 'İ' ['i', Char.ofNat 0x307]
  | single {c : Char} (sigma : c ≠ 'Σ') (dotted : c ≠ 'İ') : Lowers c [recase lowerRuns c]

inductive Lowered : List Char → List Char → Prop where
  | nil : Lowered [] []
  | cons {c : Char} {image text low : List Char} (first : Lowers c image)
      (others : Lowered text low) : Lowered (c :: text) (image ++ low)

theorem lowered_lowerAfter (before text : List Char) : Lowered text (lowerAfter before text) := by
  induction text generalizing before with
  | nil => exact .nil
  | cons c text ih =>
    refine .cons ?_ (ih (c :: before))
    split
    · next sigma =>
      subst sigma
      split
      · exact .sigma (.inr rfl)
      · exact .sigma (.inl rfl)
    · next sigma =>
      unfold lowerChar
      split
      · next dotted => exact dotted ▸ .dotted
      · next dotted => exact .single sigma dotted

def Small (c : Char) : Prop := c ≠ 'Σ' ∧ lowerChar c = [c]

theorem lowerAfter_of_small {text : List Char} (small : ∀ c ∈ text, Small c)
    (before : List Char) : lowerAfter before text = text := by
  induction text generalizing before with
  | nil => rfl
  | cons c text ih =>
    obtain ⟨sigma, same⟩ := small c List.mem_cons_self
    rw [lowerAfter, if_neg sigma, same, ih fun c member => small c (List.mem_cons_of_mem _ member)]
    rfl

theorem small_of_uncovered {c : Char} (free : ∀ run ∈ lowerRuns, run.covers c = false)
    (dotted : c ≠ 'İ') : Small c := by
  refine ⟨?_, by rw [lowerChar, if_neg dotted, recase_of_uncovered free]⟩
  rintro rfl
  have covered : lowerRuns.any (·.covers 'Σ') = true := by decide
  obtain ⟨run, member, covers⟩ := List.any_eq_true.mp covered
  rw [free run member] at covers
  cases covers

theorem small_of_all {c : Char} (free : lowerRuns.all (!·.covers c) = true) (dotted : c ≠ 'İ') :
    Small c :=
  small_of_uncovered (fun run member => by simpa using List.all_eq_true.mp free run member) dotted

theorem small_point : Small '.' := small_of_all (by decide) (by decide)

theorem small_mark : Small '!' := small_of_all (by decide) (by decide)

theorem Lowers.of_small {c : Char} {image : List Char} (lowers : Lowers c image) (small : Small c) :
    image = [c] := by
  obtain ⟨sigma, same⟩ := small
  cases lowers with
  | sigma => exact absurd rfl sigma
  | dotted => cases same
  | single _ dotted =>
    rw [lowerChar, if_neg dotted] at same
    exact same

theorem Lowers.small {c : Char} {image : List Char} (lowers : Lowers c image) :
    ∀ m ∈ image, Small m := by
  cases lowers with
  | sigma either =>
    intro m member
    rw [List.mem_singleton.mp member]
    rcases either with rfl | rfl
    · exact small_of_all (by decide) (by decide)
    · exact small_of_all (by decide) (by decide)
  | dotted =>
    intro m member
    simp only [List.mem_cons, List.not_mem_nil, or_false] at member
    rcases member with rfl | rfl
    · exact small_of_all (by decide) (by decide)
    · exact small_of_all (by decide) (by decide)
  | single sigma dotted =>
    intro m member
    rw [List.mem_singleton.mp member]
    rcases recase_cases lowerRuns c with ⟨free, same⟩ | ⟨run, here, covers, same⟩
    · rw [same]
      exact small_of_uncovered free dotted
    · rw [same]
      refine small_of_uncovered (image_uncovered here covers) fun capital => ?_
      obtain ⟨_, low, high⟩ := toNat_image here covers
      have code : (run.image c).toNat = 0x130 := congrArg Char.toNat capital
      have := lowerRuns_dotted run here
      omega

theorem Lowered.small {text low : List Char} (lowered : Lowered text low) :
    ∀ c ∈ low, Small c := by
  induction lowered with
  | nil => exact fun _ => nofun
  | cons first others ih =>
    intro c member
    rcases List.mem_append.mp member with here | later
    · exact first.small c here
    · exact ih c later

theorem Lowered.lowerAfter_eq {text low : List Char} (lowered : Lowered text low)
    (before : List Char) : lowerAfter before low = low :=
  lowerAfter_of_small lowered.small before

theorem lower_lower (text : String) : lower (lower text) = lower text := by
  unfold lower
  rw [String.toList_ofList, (lowered_lowerAfter [] text.toList).lowerAfter_eq]

end Formulary.Text
