import Formulary.Lexicon.DateTimeLiteral
import Formulary.Proofs.Numerals

/-!
How points in time are written: a date, perhaps a time of day, perhaps a blank, perhaps a zone.
The reader takes the longest of what is written that way at the front of a text, and no text is
written for two literals.
-/
namespace Formulary

namespace DateTimeLiteral

structure Digits (least most : Nat) (digits : List Char) : Prop where
  all : ∀ c ∈ digits, Text.isDecimalDigit c = true
  least_le : least ≤ digits.length
  le_most : digits.length ≤ most

abbrev Triple := List Char × List Char × List Char

abbrev Distance := Bool × List Char × List Char

inductive IsTriple (sign : Char) (least most : Nat) : Triple → List Char → Prop where
  | signs {first second third : List Char} (isFirst : Digits least most first)
      (isSecond : Digits 1 2 second) (isThird : Digits 1 2 third) :
      IsTriple sign least most (first, second, third)
        (first ++ sign :: (second ++ sign :: third))

inductive IsTime : Option Triple → List Char → Prop where
  | absent : IsTime none []
  | time {triple : Triple} {text : List Char} (isTriple : IsTriple ':' 1 2 triple text) :
      IsTime (some triple) (' ' :: text)

inductive IsZone : Option Distance → List Char → Prop where
  | absent : IsZone none []
  | universal {letter : Char} (isLetter : letter = 'Z' ∨ letter = 'z') : IsZone none [letter]
  | offset (behind : Bool) {hours minutes colon : List Char} (isHours : Digits 2 2 hours)
      (isColon : colon = [] ∨ colon = [':']) (isMinutes : Digits 2 2 minutes) :
      IsZone (some (behind, hours, minutes))
        ((if behind then '-' else '+') :: (hours ++ (colon ++ minutes)))

inductive Written : DateTimeLiteral → List Char → Prop where
  | parts {year month day : List Char} {time : Option Triple} {zone : Option Distance}
      {front middle blank back : List Char} (isDate : IsTriple '-' 4 4 (year, month, day) front)
      (isTime : IsTime time middle) (isBlank : blank = [] ∨ blank = [' '])
      (isZone : IsZone zone back) :
      Written ⟨year, month, day, time, zone⟩ (front ++ (middle ++ (blank ++ back)))

/-! Digits -/

def NoDigit (text : List Char) : Prop := ∀ c ∈ text.head?, Text.isDecimalDigit c = false

theorem noDigit_cons {c : Char} (other : Text.isDecimalDigit c = false) (rest : List Char) :
    NoDigit (c :: rest) := by
  rintro _ ⟨⟩
  exact other

variable {α : Type} {least most : Nat} {sign : Char} {triple : Triple} {time : Option Triple}
  {zone : Option Distance} {digits text rest behind front middle blank back : List Char}

theorem Digits.eq_cons (isDigits : Digits least most digits) (some_digit : 0 < least) :
    ∃ first others, digits = first :: others ∧ Text.isDecimalDigit first = true := by
  have count := isDigits.least_le
  obtain ⟨first, others, rfl⟩ := List.exists_cons_of_ne_nil (l := digits) (by
    rintro rfl
    exact absurd count (Nat.not_le_of_gt some_digit))
  exact ⟨first, others, rfl, isDigits.all first List.mem_cons_self⟩

/-- What was found and what is left behind it, or more was found and less is left. -/
def Takes (a : α) (behind : List Char) (found : α × List Char) : Prop :=
  found = (a, behind) ∨ found.2.length < behind.length

theorem Takes.map {β : Type} {a : α} {found : α × List Char} (takes : Takes a behind found)
    (f : α → β) : Takes (f a) behind (f found.1, found.2) := by
  rcases takes with rfl | less
  · exact .inl rfl
  · exact .inr less

theorem Takes.length_le {a : α} {found : α × List Char} (takes : Takes a behind found) :
    found.2.length ≤ behind.length := by
  rcases takes with rfl | less
  · exact Nat.le_refl _
  · exact Nat.le_of_lt less

theorem takes_none {found : Option α × List Char} (split : text = front ++ found.2)
    (nothing : front = [] → found.1 = none) : Takes none text found := by
  cases front with
  | nil => exact .inl (Prod.ext (nothing rfl) split.symm)
  | cons c others =>
    refine .inr ?_
    rw [split, List.length_append, List.length_cons]
    omega

theorem readDigits_sound (read : readDigits least most text = some (digits, rest)) :
    Digits least most digits ∧ text = digits ++ rest := by
  simp only [readDigits] at read
  split at read
  · cases read
  · next enough =>
    cases read
    have front : (text.take most).takeWhile Text.isDecimalDigit <+: text :=
      (List.takeWhile_prefix _).trans (List.take_prefix most text)
    refine ⟨⟨fun c => List.mem_takeWhile_imp, Nat.le_of_not_lt enough, ?_⟩, ?_⟩
    · have shorter := (List.takeWhile_prefix (l := text.take most) Text.isDecimalDigit).length_le
      exact Nat.le_trans shorter (List.length_take_le most text)
    · exact (List.prefix_iff_eq_append.mp front).symm

theorem readDigits_append (isDigits : Digits least most digits) (behind : List Char) :
    let more := (behind.take (most - digits.length)).takeWhile Text.isDecimalDigit
    readDigits least most (digits ++ behind) = some (digits ++ more, behind.drop more.length) := by
  intro more
  have front : (digits ++ behind).take most = digits ++ behind.take (most - digits.length) := by
    rw [List.take_append, List.take_of_length_le isDigits.le_most]
  have all : ((digits ++ behind).take most).takeWhile Text.isDecimalDigit = digits ++ more := by
    rw [front, List.takeWhile_append_of_pos isDigits.all]
  have count := isDigits.least_le
  simp only [readDigits, all]
  rw [if_neg (by rw [List.length_append]; omega), List.length_append, List.drop_append]
  simp

theorem readDigits_exact (isDigits : Digits least most digits) (stop : NoDigit behind) :
    readDigits least most (digits ++ behind) = some (digits, behind) := by
  have none : (behind.take (most - digits.length)).takeWhile Text.isDecimalDigit = [] := by
    cases behind with
    | nil => simp
    | cons c others =>
      have other : Text.isDecimalDigit c = false := stop c rfl
      cases most - digits.length with
      | zero => rfl
      | succ n => rw [List.take_succ_cons, List.takeWhile_cons_of_neg (by simp [other])]
  rw [readDigits_append isDigits behind]
  simp [none]

theorem readDigits_full (isDigits : Digits most most digits) (behind : List Char) :
    readDigits most most (digits ++ behind) = some (digits, behind) := by
  have full : most - digits.length = 0 := Nat.sub_eq_zero_of_le isDigits.least_le
  rw [readDigits_append isDigits behind, full]
  simp

theorem readDigits_takes (isDigits : Digits least most digits) (behind : List Char) :
    ∃ found, readDigits least most (digits ++ behind) = some found ∧ Takes digits behind found := by
  refine ⟨_, readDigits_append isDigits behind, ?_⟩
  cases more : (behind.take (most - digits.length)).takeWhile Text.isDecimalDigit with
  | nil => exact .inl (by simp)
  | cons c others =>
    have longer : 0 < behind.length := by
      refine List.length_pos_iff.mpr ?_
      rintro rfl
      simp at more
    refine .inr ?_
    rw [List.length_drop, List.length_cons]
    omega

/-! Three numbers -/

theorem readSign_sound (read : readSign sign text = some rest) : text = sign :: rest := by
  unfold readSign at read
  split at read
  · cases read
  · next c others =>
    split at read
    · next same =>
      cases read
      rw [same]
    · cases read

theorem readSign_cons (sign : Char) (rest : List Char) : readSign sign (sign :: rest) = some rest :=
  if_pos rfl

theorem readTriple_sound (read : readTriple sign least most text = some (triple, rest)) :
    ∃ front, IsTriple sign least most triple front ∧ text = front ++ rest := by
  obtain ⟨⟨first, afterFirst⟩, readFirst, read⟩ := Option.bind_eq_some_iff.mp read
  obtain ⟨beforeSecond, firstSign, read⟩ := Option.bind_eq_some_iff.mp read
  obtain ⟨⟨second, afterSecond⟩, readSecond, read⟩ := Option.bind_eq_some_iff.mp read
  obtain ⟨beforeThird, secondSign, read⟩ := Option.bind_eq_some_iff.mp read
  obtain ⟨⟨third, afterThird⟩, readThird, read⟩ := Option.bind_eq_some_iff.mp read
  obtain ⟨rfl, rfl⟩ := Prod.mk.inj (Option.some.inj read)
  obtain ⟨isFirst, rfl⟩ := readDigits_sound readFirst
  obtain rfl := readSign_sound firstSign
  obtain ⟨isSecond, rfl⟩ := readDigits_sound readSecond
  obtain rfl := readSign_sound secondSign
  obtain ⟨isThird, rfl⟩ := readDigits_sound readThird
  exact ⟨_, .signs isFirst isSecond isThird, by simp⟩

theorem readTriple_signs {first second : List Char} (other : Text.isDecimalDigit sign = false)
    (isFirst : Digits least most first) (isSecond : Digits 1 2 second) (text : List Char) :
    readTriple sign least most (first ++ sign :: (second ++ sign :: text)) =
      (readDigits 1 2 text).map fun found => ((first, second, found.1), found.2) := by
  have here := readDigits_exact isFirst (noDigit_cons other (second ++ sign :: text))
  have there := readDigits_exact isSecond (noDigit_cons other text)
  simp only [readTriple, here, there, readSign_cons, Option.bind_eq_bind, Option.bind_some]
  cases readDigits 1 2 text <;> rfl

theorem readTriple_exact (other : Text.isDecimalDigit sign = false)
    (isTriple : IsTriple sign least most triple front) (stop : NoDigit behind) :
    readTriple sign least most (front ++ behind) = some (triple, behind) := by
  obtain ⟨isFirst, isSecond, isThird⟩ := isTriple
  simp only [List.append_assoc, List.cons_append]
  rw [readTriple_signs other isFirst isSecond, readDigits_exact isThird stop]
  rfl

theorem readTriple_takes (other : Text.isDecimalDigit sign = false)
    (isTriple : IsTriple sign least most triple front)
    (stop : back ≠ [] → NoDigit (back ++ behind)) :
    ∃ found, readTriple sign least most (front ++ (back ++ behind)) = some found ∧
      (found = (triple, back ++ behind) ∨ found.2.length < behind.length) := by
  by_cases nothing : back = []
  · subst nothing
    obtain ⟨isFirst, isSecond, isThird⟩ := isTriple
    obtain ⟨found, read, takes⟩ := readDigits_takes isThird behind
    simp only [List.append_assoc, List.cons_append, List.nil_append]
    rw [readTriple_signs other isFirst isSecond, read]
    exact ⟨_, rfl, takes.map fun third => (_, _, third)⟩
  · exact ⟨_, readTriple_exact other isTriple (stop nothing), .inl rfl⟩

theorem IsTriple.eq_cons (isTriple : IsTriple sign least most triple front)
    (some_digit : 0 < least) :
    ∃ first others, front = first :: others ∧ Text.isDecimalDigit first = true := by
  obtain ⟨isFirst, -, -⟩ := isTriple
  obtain ⟨first, others, rfl, digit⟩ := isFirst.eq_cons some_digit
  exact ⟨first, _, rfl, digit⟩

/-! Zones -/

theorem isFormOf_z {c : Char} : Lexicon.isFormOf 'z' c = true ↔ c = 'Z' ∨ c = 'z' := by
  constructor
  · intro form
    by_cases capital : c.val ≥ 'A'.val ∧ c.val ≤ 'Z'.val
    · have ascii : ∀ n < 91, 65 ≤ n → Lexicon.isFormOf 'z' (Char.ofNat n) = true →
          Char.ofNat n = 'Z' := by decide
      have least : 65 ≤ c.toNat := UInt32.le_iff_toNat_le.mp capital.1
      have most : c.toNat ≤ 90 := UInt32.le_iff_toNat_le.mp capital.2
      have here := ascii c.toNat (by omega) least
      rw [Char.ofNat_toNat] at here
      exact .inl (here form)
    · have stays : c.toLower = c := dif_neg capital
      exact .inr (by simpa [Lexicon.isFormOf, stays] using form)
  · rintro (rfl | rfl) <;> decide

theorem readSign_getD (sign : Char) (text : List Char) : ∃ front, (front = [] ∨ front = [sign]) ∧
    text = front ++ (readSign sign text).getD text := by
  cases read : readSign sign text with
  | none => exact ⟨[], .inl rfl, rfl⟩
  | some rest => exact ⟨[sign], .inr rfl, readSign_sound read⟩

theorem readSign_getD_of_ne {c : Char} (other : c ≠ sign) (rest : List Char) :
    (readSign sign (c :: rest)).getD (c :: rest) = c :: rest := by
  rw [readSign, if_neg other]
  rfl

theorem readOffset_sound {hours minutes : List Char}
    (read : readOffset text = some ((hours, minutes), rest)) :
    Digits 2 2 hours ∧ Digits 2 2 minutes ∧
      ∃ colon, (colon = [] ∨ colon = [':']) ∧ text = hours ++ (colon ++ (minutes ++ rest)) := by
  obtain ⟨⟨_, afterHours⟩, readHours, read⟩ := Option.bind_eq_some_iff.mp read
  obtain ⟨⟨_, afterMinutes⟩, readMinutes, read⟩ := Option.bind_eq_some_iff.mp read
  obtain ⟨same, rfl⟩ := Prod.mk.inj (Option.some.inj read)
  obtain ⟨rfl, rfl⟩ := Prod.mk.inj same
  obtain ⟨isHours, rfl⟩ := readDigits_sound readHours
  obtain ⟨isMinutes, same⟩ := readDigits_sound readMinutes
  obtain ⟨colon, isColon, split⟩ := readSign_getD ':' afterHours
  rw [same] at split
  exact ⟨isHours, isMinutes, colon, isColon, congrArg _ split⟩

theorem readOffset_exact {hours minutes colon : List Char} (isHours : Digits 2 2 hours)
    (isColon : colon = [] ∨ colon = [':']) (isMinutes : Digits 2 2 minutes) (behind : List Char) :
    readOffset (hours ++ (colon ++ (minutes ++ behind))) = some ((hours, minutes), behind) := by
  have noColon : (readSign ':' (colon ++ (minutes ++ behind))).getD (colon ++ (minutes ++ behind)) =
      minutes ++ behind := by
    rcases isColon with rfl | rfl
    · obtain ⟨first, others, rfl, digit⟩ := isMinutes.eq_cons (by decide)
      refine readSign_getD_of_ne ?_ _
      rintro rfl
      exact absurd digit (by decide)
    · rfl
  simp only [readOffset, readDigits_full isHours, Option.bind_eq_bind, Option.bind_some, noColon,
    readDigits_full isMinutes]
  rfl

theorem readZone_sound (text : List Char) :
    ∃ back, IsZone (readZone text).1 back ∧ text = back ++ (readZone text).2 := by
  unfold readZone
  split
  · exact ⟨[], .absent, rfl⟩
  · next c others =>
    split
    · next letter => exact ⟨[c], .universal (isFormOf_z.mp letter), rfl⟩
    · split
      · next isSign =>
        split
        · next offset _ read =>
          obtain ⟨hours, minutes⟩ := offset
          obtain ⟨isHours, isMinutes, colon, isColon, rfl⟩ := readOffset_sound read
          have front : (if decide (c = '-') = true then '-' else '+') = c := by
            rcases isSign with rfl | rfl <;> rfl
          refine ⟨_, .offset (decide (c = '-')) isHours isColon isMinutes, ?_⟩
          rw [front]
          simp
        · exact ⟨[], .absent, rfl⟩
      · exact ⟨[], .absent, rfl⟩

theorem IsZone.eq_none (isZone : IsZone zone []) : zone = none := by
  cases isZone
  rfl

theorem IsZone.eq_nil_or_cons (isZone : IsZone zone back) :
    (zone = none ∧ back = []) ∨
      ∃ first others, back = first :: others ∧ first ∈ ['Z', 'z', '+', '-'] := by
  cases isZone with
  | absent => exact .inl ⟨rfl, rfl⟩
  | universal isLetter =>
    refine .inr ⟨_, [], rfl, ?_⟩
    rcases isLetter with rfl | rfl <;> decide
  | offset behind isHours isColon isMinutes =>
    refine .inr ⟨_, _, rfl, ?_⟩
    cases behind <;> decide

theorem readZone_takes (isZone : IsZone zone back) (behind : List Char) :
    Takes zone behind (readZone (back ++ behind)) := by
  cases isZone with
  | absent =>
    obtain ⟨back, isZone, split⟩ := readZone_sound behind
    refine takes_none split ?_
    rintro rfl
    exact isZone.eq_none
  | @universal letter isLetter =>
    refine .inl ?_
    rw [List.cons_append, List.nil_append, readZone, if_pos (isFormOf_z.mpr isLetter)]
  | @offset isBehind hours minutes colon isHours isColon isMinutes =>
    refine .inl ?_
    have noLetter : Lexicon.isFormOf 'z' (if isBehind then '-' else '+') = false := by
      cases isBehind <;> decide
    have read := readOffset_exact isHours isColon isMinutes behind
    simp only [List.cons_append, List.append_assoc, readZone, noLetter, read]
    cases isBehind <;> rfl

def spacedZone (text : List Char) : Option Distance × List Char :=
  readZone ((readSign ' ' text).getD text)

theorem spacedZone_sound (text : List Char) : ∃ blank back, (blank = [] ∨ blank = [' ']) ∧
    IsZone (spacedZone text).1 back ∧ text = blank ++ (back ++ (spacedZone text).2) := by
  obtain ⟨blank, isBlank, split⟩ := readSign_getD ' ' text
  obtain ⟨back, isZone, same⟩ := readZone_sound ((readSign ' ' text).getD text)
  rw [same] at split
  exact ⟨blank, back, isBlank, isZone, split⟩

theorem length_spacedZone (text : List Char) : (spacedZone text).2.length ≤ text.length := by
  obtain ⟨blank, back, -, -, split⟩ := spacedZone_sound text
  have count := congrArg List.length split
  simp only [List.length_append] at count
  omega

theorem spacedZone_takes (isBlank : blank = [] ∨ blank = [' ']) (isZone : IsZone zone back)
    (behind : List Char) : Takes zone behind (spacedZone (blank ++ (back ++ behind))) := by
  rcases isBlank with rfl | rfl
  · rcases isZone.eq_nil_or_cons with ⟨rfl, rfl⟩ | ⟨first, others, rfl, sign⟩
    · obtain ⟨blank, back, -, isZone, split⟩ := spacedZone_sound behind
      rw [← List.append_assoc] at split
      refine takes_none split ?_
      intro nothing
      obtain ⟨-, rfl⟩ := List.append_eq_nil_iff.mp nothing
      exact isZone.eq_none
    · have other : first ≠ ' ' := by
        rintro rfl
        exact absurd sign (by decide)
      rw [List.nil_append, spacedZone, List.cons_append, readSign_getD_of_ne other]
      exact readZone_takes isZone behind
  · exact readZone_takes isZone behind

theorem noDigit_of_sign {c : Char} (sign : c ∈ ['Z', 'z', '+', '-']) :
    Text.isDecimalDigit c = false := by
  have all : ∀ c ∈ ['Z', 'z', '+', '-'], Text.isDecimalDigit c = false := by decide
  exact all c sign

theorem noDigit_of_zone (isBlank : blank = [] ∨ blank = [' ']) (isZone : IsZone zone back)
    (something : blank ++ back ≠ []) (behind : List Char) : NoDigit (blank ++ back ++ behind) := by
  rcases isBlank with rfl | rfl
  · rcases isZone.eq_nil_or_cons with ⟨rfl, rfl⟩ | ⟨first, others, rfl, sign⟩
    · exact absurd rfl something
    · exact noDigit_cons (noDigit_of_sign sign) _
  · exact noDigit_cons (by decide) _

/-! Times of day -/

def afterDate (text : List Char) : (Option Triple × Option Distance) × List Char :=
  match readTime text with
  | some (time, rest) => ((some time, (spacedZone rest).1), (spacedZone rest).2)
  | none => ((none, (spacedZone text).1), (spacedZone text).2)

theorem readTime_sound (read : readTime text = some (triple, rest)) :
    ∃ middle, IsTriple ':' 1 2 triple middle ∧ text = ' ' :: (middle ++ rest) := by
  obtain ⟨behindBlank, blank, read⟩ := Option.bind_eq_some_iff.mp read
  obtain ⟨middle, isTriple, rfl⟩ := readTriple_sound read
  exact ⟨middle, isTriple, readSign_sound blank⟩

theorem afterDate_sound (text : List Char) : ∃ middle blank back,
    IsTime (afterDate text).1.1 middle ∧ (blank = [] ∨ blank = [' ']) ∧
      IsZone (afterDate text).1.2 back ∧
      text = middle ++ (blank ++ (back ++ (afterDate text).2)) := by
  unfold afterDate
  split
  · next triple rest read =>
    obtain ⟨middle, isTriple, rfl⟩ := readTime_sound read
    obtain ⟨blank, back, isBlank, isZone, split⟩ := spacedZone_sound rest
    exact ⟨' ' :: middle, blank, back, .time isTriple, isBlank, isZone,
      congrArg (' ' :: middle ++ ·) split⟩
  · obtain ⟨blank, back, isBlank, isZone, split⟩ := spacedZone_sound text
    exact ⟨[], blank, back, .absent, isBlank, isZone, split⟩

theorem length_afterDate (text : List Char) : (afterDate text).2.length ≤ text.length := by
  obtain ⟨middle, blank, back, -, -, -, split⟩ := afterDate_sound text
  have count := congrArg List.length split
  simp only [List.length_append] at count
  omega

theorem afterDate_takes 
    (isTime : IsTime time middle) (isBlank : blank = [] ∨ blank = [' ']) (isZone : IsZone zone back)
    (behind : List Char) :
    Takes (time, zone) behind (afterDate (middle ++ (blank ++ (back ++ behind)))) := by
  have zoneTakes := spacedZone_takes isBlank isZone behind
  cases isTime with
  | absent =>
    rw [List.nil_append]
    cases read : readTime (blank ++ (back ++ behind)) with
    | none =>
      simp only [afterDate, read]
      exact zoneTakes.map (none, ·)
    | some found =>
      -- The blank and a digit behind it can only stand behind the literal.
      obtain ⟨triple, rest⟩ := found
      obtain ⟨middle, isTriple, split⟩ := readTime_sound read
      obtain ⟨digit, others, rfl, isDigit⟩ := isTriple.eq_cons (by decide)
      have less : rest.length < behind.length := by
        rcases isZone.eq_nil_or_cons with ⟨rfl, rfl⟩ | ⟨first, others, rfl, sign⟩
        · have count := congrArg List.length split
          simp only [List.cons_append, List.length_cons, List.length_append,
            List.nil_append] at count
          rcases isBlank with rfl | rfl
          · simp only [List.length_nil] at count
            omega
          · simp only [List.length_cons, List.length_nil] at count
            omega
        · rcases isBlank with rfl | rfl
          · obtain ⟨rfl, -⟩ := List.cons.inj split
            exact absurd sign (by decide)
          · obtain ⟨-, split⟩ := List.cons.inj split
            obtain ⟨rfl, -⟩ := List.cons.inj split
            exact absurd isDigit (by simp [noDigit_of_sign sign])
      simp only [afterDate, read]
      exact .inr (Nat.lt_of_le_of_lt (length_spacedZone rest) less)
  | @time triple text isTriple =>
    obtain ⟨found, read, takes⟩ := readTriple_takes (by decide) isTriple
      fun something => noDigit_of_zone isBlank isZone something behind
    have readTime : readTime (' ' :: text ++ (blank ++ (back ++ behind))) = some found := by
      rw [← read]
      simp [DateTimeLiteral.readTime, readSign]
    simp only [afterDate, readTime]
    rcases takes with rfl | less
    · rw [List.append_assoc]
      exact zoneTakes.map (some triple, ·)
    · exact .inr (Nat.lt_of_le_of_lt (length_spacedZone found.2) less)

/-! Literals -/

theorem read_eq (text : List Char) : read text = (readTriple '-' 4 4 text).map fun date =>
    let found := afterDate date.2
    (⟨date.1.1, date.1.2.1, date.1.2.2, found.1.1, found.1.2⟩, found.2) := by
  unfold read
  cases readTriple '-' 4 4 text with
  | none => rfl
  | some date =>
    simp only [Option.bind_eq_bind, Option.bind_some, Option.map_some, afterDate]
    cases readTime date.2 <;> rfl

variable {literal : DateTimeLiteral} {lexeme : List Char}

theorem read_sound (found : read text = some (literal, rest)) :
    ∃ lexeme, Written literal lexeme ∧ text = lexeme ++ rest := by
  rw [read_eq] at found
  obtain ⟨⟨⟨year, month, day⟩, behindDate⟩, isDate, made⟩ := Option.map_eq_some_iff.mp found
  obtain ⟨front, isTriple, rfl⟩ := readTriple_sound isDate
  obtain ⟨middle, blank, back, isTime, isBlank, isZone, split⟩ := afterDate_sound behindDate
  obtain ⟨rfl, rfl⟩ := Prod.mk.inj made
  refine ⟨_, .parts isTriple isTime isBlank isZone, ?_⟩
  simp only [List.append_assoc]
  exact congrArg (front ++ ·) split

theorem read_takes (written : Written literal lexeme) (behind : List Char) :
    ∃ found, read (lexeme ++ behind) = some found ∧ Takes literal behind found := by
  obtain @⟨year, month, day, time, zone, front, middle, blank, back, isDate, isTime, isBlank,
    isZone⟩ := written
  have stop : middle ++ (blank ++ back) ≠ [] → NoDigit (middle ++ (blank ++ back) ++ behind) := by
    intro something
    cases isTime with
    | absent => exact noDigit_of_zone isBlank isZone something behind
    | time isTriple => exact noDigit_cons (by decide) _
  obtain ⟨found, date, takes⟩ := readTriple_takes (by decide) isDate stop
  have afterTakes := afterDate_takes isTime isBlank isZone behind
  rw [read_eq, List.append_assoc, date]
  refine ⟨_, rfl, ?_⟩
  rcases takes with rfl | less
  · simp only [List.append_assoc]
    exact afterTakes.map fun found => (⟨year, month, day, found.1, found.2⟩ : DateTimeLiteral)
  · exact .inr (Nat.lt_of_le_of_lt (length_afterDate found.2) less)

/-- The longest text at the front that is a literal. -/
structure Leads (literal : DateTimeLiteral) (lexeme text : List Char) : Prop where
  written : Written literal lexeme
  front : lexeme <+: text
  longest : ∀ other lexeme', Written other lexeme' → lexeme' <+: text →
    lexeme'.length ≤ lexeme.length

theorem Written.leads (written : Written literal lexeme) : Leads literal lexeme lexeme :=
  ⟨written, List.prefix_rfl, fun _ _ _ front => front.length_le⟩

theorem Leads.read (leads : Leads literal lexeme text) :
    read text = some (literal, text.drop lexeme.length) := by
  obtain ⟨written, ⟨behind, rfl⟩, longest⟩ := leads
  obtain ⟨⟨other, rest⟩, read, takes⟩ := read_takes written behind
  rw [read, List.drop_left]
  rcases takes with same | less
  · rw [same]
  · obtain ⟨lexeme', written', split⟩ := read_sound read
    have bounded := longest other lexeme' written' ⟨rest, split.symm⟩
    have count := congrArg List.length split
    simp only [List.length_append] at count less
    omega

theorem leads_of_read (found : read (lexeme ++ rest) = some (literal, rest)) :
    Leads literal lexeme (lexeme ++ rest) := by
  obtain ⟨front, written, split⟩ := read_sound found
  obtain rfl := List.append_cancel_right split
  refine ⟨written, List.prefix_append lexeme rest, ?_⟩
  intro other lexeme' written' front
  obtain ⟨behind, split⟩ := front
  obtain ⟨found', read, takes⟩ := read_takes written' behind
  rw [split, found] at read
  obtain rfl := Option.some.inj read
  have less := takes.length_le
  have count := congrArg List.length split
  simp only [List.length_append] at count less
  omega

theorem Written.unique {other : DateTimeLiteral} (written : Written literal lexeme)
    (written' : Written other lexeme) : literal = other := by
  have same := written.leads.read.symm.trans written'.leads.read
  exact (Prod.mk.inj (Option.some.inj same)).1

end DateTimeLiteral

open DateTimeLiteral in
theorem Lexicon.dateTime_recognize_iff {text : List Char} {n : Nat} :
    dateTime.recognize text = some n ↔
      ∃ literal lexeme, Leads literal lexeme text ∧ lexeme.length = n := by
  constructor
  · intro recognized
    obtain ⟨⟨literal, rest⟩, found, count⟩ := Option.bind_eq_some_iff.mp recognized
    obtain ⟨lexeme, -, rfl⟩ := read_sound found
    refine ⟨literal, lexeme, leads_of_read found, ?_⟩
    simpa using count
  · rintro ⟨literal, lexeme, leads, rfl⟩
    have shorter := leads.front.length_le
    simp only [dateTime, leads.read, Option.bind_eq_bind, Option.bind_some, List.length_drop]
    exact congrArg some (by omega)

end Formulary
