import Formulary.Proofs.WrittenDates

/-!
The numbers in a literal of a point in time. There is such a point if they are a date of the
Gregorian calendar, a time of day and less than a day from universal time. Digits of any script
denote numbers, but the numbers that count are those of ASCII digits, and other numbers are zero.
-/
namespace Formulary

/-! Calendar and clock -/

structure IsGregorian (year month day : Nat) : Prop where
  month_pos : 1 ≤ month
  month_le : month ≤ 12
  day_pos : 1 ≤ day
  day_le : day ≤ 31
  short : month ∈ [4, 6, 9, 11] → day ≤ 30
  february : month = 2 → day ≤ 29
  leap : month = 2 → day = 29 → 4 ∣ year ∧ (100 ∣ year → 400 ∣ year)

theorem isLeapYear_iff (year : Nat) :
    isLeapYear year = true ↔ 4 ∣ year ∧ (100 ∣ year → 400 ∣ year) := by
  simp only [isLeapYear, Bool.and_eq_true, Bool.or_eq_true, beq_iff_eq, bne_iff_ne]
  omega

theorem daysInMonth_le (year month : Nat) :
    daysInMonth year month ≤ if 1 ≤ month ∧ month ≤ 12 then 31 else 0 := by
  unfold daysInMonth
  split
  · split <;> decide
  all_goals simp

theorem isGregorian_iff {year month day : Nat} :
    IsGregorian year month day ↔ 0 < day ∧ day ≤ daysInMonth year month := by
  have leap := isLeapYear_iff year
  constructor
  · intro date
    obtain ⟨month_pos, month_le, day_pos, day_le, short, february, leapDay⟩ := date
    refine ⟨day_pos, ?_⟩
    unfold daysInMonth
    split
    · split
      · exact february rfl
      · next common =>
        have notLast : day ≠ 29 := fun last => common (leap.mpr (leapDay rfl last))
        have := february rfl
        omega
    · exact short (by decide)
    · exact short (by decide)
    · exact short (by decide)
    · exact short (by decide)
    -- Months of 31 days are left, and what is no month.
    all_goals grind
  · rintro ⟨day_pos, day_le⟩
    have february : daysInMonth year 2 = if isLeapYear year then 29 else 28 := rfl
    have most := Nat.le_trans day_le (daysInMonth_le year month)
    obtain ⟨month_pos, month_le⟩ : 1 ≤ month ∧ month ≤ 12 := by
      by_contra none
      rw [if_neg none] at most
      omega
    rw [if_pos ⟨month_pos, month_le⟩] at most
    refine ⟨month_pos, month_le, day_pos, most, ?_, ?_, ?_⟩
    · intro short
      simp only [List.mem_cons, List.not_mem_nil, or_false] at short
      rcases short with rfl | rfl | rfl | rfl <;> exact day_le
    · rintro rfl
      rw [february] at day_le
      split at day_le <;> omega
    · rintro rfl rfl
      rw [february] at day_le
      split at day_le
      · next isLeap => exact leap.mp isLeap
      · omega

structure Moment where
  year : Nat
  month : Nat
  day : Nat
  hour : Nat
  minute : Nat
  second : Nat
  /-- The seconds that the clock is ahead of universal time. -/
  ahead : Int
deriving DecidableEq

structure Moment.Exists (m : Moment) : Prop where
  date : IsGregorian m.year m.month m.day
  hour_lt : m.hour < 24
  minute_lt : m.minute < 60
  second_lt : m.second < 60
  ahead_lt : m.ahead.natAbs < 24 * 3600

def DateTime.moment (t : DateTime) : Moment :=
  ⟨t.date.year, t.date.month, t.date.day, t.time.hour, t.time.minute, t.time.second,
    t.offset.seconds⟩

def Moment.dateTime? (m : Moment) : Option DateTime := do
  let date ← Date.ofFields? m.year m.month m.day
  let time ← TimeOfDay.ofFields? m.hour m.minute m.second 0
  let offset ← ClockOffset.ofSeconds? m.ahead
  return ⟨date, time, offset⟩

namespace Moment

variable {m : Moment} {t : DateTime}

theorem moment_of_dateTime? (made : m.dateTime? = some t) :
    t.moment = m ∧ t.time.nanosecond = 0 := by
  obtain ⟨date, isDate, made⟩ := Option.bind_eq_some_iff.mp made
  obtain ⟨time, isTime, made⟩ := Option.bind_eq_some_iff.mp made
  obtain ⟨offset, isOffset, made⟩ := Option.bind_eq_some_iff.mp made
  obtain rfl := Option.some.inj made
  obtain ⟨_, sameDate⟩ := Option.dite_none_right_eq_some.mp isDate
  obtain ⟨_, sameTime⟩ := Option.dite_none_right_eq_some.mp isTime
  obtain ⟨_, sameOffset⟩ := Option.dite_none_right_eq_some.mp isOffset
  obtain rfl := Option.some.inj sameDate
  obtain rfl := Option.some.inj sameTime
  obtain rfl := Option.some.inj sameOffset
  exact ⟨rfl, rfl⟩

theorem exists_moment (t : DateTime) : t.moment.Exists where
  date := isGregorian_iff.mpr ⟨t.date.day_pos, t.date.day_le⟩
  hour_lt := t.time.hour_lt
  minute_lt := t.time.minute_lt
  second_lt := t.time.second_lt
  ahead_lt := t.offset.natAbs_lt

theorem dateTime?_eq_none_iff : m.dateTime? = none ↔ ¬ m.Exists := by
  constructor
  · intro none found
    have date : Date.ofFields? m.year m.month m.day = some _ :=
      dif_pos (isGregorian_iff.mp found.date)
    have time : TimeOfDay.ofFields? m.hour m.minute m.second 0 = some _ :=
      dif_pos ⟨found.hour_lt, found.minute_lt, found.second_lt, by decide⟩
    have offset : ClockOffset.ofSeconds? m.ahead = some _ := dif_pos found.ahead_lt
    rw [dateTime?, date, time, offset] at none
    cases none
  · intro impossible
    cases made : m.dateTime? with
    | none => rfl
    | some t =>
      rw [← (moment_of_dateTime? made).1] at impossible
      exact absurd (exists_moment t) impossible

end Moment

/-! Digits -/

namespace Text

def digitValue (c : Char) : Nat :=
  match decimalDigitRanges.find? fun range => range.1 ≤ c.toNat && c.toNat ≤ range.2 with
  | some range => (c.toNat - range.1) % 10
  | none => 0

theorem digitValue_of_isDigit {c : Char} (digit : c.isDigit = true) :
    digitValue c = c.toNat - 48 := by
  obtain ⟨least, most⟩ := isDigit_bounds digit
  have ascii : decimalDigitRanges.find? (fun range => range.1 ≤ c.toNat && c.toNat ≤ range.2) =
      some (0x30, 0x39) := by
    rw [decimalDigitRanges, List.find?_cons_of_pos]
    simp [least, most]
  rw [digitValue, ascii]
  exact Nat.mod_eq_of_lt (by omega)

def denoted (digits : List Char) : Nat :=
  digits.foldl (fun n c => 10 * n + digitValue c) 0

def counted (digits : List Char) : Nat := if digits.all Char.isDigit then denoted digits else 0

theorem denoted_of_plain {digits : List Char} (plain : ∀ c ∈ digits, c.isDigit = true) :
    denoted digits = Nat.ofDigitChars 10 digits 0 := by
  have from_sum (n : Nat) : digits.foldl (fun n c => 10 * n + digitValue c) n =
      Nat.ofDigitChars 10 digits n := by
    induction digits generalizing n with
    | nil => rfl
    | cons c digits ih =>
      have digit := plain c List.mem_cons_self
      rw [List.foldl_cons, Nat.ofDigitChars_cons, digitValue_of_isDigit digit]
      exact ih (fun c member => plain c (List.mem_cons_of_mem _ member)) _
  exact from_sum 0

end Text

namespace DateTimeLiteral

/-- The numbers of a literal. What is not written has no digits. -/
def moment (number : List Char → Nat) (literal : DateTimeLiteral) : Moment :=
  let time := literal.time.getD ([], [], [])
  let zone := literal.zone.getD (false, [], [])
  let distance : Int := (number zone.2.1 * 3600 + number zone.2.2 * 60 : Nat)
  { year := number literal.year
    month := number literal.month
    day := number literal.day
    hour := number time.1
    minute := number time.2.1
    second := number time.2.2
    ahead := if zone.1 then -distance else distance }

theorem natOfDigits?_eq_counted {digits : List Char} (some_digit : digits ≠ []) :
    Decimal.natOfDigits? digits =
      if digits.all Char.isDigit then some (Text.counted digits) else none := by
  by_cases plain : digits.all Char.isDigit = true
  · have all := List.all_eq_true.mp plain
    rw [if_pos plain, Text.counted, if_pos plain, Text.denoted_of_plain all]
    exact Decimal.natOfDigits?_eq_some all some_digit
  · rw [if_neg plain]
    cases counted : Decimal.natOfDigits? digits with
    | none => rfl
    | some n =>
      obtain ⟨-, all, -⟩ := Decimal.natOfDigits?_eq_some_iff.mp counted
      exact absurd (List.all_eq_true.mpr all) plain

theorem field_eq_counted (digits : List Char) : field digits = Text.counted digits := by
  by_cases nothing : digits = []
  · subst nothing
    rfl
  · rw [field, natOfDigits?_eq_counted nothing]
    split
    · rfl
    · next foreign => rw [Text.counted, if_neg foreign, Option.getD_none]

theorem value?_eq (literal : DateTimeLiteral) (some_digit : literal.year ≠ []) :
    literal.value? = if literal.year.all Char.isDigit then
      (literal.moment Text.counted).dateTime? else none := by
  rw [value?, natOfDigits?_eq_counted some_digit]
  split
  · simp only [Option.bind_eq_bind, Option.bind_some, field_eq_counted, Moment.dateTime?, moment]
  · rfl

/-! Where all digits are ASCII digits -/

def AsciiDigits (text : List Char) : Prop :=
  ∀ c ∈ text, Text.isDecimalDigit c = true → c.isDigit = true

section

variable {least most : Nat} {sign : Char} {digits text front back : List Char} {triple : Triple}
  {time : Option Triple} {zone : Option Distance}

theorem AsciiDigits.mono (plain : AsciiDigits text) (part : digits ⊆ text) :
    AsciiDigits digits := by
  intro c member
  exact plain c (part member)

theorem Digits.ascii (isDigits : Digits least most digits) (plain : AsciiDigits digits) :
    digits.all Char.isDigit = true := by
  refine List.all_eq_true.mpr ?_
  intro c member
  exact plain c member (isDigits.all c member)

theorem Digits.counted (isDigits : Digits least most digits) (plain : AsciiDigits digits) :
    Text.counted digits = Text.denoted digits :=
  if_pos (isDigits.ascii plain)

theorem IsTriple.ascii (isTriple : IsTriple sign least most triple front)
    (plain : AsciiDigits front) : triple.1.all Char.isDigit = true := by
  obtain ⟨isFirst, -, -⟩ := isTriple
  exact isFirst.ascii (plain.mono (List.subset_append_left _ _))

theorem IsTriple.counted (isTriple : IsTriple sign least most triple front)
    (plain : AsciiDigits front) :
    Text.counted triple.1 = Text.denoted triple.1 ∧
      Text.counted triple.2.1 = Text.denoted triple.2.1 ∧
      Text.counted triple.2.2 = Text.denoted triple.2.2 := by
  obtain ⟨isFirst, isSecond, isThird⟩ := isTriple
  refine ⟨isFirst.counted (plain.mono ?_), isSecond.counted (plain.mono ?_),
    isThird.counted (plain.mono ?_)⟩
  all_goals
    intro c member
    simp [member]

theorem IsTime.counted (isTime : IsTime time text) (plain : AsciiDigits text) :
    let triple := time.getD ([], [], [])
    Text.counted triple.1 = Text.denoted triple.1 ∧
      Text.counted triple.2.1 = Text.denoted triple.2.1 ∧
      Text.counted triple.2.2 = Text.denoted triple.2.2 := by
  cases isTime with
  | absent => exact ⟨rfl, rfl, rfl⟩
  | time isTriple => exact isTriple.counted (plain.mono (List.subset_cons_self _ _))

theorem IsZone.counted (isZone : IsZone zone back) (plain : AsciiDigits back) :
    let distance := zone.getD (false, [], [])
    Text.counted distance.2.1 = Text.denoted distance.2.1 ∧
      Text.counted distance.2.2 = Text.denoted distance.2.2 := by
  cases isZone with
  | absent => exact ⟨rfl, rfl⟩
  | universal isLetter => exact ⟨rfl, rfl⟩
  | offset behind isHours isColon isMinutes =>
    refine ⟨isHours.counted (plain.mono ?_), isMinutes.counted (plain.mono ?_)⟩
    all_goals
      intro c member
      simp [member]

end

theorem Written.counted {literal : DateTimeLiteral} {lexeme : List Char}
    (written : Written literal lexeme) (plain : AsciiDigits lexeme) :
    literal.year.all Char.isDigit = true ∧
      literal.moment Text.counted = literal.moment Text.denoted := by
  obtain @⟨year, month, day, time, zone, front, middle, blank, back, isDate, isTime, isBlank,
    isZone⟩ := written
  obtain ⟨ofFront, ofMiddle, ofBack⟩ : AsciiDigits front ∧ AsciiDigits middle ∧
      AsciiDigits back := by
    refine ⟨plain.mono ?_, plain.mono ?_, plain.mono ?_⟩
    all_goals
      intro c member
      simp [member]
  obtain ⟨ofYear, ofMonth, ofDay⟩ := isDate.counted ofFront
  obtain ⟨ofHour, ofMinute, ofSecond⟩ := isTime.counted ofMiddle
  obtain ⟨ofHours, ofMinutes⟩ := isZone.counted ofBack
  refine ⟨isDate.ascii ofFront, ?_⟩
  dsimp only at ofYear ofMonth ofDay
  simp only [moment, ofYear, ofMonth, ofDay, ofHour, ofMinute, ofSecond, ofHours, ofMinutes]

theorem Written.year_ne_nil {literal : DateTimeLiteral} {lexeme : List Char}
    (written : Written literal lexeme) : literal.year ≠ [] := by
  obtain ⟨⟨isYear, -, -⟩, -, -, -⟩ := written
  exact List.length_pos_iff.mp (Nat.lt_of_lt_of_le (by decide) isYear.least_le)

end DateTimeLiteral

namespace Lexicon

open DateTimeLiteral

variable {last : Option Token} {text lexeme : List Char} {literal : DateTimeLiteral} {m : Moment}

/-- What is answered to a lexeme with these numbers: their point in time if there is one, and else
that there is none. -/
inductive Answers (lexeme rest : List Char) (m : Moment) : Outcome (Option Scanned) → Prop where
  | time (found : m.Exists) (t : DateTime) (same : t.moment = m)
      (onSecond : t.time.nanosecond = 0) :
      Answers lexeme rest m (.ok (some ⟨tokenOf (.data (.dateTime t)) lexeme, lexeme, rest⟩))
  | none (impossible : ¬ m.Exists) :
      Answers lexeme rest m (.error (.lexical (.invalidDateTime (String.ofList lexeme))))

theorem Answers.unique {lexeme rest : List Char} {m m' : Moment} {answer : Outcome (Option Scanned)}
    (answers : Answers lexeme rest m answer) (found : m.Exists)
    (answers' : Answers lexeme rest m' answer) : m = m' := by
  cases answers with
  | none impossible => exact absurd found impossible
  | time _ t same onSecond =>
    generalize token : tokenOf (.data (.dateTime t)) lexeme = tokens at answers'
    cases answers' with
    | time _ t' same' onSecond' =>
      obtain rfl : t = t' := by simpa [tokenOf] using token
      rw [← same, same']

theorem scan_of_leads (leads : Leads literal lexeme text) (last : Option Token) :
    dateTime.scan last text =
      literal.value?.elim (.error (.lexical (.invalidDateTime (String.ofList lexeme)))) fun t =>
        .ok (some ⟨tokenOf (.data (.dateTime t)) lexeme, lexeme, text.drop lexeme.length⟩) := by
  have recognized := dateTime_recognize_iff.mpr ⟨literal, lexeme, leads, rfl⟩
  have front : text.take lexeme.length = lexeme := (List.prefix_iff_eq_take.mp leads.front).symm
  have made : dateTime.convert lexeme =
      literal.value?.elim (.error (.lexical (.invalidDateTime (String.ofList lexeme)))) fun t =>
        .ok (tokenOf (.data (.dateTime t)) lexeme) := by
    simp only [dateTime, leads.written.leads.read, Option.bind_some]
    cases literal.value? <;> rfl
  have admitted : dateTime.admits last = true := rfl
  rw [Scanner.scan, recognized]
  simp only [admitted, if_true, front, made]
  cases literal.value? <;> rfl

theorem answers_counted (leads : Leads literal lexeme text)
    (plain : literal.year.all Char.isDigit = true) (last : Option Token) :
    Answers lexeme (text.drop lexeme.length) (literal.moment Text.counted)
      (dateTime.scan last text) := by
  have value := literal.value?_eq leads.written.year_ne_nil
  rw [if_pos plain] at value
  rw [scan_of_leads leads, value]
  cases made : (literal.moment Text.counted).dateTime? with
  | none => exact .none (Moment.dateTime?_eq_none_iff.mp made)
  | some t =>
    obtain ⟨same, onSecond⟩ := Moment.moment_of_dateTime? made
    have found := Moment.exists_moment t
    rw [same] at found
    exact .time found t same onSecond

/-- A literal is recognized where one is written, and the longest is taken. If its year has ASCII
digits only, then the answer is the point in time with the numbers that count, or that there is
none; if not, there is none. Where all digits are ASCII digits, these are the numbers that they
denote. -/
theorem dateTime_answers (last : Option Token) (text : List Char) :
    (∀ n, dateTime.recognize text = some n ↔
      ∃ literal lexeme, Leads literal lexeme text ∧ lexeme.length = n) ∧
    ∀ literal lexeme, Leads literal lexeme text →
      let answer := dateTime.scan last text
      let rest := text.drop lexeme.length
      (literal.year.all Char.isDigit = true →
        Answers lexeme rest (literal.moment Text.counted) answer) ∧
      (literal.year.all Char.isDigit = false →
        answer = .error (.lexical (.invalidDateTime (String.ofList lexeme)))) ∧
      (AsciiDigits lexeme → Answers lexeme rest (literal.moment Text.denoted) answer) := by
  refine ⟨fun n => dateTime_recognize_iff, ?_⟩
  intro literal lexeme leads answer rest
  refine ⟨?_, ?_, ?_⟩
  · intro plain
    exact answers_counted leads plain last
  · intro foreign
    have value := literal.value?_eq leads.written.year_ne_nil
    rw [foreign, if_neg Bool.false_ne_true] at value
    simp only [answer, scan_of_leads leads, value, Option.elim_none]
  · intro plain
    obtain ⟨year, same⟩ := leads.written.counted plain
    rw [← same]
    exact answers_counted leads year last

/-- A leap day in local time behind universal time, with a letter behind it that is left over. -/
theorem dateTime_answers_leap :
    let lexeme := "2020-2-29 23:59:59 -11:30".toList
    let literal : DateTimeLiteral := ⟨['2', '0', '2', '0'], ['2'], ['2', '9'],
      some (['2', '3'], ['5', '9'], ['5', '9']), some (true, ['1', '1'], ['3', '0'])⟩
    Leads literal lexeme (lexeme ++ ['Z']) ∧ AsciiDigits lexeme ∧
      Answers lexeme ['Z'] ⟨2020, 2, 29, 23, 59, 59, -41400⟩
        (dateTime.scan none (lexeme ++ ['Z'])) := by
  intro lexeme literal
  have leads : Leads literal lexeme (lexeme ++ ['Z']) := leads_of_read rfl
  have plain : AsciiDigits lexeme := by
    unfold AsciiDigits
    decide
  have denotes : literal.moment Text.denoted = ⟨2020, 2, 29, 23, 59, 59, -41400⟩ := by
    decide
  have answers := ((dateTime_answers none _).2 literal lexeme leads).2.2 plain
  rw [denotes, List.drop_left] at answers
  exact ⟨leads, plain, answers⟩

/-- An hour in other digits than those of ASCII is taken for zero. -/
theorem foreign_hour_lost :
    let lexeme := "2020-01-31 ١٢:30:00".toList
    let literal : DateTimeLiteral := ⟨['2', '0', '2', '0'], ['0', '1'], ['3', '1'],
      some (['١', '٢'], ['3', '0'], ['0', '0']), none⟩
    Leads literal lexeme lexeme ∧
      literal.moment Text.denoted = ⟨2020, 1, 31, 12, 30, 0, 0⟩ ∧
      ¬ Answers lexeme [] (literal.moment Text.denoted) (dateTime.scan none lexeme) := by
  intro lexeme literal
  have leads : Leads literal lexeme lexeme := by
    have leads : Leads literal lexeme (lexeme ++ []) := leads_of_read rfl
    rwa [List.append_nil] at leads
  have denotes : literal.moment Text.denoted = ⟨2020, 1, 31, 12, 30, 0, 0⟩ := by decide
  have counts : literal.moment Text.counted = ⟨2020, 1, 31, 0, 30, 0, 0⟩ := by decide
  refine ⟨leads, denotes, ?_⟩
  intro answers
  have answers' := answers_counted leads (by decide) none
  have found : (⟨2020, 1, 31, 0, 30, 0, 0⟩ : Moment).Exists :=
    ⟨isGregorian_iff.mpr (by decide), by decide, by decide, by decide, by decide⟩
  rw [counts, List.drop_length] at answers'
  rw [denotes] at answers
  exact absurd (answers'.unique found answers) (by decide)

end Lexicon

end Formulary
