/-!
Points in time as they are written: a date of the proleptic Gregorian calendar from year 0 on, a
time of day, and the distance of the local clock from universal time. Order and equality look at
the instant.

All that a literal can say is as in the calendar library behind the program, which is not part of
this project. That library has more, which only a host can bind to a name: years before 0 and the
nanoseconds of a leap second are left out here; its texts put a sign before years beyond 9999 and
round an offset to minutes, where those below have no sign and drop the seconds.
-/
namespace Formulary

def isLeapYear (year : Nat) : Bool := year % 4 == 0 && (year % 100 != 0 || year % 400 == 0)

def daysInMonth (year month : Nat) : Nat :=
  match month with
  | 2 => if isLeapYear year then 29 else 28
  | 4 | 6 | 9 | 11 => 30
  | 1 | 3 | 5 | 7 | 8 | 10 | 12 => 31
  | _ => 0

structure Date where
  year : Nat
  month : Nat
  day : Nat
  day_pos : 0 < day
  day_le : day ≤ daysInMonth year month
deriving DecidableEq

namespace Date

def ofFields? (year month day : Nat) : Option Date :=
  if h : 0 < day ∧ day ≤ daysInMonth year month then some ⟨year, month, day, h.1, h.2⟩ else none

def leapYearsBefore (year : Nat) : Nat := (year + 3) / 4 - (year + 99) / 100 + (year + 399) / 400

def daysBefore (year : Nat) : (month : Nat) → Nat
  | 0 => 0
  | month + 1 => daysBefore year month + daysInMonth year month

def dayNumber (date : Date) : Nat :=
  365 * date.year + leapYearsBefore date.year + daysBefore date.year date.month + (date.day - 1)

end Date

structure TimeOfDay where
  hour : Nat
  minute : Nat
  second : Nat
  nanosecond : Nat
  hour_lt : hour < 24
  minute_lt : minute < 60
  second_lt : second < 60
  nanosecond_lt : nanosecond < 1000000000
deriving DecidableEq

def TimeOfDay.ofFields? (hour minute second nanosecond : Nat) : Option TimeOfDay :=
  if h : hour < 24 ∧ minute < 60 ∧ second < 60 ∧ nanosecond < 1000000000 then
    some ⟨hour, minute, second, nanosecond, h.1, h.2.1, h.2.2.1, h.2.2.2⟩
  else none

def TimeOfDay.seconds (time : TimeOfDay) : Nat := time.hour * 3600 + time.minute * 60 + time.second

structure ClockOffset where
  seconds : Int
  natAbs_lt : seconds.natAbs < 86400
deriving DecidableEq

def ClockOffset.ofSeconds? (seconds : Int) : Option ClockOffset :=
  if h : seconds.natAbs < 86400 then some ⟨seconds, h⟩ else none

structure DateTime where
  date : Date
  time : TimeOfDay
  offset : ClockOffset
deriving DecidableEq

namespace DateTime

def instant (t : DateTime) : Int :=
  ((t.date.dayNumber * 86400 + t.time.seconds : Nat) - t.offset.seconds) * 1000000000 +
    t.time.nanosecond

def order (a b : DateTime) : Ordering := compare a.instant b.instant

def padded (width n : Nat) : String := String.ofList ((Nat.toDigits 10 n).leftpad width '0')

def fractionText (nanosecond : Nat) : String :=
  if nanosecond = 0 then ""
  else if nanosecond % 1000000 = 0 then "." ++ padded 3 (nanosecond / 1000000)
  else if nanosecond % 1000 = 0 then "." ++ padded 6 (nanosecond / 1000)
  else "." ++ padded 9 nanosecond

def offsetText (offset : ClockOffset) : String :=
  let minutes := offset.seconds.natAbs / 60
  (if offset.seconds < 0 then "-" else "+") ++ padded 2 (minutes / 60) ++ ":" ++
    padded 2 (minutes % 60)

def text (t : DateTime) : String :=
  padded 4 t.date.year ++ "-" ++ padded 2 t.date.month ++ "-" ++ padded 2 t.date.day ++ "T" ++
    padded 2 t.time.hour ++ ":" ++ padded 2 t.time.minute ++ ":" ++ padded 2 t.time.second ++
    fractionText t.time.nanosecond ++ offsetText t.offset

end DateTime

end Formulary
