import Mathlib.Data.Prod.Lex
import Mathlib.Logic.Function.Iterate
import Mathlib.Order.Monotone.Basic
import Mathlib.Tactic.Common
import Mathlib.Tactic.IntervalCases

/-! The proleptic Gregorian calendar: its dates one after the other, and closed forms that count
them. -/
namespace Calendar

def Leap (year : ℕ) : Prop := year % 4 = 0 ∧ (year % 100 ≠ 0 ∨ year % 400 = 0)

instance : DecidablePred Leap := fun _ => inferInstanceAs (Decidable (_ ∧ _))

def monthLength (year month : ℕ) : ℕ :=
  if month = 2 then if Leap year then 29 else 28
  else if month = 4 ∨ month = 6 ∨ month = 9 ∨ month = 11 then 30
  else 31

theorem monthLength_pos (year month : ℕ) : 1 ≤ monthLength year month := by
  unfold monthLength
  split_ifs <;> omega

theorem monthLength_le (year month : ℕ) : monthLength year month ≤ 31 := by
  unfold monthLength
  split_ifs <;> omega

structure Date where
  year : ℕ
  month : ℕ
  day : ℕ
  months : 1 ≤ month ∧ month ≤ 12
  days : 1 ≤ day ∧ day ≤ monthLength year month

namespace Date

def next (date : Date) : Date :=
  if inside : date.day < monthLength date.year date.month then
    { date with day := date.day + 1, days := ⟨by omega, inside⟩ }
  else if more : date.month < 12 then
    { year := date.year, month := date.month + 1, day := 1
      months := ⟨by omega, more⟩, days := ⟨le_rfl, monthLength_pos ..⟩ }
  else
    { year := date.year + 1, month := 1, day := 1
      months := ⟨le_rfl, by omega⟩, days := ⟨le_rfl, monthLength_pos ..⟩ }

/-- Later dates have later keys. -/
def key (date : Date) : ℕ ×ₗ ℕ ×ₗ ℕ := toLex (date.year, toLex (date.month, date.day))

theorem key_lt_next (date : Date) : date.key < date.next.key := by
  unfold next
  split_ifs with inside more
  · exact Prod.Lex.right _ (Prod.Lex.right _ (Nat.lt_succ_self _))
  · exact Prod.Lex.right _ (Prod.Lex.left _ _ (Nat.lt_succ_self _))
  · exact Prod.Lex.left _ _ (Nat.lt_succ_self _)

theorem year_le_next (date : Date) : date.year ≤ date.next.year := by
  unfold next
  split_ifs <;> simp

end Date

/-- The first of January 1970. -/
def epoch : Date where
  year := 1970
  month := 1
  day := 1
  months := by decide
  days := by decide

def dateOf (days : ℕ) : Date := Date.next^[days] epoch

theorem dateOf_succ (days : ℕ) : dateOf (days + 1) = (dateOf days).next :=
  Function.iterate_succ_apply' ..

theorem epoch_year_le (days : ℕ) : 1970 ≤ (dateOf days).year := by
  induction days with
  | zero => exact le_rfl
  | succ days ih =>
    rw [dateOf_succ]
    exact ih.trans (Date.year_le_next _)

theorem dateOf_later (days : ℕ) : 1 ≤ (dateOf days).year := le_trans (by decide) (epoch_year_le days)

def marchYear (date : Date) : ℕ := if date.month ≤ 2 then date.year - 1 else date.year

def marchMonth (date : Date) : ℕ := if date.month ≤ 2 then date.month + 9 else date.month - 3

def yearStart (year : ℕ) : ℕ := 365 * year + year / 4 - year / 100 + year / 400

def monthStart (month : ℕ) : ℕ := (153 * month + 2) / 5

def dayOfYear (date : Date) : ℕ := monthStart (marchMonth date) + (date.day - 1)

def ordinal (date : Date) : ℕ := yearStart (marchYear date) + dayOfYear date

theorem yearStart_succ (year : ℕ) :
    yearStart (year + 1) = yearStart year + 365 + if Leap (year + 1) then 1 else 0 := by
  have fits : year / 100 ≤ 365 * year + year / 4 := by omega
  have century : (year + 1) % 100 = 0 → (year + 1) % 4 = 0 := by omega
  have era : (year + 1) % 400 = 0 → (year + 1) % 100 = 0 := by omega
  by_cases leap : Leap (year + 1)
  all_goals
    simp only [leap, yearStart, Nat.succ_div, Nat.dvd_iff_mod_eq_zero, if_true, if_false]
    unfold Leap at leap
    generalize year / 4 = fours, year / 100 = centuries, year / 400 = eras at fits ⊢
    generalize (year + 1) % 4 = a, (year + 1) % 100 = b, (year + 1) % 400 = c at *
    split_ifs <;> omega

theorem ordinal_next {date : Date} (later : 1 ≤ date.year) : ordinal date.next = ordinal date + 1 := by
  obtain ⟨year, month, day, ⟨januaryOn, decemberAt⟩, ⟨firstOn, lastAt⟩⟩ := date
  dsimp only at *
  unfold Date.next
  dsimp only
  split_ifs with inside more
  · simp only [ordinal, dayOfYear, marchYear, marchMonth]
    omega
  · have last : day = monthLength year month := by omega
    have february := yearStart_succ (year - 1)
    rw [Nat.sub_add_cancel later] at february
    simp only [ordinal, dayOfYear, marchYear, marchMonth, last, monthLength, monthStart]
    by_cases leap : Leap year
    all_goals
      simp only [leap, if_true, if_false] at february ⊢
      interval_cases month <;> simp
      omega
  · have last : day = monthLength year month := by omega
    have december : month = 12 := by omega
    subst december
    simp [ordinal, dayOfYear, marchYear, marchMonth, last, monthLength, monthStart]

theorem ordinal_epoch : ordinal epoch = 719468 := by decide +kernel

theorem ordinal_dateOf (days : ℕ) : ordinal (dateOf days) = days + ordinal epoch := by
  induction days with
  | zero => exact (Nat.zero_add _).symm
  | succ days ih =>
    rw [dateOf_succ, ordinal_next (dateOf_later days), ih, Nat.add_right_comm]

def eraYear (doe : ℕ) : ℕ := (doe - doe / 1460 + doe / 36524 - doe / 146096) / 365

/-- Only on the last day of an era are its centuries out of step. -/
theorem centuries_eq {c doy doe : ℕ} (hc : c < 4) (split : doe = 36524 * c + doy)
    (fits : doy < 36524 ∨ (doy = 36524 ∧ c = 3)) : doe / 36524 = c + doe / 146096 := by
  by_cases last : doe < 146096
  · rw [Nat.div_eq_of_lt last]
    exact Nat.div_eq_of_lt_le (by omega) (by omega)
  · have end_ : c = 3 ∧ doe = 146096 := by omega
    simp [end_.1, end_.2]

/-- A year of four has a day more than four years. -/
theorem fours_eq {c q t doy doe : ℕ} (hc : c < 4) (hq : q < 25) (ht : t < 4)
    (fits : doy < 365 ∨ (doy = 365 ∧ t = 3)) (split : doe = 36524 * c + 1461 * q + 365 * t + doy) :
    ∃ extra, doe / 1460 = 25 * c + q + extra ∧ extra ≤ doy ∧ doy < 365 + extra := by
  by_cases short : 24 * c + q + 365 * t + doy < 1460
  · exact ⟨0, Nat.div_eq_of_lt_le (by omega) (by omega), by omega, by omega⟩
  · exact ⟨1, Nat.div_eq_of_lt_le (by omega) (by omega), by omega, by omega⟩

theorem years_eq {c q t doy doe extra last : ℕ} (least : extra ≤ doy) (most : doy < 365 + extra)
    (split : doe = 36524 * c + 1461 * q + 365 * t + doy) :
    (doe - (25 * c + q + extra) + (c + last) - last) / 365 = 100 * c + 4 * q + t :=
  Nat.div_eq_of_lt_le (by omega) (by omega)

theorem eraYear_eq {c q t doy doe : ℕ} (hc : c < 4) (hq : q < 25) (ht : t < 4)
    (fits : doy < 365 ∨ (doy = 365 ∧ t = 3 ∧ (q < 24 ∨ c = 3)))
    (split : doe = 36524 * c + 1461 * q + 365 * t + doy) : eraYear doe = 100 * c + 4 * q + t := by
  obtain ⟨extra, fours, least, most⟩ :=
    fours_eq hc hq ht (fits.imp_right fun ⟨last, year, _⟩ => ⟨last, year⟩) split
  have parts : doe = 36524 * c + (1461 * q + 365 * t + doy) := by rw [split, add_assoc, add_assoc, add_assoc]
  rw [eraYear, centuries_eq hc parts (by omega), fours]
  exact years_eq least most split

def eraStart (yoe : ℕ) : ℕ := 365 * yoe + yoe / 4 - yoe / 100

theorem dayOfYear_fits {date : Date} (later : 1 ≤ date.year) :
    dayOfYear date < 365 ∨ (dayOfYear date = 365 ∧ Leap (marchYear date + 1)) := by
  obtain ⟨year, month, day, ⟨januaryOn, decemberAt⟩, ⟨firstOn, lastAt⟩⟩ := date
  dsimp only at *
  have back : year - 1 + 1 = year := Nat.sub_add_cancel later
  unfold monthLength at lastAt
  simp only [dayOfYear, marchYear, marchMonth, monthStart]
  by_cases leap : Leap year
  all_goals
    simp only [leap, if_true, if_false] at lastAt
    interval_cases month <;> simp [back, leap] at lastAt ⊢ <;> omega

theorem month_of_dayOfYear (date : Date) :
    (5 * dayOfYear date + 2) / 153 = marchMonth date ∧
      dayOfYear date - monthStart (marchMonth date) + 1 = date.day := by
  obtain ⟨year, month, day, ⟨januaryOn, decemberAt⟩, ⟨firstOn, lastAt⟩⟩ := date
  dsimp only at *
  have longest : day ≤ if month = 2 then 29 else
      if month = 4 ∨ month = 6 ∨ month = 9 ∨ month = 11 then 30 else 31 := by
    unfold monthLength at lastAt
    split_ifs at lastAt ⊢ <;> omega
  simp only [dayOfYear, marchMonth, monthStart]
  interval_cases month <;> simp at longest ⊢ <;> omega

theorem eraStart_eq {c q t : ℕ} (hq : q < 25) (ht : t < 4) :
    eraStart (100 * c + 4 * q + t) = 36524 * c + 1461 * q + 365 * t := by
  have fours : (100 * c + 4 * q + t) / 4 = 25 * c + q := by omega
  have centuries : (100 * c + 4 * q + t) / 100 = c := by omega
  rw [eraStart, fours, centuries]
  omega

theorem yearStart_eq {e yoe : ℕ} (inside : yoe < 400) :
    yearStart (400 * e + yoe) = 146097 * e + eraStart yoe := by
  have fours : (400 * e + yoe) / 4 = 100 * e + yoe / 4 := by omega
  have centuries : (400 * e + yoe) / 100 = 4 * e + yoe / 100 := by omega
  have eras : (400 * e + yoe) / 400 = e := by omega
  have fewer : yoe / 100 ≤ 365 * yoe + yoe / 4 := by omega
  rw [yearStart, eraStart, fours, centuries, eras]
  omega

/-- The number of a date, taken apart into eras, years and days. -/
theorem era_of_ordinal {date : Date} (later : 1 ≤ date.year) :
    ordinal date / 146097 = marchYear date / 400 ∧
      ordinal date % 146097 = eraStart (marchYear date % 400) + dayOfYear date ∧
      eraYear (ordinal date % 146097) = marchYear date % 400 := by
  have fits := dayOfYear_fits later
  unfold ordinal
  generalize marchYear date = year, dayOfYear date = doy at *
  obtain ⟨e, c, q, t, rfl, hc, hq, ht⟩ : ∃ e c q t, year = 400 * e + (100 * c + 4 * q + t) ∧
      c < 4 ∧ q < 25 ∧ t < 4 :=
    ⟨year / 400, year % 400 / 100, year % 100 / 4, year % 4, by omega, by omega, by omega, by omega⟩
  have inside : 100 * c + 4 * q + t < 400 := by omega
  have last : doy < 365 ∨ (doy = 365 ∧ t = 3 ∧ (q < 24 ∨ c = 3)) := by
    refine fits.imp_right fun ⟨whole, leap⟩ => ⟨whole, ?_⟩
    unfold Leap at leap
    omega
  have parts := eraStart_eq (c := c) hq ht
  have few : eraStart (100 * c + 4 * q + t) + doy < 146097 := by omega
  have era : (400 * e + (100 * c + 4 * q + t)) / 400 = e := by
    rw [Nat.mul_add_div (by decide), Nat.div_eq_of_lt inside, Nat.add_zero]
  have yoe : (400 * e + (100 * c + 4 * q + t)) % 400 = 100 * c + 4 * q + t := by
    rw [Nat.mul_add_mod, Nat.mod_eq_of_lt inside]
  rw [yearStart_eq inside, era, yoe, Nat.add_assoc, Nat.mul_add_div (by decide), Nat.mul_add_mod,
    Nat.div_eq_of_lt few, Nat.mod_eq_of_lt few]
  exact ⟨rfl, rfl, eraYear_eq hc hq ht last (by rw [parts])⟩

theorem month_of_march (date : Date) :
    (if marchMonth date < 10 then marchMonth date + 3 else marchMonth date - 9) = date.month := by
  have := date.months
  unfold marchMonth
  split_ifs <;> omega

theorem year_of_march {date : Date} (later : 1 ≤ date.year) :
    (if date.month ≤ 2 then marchYear date + 1 else marchYear date) = date.year := by
  unfold marchYear
  split_ifs <;> omega

structure Moment where
  date : Date
  hour : ℕ
  minute : ℕ
  second : ℕ
  hours : hour < 24
  minutes : minute < 60
  seconds : second < 60

namespace Moment

def next (moment : Moment) : Moment :=
  if second : moment.second + 1 < 60 then
    { moment with second := moment.second + 1, seconds := second }
  else if minute : moment.minute + 1 < 60 then
    { moment with minute := moment.minute + 1, minutes := minute, second := 0, seconds := by decide }
  else if hour : moment.hour + 1 < 24 then
    { moment with
      hour := moment.hour + 1, hours := hour, minute := 0, minutes := by decide
      second := 0, seconds := by decide }
  else
    { date := moment.date.next, hour := 0, hours := by decide, minute := 0, minutes := by decide
      second := 0, seconds := by decide }

def key (moment : Moment) : (ℕ ×ₗ ℕ ×ₗ ℕ) ×ₗ ℕ ×ₗ ℕ ×ₗ ℕ :=
  toLex (moment.date.key, toLex (moment.hour, toLex (moment.minute, moment.second)))

theorem key_lt_next (moment : Moment) : moment.key < moment.next.key := by
  unfold next
  split_ifs with second minute hour
  · exact Prod.Lex.right _ (Prod.Lex.right _ (Prod.Lex.right _ (Nat.lt_succ_self _)))
  · exact Prod.Lex.right _ (Prod.Lex.right _ (Prod.Lex.left _ _ (Nat.lt_succ_self _)))
  · exact Prod.Lex.right _ (Prod.Lex.left _ _ (Nat.lt_succ_self _))
  · exact Prod.Lex.left _ _ moment.date.key_lt_next

end Moment

def momentOf (secs : ℕ) : Moment :=
  Moment.next^[secs] { date := epoch, hour := 0, hours := by decide, minute := 0
                       minutes := by decide, second := 0, seconds := by decide }

theorem momentOf_succ (secs : ℕ) : momentOf (secs + 1) = (momentOf secs).next :=
  Function.iterate_succ_apply' ..

theorem momentOf_strictMono : StrictMono fun secs => (momentOf secs).key :=
  strictMono_nat_of_lt_succ fun secs => by
    rw [momentOf_succ]
    exact Moment.key_lt_next _

theorem momentOf_fields (secs : ℕ) :
    (momentOf secs).date = dateOf (secs / 60 / 60 / 24) ∧ (momentOf secs).hour = secs / 60 / 60 % 24 ∧
      (momentOf secs).minute = secs / 60 % 60 ∧ (momentOf secs).second = secs % 60 := by
  induction secs with
  | zero => exact ⟨rfl, rfl, rfl, rfl⟩
  | succ secs ih =>
    obtain ⟨date, hour, minute, second⟩ := ih
    rw [momentOf_succ, Moment.next]
    split_ifs with more longer latest
    all_goals simp only [date, hour, minute, second]
    · have days : (secs + 1) / 60 / 60 / 24 = secs / 60 / 60 / 24 := by omega
      exact ⟨by rw [days], by omega, by omega, by omega⟩
    · have days : (secs + 1) / 60 / 60 / 24 = secs / 60 / 60 / 24 := by omega
      exact ⟨by rw [days], by omega, by omega, by omega⟩
    · have days : (secs + 1) / 60 / 60 / 24 = secs / 60 / 60 / 24 := by omega
      exact ⟨by rw [days], by omega, by omega, by omega⟩
    · have days : (secs + 1) / 60 / 60 / 24 = secs / 60 / 60 / 24 + 1 := by omega
      exact ⟨by rw [days, dateOf_succ], by omega, by omega, by omega⟩

end Calendar
