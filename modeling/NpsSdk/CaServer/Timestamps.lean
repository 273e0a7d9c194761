import NpsSdk.CaServer.Server
import NpsSdk.Lib.Calendar
import NpsSdk.Lib.Splitting

/-! The server's timestamps are calendar times, and they read back. -/
namespace Nps.CaServer
open Calendar

section
variable {a b : UInt64} {m n : ℕ}

theorem add_exact (ha : a.toNat = m) (hb : b.toNat = n) (fits : m + n < 2 ^ 64) :
    (a + b).toNat = m + n := by
  rw [UInt64.toNat_add, ha, hb, Nat.mod_eq_of_lt fits]

theorem mul_exact (ha : a.toNat = m) (hb : b.toNat = n) (fits : m * n < 2 ^ 64) :
    (a * b).toNat = m * n := by
  rw [UInt64.toNat_mul, ha, hb, Nat.mod_eq_of_lt fits]

theorem sub_exact (ha : a.toNat = m) (hb : b.toNat = n) (fits : n ≤ m) : (a - b).toNat = m - n := by
  rw [UInt64.toNat_sub_of_le _ _ (by rwa [UInt64.le_iff_toNat_le, ha, hb]), ha, hb]

theorem div_exact (ha : a.toNat = m) (hb : b.toNat = n) : (a / b).toNat = m / n := by
  rw [UInt64.toNat_div, ha, hb]

theorem mod_exact (ha : a.toNat = m) (hb : b.toNat = n) : (a % b).toNat = m % n := by
  rw [UInt64.toNat_mod, ha, hb]

theorem ite_exact {p q : Prop} [Decidable p] [Decidable q] (alike : p ↔ q)
    (ha : q → a.toNat = m) (hb : ¬ q → b.toNat = n) :
    (if p then a else b).toNat = if q then m else n := by
  by_cases holds : q
  · rw [if_pos holds, if_pos (alike.mpr holds), ha holds]
  · rw [if_neg holds, if_neg (mt alike.mp holds), hb holds]

theorem le_exact (ha : a.toNat = m) (hb : b.toNat = n) : a ≤ b ↔ m ≤ n := by
  rw [UInt64.le_iff_toNat_le, ha, hb]

theorem lt_exact (ha : a.toNat = m) (hb : b.toNat = n) : a < b ↔ m < n := by
  rw [UInt64.lt_iff_toNat_lt, ha, hb]

end

def fields (moment : Moment) : ℕ × ℕ × ℕ × ℕ × ℕ × ℕ :=
  (moment.date.year, moment.date.month, moment.date.day, moment.hour, moment.minute, moment.second)

def numbers (parts : UInt64 × UInt64 × UInt64 × UInt64 × UInt64 × UInt64) : ℕ × ℕ × ℕ × ℕ × ℕ × ℕ :=
  (parts.1.toNat, parts.2.1.toNat, parts.2.2.1.toNat, parts.2.2.2.1.toNat, parts.2.2.2.2.1.toNat,
    parts.2.2.2.2.2.toNat)

/-- Nothing overflows on the way from the number of a date to the date. -/
theorem date_exact {z era doe yoe doy mp mo : UInt64} {date : Date} (later : 1 ≤ date.year)
    (small : ordinal date < 2 ^ 63) (hZ : z.toNat = ordinal date) (hEra : era = z / 146097)
    (hDoe : doe = z - era * 146097)
    (hYoe : yoe = (doe - doe / 1460 + doe / 36524 - doe / 146096) / 365)
    (hDoy : doy = doe - (365 * yoe + yoe / 4 - yoe / 100)) (hMp : mp = (5 * doy + 2) / 153)
    (hMo : mo = if mp < 10 then mp + 3 else mp - 9) :
    (if mo ≤ 2 then yoe + era * 400 + 1 else yoe + era * 400).toNat = date.year ∧
      mo.toNat = date.month ∧ (doy - (153 * mp + 2) / 5 + 1).toNat = date.day := by
  obtain ⟨inEra, rest, year⟩ := era_of_ordinal later
  obtain ⟨month, day⟩ := month_of_dayOfYear date
  have monthBack := month_of_march date
  have yearBack := year_of_march later
  have fits := dayOfYear_fits later
  have dayStart : monthStart (marchMonth date) ≤ dayOfYear date := Nat.le_add_right ..
  generalize marchYear date = Y, dayOfYear date = D, marchMonth date = M, ordinal date = n at *
  have split := Nat.mod_add_div' n 146097
  rw [inEra] at split
  have era' : (z / 146097).toNat = n / 146097 := div_exact hZ rfl
  rw [← hEra, inEra] at era'
  have days : (era * 146097).toNat = Y / 400 * 146097 := mul_exact era' rfl (by omega)
  have doe' : (z - era * 146097).toNat = n - Y / 400 * 146097 := sub_exact hZ days (by omega)
  rw [← hDoe, ← split, Nat.add_sub_cancel] at doe'
  have within : n % 146097 < 146097 := Nat.mod_lt _ (by decide)
  have eras : Y / 400 < 2 ^ 47 := by omega
  clear hZ days split small
  have yoe' : yoe.toNat = Y % 400 := by
    rw [hYoe, ← year, eraYear]
    generalize n % 146097 = e at *
    have ones : (doe / 1460).toNat = e / 1460 := div_exact doe' rfl
    have centuries : (doe / 36524).toNat = e / 36524 := div_exact doe' rfl
    have lasts : (doe / 146096).toNat = e / 146096 := div_exact doe' rfl
    have less := sub_exact doe' ones (Nat.div_le_self ..)
    have more := add_exact less centuries (by omega)
    exact div_exact (sub_exact more lasts (by omega)) rfl
  have doy' : doy.toNat = D := by
    have fours : (365 * yoe).toNat = 365 * (Y % 400) := mul_exact rfl yoe' (by omega)
    have leaps : (yoe / 4).toNat = Y % 400 / 4 := div_exact yoe' rfl
    have centuries : (yoe / 100).toNat = Y % 400 / 100 := div_exact yoe' rfl
    have start := sub_exact (add_exact fours leaps (by omega)) centuries (by omega)
    rw [hDoy, sub_exact doe' start (rest ▸ Nat.le_add_right ..), rest]
    exact Nat.add_sub_cancel_left ..
  have mp' : mp.toNat = M := by
    have fives : (5 * doy).toNat = 5 * D := mul_exact rfl doy' (by omega)
    rw [hMp, ← month]
    exact div_exact (add_exact fives rfl (by omega)) rfl
  have mo' : mo.toNat = date.month := by
    rw [hMo, ← monthBack]
    exact ite_exact (lt_exact mp' rfl) (fun _ => add_exact mp' rfl (by omega))
      fun _ => sub_exact mp' rfl (by omega)
  have y' : (yoe + era * 400).toNat = Y := by
    have before : (era * 400).toNat = Y / 400 * 400 := mul_exact era' rfl (by omega)
    exact (add_exact yoe' before (by omega)).trans (Nat.mod_add_div' ..)
  have d' : (doy - (153 * mp + 2) / 5 + 1).toNat = date.day := by
    have fifths : (153 * mp + 2).toNat = 153 * M + 2 :=
      add_exact (mul_exact rfl mp' (by omega)) rfl (by omega)
    have start : ((153 * mp + 2) / 5).toNat = monthStart M := div_exact fifths rfl
    rw [← day]
    exact add_exact (sub_exact doy' start dayStart) rfl (by omega)
  refine ⟨?_, mo', d'⟩
  rw [← yearBack]
  exact ite_exact (le_exact mo' rfl) (fun _ => add_exact y' rfl (by omega)) fun _ => y'

theorem numbers_epochToParts (secs : UInt64) :
    numbers (epochToParts secs) = fields (momentOf secs.toNat) := by
  obtain ⟨date, hour, minute, second⟩ := momentOf_fields secs.toNat
  have bound := secs.toNat_lt
  have mins : (secs / 60).toNat = secs.toNat / 60 := div_exact rfl rfl
  have hours : (secs / 60 / 60).toNat = secs.toNat / 60 / 60 := div_exact mins rfl
  have days : (secs / 60 / 60 / 24).toNat = secs.toNat / 60 / 60 / 24 := div_exact hours rfl
  have z : (secs / 60 / 60 / 24 + 719468).toNat = ordinal (momentOf secs.toNat).date := by
    rw [date, ordinal_dateOf, ordinal_epoch]
    exact add_exact days rfl (by omega)
  have small : ordinal (momentOf secs.toNat).date < 2 ^ 63 := by
    rw [date, ordinal_dateOf, ordinal_epoch]
    omega
  obtain ⟨year, month, day⟩ := date_exact (date ▸ dateOf_later _) small z rfl rfl rfl rfl rfl rfl
  simp only [numbers, fields, epochToParts, year, month, day, hour, minute, second, Prod.mk.injEq, true_and]
  exact ⟨mod_exact hours rfl, mod_exact mins rfl, mod_exact rfl rfl⟩

/-- Nor does anything overflow on the way back. -/
theorem ordinal_exact {y mo d era yoe doy doe : UInt64} {date : Date} {days : ℕ}
    (small : ordinal date < 2 ^ 63) (counted : ordinal date = days + 719468)
    (hY : y.toNat = marchYear date) (hMo : mo.toNat = marchMonth date) (hD : d.toNat = date.day)
    (hEra : era = y / 400) (hYoe : yoe = y - era * 400) (hDoy : doy = (153 * mo + 2) / 5 + d - 1)
    (hDoe : doe = yoe * 365 + yoe / 4 - yoe / 100 + doy) :
    (era * 146097 + doe - 719468).toNat = days := by
  have whole : ordinal date = 146097 * (marchYear date / 400) + eraStart (marchYear date % 400) +
      (monthStart (marchMonth date) + (date.day - 1)) := by
    rw [← yearStart_eq (Nat.mod_lt _ (by decide)), Nat.div_add_mod]
    rfl
  have few : marchMonth date ≤ 11 := by
    have := date.months
    unfold marchMonth
    split_ifs <;> omega
  have first := date.days.1
  have short : date.day ≤ 31 := date.days.2.trans (monthLength_le ..)
  generalize marchYear date = Y, marchMonth date = M, ordinal date = n at *
  have within : Y % 400 < 400 := Nat.mod_lt _ (by decide)
  have era' : era.toNat = Y / 400 := hEra ▸ div_exact hY rfl
  have yoe' : yoe.toNat = Y % 400 := by
    have before : (era * 400).toNat = Y / 400 * 400 := mul_exact era' rfl (by omega)
    rw [hYoe, sub_exact hY before (by omega)]
    omega
  have doy' : doy.toNat = monthStart M + (date.day - 1) := by
    have fifths : (153 * mo + 2).toNat = 153 * M + 2 :=
      add_exact (mul_exact rfl hMo (by omega)) rfl (by omega)
    have start : ((153 * mo + 2) / 5).toNat = monthStart M := div_exact fifths rfl
    have few' : monthStart M ≤ 337 := by
      unfold monthStart
      omega
    have cut : ((153 * mo + 2) / 5 + d - 1).toNat = monthStart M + date.day - 1 :=
      sub_exact (add_exact start hD (by omega)) rfl (by omega)
    rw [hDoy, cut]
    omega
  have doe' : doe.toNat = eraStart (Y % 400) + (monthStart M + (date.day - 1)) := by
    have years : (yoe * 365).toNat = Y % 400 * 365 := mul_exact yoe' rfl (by omega)
    have leaps : (yoe / 4).toNat = Y % 400 / 4 := div_exact yoe' rfl
    have centuries : (yoe / 100).toNat = Y % 400 / 100 := div_exact yoe' rfl
    have start := sub_exact (add_exact years leaps (by omega)) centuries (by omega)
    rw [hDoe, eraStart, Nat.mul_comm 365]
    exact add_exact start doy' (by omega)
  have eras : (era * 146097).toNat = Y / 400 * 146097 := mul_exact era' rfl (by omega)
  have sum : (era * 146097 + doe - 719468).toNat =
      Y / 400 * 146097 + (eraStart (Y % 400) + (monthStart M + (date.day - 1))) - 719468 :=
    sub_exact (add_exact eras doe' (by omega)) rfl (by omega)
  omega

theorem daysSinceEpoch_dateOf {y mo d : UInt64} {days : ℕ} (small : days < 2 ^ 62)
    (hY : y.toNat = (dateOf days).year) (hMo : mo.toNat = (dateOf days).month)
    (hD : d.toNat = (dateOf days).day) : (daysSinceEpoch y mo d).toNat = days := by
  have counted : ordinal (dateOf days) = days + 719468 := by rw [ordinal_dateOf, ordinal_epoch]
  have later := dateOf_later days
  have january := (dateOf days).months.1
  have winter : mo ≤ 2 ↔ (dateOf days).month ≤ 2 := le_exact hMo rfl
  unfold daysSinceEpoch
  by_cases early : (dateOf days).month ≤ 2
  · have year : (y - 1).toNat = marchYear (dateOf days) := by
      rw [marchYear, if_pos early]
      exact sub_exact hY rfl later
    have month : (mo + 9).toNat = marchMonth (dateOf days) := by
      rw [marchMonth, if_pos early]
      exact add_exact hMo rfl (by omega)
    rw [if_pos (winter.mpr early)]
    exact ordinal_exact (by omega) counted year month hD rfl rfl rfl rfl
  · have year : y.toNat = marchYear (dateOf days) := by rw [marchYear, if_neg early, hY]
    have month : (mo - 3).toNat = marchMonth (dateOf days) := by
      rw [marchMonth, if_neg early]
      exact sub_exact hMo rfl (show 3 ≤ _ by omega)
    rw [if_neg (mt winter.mp early)]
    exact ordinal_exact (by omega) counted year month hD rfl rfl rfl rfl

theorem padded_isDigit {width n : ℕ} {c : Char} (member : c ∈ (padded width n).toList) :
    c.isDigit = true := by
  rw [padded, String.toList_ofList] at member
  rcases List.mem_append.mp member with zero | digit
  · rw [(List.mem_replicate.mp zero).2]
    decide
  · exact Json.toDigits_isDigit digit

theorem padded_ne_nil (width n : ℕ) : (padded width n).toList ≠ [] := by
  rw [padded, String.toList_ofList]
  exact List.append_ne_nil_of_right_ne_nil _ Nat.toDigits_ne_nil

theorem padded_plain {width n : ℕ} {mark : Char} (other : mark.isDigit = false) :
    mark ∉ (padded width n).toList := by
  intro member
  rw [padded_isDigit member] at other
  cases other

theorem parseU64_padded (width : ℕ) (value : UInt64) :
    parseU64 (padded width value.toNat) = some value := by
  have some_ : padded width value.toNat ≠ "" := by
    intro empty
    exact padded_ne_nil width value.toNat (by rw [empty]; rfl)
  have digits : (padded width value.toNat).toList.all Char.isDigit = true :=
    List.all_eq_true.mpr fun _ member => padded_isDigit member
  have number : Nat.ofDigitChars 10 (padded width value.toNat).toList 0 = value.toNat := by
    rw [padded, String.toList_ofList, Text.padLeft, Nat.ofDigitChars_append,
      Nat.ofDigitChars_replicate_zero, Nat.mul_zero, Nat.ofDigitChars_ten_toDigits]
  have small : (0 : Int) ≤ value.toNat ∧ (value.toNat : Int) < 2 ^ 64 :=
    ⟨Int.natCast_nonneg _, by exact_mod_cast value.toNat_lt⟩
  rw [parseU64, Text.parseInt?_digits some_ digits, number, Option.bind_some, if_pos small,
    Int.toNat_natCast, UInt64.ofNat_toNat]

/-- The reader takes every mark between two numbers for a colon. -/
def unmarked (c : Char) : Char := if c = 'T' ∨ c = '-' then ':' else c

theorem unmarked_padded (width n : ℕ) :
    (padded width n).toList.map unmarked = (padded width n).toList := by
  refine (List.map_congr_left fun c member => ?_).trans (List.map_id _)
  refine if_neg (not_or.mpr ⟨?_, ?_⟩)
  · rintro rfl
    exact padded_plain (by decide) member
  · rintro rfl
    exact padded_plain (by decide) member

theorem trimEnd_padded (front : String) (width n : ℕ) :
    Text.trimEnd (· == 'Z') (front ++ padded width n ++ "Z") = front ++ padded width n := by
  have zulu : "Z".toList.reverse = ['Z'] := rfl
  have digits (c : Char) (first : c ∈ ((padded width n).toList.reverse ++ front.toList.reverse).head?) :
      (c == 'Z') = false := by
    rw [List.head?_append_of_ne_nil _ (by simpa using padded_ne_nil width n)] at first
    have digit := padded_isDigit (List.mem_reverse.mp (List.mem_of_mem_head? first))
    rw [beq_eq_false_iff_ne]
    rintro rfl
    exact absurd digit (by decide)
  have dropped := @Text.dropWhile_between (· == 'Z') ['Z'] _ (by simp) digits
  apply String.toList_inj.mp
  rw [Text.trimEnd, String.toList_ofList, String.toList_append, String.toList_append,
    List.reverse_append, List.reverse_append, zulu, dropped, List.reverse_append,
    List.reverse_reverse, List.reverse_reverse]

theorem isoToEpoch_text (y mo d h mi sec : UInt64) :
    isoToEpoch (padded 4 y.toNat ++ "-" ++ padded 2 mo.toNat ++ "-" ++ padded 2 d.toNat ++ "T" ++
      padded 2 h.toNat ++ ":" ++ padded 2 mi.toNat ++ ":" ++ padded 2 sec.toNat ++ "Z") =
      daysSinceEpoch y mo d * 86400 + h * 3600 + mi * 60 + sec := by
  have plain (width n : ℕ) : ':' ∉ (padded width n).toList := padded_plain (by decide)
  have dash : "-".toList.map unmarked = [':'] := rfl
  have letter : "T".toList.map unmarked = [':'] := rfl
  have colon : ":".toList.map unmarked = [':'] := rfl
  have parts : (Text.split ':' ((padded 4 y.toNat ++ "-" ++ padded 2 mo.toNat ++ "-" ++
      padded 2 d.toNat ++ "T" ++ padded 2 h.toNat ++ ":" ++ padded 2 mi.toNat ++ ":" ++
      padded 2 sec.toNat).map unmarked)).filterMap parseU64 = [y, mo, d, h, mi, sec] := by
    simp only [Text.split, String.toList_map, String.toList_append, List.map_append, unmarked_padded,
      dash, letter, colon, List.append_assoc, List.singleton_append, Text.splitChars_append,
      Text.splitChars_plain (plain _ _), List.map_cons, List.map_nil, String.ofList_toList,
      List.filterMap_cons, parseU64_padded, List.filterMap_nil]
  unfold isoToEpoch
  rw [trimEnd_padded]
  unfold unmarked at parts
  dsimp only
  rw [parts]

theorem isoToEpoch_fmtIso (secs : UInt64) : isoToEpoch (fmtIso secs) = secs := by
  obtain ⟨date, hour, minute, second⟩ := momentOf_fields secs.toNat
  have bound := secs.toNat_lt
  have parts := numbers_epochToParts secs
  unfold fmtIso
  generalize epochToParts secs = written at parts ⊢
  obtain ⟨y, mo, d, h, mi, sec⟩ := written
  simp only [numbers, fields, date, hour, minute, second, Prod.mk.injEq] at parts
  obtain ⟨hY, hMo, hD, hH, hMi, hSec⟩ := parts
  have days : (daysSinceEpoch y mo d).toNat = secs.toNat / 60 / 60 / 24 :=
    daysSinceEpoch_dateOf (by omega) hY hMo hD
  have ofDays : (daysSinceEpoch y mo d * 86400).toNat = secs.toNat / 60 / 60 / 24 * 86400 :=
    mul_exact days rfl (by omega)
  have ofHours : (h * 3600).toNat = secs.toNat / 60 / 60 % 24 * 3600 := mul_exact hH rfl (by omega)
  have ofMinutes : (mi * 60).toNat = secs.toNat / 60 % 60 * 60 := mul_exact hMi rfl (by omega)
  have sum := add_exact (add_exact (add_exact ofDays ofHours (by omega)) ofMinutes (by omega)) hSec
    (by omega)
  dsimp only
  rw [isoToEpoch_text]
  apply UInt64.toNat.inj
  rw [sum]
  omega

/-- Times in their order: by year, month and day, and then by hour, minute and second. -/
def inOrder (parts : ℕ × ℕ × ℕ × ℕ × ℕ × ℕ) : (ℕ ×ₗ ℕ ×ₗ ℕ) ×ₗ ℕ ×ₗ ℕ ×ₗ ℕ :=
  toLex (toLex (parts.1, toLex (parts.2.1, parts.2.2.1)),
    toLex (parts.2.2.2.1, toLex (parts.2.2.2.2.1, parts.2.2.2.2.2)))

/-- Every time is formatted as its moment of the calendar, reads back, and keeps its place. -/
theorem timestamps_faithful :
    (∀ secs, numbers (epochToParts secs) = fields (momentOf secs.toNat)) ∧
      (∀ secs, isoToEpoch (fmtIso secs) = secs) ∧
      ∀ earlier later, inOrder (numbers (epochToParts earlier)) <
        inOrder (numbers (epochToParts later)) ↔ earlier < later := by
  refine ⟨numbers_epochToParts, isoToEpoch_fmtIso, fun earlier later => ?_⟩
  rw [numbers_epochToParts, numbers_epochToParts, UInt64.lt_iff_toNat_lt]
  exact momentOf_strictMono.lt_iff_lt

end Nps.CaServer
