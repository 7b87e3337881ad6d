import RendezMix.Library.Calendar
import RendezMix.Source.TimeFmt

/-!
# Calendar arithmetic

`tor_timegm_impl` computes the seconds of a date with the leap years of the Gregorian
calendar, but admits the 29th of February by the remainders of `tm_year`, which counts
from 1900. The two differ by 300 modulo 400: the 29th of February of 2000 and every 400
years from there is refused, and one in 2300 and every 400 years from there is taken
for a date.
-/
namespace RendezMix.Guarantees.CalendarTimes
open Library.Calendar Library.Decimals Source TimeFmt Scanf

/-- The broken-down time of a moment. -/
def tmOf (m : Moment) : Tm where
  tmSec := m.second
  tmMin := m.minute
  tmHour := m.hour
  tmMday := m.date.day
  tmMon := m.date.month - 1
  tmYear := m.date.year - 1900

/-- A number below 100 in two digits. -/
def twoDigits (n : Nat) : CString := [digitByte (n / 10), digitByte (n % 10)]

/-- The ISO text `YYYY-MM-DD HH:MM:SS` of a moment. -/
def isoText (m : Moment) : CString :=
  decimal m.date.year ++ 45 :: (twoDigits m.date.month ++ 45 :: (twoDigits m.date.day ++
    32 :: (twoDigits m.hour ++ 58 :: (twoDigits m.minute ++ 58 :: twoDigits m.second))))

/-- The 29th of February of a year divisible by 400. -/
def QuadricentennialLeapDay (d : Date) : Prop := d.month = 2 ∧ d.day = 29 ∧ d.year % 400 = 0

instance (d : Date) : Decidable (QuadricentennialLeapDay d) :=
  inferInstanceAs (Decidable (_ ∧ _ ∧ _))

/-- The 29th of February of a year that leaves 300 modulo 400, at a time of day that
exists and in a year the code admits. -/
def InventedLeapDay (tm : Tm) : Prop :=
  tm.tmMon = 1 ∧ tm.tmMday = 29 ∧ (tm.tmYear + 1900) % 400 = 300 ∧
    (1970 ≤ tm.tmYear + 1900 ∧ tm.tmYear + 1900 < int32MaxYear) ∧
    (0 ≤ tm.tmHour ∧ tm.tmHour ≤ 23) ∧ (0 ≤ tm.tmMin ∧ tm.tmMin ≤ 59) ∧
    0 ≤ tm.tmSec ∧ tm.tmSec ≤ 59

/-! ## Years -/

variable (tm : Tm) (n : Nat) (m : Moment) (year : Nat)

theorem yearOf_of_lt (below : tm.tmYear + 1900 < int32MaxYear) : yearOf tm = tm.tmYear + 1900 := by
  rw [yearOf, if_pos (by omega)]

theorem invalidYear_iff :
    invalidYear tm = false ↔ 1970 ≤ tm.tmYear + 1900 ∧ tm.tmYear + 1900 < int32MaxYear := by
  simp only [invalidYear, Bool.or_eq_false_iff, decide_eq_false_iff_not]
  by_cases below : tm.tmYear + 1900 < int32MaxYear
  · rw [yearOf_of_lt tm below]
    omega
  · omega

/-! ## Leap years -/

theorem isLeapyear_iff (y : Int) (nonneg : 0 ≤ y) :
    isLeapyear y = true ↔ y % 4 = 0 ∧ (y % 100 ≠ 0 ∨ y % 400 = 0) := by
  simp only [isLeapyear, Int.tmod_eq_emod_of_nonneg nonneg, Bool.and_eq_true, Bool.or_eq_true,
    beq_iff_eq, bne_iff_ne]

theorem isLeapyear_year : isLeapyear year = true ↔ IsLeap year := by
  rw [isLeapyear_iff _ (Int.natCast_nonneg year), IsLeap]
  omega

theorem nLeapdays_years :
    365 * (n : Int) + nLeapdays 1970 (1970 + n) =
      blockStart (fun i => yearLength (1970 + i)) n := by
  induction n with
  | zero => rfl
  | succ n ih =>
    rw [blockStart_succ, Nat.cast_add _ (yearLength _), ← ih]
    unfold nLeapdays yearLength
    dsimp only
    rw [Int.tdiv_eq_ediv_of_nonneg (by omega : (0 : Int) ≤ 1970 + ((n + 1 : Nat) : Int) - 1),
      Int.tdiv_eq_ediv_of_nonneg (by omega : (0 : Int) ≤ 1970 + ((n + 1 : Nat) : Int) - 1),
      Int.tdiv_eq_ediv_of_nonneg (by omega : (0 : Int) ≤ 1970 + ((n + 1 : Nat) : Int) - 1),
      Int.tdiv_eq_ediv_of_nonneg (by omega : (0 : Int) ≤ 1970 + (n : Int) - 1),
      Int.tdiv_eq_ediv_of_nonneg (by omega : (0 : Int) ≤ 1970 + (n : Int) - 1),
      Int.tdiv_eq_ediv_of_nonneg (by omega : (0 : Int) ≤ 1970 + (n : Int) - 1)]
    by_cases leap : IsLeap (1970 + n)
    · rw [if_pos leap]
      unfold IsLeap at leap
      omega
    · rw [if_neg leap]
      unfold IsLeap at leap
      omega

/-! ## Months -/

theorem daysPerMonth_months (k : Nat) (start : Int) (bound : k < 12) :
    (if 1 < (k : Int) ∧ isLeapyear year = true then
        (daysPerMonth.take k).foldl (· + ·) start + 1
      else (daysPerMonth.take k).foldl (· + ·) start) =
      start + blockStart (fun i => monthLength year (i + 1)) k := by
  simp only [isLeapyear_year]
  by_cases leap : IsLeap year
  · interval_cases k <;>
      simp [leap, daysPerMonth, blockStart, Finset.sum_range_succ, monthLength] <;> omega
  · interval_cases k <;>
      simp [leap, daysPerMonth, blockStart, Finset.sum_range_succ, monthLength] <;> omega

theorem daysPerMonth_getD (k : Nat) (bound : k < 12) (other : k ≠ 1) :
    daysPerMonth.getD k 0 = monthLength year (k + 1) := by
  interval_cases k <;> first | rfl | exact absurd rfl other

/-- The length of a month by which a day is admitted. -/
theorem daysInMonth_eq (month : Nat) (isYear : tm.tmYear = year - 1900)
    (isMonth : tm.tmMon = month - 1) (months : 1 ≤ month ∧ month ≤ 12)
    (years : 1970 ≤ year ∧ (year : Int) < int32MaxYear) :
    daysInMonth tm =
      if month = 2 then
        if year % 4 = 0 ∧ (year % 100 ≠ 0 ∨ year % 400 = 300) then 29 else 28
      else monthLength year month := by
  have valid := (invalidYear_iff tm).mpr (by omega)
  have leap : isLeapyear tm.tmYear = true ↔
      year % 4 = 0 ∧ (year % 100 ≠ 0 ∨ year % 400 = 300) := by
    rw [isLeapyear_iff _ (by omega), isYear]
    omega
  unfold daysInMonth
  rw [if_pos (by omega)]
  by_cases february : month = 2
  · subst february
    simp only [isMonth, valid, leap, true_and, if_true]
    split
    · next is29 =>
      rw [if_pos is29.2]
      rfl
    · next is28 =>
      rw [if_neg fun is29 => is28 ⟨by omega, is29⟩]
      rfl
  · rw [if_neg (by omega), if_neg february, isMonth,
      show ((month : Int) - 1).toNat = month - 1 by omega,
      daysPerMonth_getD year (month - 1) (by omega) (by omega),
      show month - 1 + 1 = month by omega]

/-! ## Seconds -/

section

variable (years : 1970 ≤ m.date.year ∧ (m.date.year : Int) < int32MaxYear)

include years

theorem torTimegm_tmOf :
    torTimegm (tmOf m) =
      if daysInMonth (tmOf m) < m.date.day then none else some (m.seconds 1970 : Int) := by
  have month := m.date.month_range
  have day := m.date.day_range
  have hour := m.hour_lt
  have minute := m.minute_lt
  have second := m.second_lt
  have tmYear : (tmOf m).tmYear = m.date.year - 1900 := rfl
  have isYear : yearOf (tmOf m) = m.date.year := by
    rw [yearOf_of_lt (tmOf m) (by omega)]
    omega
  have valid := (invalidYear_iff (tmOf m)).mpr (by omega)
  have days := nLeapdays_years (m.date.year - 1970)
  rw [show (1970 : Int) + ((m.date.year - 1970 : Nat) : Int) = m.date.year by omega,
    show ((m.date.year - 1970 : Nat) : Int) = m.date.year - 1970 by omega] at days
  have months := daysPerMonth_months m.date.year (m.date.month - 1)
    (365 * ((m.date.year : Int) - 1970) + nLeapdays 1970 m.date.year) (by omega)
  rw [show ((m.date.month - 1 : Nat) : Int) = m.date.month - 1 by omega] at months
  unfold torTimegm torTimegmImpl
  simp only [isYear, valid]
  by_cases refused : daysInMonth (tmOf m) < m.date.day
  · rw [if_pos refused, if_pos]
    exact Or.inr (Or.inr (Or.inr (Or.inr (Or.inl refused))))
  · rw [if_neg refused, if_neg (by simp only [tmOf] at refused ⊢; simp; omega)]
    simp only [tmOf, show ((m.date.month : Int) - 1).toNat = m.date.month - 1 by omega]
    rw [months, days]
    simp only [Moment.seconds, Date.dayNumber, Date.dayOfYear]
    congr 1
    push_cast
    omega

theorem daysInMonth_tmOf : daysInMonth (tmOf m) < m.date.day ↔ QuadricentennialLeapDay m.date := by
  have day := m.date.day_range
  rw [daysInMonth_eq (tmOf m) m.date.year m.date.month rfl rfl m.date.month_range years]
  unfold QuadricentennialLeapDay
  by_cases february : m.date.month = 2
  · rw [february] at day
    unfold monthLength at day
    rw [if_pos rfl] at day
    simp only [february, if_true, true_and]
    by_cases leap : IsLeap m.date.year
    · rw [if_pos leap] at day
      unfold IsLeap at leap
      split <;> omega
    · rw [if_neg leap] at day
      unfold IsLeap at leap
      split <;> omega
  · rw [if_neg february]
    omega

theorem torTimegm_tmOf_iff :
    torTimegm (tmOf m) = some (m.seconds 1970 : Int) ↔ ¬ QuadricentennialLeapDay m.date := by
  rw [torTimegm_tmOf m years, ← daysInMonth_tmOf m years]
  split
  · next refused => simp [refused]
  · next admitted => simp [admitted]

end

/-! ## Broken-down times that are accepted -/

section

variable (v : Int) (accepted : torTimegm tm = some v)

include accepted

theorem torTimegm_accepts :
    (1970 ≤ tm.tmYear + 1900 ∧ tm.tmYear + 1900 < int32MaxYear) ∧
      (0 ≤ tm.tmMon ∧ tm.tmMon ≤ 11) ∧ (1 ≤ tm.tmMday ∧ tm.tmMday ≤ daysInMonth tm) ∧
      (0 ≤ tm.tmHour ∧ tm.tmHour ≤ 23) ∧ (0 ≤ tm.tmMin ∧ tm.tmMin ≤ 59) ∧
      0 ≤ tm.tmSec ∧ tm.tmSec ≤ 60 := by
  unfold torTimegm torTimegmImpl at accepted
  split at accepted
  · exact absurd accepted (by simp)
  · next inRange =>
    simp only [not_or, not_lt, Bool.not_eq_true, invalidYear_iff] at inRange
    omega

/-- Another accepted time is the broken-down time of its value. -/
theorem torTimegm_exists (noLeapSecond : tm.tmSec ≤ 59) (real : ¬ InventedLeapDay tm) :
    ∃ t : Nat, v = t ∧ tmOf (momentOf 1970 t) = tm := by
  have ⟨years, months, days, hours, minutes, seconds⟩ := torTimegm_accepts tm v accepted
  obtain ⟨year, isYear⟩ := Int.eq_ofNat_of_zero_le (show 0 ≤ tm.tmYear + 1900 by omega)
  obtain ⟨month, isMonth⟩ := Int.eq_ofNat_of_zero_le (show 0 ≤ tm.tmMon + 1 by omega)
  obtain ⟨day, isDay⟩ := Int.eq_ofNat_of_zero_le (show 0 ≤ tm.tmMday by omega)
  obtain ⟨hour, isHour⟩ := Int.eq_ofNat_of_zero_le (show 0 ≤ tm.tmHour by omega)
  obtain ⟨minute, isMinute⟩ := Int.eq_ofNat_of_zero_le (show 0 ≤ tm.tmMin by omega)
  obtain ⟨second, isSecond⟩ := Int.eq_ofNat_of_zero_le (show 0 ≤ tm.tmSec by omega)
  have dayExists : day ≤ monthLength year month := by
    have admitted := days.2
    rw [daysInMonth_eq tm year month (by omega) (by omega) (by omega) (by omega)] at admitted
    by_cases february : month = 2
    · unfold InventedLeapDay at real
      unfold monthLength
      rw [if_pos february] at admitted ⊢
      by_cases leap : IsLeap year
      · rw [if_pos leap]
        split at admitted <;> omega
      · rw [if_neg leap]
        unfold IsLeap at leap
        split at admitted <;> omega
    · rw [if_neg february] at admitted
      omega
  let m : Moment := ⟨⟨year, month, day, by omega, by omega, dayExists⟩, hour, minute, second,
    by omega, by omega, by omega⟩
  have isTm : tmOf m = tm := by
    cases tm
    simp only [tmOf, m, Tm.mk.injEq]
    simp only at isYear isMonth isDay isHour isMinute isSecond
    omega
  have value := torTimegm_tmOf m (by simp only [m]; omega)
  rw [isTm, accepted] at value
  refine ⟨m.seconds 1970, ?_, ?_⟩
  · split at value
    · exact absurd value (by simp)
    · exact Option.some.inj value
  · rw [momentOf_seconds 1970 m (by simp only [m]; omega), isTm]

end

theorem torTimegm_invented (invented : InventedLeapDay tm) :
    (∃ v, torTimegm tm = some v) ∧ ∀ t : Nat, tmOf (momentOf 1970 t) ≠ tm := by
  obtain ⟨february, day29, leaves300, years, hours, minutes, seconds⟩ := invented
  obtain ⟨year, isYear⟩ := Int.eq_ofNat_of_zero_le (show 0 ≤ tm.tmYear + 1900 by omega)
  constructor
  · have admitted : daysInMonth tm = 29 := by
      rw [daysInMonth_eq tm year 2 (by omega) (by omega) (by omega) (by omega), if_pos rfl,
        if_pos (by omega)]
      rfl
    have valid := (invalidYear_iff tm).mpr years
    unfold torTimegm torTimegmImpl
    rw [if_neg (by rw [valid]; simp only [Bool.false_eq_true, false_or]; omega)]
    exact ⟨_, rfl⟩
  · rintro t rfl
    have day := (momentOf 1970 t).date.day_range
    simp only [tmOf] at february day29 leaves300
    rw [show (momentOf 1970 t).date.month = 2 by omega] at day
    have noLeap : ¬ IsLeap (momentOf 1970 t).date.year := by
      unfold IsLeap
      omega
    unfold monthLength at day
    rw [if_pos rfl, if_neg noLeap] at day
    omega

/-! ## ISO text -/

section

variable (bound : n < 100)

include bound

theorem twoDigits_isDigit : ∀ c ∈ twoDigits n, isDigit c = true := by
  intro c mem
  simp only [twoDigits, List.mem_cons, List.not_mem_nil, or_false] at mem
  cases mem with
  | inl first => rw [first, isDigit_digitByte _ (by omega)]
  | inr second => rw [second, isDigit_digitByte _ (by omega)]

theorem digitsFrom_twoDigits : digitsFrom 0 (twoDigits n) = n := by
  simp only [digitsFrom, twoDigits, List.foldl_cons, List.foldl_nil,
    digitValue_digitByte _ (show n / 10 < 10 by omega),
    digitValue_digitByte _ (show n % 10 < 10 by omega)]
  omega

theorem torSscanf_twoDigits (rest : CString) (pattern : List Directive) :
    torSscanf (twoDigits n ++ rest) (.unsigned (some 2) :: pattern) =
      .unsigned n :: torSscanf rest pattern := by
  have value := digitsFrom_twoDigits n bound
  have small : n ≤ uintMax := Nat.le_trans (Nat.le_of_lt bound) (by decide)
  have read := torSscanf_unsigned (some 2) (twoDigits n) rest pattern (by simp [twoDigits])
    (twoDigits_isDigit n bound) (Nat.le_refl 2) (by rw [value]; exact small) (Or.inl rfl)
  rw [read, value]

end

theorem torSscanf_isoText (years : (m.date.year : Int) < int32MaxYear) :
    torSscanf (isoText m) isoPattern =
      [.unsigned m.date.year, .unsigned m.date.month, .unsigned m.date.day, .char 32,
        .unsigned m.hour, .unsigned m.minute, .unsigned m.second] := by
  have month := m.date.month_range
  have day := m.date.day_range
  have hour := m.hour_lt
  have minute := m.minute_lt
  have second := m.second_lt
  have short : m.date.day < 100 := by
    unfold monthLength at day
    split_ifs at day <;> omega
  have length : (decimal m.date.year).length ≤ 10 :=
    decimal_length_le m.date.year 10 (by omega) (by unfold int32MaxYear at years; omega)
  have value := digitsFrom_decimal m.date.year
  have small : digitsFrom 0 (decimal m.date.year) ≤ uintMax := by
    rw [value]
    unfold int32MaxYear at years
    unfold uintMax
    omega
  have literal : ∀ (c : UInt8) (rest : CString) (pattern : List Directive),
      torSscanf (c :: rest) (.literal c :: pattern) = torSscanf rest pattern := by
    intro c rest pattern
    simp [torSscanf]
  have final := torSscanf_twoDigits m.second (by omega) [] [.char]
  rw [List.append_nil] at final
  unfold isoText isoPattern
  rw [torSscanf_unsigned none _ _ _ (decimal_ne_nil _) (decimal_isDigit _)
    (Nat.le_trans length (by decide)) small (Or.inr fun c first => by
      rw [← Option.some.inj first]
      rfl), value, literal, torSscanf_twoDigits m.date.month (by omega), literal,
    torSscanf_twoDigits m.date.day short]
  rw [show ∀ (rest : CString) (pattern : List Directive),
    torSscanf (32 :: rest) (.char :: pattern) = .char 32 :: torSscanf rest pattern from
      fun _ _ => rfl, torSscanf_twoDigits m.hour (by omega), literal,
    torSscanf_twoDigits m.minute (by omega), literal, final]
  rfl

theorem parseIsoTime_isoText (years : 1970 ≤ m.date.year ∧ (m.date.year : Int) < int32MaxYear) :
    parseIsoTime (isoText m) = torTimegm (tmOf m) := by
  have month := m.date.month_range
  have day := m.date.day_range
  have hour := m.hour_lt
  have minute := m.minute_lt
  have second := m.second_lt
  have short : m.date.day ≤ 31 := by
    unfold monthLength at day
    split_ifs at day <;> omega
  unfold parseIsoTime parseIsoTime_
  rw [torSscanf_isoText m years.2]
  dsimp only
  rw [if_neg (by simp), if_neg (by simp), if_neg (by omega), if_neg (by omega)]
  rfl

/-! ## Exactness -/

/-- Midnight of the 29th of February of 2000. -/
def leapDay2000 : Moment :=
  ⟨⟨2000, 2, 29, by omega, by decide⟩, 0, 0, 0, by omega, by omega, by omega⟩

end RendezMix.Guarantees.CalendarTimes
