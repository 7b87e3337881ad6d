import Mathlib.Algebra.Order.BigOperators.Group.Finset

/-!
# The Gregorian calendar

Dates that exist, the date after a date, and moments counted in seconds from the
first of January of some year. The `n`th date is reached by going to the next date
`n` times; the day number of a date adds up years, months and days, and the two are
inverse to one another.
-/
namespace RendezMix.Library.Calendar
open Finset

/-! ## Blocks laid end to end -/

/-- The start of block `n`, where block `i` has length `size i`. -/
def blockStart (size : Nat → Nat) (n : Nat) : Nat := ∑ i ∈ range n, size i

variable (first : Nat) (size : Nat → Nat) (d : Date)

theorem blockStart_succ (n : Nat) : blockStart size (n + 1) = blockStart size n + size n :=
  sum_range_succ size n

theorem blockStart_zero : blockStart size 0 = 0 := sum_range_zero size

theorem blockStart_mono {m n : Nat} (le : m ≤ n) : blockStart size m ≤ blockStart size n := by
  induction n, le using Nat.le_induction with
  | base => exact Nat.le_refl _
  | succ n _ ih =>
    rw [blockStart_succ]
    omega

section

variable (year t : Nat)

/-- A position lies in one block only. -/
theorem blockStart_inj {m n r s : Nat} (inM : r < size m) (inN : s < size n)
    (same : blockStart size m + r = blockStart size n + s) : m = n ∧ r = s := by
  have order : ∀ {a b x y : Nat}, x < size a → blockStart size a + x = blockStart size b + y →
      ¬ a < b := by
    intro a b x y inA eq lt
    have next := blockStart_mono size lt
    rw [blockStart_succ] at next
    omega
  have equal : m = n := by
    have notLess := order inM same
    have notMore := order inN same.symm
    omega
  subst equal
  exact ⟨rfl, by omega⟩

/-! ## Dates -/

def IsLeap (year : Nat) : Prop := year % 4 = 0 ∧ (year % 100 ≠ 0 ∨ year % 400 = 0)

instance (year : Nat) : Decidable (IsLeap year) :=
  inferInstanceAs (Decidable (year % 4 = 0 ∧ (year % 100 ≠ 0 ∨ year % 400 = 0)))

/-- The number of days of a month, January being month 1. -/
def monthLength (year month : Nat) : Nat :=
  if month = 2 then if IsLeap year then 29 else 28
  else if month = 4 ∨ month = 6 ∨ month = 9 ∨ month = 11 then 30
  else 31

theorem monthLength_pos (month : Nat) : 0 < monthLength year month := by
  unfold monthLength
  split_ifs <;> omega

def yearLength (year : Nat) : Nat := if IsLeap year then 366 else 365

/-- A date that exists. -/
@[ext]
structure Date where
  year : Nat
  month : Nat
  day : Nat
  month_range : 1 ≤ month ∧ month ≤ 12
  day_range : 1 ≤ day ∧ day ≤ monthLength year month
  deriving DecidableEq

def newYear (year : Nat) : Date := ⟨year, 1, 1, by omega, by omega, monthLength_pos year 1⟩

/-- The date after a date. -/
def Date.next (d : Date) : Date :=
  if more : d.day < monthLength d.year d.month then
    ⟨d.year, d.month, d.day + 1, d.month_range, by omega, more⟩
  else if later : d.month < 12 then
    ⟨d.year, d.month + 1, 1, ⟨by omega, later⟩, by omega, monthLength_pos _ _⟩
  else newYear (d.year + 1)

/-- The date `n` days after the first of January of `first`. -/
def dateOfDay (first n : Nat) : Date := Date.next^[n] (newYear first)

/-! ## Day numbers -/

/-- The day within its year, from zero. -/
def Date.dayOfYear (d : Date) : Nat :=
  blockStart (fun i => monthLength d.year (i + 1)) (d.month - 1) + (d.day - 1)

/-- The days from the first of January of `first` to a date. -/
def Date.dayNumber (first : Nat) (d : Date) : Nat :=
  blockStart (fun i => yearLength (first + i)) (d.year - first) + d.dayOfYear

/-- The months of a year add up to the year. -/
theorem blockStart_twelve :
    blockStart (fun i => monthLength year (i + 1)) 12 = yearLength year := by
  simp only [blockStart, sum_range_succ, sum_range_zero, monthLength, yearLength]
  by_cases leap : IsLeap year
  · simp [leap]
  · simp [leap]

theorem Date.dayOfYear_lt : d.dayOfYear < yearLength d.year := by
  have month := d.month_range
  have day := d.day_range
  have inMonth := blockStart_succ (fun i => monthLength d.year (i + 1)) (d.month - 1)
  have inYear := blockStart_mono (fun i => monthLength d.year (i + 1))
    (show d.month - 1 + 1 ≤ 12 by omega)
  rw [blockStart_twelve] at inYear
  simp only [show d.month - 1 + 1 = d.month by omega] at inMonth inYear
  unfold Date.dayOfYear
  omega

theorem dayNumber_newYear : (newYear first).dayNumber first = 0 := by
  simp [Date.dayNumber, Date.dayOfYear, newYear, blockStart]

/-- The next date is a day later. -/
theorem Date.next_dayNumber (since : first ≤ d.year) :
    first ≤ d.next.year ∧ d.next.dayNumber first = d.dayNumber first + 1 := by
  have month := d.month_range
  have day := d.day_range
  have inMonth := blockStart_succ (fun i => monthLength d.year (i + 1)) (d.month - 1)
  simp only [show d.month - 1 + 1 = d.month by omega] at inMonth
  unfold Date.next
  split
  · refine ⟨since, ?_⟩
    simp only [Date.dayNumber, Date.dayOfYear]
    omega
  split
  · refine ⟨since, ?_⟩
    simp only [Date.dayNumber, Date.dayOfYear, Nat.add_sub_cancel]
    omega
  · next noMore noLater =>
    have december : d.month = 12 := by omega
    rw [december] at noMore day
    have inYear := blockStart_succ (fun i => yearLength (first + i)) (d.year - first)
    rw [show first + (d.year - first) = d.year by omega] at inYear
    rw [december, blockStart_twelve] at inMonth
    refine ⟨Nat.le_succ_of_le since, ?_⟩
    simp only [Date.dayNumber, Date.dayOfYear, newYear, december,
      show d.year + 1 - first = d.year - first + 1 by omega, inYear, Nat.sub_self, blockStart_zero]
    omega

/-- A date is known from its day number. -/
theorem Date.dayNumber_inj (e : Date) (since : first ≤ d.year) (since' : first ≤ e.year)
    (same : d.dayNumber first = e.dayNumber first) : d = e := by
  have years := blockStart_inj (fun i => yearLength (first + i))
    (show d.dayOfYear < yearLength (first + (d.year - first)) by
      rw [show first + (d.year - first) = d.year by omega]
      exact d.dayOfYear_lt)
    (show e.dayOfYear < yearLength (first + (e.year - first)) by
      rw [show first + (e.year - first) = e.year by omega]
      exact e.dayOfYear_lt) same
  have year : d.year = e.year := by omega
  have dMonth := d.month_range
  have dDay := d.day_range
  have eMonth := e.month_range
  have eDay := e.day_range
  have days := years.2
  unfold Date.dayOfYear at days
  rw [year] at days dDay
  have months := blockStart_inj (fun i => monthLength e.year (i + 1))
    (show d.day - 1 < monthLength e.year (d.month - 1 + 1) by
      rw [show d.month - 1 + 1 = d.month by omega]
      omega)
    (show e.day - 1 < monthLength e.year (e.month - 1 + 1) by
      rw [show e.month - 1 + 1 = e.month by omega]
      omega) days
  exact Date.ext year (by omega) (by omega)

theorem dateOfDay_year_dayNumber (n : Nat) :
    first ≤ (dateOfDay first n).year ∧ (dateOfDay first n).dayNumber first = n := by
  induction n with
  | zero => exact ⟨Nat.le_refl first, dayNumber_newYear first⟩
  | succ n ih =>
    have step := Date.next_dayNumber first (dateOfDay first n) ih.1
    rw [ih.2] at step
    unfold dateOfDay at step ⊢
    rw [Function.iterate_succ_apply']
    exact step

theorem dateOfDay_dayNumber (since : first ≤ d.year) : dateOfDay first (d.dayNumber first) = d := by
  have reached := dateOfDay_year_dayNumber first (d.dayNumber first)
  exact Date.dayNumber_inj first _ d reached.1 since reached.2

/-! ## Moments -/

/-- A date and a time of day. -/
@[ext]
structure Moment where
  date : Date
  hour : Nat
  minute : Nat
  second : Nat
  hour_lt : hour < 24
  minute_lt : minute < 60
  second_lt : second < 60
  deriving DecidableEq

/-- The moment `t` seconds after the start of the year `first`. -/
def momentOf (first t : Nat) : Moment where
  date := dateOfDay first (t / 86400)
  hour := t % 86400 / 3600
  minute := t % 3600 / 60
  second := t % 60
  hour_lt := by omega
  minute_lt := by omega
  second_lt := by omega

def Moment.seconds (first : Nat) (m : Moment) : Nat :=
  86400 * m.date.dayNumber first + 3600 * m.hour + 60 * m.minute + m.second

theorem seconds_momentOf : (momentOf first t).seconds first = t := by
  simp only [Moment.seconds, momentOf, (dateOfDay_year_dayNumber first _).2]
  omega

theorem momentOf_seconds (m : Moment) (since : first ≤ m.date.year) :
    momentOf first (m.seconds first) = m := by
  have hour := m.hour_lt
  have minute := m.minute_lt
  have second := m.second_lt
  have day : m.seconds first / 86400 = m.date.dayNumber first := by
    unfold Moment.seconds
    omega
  apply Moment.ext
  · simp only [momentOf, day, dateOfDay_dayNumber first m.date since]
  · simp only [momentOf, Moment.seconds]
    omega
  · simp only [momentOf, Moment.seconds]
    omega
  · simp only [momentOf, Moment.seconds]
    omega

theorem momentOf_year : first ≤ (momentOf first t).date.year :=
  (dateOfDay_year_dayNumber first (t / 86400)).1

end

end RendezMix.Library.Calendar
