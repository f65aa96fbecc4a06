import DataPipeline.Library.Calendar
import Mathlib.Order.Monotone.Basic

/-! Moments as numbers of microseconds, which pass at one rate everywhere.

A moment with an offset from UTC denotes an instant. The count of days follows
the order of the calendar, so instants without an offset order as their fields do.
-/

set_option autoImplicit false

namespace Calendar

/-! ## Day numbers in order -/

theorem daysBeforeMonth_succ (year month : Nat) :
    daysBeforeMonth year (month + 1) = daysBeforeMonth year month + daysInMonth year month := by
  rw [daysBeforeMonth, List.range_succ, List.map_append, List.sum_append]
  simp [daysBeforeMonth]

theorem daysBeforeMonth_mono (year : Nat) : Monotone (daysBeforeMonth year) :=
  monotone_nat_of_le_succ fun month => by rw [daysBeforeMonth_succ]; exact Nat.le_add_right _ _

theorem daysBeforeMonth_thirteen (year : Nat) : daysBeforeMonth year 13 = if isLeap year then 366 else 365 := by
  cases leap : isLeap year <;> simp [daysBeforeMonth, daysInMonth, List.range_succ, leap]

theorem daysBeforeYear_succ {year : Nat} (positive : 1 ≤ year) :
    daysBeforeYear (year + 1) = daysBeforeYear year + if isLeap year then 366 else 365 := by
  obtain ⟨before, rfl⟩ : ∃ before, year = before + 1 := ⟨year - 1, by omega⟩
  have leap : isLeap (before + 1) = true ↔ 4 ∣ before + 1 ∧ (¬ 100 ∣ before + 1 ∨ 400 ∣ before + 1) := by
    simp [isLeap, Nat.dvd_iff_mod_eq_zero]
  have few : before / 100 ≤ before := Nat.div_le_self _ _
  have hundred : 400 ∣ before + 1 → 100 ∣ before + 1 := Dvd.dvd.trans (by decide)
  have four : 100 ∣ before + 1 → 4 ∣ before + 1 := Dvd.dvd.trans (by decide)
  simp only [daysBeforeYear, Nat.add_sub_cancel, Nat.succ_div, leap]
  generalize before / 4 = quads
  generalize before / 100 = centuries at few ⊢
  generalize before / 400 = cycles
  by_cases quad : 4 ∣ before + 1
  · by_cases century : 100 ∣ before + 1
    · by_cases cycle : 400 ∣ before + 1
      · simp only [quad, century, cycle, and_true, or_true, ↓reduceIte]
        omega
      · simp only [quad, century, cycle, not_true, or_self, and_false, ↓reduceIte]
        omega
    · have cycle : ¬ 400 ∣ before + 1 := fun cycle => century (hundred cycle)
      simp only [quad, century, cycle, not_false_eq_true, or_false, and_self, ↓reduceIte]
      omega
  · have century : ¬ 100 ∣ before + 1 := fun century => quad (four century)
    have cycle : ¬ 400 ∣ before + 1 := fun cycle => century (hundred cycle)
    simp only [quad, century, cycle, false_and, ↓reduceIte]
    omega

theorem daysBeforeYear_le {first second : Nat} (positive : 1 ≤ first) (order : first ≤ second) :
    daysBeforeYear first ≤ daysBeforeYear second := by
  induction order with
  | refl => exact le_rfl
  | step order ih =>
    rw [Nat.succ_eq_add_one, daysBeforeYear_succ (positive.trans order)]
    exact ih.trans (Nat.le_add_right _ _)

namespace Date

def ordinal (date : Date) : Nat := ymdToOrd date.year date.month date.day

theorem day_in_year (date : Date) :
    daysBeforeMonth date.year date.month + date.day ≤ if isLeap date.year then 366 else 365 := by
  obtain ⟨-, ⟨-, month⟩, -, day⟩ := date.valid
  have ends := daysBeforeMonth_mono date.year (show date.month + 1 ≤ 13 by omega)
  rw [daysBeforeMonth_succ, daysBeforeMonth_thirteen] at ends
  omega

theorem ordinal_lt {first second : Date} (order : first < second) : first.ordinal < second.ordinal := by
  have order : first.rank < second.rank := order
  obtain ⟨⟨firstYear, -⟩, ⟨-, firstMonth⟩, -, firstDay⟩ := first.valid
  obtain ⟨-, ⟨-, secondMonth⟩, secondDay, -⟩ := second.valid
  have firstFits := first.day_le
  have secondFits := second.day_le
  unfold rank at order
  unfold ordinal ymdToOrd
  -- The dates differ in the year, or else in the month, or else in the day.
  rcases Nat.lt_or_ge first.year second.year with years | years
  · have ends := daysBeforeYear_le (by omega) (show first.year + 1 ≤ second.year by omega)
    have inYear := first.day_in_year
    rw [daysBeforeYear_succ firstYear] at ends
    omega
  · have sameYear : first.year = second.year := by omega
    rw [sameYear] at order firstDay ⊢
    rcases Nat.lt_or_ge first.month second.month with months | months
    · have ends := daysBeforeMonth_mono second.year (show first.month + 1 ≤ second.month by omega)
      rw [daysBeforeMonth_succ] at ends
      omega
    · have sameMonth : first.month = second.month := by omega
      rw [sameMonth]
      omega

end Date

/-! ## Instants -/

/-- The microseconds of a moment of UTC. -/
def DateTime.microseconds (time : DateTime) : Int :=
  (((time.date.ordinal * 24 + time.hour) * 60 + time.minute) * 60 + time.second) * 1000000 + time.microsecond

theorem DateTime.microseconds_lt_of_lt {first second : DateTime} (order : first < second) :
    first.microseconds < second.microseconds := by
  have order : first.rank < second.rank := order
  obtain ⟨firstHour, firstMinute, firstSecond, firstMicro⟩ := first.valid
  obtain ⟨secondHour, secondMinute, secondSecond, secondMicro⟩ := second.valid
  unfold microseconds
  rcases lt_trichotomy first.date second.date with dates | dates | dates
  · have days := Date.ordinal_lt dates
    omega
  · unfold rank at order
    rw [dates] at order ⊢
    omega
  · have dates : second.date.rank < first.date.rank := dates
    unfold rank at order
    omega

theorem DateTime.microseconds_lt {first second : DateTime} :
    first.microseconds < second.microseconds ↔ first < second :=
  StrictMono.lt_iff_lt fun _ _ order => microseconds_lt_of_lt order

theorem DateTime.microseconds_injective : Function.Injective DateTime.microseconds :=
  StrictMono.injective fun _ _ order => microseconds_lt_of_lt order

/-- The instant that a moment with an offset denotes; without one it is taken for UTC. -/
def Stamp.instant (stamp : Stamp) : Int := stamp.moment.microseconds - stamp.offset.getD 0

/-! ## Texts in order -/

open Encoding

/-- A numeral with leading zeros comes before that of a greater number, whatever follows. -/
theorem padded_append_lt {width m n : Nat} {first second : Text} (fits : n < 10 ^ width)
    (order : m < n ∨ m = n ∧ first < second) : padded width m ++ first < padded width n ++ second := by
  induction width generalizing m n first second with
  | zero =>
    rcases order with less | ⟨-, less⟩
    · omega
    · exact less
  | succ width ih =>
    rw [padded, padded, List.append_assoc, List.append_assoc]
    apply ih (by omega)
    rcases order with less | ⟨rfl, less⟩
    · by_cases tens : m / 10 < n / 10
      · exact .inl tens
      · refine .inr ⟨by omega, ?_⟩
        rw [List.singleton_append, List.singleton_append, List.cons_lt_cons_iff]
        exact .inl (by omega)
    · exact .inr ⟨rfl, List.append_left_lt less⟩

theorem Date.isoformat_append_lt {first second : Date} {rest others : Text}
    (order : first < second ∨ first = second ∧ rest < others) :
    first.isoformat ++ rest < second.isoformat ++ others := by
  rcases order with less | ⟨rfl, less⟩
  · have less : first.rank < second.rank := less
    have firstDay := first.day_le
    have secondDay := second.day_le
    obtain ⟨⟨-, year⟩, ⟨-, month⟩, -⟩ := second.valid
    obtain ⟨-, ⟨-, firstMonth⟩, -⟩ := first.valid
    unfold Date.rank at less
    simp only [Date.isoformat, List.append_assoc, List.cons_append]
    refine padded_append_lt (by omega) ?_
    by_cases years : first.year < second.year
    · exact .inl years
    refine .inr ⟨by omega, List.cons_lt_cons_iff.mpr (.inr ⟨rfl, padded_append_lt (by omega) ?_⟩)⟩
    by_cases months : first.month < second.month
    · exact .inl months
    exact .inr ⟨by omega, List.cons_lt_cons_iff.mpr (.inr ⟨rfl, padded_append_lt (by omega) (.inl (by omega))⟩)⟩
  · exact List.append_left_lt less

/-- The texts of moments sort as the moments do. -/
theorem DateTime.isoformat_lt {first second : DateTime} (order : first < second) :
    first.isoformat < second.isoformat := by
  have less : first.rank < second.rank := order
  obtain ⟨firstHour, firstMinute, firstSecond, firstMicro⟩ := first.valid
  obtain ⟨hour, minute, second', micro⟩ := second.valid
  unfold DateTime.rank at less
  apply Date.isoformat_append_lt
  by_cases dates : first.date.rank < second.date.rank
  · exact .inl dates
  refine .inr ⟨Date.rank_injective (by omega), List.cons_lt_cons_iff.mpr (.inr ⟨rfl, ?_⟩)⟩
  refine padded_append_lt (by omega) ?_
  by_cases hours : first.hour < second.hour
  · exact .inl hours
  refine .inr ⟨by omega, List.cons_lt_cons_iff.mpr (.inr ⟨rfl, padded_append_lt (by omega) ?_⟩)⟩
  by_cases minutes : first.minute < second.minute
  · exact .inl minutes
  refine .inr ⟨by omega, List.cons_lt_cons_iff.mpr (.inr ⟨rfl, padded_append_lt (by omega) ?_⟩)⟩
  by_cases seconds : first.second < second.second
  · exact .inl seconds
  refine .inr ⟨by omega, ?_⟩
  -- Microseconds are left out where they are zero, and then the text ends.
  rw [if_neg (show second.microsecond ≠ 0 by omega)]
  split
  next => exact List.nil_lt_cons _ _
  next =>
    have digits : padded 6 first.microsecond ++ [] < padded 6 second.microsecond ++ [] :=
      padded_append_lt (by omega) (.inl (by omega))
    rw [List.append_nil, List.append_nil] at digits
    exact List.cons_lt_cons_iff.mpr (.inr ⟨rfl, digits⟩)

theorem DateTime.isoformat_injective : Function.Injective DateTime.isoformat := by
  intro first second same
  rcases lt_trichotomy first second with less | equal | greater
  · exact absurd (DateTime.isoformat_lt less) (same ▸ lt_irrefl _)
  · exact equal
  · exact absurd (DateTime.isoformat_lt greater) (same ▸ lt_irrefl _)

end Calendar
