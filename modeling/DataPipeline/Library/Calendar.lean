import DataPipeline.Library.Text
import Mathlib.Data.List.TakeWhile
import Mathlib.Order.Lattice
import Mathlib.Order.Basic
import Mathlib.Order.Defs.LinearOrder
import Mathlib.Tactic.Common

/-! Dates and times of day in the proleptic Gregorian calendar, and their
ISO 8601 texts.

The parser accepts what the C implementation of `datetime.fromisoformat`
accepts, down to its treatment of the byte after the last one read as NUL.
-/

set_option autoImplicit false

namespace Calendar

open Encoding

/-! ## Dates -/

def isLeap (year : Nat) : Bool := year % 4 = 0 && (year % 100 ≠ 0 || year % 400 = 0)

/-- The table has an unused entry for month 0. -/
def daysInMonth (year month : Nat) : Nat :=
  if month = 2 ∧ isLeap year then 29
  else [0, 31, 28, 31, 30, 31, 30, 31, 31, 30, 31, 30, 31].getD month 0

@[ext] structure Date where
  year : Nat
  month : Nat
  day : Nat
  valid : (1 ≤ year ∧ year ≤ 9999) ∧ (1 ≤ month ∧ month ≤ 12) ∧ 1 ≤ day ∧ day ≤ daysInMonth year month

@[ext] structure DateTime where
  date : Date
  hour : Nat
  minute : Nat
  second : Nat
  microsecond : Nat
  valid : hour < 24 ∧ minute < 60 ∧ second < 60 ∧ microsecond < 1000000

theorem daysInMonth_le (year month : Nat) : daysInMonth year month ≤ 31 := by
  unfold daysInMonth
  split
  next => omega
  next =>
    by_cases small : month < 13
    · interval_cases month <;> decide
    · rw [List.getD_eq_getElem?_getD, List.getElem?_eq_none (by simp; omega)]
      simp

namespace Date

/-- Dates compare by year, then month, then day. -/
def rank (date : Date) : Nat := (date.year * 13 + date.month) * 32 + date.day

theorem day_le (date : Date) : date.day ≤ 31 :=
  le_trans date.valid.2.2.2 (daysInMonth_le date.year date.month)

theorem rank_injective : Function.Injective rank := by
  intro first second same
  have firstDay := first.day_le
  have secondDay := second.day_le
  obtain ⟨-, ⟨-, firstMonth⟩, -⟩ := first.valid
  obtain ⟨-, ⟨-, secondMonth⟩, -⟩ := second.valid
  unfold rank at same
  apply Date.ext <;> omega

instance : LinearOrder Date := LinearOrder.lift' rank rank_injective

/-- The text of `date.isoformat()`, which is also its `str`. -/
def isoformat (date : Date) : Text :=
  padded 4 date.year ++ 45 :: (padded 2 date.month ++ 45 :: padded 2 date.day)

end Date

namespace DateTime

/-- Moments compare field by field, from the year down. -/
def rank (time : DateTime) : Nat :=
  (((time.date.rank * 24 + time.hour) * 60 + time.minute) * 60 + time.second) * 1000000 + time.microsecond

theorem rank_injective : Function.Injective rank := by
  intro first second same
  obtain ⟨firstHour, firstMinute, firstSecond, firstMicro⟩ := first.valid
  obtain ⟨secondHour, secondMinute, secondSecond, secondMicro⟩ := second.valid
  unfold rank at same
  have date : first.date = second.date := Date.rank_injective (by omega)
  rw [date] at same
  apply DateTime.ext date <;> omega

instance : LinearOrder DateTime := LinearOrder.lift' rank rank_injective

/-- The time of day, with its microseconds unless they are zero. -/
def timeIsoformat (time : DateTime) : Text :=
  padded 2 time.hour ++ 58 :: (padded 2 time.minute ++ 58 :: (padded 2 time.second ++
    if time.microsecond = 0 then [] else 46 :: padded 6 time.microsecond))

/-- The text of `datetime.isoformat()` for a time without an offset. -/
def isoformat (time : DateTime) : Text := time.date.isoformat ++ 84 :: time.timeIsoformat

end DateTime

/-! ## Day numbers -/

def daysBeforeYear (year : Nat) : Nat :=
  (year - 1) * 365 + (year - 1) / 4 - (year - 1) / 100 + (year - 1) / 400

def daysBeforeMonth (year month : Nat) : Nat :=
  ((List.range month).map (daysInMonth year)).sum

/-- Day 1 is the first of January of year 1. -/
def ymdToOrd (year month day : Nat) : Nat := daysBeforeYear year + daysBeforeMonth year month + day

/-- Monday is 0. -/
def weekday (year month day : Nat) : Nat := (ymdToOrd year month day + 6) % 7

def ordToYmd (ordinal : Nat) : Nat × Nat × Nat :=
  let n := ordinal - 1
  let cycles := n / 146097
  let n := n % 146097
  let centuries := n / 36524
  let n := n % 36524
  let quads := n / 1461
  let n := n % 1461
  let years := n / 365
  let n := n % 365
  let year := cycles * 400 + centuries * 100 + quads * 4 + years + 1
  if years = 4 ∨ centuries = 4 then (year - 1, 12, 31)
  else
    -- The estimate of the month is exact or one too large.
    let month := (n + 50) / 32
    if n < daysBeforeMonth year month then (year, month - 1, n - daysBeforeMonth year (month - 1) + 1)
    else (year, month, n - daysBeforeMonth year month + 1)

def isoWeek1Monday (year : Nat) : Nat :=
  let first := ymdToOrd year 1 1
  let offset := (first + 6) % 7
  if 3 < offset then first - offset + 7 else first - offset

def isoToYmd (year week day : Nat) : Option (Nat × Nat × Nat) := do
  guard (1 ≤ year ∧ year ≤ 9999)
  let first := weekday year 1 1
  let long := first = 3 ∨ (first = 2 ∧ isLeap year)
  guard (1 ≤ week ∧ (week ≤ 52 ∨ (week = 53 ∧ long)))
  guard (1 ≤ day ∧ day ≤ 7)
  return ordToYmd (isoWeek1Monday year + (week - 1) * 7 + day - 1)

/-! ## Reading ISO 8601 -/

/-- The byte at a position, where reading past the end gives NUL. -/
def peek (bytes : List Nat) (position : Nat) : Nat := bytes.getD position 0

/-- Exactly `count` digits, and the bytes after them. -/
def parseDigits (count : Nat) (bytes : List Nat) : Option (Nat × List Nat) :=
  let digits := bytes.take count
  if digits.length = count ∧ digits.all isDigit then some (digitsValue digits, bytes.drop count) else none

def findSeparator (bytes : List Nat) : Nat :=
  -- The shortest text is a week without its day, as in 2026W01.
  if bytes.length = 7 then 7
  else if peek bytes 4 = 45 then
    -- YYYY-Www, with -D after it only if that is not the start of a time.
    if peek bytes 5 = 87 then
      if bytes.length > 8 ∧ peek bytes 8 = 45 then
        if bytes.length > 10 ∧ isDigit (peek bytes 10) then 8 else 10
      else 8
    else 10
  else if peek bytes 4 = 87 then
    -- After YYYYWww, the first of an even number of digits is the day, and of an odd
    -- number the separator, unless it is the only one.
    let stop := 7 + ((bytes.drop 7).takeWhile isDigit).length
    if stop < 9 then stop else if stop % 2 = 0 then 7 else 8
  else 8

def parseDate (bytes : List Nat) (length : Nat) : Option (Nat × Nat × Nat) := do
  let (year, rest) ← parseDigits 4 bytes
  let separated := peek rest 0 = 45
  let rest := if separated then rest.drop 1 else rest
  if peek rest 0 = 87 then
    let (week, rest) ← parseDigits 2 (rest.drop 1)
    -- What has been read ends before the date does, so a day follows.
    if bytes.length - rest.length < length then
      guard (separated → peek rest 0 = 45)
      let (day, _) ← parseDigits 1 (if separated then rest.drop 1 else rest)
      isoToYmd year week day
    else isoToYmd year week 1
  else
    let (month, rest) ← parseDigits 2 rest
    guard (separated → peek rest 0 = 45)
    let (day, _) ← parseDigits 2 (if separated then rest.drop 1 else rest)
    return (year, month, day)

structure Clock where
  hour : Nat
  minute : Nat
  second : Nat
  microsecond : Nat

/-- The digits after the decimal mark; digits beyond the sixth are dropped.
The flag tells whether something other than NUL follows. -/
def parseFraction (bytes rest : List Nat) : Option (Nat × Bool) := do
  let count := min 6 bytes.length
  let (value, after) ← parseDigits count bytes
  return (value * 10 ^ (6 - count), peek ((after ++ rest).dropWhile isDigit) 0 ≠ 0)

/-- One of hours, minutes and seconds, then what follows it: the end, another
field, or the decimal mark. `rest` is what the text holds after `bytes`. -/
def parseFields (bytes rest : List Nat) : Option (Clock × Bool) := do
  let (hour, after) ← parseDigits 2 bytes
  let c := peek (after ++ rest) 0
  let separated := c = 58
  -- One byte that is left over is never read as a field, and spoils the text unless it is NUL.
  if after.length ≤ 1 then return (⟨hour, 0, 0, 0⟩, c ≠ 0)
  guard (c ≠ 46 ∧ c ≠ 44)
  let (minute, after) ← parseDigits 2 (if separated then after.drop 1 else after)
  let c := peek (after ++ rest) 0
  if after.length ≤ 1 then return (⟨hour, minute, 0, 0⟩, c ≠ 0)
  guard (c ≠ 46 ∧ c ≠ 44)
  guard (separated → c = 58)
  let (second, after) ← parseDigits 2 (if separated then after.drop 1 else after)
  let c := peek (after ++ rest) 0
  if after.length ≤ 1 then return (⟨hour, minute, second, 0⟩, c ≠ 0)
  let marked := c = 46 ∨ c = 44
  guard (separated → marked)
  let (microsecond, more) ← parseFraction (if marked then after.drop 1 else after) rest
  return (⟨hour, minute, second, microsecond⟩, more)

/-- A time of day and its offset from UTC in microseconds, if one is given. -/
def parseTime (bytes : List Nat) : Option (Clock × Option Int) := do
  let isZone := fun c => c = 43 || c = 45 || c = 90
  let front := bytes.takeWhile (!isZone ·)
  let zone := bytes.dropWhile (!isZone ·)
  let (clock, more) ← parseFields front zone
  match zone with
  -- Without an offset the clock must use up the text.
  | [] => if more then none else return (clock, none)
  | 90 :: after => if peek after 0 ≠ 0 then none else return (clock, some 0)
  | sign :: after =>
    let (shift, more) ← (parseFields after []).filter fun (shift, _) =>
      shift.hour < 24 && shift.minute < 60 && shift.second < 60
    if more then none
    else
      let seconds : Int := shift.hour * 3600 + shift.minute * 60 + shift.second
      let offset := seconds * 1000000 + shift.microsecond
      return (clock, some (if sign = 45 then -offset else offset))

/-- A date and time as the parser returns it: local fields and an optional offset. -/
structure Stamp where
  moment : DateTime
  offset : Option Int
  deriving DecidableEq

/-- Midnight at the end of a day is midnight of the next day. -/
def rollMidnight (year month day : Nat) (clock : Clock) : Option (Nat × Nat × Nat × Clock) :=
  if clock.hour = 24 ∧ month ≤ 12 ∧ day ≤ daysInMonth year month then
    if clock.minute = 0 ∧ clock.second = 0 ∧ clock.microsecond = 0 then
      -- The year after 9999 is refused when the date is made.
      let clock := { clock with hour := 0 }
      if day < daysInMonth year month then some (year, month, day + 1, clock)
      else if month < 12 then some (year, month + 1, 1, clock)
      else some (year + 1, 1, 1, clock)
    else none
  else some (year, month, day, clock)

def makeDateTime (year month day : Nat) (clock : Clock) : Option DateTime :=
  if date : (1 ≤ year ∧ year ≤ 9999) ∧ (1 ≤ month ∧ month ≤ 12) ∧
      1 ≤ day ∧ day ≤ daysInMonth year month then
    if time : clock.hour < 24 ∧ clock.minute < 60 ∧ clock.second < 60 ∧ clock.microsecond < 1000000 then
      some ⟨⟨year, month, day, date⟩, clock.hour, clock.minute, clock.second, clock.microsecond, time⟩
    else none
  else none

/-- A surrogate is allowed in the one place where any separator is. -/
def sanitize (text : Text) : Text :=
  match [7, 8, 10].find? (fun position => 0xD800 ≤ text.getD position 0 ∧ text.getD position 0 < 0xE000) with
  | some position => text.set position 84
  | none => text

/-- How many bytes the character starting with this byte takes. -/
def separatorWidth (lead : Nat) : Nat :=
  if lead < 0x80 then 1 else if lead < 0xE0 then 2 else if lead < 0xF0 then 3 else 4

/-- `datetime.fromisoformat`; none is its `ValueError`. -/
def fromisoformat (text : Text) : Option Stamp := do
  guard (7 ≤ text.length)
  let bytes := (← encodeUtf8 (sanitize text)).map UInt8.toNat
  let separator := findSeparator bytes
  let (year, month, day) ← parseDate bytes separator
  let (clock, offset) ←
    if separator < bytes.length then
      parseTime (bytes.drop (separator + separatorWidth (peek bytes separator)))
    else some (⟨0, 0, 0, 0⟩, none)
  let (year, month, day, clock) ← rollMidnight year month day clock
  let moment ← makeDateTime year month day clock
  return ⟨moment, offset⟩

/-! ## Reading back what was written -/

@[simp] theorem peek_nil (position : Nat) : peek [] position = 0 := rfl

@[simp] theorem peek_cons_zero (c : Nat) (rest : List Nat) : peek (c :: rest) 0 = c := rfl

@[simp] theorem peek_cons_succ (c : Nat) (rest : List Nat) (position : Nat) :
    peek (c :: rest) (position + 1) = peek rest position := by
  simp [peek]

theorem parseDigits_padded {width n : Nat} (fits : n < 10 ^ width) (rest : List Nat) :
    parseDigits width (padded width n ++ rest) = some (n, rest) := by
  have taken : (padded width n ++ rest).take width = padded width n := by
    rw [List.take_append_of_le_length (by simp), List.take_of_length_le (by simp)]
  have left : (padded width n ++ rest).drop width = rest := by
    rw [List.drop_append_of_le_length (by simp), List.drop_of_length_le (by simp), List.nil_append]
  have digits : (padded width n).all isDigit = true :=
    List.all_eq_true.mpr fun c member => isDigit_of_mem_padded member
  simp [parseDigits, taken, left, digits, digitsValue_padded, Nat.mod_eq_of_lt fits]

theorem peek_padded_ne {width n c : Nat} {rest : List Nat} (other : isDigit c = false) :
    peek (padded (width + 1) n ++ rest) 0 ≠ c := by
  intro same
  cases shape : padded (width + 1) n with
  | nil => simp [padded] at shape
  | cons first digits =>
    have member : first ∈ padded (width + 1) n := by simp [shape]
    have digit := isDigit_of_mem_padded member
    rw [shape, List.cons_append, peek_cons_zero] at same
    rw [same, other] at digit
    cases digit

theorem mem_date_isoformat {date : Date} {c : Nat} (member : c ∈ date.isoformat) :
    isDigit c = true ∨ c = 45 := by
  simp only [Date.isoformat, List.mem_append, List.mem_cons] at member
  rcases member with digit | rfl | digit | rfl | digit
  · exact .inl (isDigit_of_mem_padded digit)
  · exact .inr rfl
  · exact .inl (isDigit_of_mem_padded digit)
  · exact .inr rfl
  · exact .inl (isDigit_of_mem_padded digit)

theorem mem_timeIsoformat {time : DateTime} {c : Nat} (member : c ∈ time.timeIsoformat) :
    isDigit c = true ∨ c = 58 ∨ c = 46 := by
  simp only [DateTime.timeIsoformat, List.mem_append, List.mem_cons] at member
  rcases member with digit | rfl | digit | rfl | digit | fraction
  · exact .inl (isDigit_of_mem_padded digit)
  · exact .inr (.inl rfl)
  · exact .inl (isDigit_of_mem_padded digit)
  · exact .inr (.inl rfl)
  · exact .inl (isDigit_of_mem_padded digit)
  · split at fraction
    next => cases fraction
    next =>
      cases List.mem_cons.mp fraction with
      | inl same => exact .inr (.inr same)
      | inr digit => exact .inl (isDigit_of_mem_padded digit)

theorem mem_isoformat {time : DateTime} {c : Nat} (member : c ∈ time.isoformat) :
    isDigit c = true ∨ c = 45 ∨ c = 84 ∨ c = 58 ∨ c = 46 := by
  simp only [DateTime.isoformat, List.mem_append, List.mem_cons] at member
  rcases member with date | rfl | clock
  · exact (mem_date_isoformat date).imp_right .inl
  · exact .inr (.inr (.inl rfl))
  · exact (mem_timeIsoformat clock).imp_right fun other => .inr (.inr other)

theorem isoformat_ascii (time : DateTime) : IsAscii time.isoformat := by
  intro c member
  rcases mem_isoformat member with digit | other
  · have := isDigit_iff.mp digit
    omega
  · omega

@[simp] theorem length_date_isoformat (date : Date) : date.isoformat.length = 10 := by
  simp [Date.isoformat]

theorem parseDate_isoformat (date : Date) (rest : List Nat) :
    parseDate (date.isoformat ++ rest) 10 = some (date.year, date.month, date.day) := by
  have year : date.year < 10 ^ 4 := by have := date.valid.1; omega
  have month : date.month < 10 ^ 2 := by have := date.valid.2.1; omega
  have day : date.day < 10 ^ 2 := by have := date.day_le; omega
  have noWeek : ∀ tail, peek (padded 2 date.month ++ tail) 0 ≠ 87 := fun tail => peek_padded_ne rfl
  simp only [parseDate, Date.isoformat, List.append_assoc, List.cons_append, parseDigits_padded year,
    parseDigits_padded month, parseDigits_padded day, Option.bind_eq_bind, Option.bind_some, peek_cons_zero,
    ↓reduceIte, List.drop_succ_cons, List.drop_zero, noWeek, true_implies, guard, Option.pure_def]

theorem parseFields_timeIsoformat (time : DateTime) :
    parseFields time.timeIsoformat [] =
      some (⟨time.hour, time.minute, time.second, time.microsecond⟩, false) := by
  obtain ⟨hours, minutes, seconds, micros⟩ := time.valid
  have hour : time.hour < 10 ^ 2 := by omega
  have minute : time.minute < 10 ^ 2 := by omega
  have second : time.second < 10 ^ 2 := by omega
  have fraction : parseDigits 6 (padded 6 time.microsecond) = some (time.microsecond, []) := by
    have small : time.microsecond < 10 ^ 6 := by omega
    have read := parseDigits_padded small []
    rwa [List.append_nil] at read
  have last : parseDigits 2 (padded 2 time.second) = some (time.second, []) := by
    have read := parseDigits_padded second []
    rwa [List.append_nil] at read
  by_cases whole : time.microsecond = 0
  · simp [parseFields, DateTime.timeIsoformat, parseDigits_padded hour, parseDigits_padded minute,
      last, whole, guard]
  · simp [parseFields, DateTime.timeIsoformat, parseDigits_padded hour, parseDigits_padded minute,
      parseDigits_padded second, whole, guard, parseFraction, fraction]

theorem parseTime_timeIsoformat (time : DateTime) :
    parseTime time.timeIsoformat =
      some (⟨time.hour, time.minute, time.second, time.microsecond⟩, none) := by
  have plain : ∀ c ∈ time.timeIsoformat, (!(c = 43 || c = 45 || c = 90 : Bool)) = true := by
    intro c member
    rcases mem_timeIsoformat member with digit | rfl | rfl
    · have := isDigit_iff.mp digit
      simp; omega
    · rfl
    · rfl
  have front := List.takeWhile_eq_self_iff.mpr plain
  have zone := List.dropWhile_eq_nil_iff.mpr plain
  simp only [parseTime, front, zone, parseFields_timeIsoformat, Option.bind_eq_bind, Option.bind_some,
    Bool.false_eq_true, ↓reduceIte, Option.pure_def]

theorem sanitize_ascii {text : Text} (ascii : IsAscii text) : sanitize text = text := by
  have small : ∀ position, text.getD position 0 < 0x80 := by
    intro position
    rw [List.getD_eq_getElem?_getD]
    cases found : text[position]? with
    | none => simp
    | some c => exact ascii c (List.mem_of_getElem? found)
  have noSurrogate : [7, 8, 10].find? (fun position =>
      0xD800 ≤ text.getD position 0 ∧ text.getD position 0 < 0xE000) = none := by
    rw [List.find?_eq_none]
    intro position _
    have := small position
    simp only [decide_eq_true_eq]
    omega
  rw [sanitize, noSurrogate]

theorem findSeparator_isoformat (time : DateTime) : findSeparator time.isoformat = 10 := by
  have long : time.isoformat.length ≠ 7 := by simp [DateTime.isoformat]; omega
  have fourth : peek time.isoformat 4 = 45 := by
    simp [DateTime.isoformat, Date.isoformat, padded]
  have fifth : peek time.isoformat 5 ≠ 87 := by
    simp [DateTime.isoformat, Date.isoformat, padded]; omega
  simp only [findSeparator, long, fourth, fifth, ↓reduceIte]

theorem makeDateTime_fields (time : DateTime) :
    makeDateTime time.date.year time.date.month time.date.day
      ⟨time.hour, time.minute, time.second, time.microsecond⟩ = some time := by
  rw [makeDateTime, dif_pos time.date.valid, dif_pos time.valid]

theorem fromisoformat_isoformat (time : DateTime) :
    fromisoformat time.isoformat = some ⟨time, none⟩ := by
  have ascii := isoformat_ascii time
  have long : 10 < time.isoformat.length := by simp [DateTime.isoformat]
  have bytes : (time.isoformat.map Nat.toUInt8).map UInt8.toNat = time.isoformat := by
    rw [List.map_map]
    calc time.isoformat.map (UInt8.toNat ∘ Nat.toUInt8)
      _ = time.isoformat.map id :=
          List.map_congr_left fun c member => toNat_toUInt8 (by have := ascii c member; omega)
      _ = time.isoformat := List.map_id _
  have date : parseDate time.isoformat 10 = some (time.date.year, time.date.month, time.date.day) :=
    parseDate_isoformat time.date (84 :: time.timeIsoformat)
  have tenth : peek time.isoformat 10 = 84 := by
    simp [peek, DateTime.isoformat, List.getD_eq_getElem?_getD]
  have clock : time.isoformat.drop 11 = time.timeIsoformat := by
    simp [DateTime.isoformat, List.drop_append]
  have sameDay : rollMidnight time.date.year time.date.month time.date.day
      ⟨time.hour, time.minute, time.second, time.microsecond⟩ = some (time.date.year, time.date.month,
        time.date.day, ⟨time.hour, time.minute, time.second, time.microsecond⟩) := by
    have := time.valid.1
    rw [rollMidnight, if_neg (by simp only; omega)]
  have enough : 7 ≤ time.isoformat.length := by omega
  simp only [fromisoformat, enough, sanitize_ascii ascii, encodeUtf8_ascii ascii, bytes,
    findSeparator_isoformat, date, long, tenth, separatorWidth, clock, parseTime_timeIsoformat, sameDay,
    makeDateTime_fields, guard, Option.bind_eq_bind, Option.bind_some, Option.pure_def, ↓reduceIte,
    Nat.reduceLT, Nat.reduceAdd]

end Calendar
