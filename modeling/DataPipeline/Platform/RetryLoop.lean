import DataPipeline.Library.Numbers
import DataPipeline.Platform.Backoff

/-! The retry loop of `exponential_backoff` with delays as Python has them: an int
or a float, which may be infinite or NaN.

A delay is computed in the except clause, so what its computation raises leaves
the loop, and so does what `asyncio.sleep` raises.
-/

set_option autoImplicit false

namespace DataPipeline.Platform.RetryLoop

open Numbers ExponentialBackoff

structure Settings where
  maxRetries : Nat
  baseDelay : Number
  maxDelay : Number
  jitter : Bool

abbrev Draw := { value : ℚ // 0 ≤ value ∧ value < 1 }

theorem Draw.small (draw : Draw) : |draw.1| < overflow := by
  apply small_of_le
  rw [abs_of_nonneg draw.2.1]
  exact draw.2.2.le.trans (by norm_num)

def Draw.number (draw : Draw) : Number := .float (.finite draw.1 draw.small)

def uniform (draw : Draw) (low high : Number) : Except Fault Number := do
  low.add (← (← high.sub low).mul draw.number)

def applyJitter (draw : Draw) (baseValue minJitter maxJitter : Number) : Except Fault Number := do
  baseValue.add (← uniform draw minJitter maxJitter)

/-- The share of the delay that the jitter may take. -/
def fifth : Floating := .ofExact (1 / 5)

def withJitter (draw : Draw) (delay : Number) : Except Fault Number := do
  let jitterAmount ← delay.mul (.float fifth)
  applyJitter draw delay jitterAmount.neg jitterAmount

def Settings.delay (settings : Settings) (draw : Draw) (attempt : Nat) : Except Fault Number := do
  let delay := (← settings.baseDelay.mul (.int (2 ^ attempt))).min settings.maxDelay
  if settings.jitter then withJitter draw delay else return delay

/-- What `asyncio.sleep` raises instead of sleeping. -/
def sleepFault : Number → Option Fault
  | .int seconds =>
    -- The check for NaN takes the integer for a float.
    if seconds ≤ 0 ∨ |(seconds : ℚ)| < overflow then none else some .overflowError
  | .float .nan => some .valueError
  | .float (.finite _ _) | .float (.infinity _) => none

/-- What is raised between an attempt and the sleep after it, given the delay. -/
def faultOf : Except Fault Number → Option Fault
  | .ok seconds => sleepFault seconds
  | .error fault => some fault

def Settings.fault (settings : Settings) (draw : Draw) (attempt : Nat) : Option Fault :=
  faultOf (settings.delay draw attempt)

variable {Value Error Interrupt : Type}

structure Script (Value Error Interrupt : Type) where
  attempts : Nat → Attempt Value Error Interrupt
  draws : Nat → Draw
  interrupts : Nat → Option Interrupt

inductive Event where
  | invoked
  | slept
  deriving DecidableEq

inductive Ending (Value Error Interrupt : Type) where
  | returned (value : Value)
  | raised (exception : Error)
  | interrupted (interrupt : Interrupt)
  | faulted (fault : Fault)

def Attempt.ending : Attempt Value Error Interrupt → Ending Value Error Interrupt
  | .returns value => .returned value
  | .fails exception => .raised exception
  | .interrupted interrupt => .interrupted interrupt

/-- The attempts from the given one on, with so many left after it. -/
def attempts (settings : Settings) (script : Script Value Error Interrupt) :
    Nat → Nat → List Event → List Event × Ending Value Error Interrupt
  | left, attempt, events =>
    match script.attempts attempt with
    | .returns value => (events ++ [.invoked], .returned value)
    | .interrupted interrupt => (events ++ [.invoked], .interrupted interrupt)
    | .fails exception =>
      match left with
      | 0 => (events ++ [.invoked], .raised exception)
      | left + 1 =>
        match settings.fault (script.draws attempt) attempt with
        | some fault => (events ++ [.invoked], .faulted fault)
        | none =>
          match script.interrupts attempt with
          | some interrupt => (events ++ [.invoked, .slept], .interrupted interrupt)
          | none => attempts settings script left (attempt + 1) (events ++ [.invoked, .slept])

def call (settings : Settings) (script : Script Value Error Interrupt) : List Event × Ending Value Error Interrupt :=
  attempts settings script settings.maxRetries 0 []

/-! ## Which delays can be slept -/

/-- `min(base_delay * (2**attempt), max_delay)` -/
def Settings.capped (settings : Settings) (attempt : Nat) : Number :=
  Number.min
    (match settings.baseDelay with
      | .int base => .int (base * 2 ^ attempt)
      | .float base => .float (base.mul (.ofExact (2 ^ attempt))))
    settings.maxDelay

/-- A float delay can be doubled 1023 times; jitter asks for a finite float, and a
sleep for anything but NaN and an integer beyond all floats. -/
structure Settings.Sleepable (settings : Settings) (attempt : Nat) : Prop where
  doubled : ∀ base, settings.baseDelay = .float base → attempt < 1024
  jittered : settings.jitter = true → (settings.capped attempt).Ordinary
  plain : settings.jitter = false → sleepFault (settings.capped attempt) = none

variable {settings : Settings} {draw : Draw} {attempt count : Nat} {delay : Number}

theorem fifth_eq : ∃ small, fifth = .finite (1 / 5) small := by
  have small : |(1 / 5 : ℚ)| < overflow := small_of_le (by norm_num)
  exact ⟨small, Floating.ofExact_small small⟩

def jittered (draw : Draw) (delay : Floating) : Floating :=
  let amount := delay.mul fifth
  delay.add (amount.neg.add ((amount.add amount.neg.neg).mul (.finite draw.1 draw.small)))

theorem withJitter_eq (draw : Draw) {seconds : Floating} (taken : delay.toFloat = .ok seconds) :
    withJitter draw delay = .ok (.float (jittered draw seconds)) := by
  have share : delay.mul (.float fifth) = .ok (.float (seconds.mul fifth)) := by
    rw [Number.mul_float, taken]
    rfl
  have drawn : uniform draw (Number.neg (.float (seconds.mul fifth))) (.float (seconds.mul fifth)) =
      .ok (.float ((seconds.mul fifth).neg.add
        (((seconds.mul fifth).add (seconds.mul fifth).neg.neg).mul (.finite draw.1 draw.small)))) := rfl
  have applied : withJitter draw delay =
      applyJitter draw delay (Number.neg (.float (seconds.mul fifth))) (.float (seconds.mul fifth)) := by
    rw [withJitter, share]
    rfl
  rw [applied, applyJitter, drawn]
  exact (Number.add_float delay _).trans (by rw [taken]; rfl)

theorem jittered_ne_nan {seconds : Floating} (finite : seconds.IsFinite) : jittered draw seconds ≠ .nan := by
  obtain ⟨share, fifth_eq⟩ := fifth_eq
  cases seconds with
  | infinity | nan => exact finite.elim
  | finite value small =>
    have part : |value * (1 / 5)| < overflow := by
      rw [abs_mul, abs_of_pos (by norm_num : (0 : ℚ) < 1 / 5)]
      have nonneg := abs_nonneg value
      linarith
    have twice : |value * (1 / 5) + - -(value * (1 / 5))| < overflow := by
      rw [neg_neg, ← two_mul, abs_mul, abs_of_pos (by norm_num : (0 : ℚ) < 2), abs_mul,
        abs_of_pos (by norm_num : (0 : ℚ) < 1 / 5)]
      have nonneg := abs_nonneg value
      linarith
    have amount : (Floating.finite value small).mul fifth = .finite (value * (1 / 5)) part := by
      rw [fifth_eq]
      exact Floating.ofExact_small part
    have width : (Floating.finite (value * (1 / 5)) part).add (Floating.finite (value * (1 / 5)) part).neg.neg =
        .finite _ twice := Floating.ofExact_small twice
    rw [jittered, amount]
    have span : (Floating.finite _ twice).mul (.finite draw.1 draw.small) ≠ .nan :=
      Floating.mul_finite_ne_nan trivial trivial
    have low : (Floating.finite (value * (1 / 5)) part).neg.IsFinite := trivial
    have whole : (Floating.finite value small).IsFinite := trivial
    rw [width]
    exact Floating.add_finite_ne_nan whole (Floating.add_finite_ne_nan low span)

/-- The draw is then from minus to plus infinity, which is none. -/
theorem jittered_eq_nan {seconds : Floating} (infinite : ¬ seconds.IsFinite) : jittered draw seconds = .nan := by
  obtain ⟨share, fifth_eq⟩ := fifth_eq
  have positive : ¬ ((1 / 5 : ℚ) < 0) := by norm_num
  have nonzero : (1 / 5 : ℚ) ≠ 0 := by norm_num
  cases seconds with
  | finite => exact absurd trivial infinite
  | nan => rfl
  | infinity negative =>
    have amount : (Floating.infinity negative).mul fifth = .infinity negative := by
      rw [fifth_eq, Floating.mul, if_neg nonzero, decide_eq_false positive, Bool.bne_false]
    rw [jittered, amount]
    have nonneg : ¬ draw.1 < 0 := not_lt.mpr draw.2.1
    by_cases zero : draw.1 = 0
    · simp [Floating.neg, Floating.add, Floating.mul, zero]
    · cases negative <;> simp [Floating.neg, Floating.add, Floating.mul, zero, nonneg]

theorem sleepFault_float {seconds : Floating} : sleepFault (.float seconds) = none ↔ seconds ≠ .nan := by
  cases seconds <;> simp [sleepFault]

theorem isFinite_iff_ordinary {seconds : Floating} (taken : delay.toFloat = .ok seconds) :
    seconds.IsFinite ↔ delay.Ordinary := by
  cases delay with
  | float value =>
    cases taken
    rfl
  | int value =>
    rw [Number.toFloat] at taken
    split at taken
    next small =>
      cases taken
      exact iff_of_true trivial small
    next => cases taken

theorem withJitter_faultless_iff (draw : Draw) (delay : Number) :
    faultOf (withJitter draw delay) = none ↔ delay.Ordinary := by
  cases taken : delay.toFloat with
  | error fault =>
    have raised : withJitter draw delay = .error fault := by
      rw [withJitter, Number.mul_float, taken]
      rfl
    refine iff_of_false (by simp [raised, faultOf]) fun ordinary => ?_
    obtain ⟨value, small, same⟩ := Number.toFloat_of_ordinary ordinary
    rw [taken] at same
    cases same
  | ok seconds =>
    rw [withJitter_eq draw taken, faultOf, sleepFault_float, ← isFinite_iff_ordinary taken]
    constructor
    · intro slept
      by_contra infinite
      exact slept (jittered_eq_nan infinite)
    · exact jittered_ne_nan

theorem scaled_cases (settings : Settings) (attempt : Nat) :
    ((∀ base, settings.baseDelay = .float base → attempt < 1024) ∧
      ∃ scaled, settings.baseDelay.mul (.int (2 ^ attempt)) = .ok scaled ∧
        scaled.min settings.maxDelay = settings.capped attempt) ∨
    ((∃ base, settings.baseDelay = .float base ∧ ¬ attempt < 1024) ∧
      settings.baseDelay.mul (.int (2 ^ attempt)) = .error .overflowError) := by
  cases base : settings.baseDelay with
  | int value => exact .inl ⟨by simp, .int (value * 2 ^ attempt), rfl, by rw [Settings.capped, base]⟩
  | float value =>
    by_cases early : attempt < 1024
    · have small := (Number.two_pow_small_iff attempt).mpr early
      refine .inl ⟨fun _ _ => early, .float (value.mul (.ofExact (2 ^ attempt))), ?_, by rw [Settings.capped, base]⟩
      have power : ((2 ^ attempt : ℤ) : ℚ) = 2 ^ attempt := by push_cast; rfl
      rw [Number.float_mul, Number.toFloat, dif_pos small, ← Floating.ofExact_small small, power]
      rfl
    · have large := mt (Number.two_pow_small_iff attempt).mp early
      refine .inr ⟨⟨value, rfl, early⟩, ?_⟩
      rw [Number.float_mul, Number.toFloat, dif_neg large]
      rfl

theorem delay_of_scaled {scaled : Number} (computed : settings.baseDelay.mul (.int (2 ^ attempt)) = .ok scaled)
    (capped : scaled.min settings.maxDelay = settings.capped attempt) :
    settings.delay draw attempt =
      if settings.jitter then withJitter draw (settings.capped attempt) else .ok (settings.capped attempt) := by
  rw [Settings.delay, computed, ← capped]
  rfl

theorem fault_eq_none_iff (settings : Settings) (draw : Draw) (attempt : Nat) :
    settings.fault draw attempt = none ↔ settings.Sleepable attempt := by
  rcases scaled_cases settings attempt with ⟨doubled, scaled, computed, capped⟩ | ⟨⟨base, float, late⟩, raised⟩
  · rw [Settings.fault, delay_of_scaled computed capped]
    cases jitter : settings.jitter with
    | false =>
      constructor
      · intro slept
        exact ⟨doubled, by simp [jitter], fun _ => slept⟩
      · intro sleepable
        exact sleepable.plain jitter
    | true =>
      rw [if_pos rfl, withJitter_faultless_iff]
      constructor
      · intro ordinary
        exact ⟨doubled, fun _ => ordinary, by simp [jitter]⟩
      · intro sleepable
        exact sleepable.jittered jitter
  · refine iff_of_false ?_ (fun sleepable => late (sleepable.doubled base float))
    have delayed : settings.delay draw attempt = .error .overflowError := by
      rw [Settings.delay, raised]
      rfl
    simp [Settings.fault, delayed, faultOf]

/-! ## How a call goes -/

def rounds (count : Nat) : List Event := (List.range count).flatMap fun _ => [.invoked, .slept]

theorem rounds_succ (count : Nat) : rounds (count + 1) = rounds count ++ [.invoked, .slept] := by
  simp [rounds, List.range_succ]

theorem count_rounds (count : Nat) : (rounds count).count .invoked = count ∧ (rounds count).count .slept = count := by
  induction count with
  | zero => exact ⟨rfl, rfl⟩
  | succ count ih => simp [rounds_succ, List.count_append, ih]

variable {script : Script Value Error Interrupt}

def Script.FailsBefore (script : Script Value Error Interrupt) (count : Nat) : Prop :=
  ∀ attempt < count, (script.attempts attempt).Fails ∧ script.interrupts attempt = none

/-- The first attempt that does not fail ends the call, or else the last one does, or
an interrupted sleep. Attempts alternate with sleeps and nothing is slept after the last. -/
structure AsSpecified (settings : Settings) (script : Script Value Error Interrupt) : Prop where
  stops : ∀ first ≤ settings.maxRetries, script.FailsBefore first → ¬ (script.attempts first).Fails →
    call settings script = (rounds first ++ [.invoked], Attempt.ending (script.attempts first))
  exhausted : script.FailsBefore settings.maxRetries →
    ∀ exception, script.attempts settings.maxRetries = .fails exception →
      call settings script = (rounds settings.maxRetries ++ [.invoked], .raised exception)
  interrupted : ∀ sleep < settings.maxRetries, script.FailsBefore sleep → (script.attempts sleep).Fails →
    ∀ interrupt, script.interrupts sleep = some interrupt →
      call settings script = (rounds (sleep + 1), .interrupted interrupt)

def Sleeps (settings : Settings) (script : Script Value Error Interrupt) : Prop :=
  ∀ attempt < settings.maxRetries, script.FailsBefore attempt → (script.attempts attempt).Fails →
    settings.Sleepable attempt

theorem Script.FailsBefore.mono {fewer : Nat} (before : script.FailsBefore count) (order : fewer ≤ count) :
    script.FailsBefore fewer := fun attempt early => before attempt (early.trans_le order)

theorem call_after (enough : count ≤ settings.maxRetries) (before : script.FailsBefore count)
    (sleepable : ∀ attempt < count, settings.Sleepable attempt) :
    call settings script = attempts settings script (settings.maxRetries - count) count (rounds count) := by
  induction count with
  | zero => rfl
  | succ count ih =>
    obtain ⟨⟨exception, raises⟩, passes⟩ := before count (Nat.lt_succ_self count)
    have left : settings.maxRetries - count = settings.maxRetries - (count + 1) + 1 := by omega
    have slept := (fault_eq_none_iff settings (script.draws count) count).mpr (sleepable count (Nat.lt_succ_self count))
    have earlier : script.FailsBefore count := before.mono (Nat.le_succ count)
    rw [ih (by omega) earlier fun attempt early => sleepable attempt (Nat.lt_succ_of_lt early), left, attempts]
    simp only [raises, slept, passes, rounds_succ]

theorem Sleeps.before (sleeps : Sleeps settings script) (enough : count ≤ settings.maxRetries)
    (before : script.FailsBefore count) {attempt : Nat} (early : attempt < count) : settings.Sleepable attempt :=
  sleeps attempt (early.trans_le enough) (before.mono early.le) (before attempt early).1

theorem asSpecified_of_sleeps (sleeps : Sleeps settings script) : AsSpecified settings script where
  stops first enough before stops := by
    rw [call_after enough before fun attempt => sleeps.before enough before]
    unfold attempts
    cases ends : script.attempts first with
    | returns value => rfl
    | interrupted interrupt => rfl
    | fails exception => exact absurd ⟨exception, ends⟩ stops
  exhausted before exception raises := by
    rw [call_after le_rfl before fun attempt => sleeps.before le_rfl before, Nat.sub_self]
    unfold attempts
    simp only [raises]
  interrupted sleep early before fails interrupt interrupted := by
    have slept := (fault_eq_none_iff settings (script.draws sleep) sleep).mpr (sleeps sleep early before fails)
    have left : settings.maxRetries - sleep = settings.maxRetries - (sleep + 1) + 1 := by omega
    obtain ⟨exception, raises⟩ := fails
    rw [call_after early.le before fun attempt => sleeps.before early.le before, left]
    unfold attempts
    simp only [raises, slept, interrupted, rounds_succ]

/-- What the delay raises takes the place of what the attempts do. -/
theorem call_faulted {fault : Fault} (early : count < settings.maxRetries) (before : script.FailsBefore count)
    (fails : (script.attempts count).Fails) (sleepable : ∀ attempt < count, settings.Sleepable attempt)
    (faulty : settings.fault (script.draws count) count = some fault) :
    call settings script = (rounds count ++ [.invoked], .faulted fault) := by
  obtain ⟨exception, raises⟩ := fails
  have left : settings.maxRetries - count = settings.maxRetries - (count + 1) + 1 := by omega
  rw [call_after early.le before sleepable, left, attempts]
  simp only [raises, faulty]

theorem script_cases (script : Script Value Error Interrupt) (limit : Nat) :
    (∃ first ≤ limit, script.FailsBefore first ∧ ¬ (script.attempts first).Fails) ∨
    (script.FailsBefore limit ∧ (script.attempts limit).Fails) ∨
    ∃ sleep < limit, script.FailsBefore sleep ∧ (script.attempts sleep).Fails ∧
      ∃ interrupt, script.interrupts sleep = some interrupt := by
  induction limit with
  | zero =>
    have before : script.FailsBefore 0 := fun attempt early => absurd early (Nat.not_lt_zero attempt)
    by_cases fails : (script.attempts 0).Fails
    · exact .inr (.inl ⟨before, fails⟩)
    · exact .inl ⟨0, le_rfl, before, fails⟩
  | succ limit ih =>
    rcases ih with ⟨first, bound, stops⟩ | ⟨before, fails⟩ | ⟨sleep, early, interrupted⟩
    · exact .inl ⟨first, Nat.le_succ_of_le bound, stops⟩
    · cases passes : script.interrupts limit with
      | some interrupt => exact .inr (.inr ⟨limit, Nat.lt_succ_self limit, before, fails, interrupt, passes⟩)
      | none =>
        have longer : script.FailsBefore (limit + 1) := by
          intro attempt early
          rcases Nat.lt_succ_iff_lt_or_eq.mp early with earlier | rfl
          · exact before attempt earlier
          · exact ⟨fails, passes⟩
        by_cases next : (script.attempts (limit + 1)).Fails
        · exact .inr (.inl ⟨longer, next⟩)
        · exact .inl ⟨limit + 1, le_rfl, longer, next⟩
    · exact .inr (.inr ⟨sleep, Nat.lt_succ_of_lt early, interrupted⟩)

theorem ending_not_faulted {settings : Settings} {script : Script Value Error Interrupt}
    (specified : AsSpecified settings script) {events : List Event} {fault : Fault} :
    call settings script ≠ (events, .faulted fault) := by
  intro faulted
  rcases script_cases script settings.maxRetries with
    ⟨first, bound, before, stops⟩ | ⟨before, exception, raises⟩ | ⟨sleep, early, before, fails, interrupt, interrupted⟩
  · rw [specified.stops first bound before stops] at faulted
    cases ends : script.attempts first <;> simp [ends, Attempt.ending] at faulted
  · rw [specified.exhausted before exception raises] at faulted
    simp at faulted
  · rw [specified.interrupted sleep early before fails interrupt interrupted] at faulted
    simp at faulted

theorem asSpecified_iff_sleeps : AsSpecified settings script ↔ Sleeps settings script := by
  refine ⟨fun specified => ?_, asSpecified_of_sleeps⟩
  -- By strong induction, the delays before this one could be slept.
  intro attempt
  induction attempt using Nat.strong_induction_on with
  | _ attempt ih =>
    intro early before fails
    rw [← fault_eq_none_iff settings (script.draws attempt) attempt]
    cases faulty : settings.fault (script.draws attempt) attempt with
    | none => rfl
    | some fault =>
      have sleepable : ∀ earlier < attempt, settings.Sleepable earlier := fun earlier order =>
        ih earlier order (order.trans early) (before.mono order.le) (before earlier order).1
      exact absurd (call_faulted early before fails sleepable faulty) (ending_not_faulted specified)

/-! ## Floats under an ordinary cap -/

section

variable {base : ℚ} {small : |base| < overflow}

theorem sleepFault_ordinary (ordinary : delay.Ordinary) : sleepFault delay = none := by
  cases delay with
  | int seconds => exact if_pos (.inr ordinary)
  | float seconds =>
    cases seconds with
    | finite => rfl
    | infinity | nan => exact ordinary.elim

theorem capped_ordinary (float : settings.baseDelay = .float (.finite base small)) (nonneg : 0 ≤ base)
    (cap : settings.maxDelay.Ordinary) (early : attempt < 1024) : (settings.capped attempt).Ordinary := by
  have power : Floating.ofExact (2 ^ attempt) = .finite (2 ^ attempt)
      (by simpa using (Number.two_pow_small_iff attempt).mpr early) := Floating.ofExact_small _
  have product : (Floating.finite base small).mul (.ofExact (2 ^ attempt)) = .ofExact (base * 2 ^ attempt) := by
    rw [power]
    rfl
  rw [Settings.capped, float]
  simp only [product]
  by_cases fits : |base * 2 ^ attempt| < overflow
  · rw [Floating.ofExact_small fits, Number.min]
    split
    next => exact cap
    next => trivial
  · have positive : ¬ base * 2 ^ attempt < 0 := not_lt.mpr (by positivity)
    have less : settings.maxDelay.less (.float (.infinity false)) = true := by
      cases limit : settings.maxDelay with
      | int value => rfl
      | float value =>
        rw [limit] at cap
        cases value with
        | finite => rfl
        | infinity | nan => exact cap.elim
    rw [Floating.ofExact, dif_neg fits, decide_eq_false positive, Number.min, if_pos less]
    exact cap

theorem sleepable_iff_early (float : settings.baseDelay = .float (.finite base small)) (nonneg : 0 ≤ base)
    (cap : settings.maxDelay.Ordinary) : settings.Sleepable attempt ↔ attempt < 1024 := by
  constructor
  · intro sleepable
    exact sleepable.doubled _ float
  · intro early
    have ordinary := capped_ordinary float nonneg cap early
    exact ⟨fun _ _ => early, fun _ => ordinary, fun _ => sleepFault_ordinary ordinary⟩

theorem sleeps_iff_early (float : settings.baseDelay = .float (.finite base small)) (nonneg : 0 ≤ base)
    (cap : settings.maxDelay.Ordinary) (script : Script Value Error Interrupt) :
    Sleeps settings script ↔
      settings.maxRetries ≤ 1024 ∨ ¬ (script.FailsBefore 1024 ∧ (script.attempts 1024).Fails) := by
  constructor
  · intro sleeps
    by_contra both
    obtain ⟨more, before, fails⟩ := not_or.mp both |>.imp_right not_not.mp
    exact absurd ((sleepable_iff_early float nonneg cap).mp (sleeps 1024 (by omega) before fails)) (lt_irrefl _)
  · intro few attempt early before fails
    rw [sleepable_iff_early float nonneg cap]
    by_contra late
    rcases few with few | ends
    · omega
    · rcases Nat.lt_or_eq_of_le (Nat.not_lt.mp late) with later | rfl
      · exact ends ⟨before.mono later.le, (before 1024 later).1⟩
      · exact ends ⟨before, fails⟩

end

/-- The loop does as specified exactly if every delay that it comes to can be computed
and slept. For a float from 0 on and a cap that is a float or fits one, this is so
up to 1024 retries, or if the call does not come to the failure of attempt 1024. -/
theorem retry_loop_iff (settings : Settings) (script : Script Value Error Interrupt) :
    (AsSpecified settings script ↔ Sleeps settings script) ∧
    (∀ base small, settings.baseDelay = .float (.finite base small) → 0 ≤ base → settings.maxDelay.Ordinary →
      (AsSpecified settings script ↔
        settings.maxRetries ≤ 1024 ∨ ¬ (script.FailsBefore 1024 ∧ (script.attempts 1024).Fails))) ∧
    ∀ count, (rounds count ++ [Event.invoked]).count Event.invoked = count + 1 ∧
      (rounds count ++ [Event.invoked]).count Event.slept = count := by
  refine ⟨asSpecified_iff_sleeps, fun _ _ float nonneg cap =>
    asSpecified_iff_sleeps.trans (sleeps_iff_early float nonneg cap script), fun count => ?_⟩
  obtain ⟨invoked, slept⟩ := count_rounds count
  simp [List.count_append, invoked, slept]

def defaults (maxRetries : Nat) : Settings where
  maxRetries := maxRetries
  baseDelay := .float (.finite 1 (small_of_le (by norm_num)))
  maxDelay := .float (.finite 60 (small_of_le (by norm_num)))
  jitter := true

def failing : Script Unit Unit Unit where
  attempts _ := .fails ()
  draws _ := ⟨0, le_rfl, by norm_num⟩
  interrupts _ := none

theorem defaults_asSpecified : AsSpecified (defaults 3) failing :=
  ((retry_loop_iff (defaults 3) failing).2.1 1 _ rfl (by norm_num) trivial).mpr (.inl (by decide))

theorem failing_failsBefore (count : Nat) : failing.FailsBefore count := fun _ _ => ⟨⟨(), rfl⟩, rfl⟩

theorem defaults_sleepable {maxRetries : Nat} : (defaults maxRetries).Sleepable attempt ↔ attempt < 1024 :=
  sleepable_iff_early rfl (by norm_num) trivial

/-- With 1025 retries and the other defaults, the delay after attempt 1024 raises
`OverflowError`: there is neither a last attempt nor the exception of one. -/
theorem delay_overflows :
    call (defaults 1025) failing = (rounds 1024 ++ [.invoked], .faulted .overflowError) ∧
      ¬ AsSpecified (defaults 1025) failing := by
  have faulty : (defaults 1025).fault (failing.draws 1024) 1024 = some .overflowError := by
    rcases scaled_cases (defaults 1025) 1024 with ⟨doubled, -⟩ | ⟨-, raised⟩
    · exact absurd (doubled _ rfl) (lt_irrefl _)
    · have delayed : (defaults 1025).delay (failing.draws 1024) 1024 = .error .overflowError := by
        rw [Settings.delay, raised]
        rfl
      rw [Settings.fault, delayed, faultOf]
  have more : 1024 < (defaults 1025).maxRetries := by decide
  have faulted : call (defaults 1025) failing = (rounds 1024 ++ [.invoked], .faulted .overflowError) :=
    call_faulted more (failing_failsBefore 1024) ⟨(), rfl⟩ (fun attempt early => defaults_sleepable.mpr early) faulty
  exact ⟨faulted, fun specified => ending_not_faulted specified faulted⟩

/-! ## The loop with exact delays -/

def Script.exact (script : Script Value Error Interrupt) (uniform : Nat → ℚ → ℚ → ℚ) :
    ExponentialBackoff.Script Value Error Interrupt where
  attempts := script.attempts
  uniform := uniform
  interrupts := script.interrupts

def Event.of : ExponentialBackoff.Event → Event
  | .invoked => .invoked
  | .slept _ => .slept

/-- A fault has no counterpart where delays are exact. -/
def Ending.outcome : Ending Value Error Interrupt → Option (Execution.Outcome Value Error)
  | .returned value => some (.returned value)
  | .raised exception => some (.raised exception)
  | .interrupted _ => some .cancelled
  | .faulted _ => none

variable {policy : ExponentialBackoff} {uniform : Nat → ℚ → ℚ → ℚ}

theorem attempts_exact (sleepable : ∀ attempt < settings.maxRetries, settings.Sleepable attempt) (left attempt : Nat)
    (total : attempt + left = settings.maxRetries) {events : List Event} {trace : Trace Interrupt}
    (same : trace.events.map Event.of = events) (slept : trace.sleeps.length = attempt) :
    (policy.attempts (script.exact uniform).surroundings left attempt trace).1.events.map Event.of =
        (attempts settings script left attempt events).1 ∧
      (attempts settings script left attempt events).2.outcome =
        some (policy.attempts (script.exact uniform).surroundings left attempt trace).2 := by
  induction left generalizing attempt events trace with
  | zero =>
    rw [attempts, ExponentialBackoff.attempts, func_surroundings]
    cases ends : script.attempts attempt <;>
      simp [Script.exact, ends, Attempt.outcome, Ending.outcome, same, Event.of]
  | succ left ih =>
    rw [attempts, ExponentialBackoff.attempts, func_surroundings]
    have faultless := (fault_eq_none_iff settings (script.draws attempt) attempt).mpr (sleepable attempt (by omega))
    cases ends : script.attempts attempt with
    | returns value => simp [Script.exact, ends, Attempt.outcome, Ending.outcome, same, Event.of]
    | interrupted interrupt => simp [Script.exact, ends, Attempt.outcome, Ending.outcome, same, Event.of]
    | fails exception =>
      have attempted : (script.exact uniform).attempts attempt = .fails exception := ends
      have passes (trace : Trace Interrupt) (same : trace.sleeps.length = attempt) :
          (script.exact uniform).interrupts trace.sleeps.length = script.interrupts attempt := by rw [same]; rfl
      have before : (⟨trace.events ++ [.invoked], none⟩ : Trace Interrupt).sleeps.length = attempt := by
        rw [sleeps_invoked]
        exact slept
      simp only [attempted, Attempt.outcome, Attempt.interrupt, sleep_surroundings, passes _ before, faultless]
      cases interrupted : script.interrupts attempt with
      | some interrupt => simp [Ending.outcome, Event.of, same]
      | none =>
        apply ih (attempt + 1) (by omega)
        · simp [Event.of, same]
        · simp only [Trace.sleeps] at slept ⊢
          simp [slept]

/-- Where every delay can be slept, the call invokes, sleeps and ends as with exact delays. -/
theorem call_exact (sleepable : ∀ attempt < settings.maxRetries, settings.Sleepable attempt)
    (retries : policy.maxRetries = settings.maxRetries) :
    (policy.call (script.exact uniform)).1.events.map Event.of = (call settings script).1 ∧
      (call settings script).2.outcome = some (policy.call (script.exact uniform)).2 := by
  rw [ExponentialBackoff.call, ExponentialBackoff.wrapper, retries]
  exact attempts_exact sleepable settings.maxRetries 0 (Nat.zero_add _) rfl rfl

end DataPipeline.Platform.RetryLoop
