import DataPipeline.Platform.Retry
import Mathlib.Algebra.Order.Ring.Unbundled.Rat
import Mathlib.Tactic.Positivity

/-! The attempts and the sleeps of a function decorated by `exponential_backoff`.

The coroutine is a sequence of outcomes, and every sleep either passes or is
interrupted. A call leaves a trace of what it has done, in order.
-/

set_option autoImplicit false

namespace DataPipeline.Platform.ExponentialBackoff

open Execution

/-- How one invocation ends. An interrupt is a `BaseException` that is no
`Exception`, such as `CancelledError`. -/
inductive Attempt (Value Error Interrupt : Type) where
  | returns (value : Value)
  | fails (exception : Error)
  | interrupted (interrupt : Interrupt)

inductive Event where
  | invoked
  | slept (seconds : ℚ)
  deriving DecidableEq

/-- What a call has done so far, and the interrupt that is on its way out. -/
structure Trace (Interrupt : Type) where
  events : List Event
  raising : Option Interrupt

variable {Value Error Interrupt : Type}

def Trace.empty : Trace Interrupt := ⟨[], none⟩

def Attempt.outcome : Attempt Value Error Interrupt → Outcome Value Error
  | .returns value => .returned value
  | .fails exception => .raised exception
  | .interrupted _ => .cancelled

def Attempt.interrupt : Attempt Value Error Interrupt → Option Interrupt
  | .interrupted interrupt => some interrupt
  | .returns _ | .fails _ => none

def Attempt.Fails (attempt : Attempt Value Error Interrupt) : Prop := ∃ exception, attempt = .fails exception

/-- The outcomes of the invocations, the draws of the jitter, and for each sleep
the interrupt that ends it, if one does. -/
structure Script (Value Error Interrupt : Type) where
  attempts : Nat → Attempt Value Error Interrupt
  uniform : Nat → ℚ → ℚ → ℚ
  interrupts : Nat → Option Interrupt

def Trace.sleeps (trace : Trace Interrupt) : List ℚ :=
  trace.events.filterMap fun
    | .slept seconds => some seconds
    | .invoked => none

def Script.surroundings (script : Script Value Error Interrupt) : Surroundings (Trace Interrupt) Value Error where
  func attempt trace :=
    (⟨trace.events ++ [.invoked], (script.attempts attempt).interrupt⟩, (script.attempts attempt).outcome)
  uniform := script.uniform
  sleep seconds trace :=
    let interrupt := script.interrupts trace.sleeps.length
    (⟨trace.events ++ [.slept seconds], interrupt⟩, interrupt.isSome)

/-- A call of the decorated function, from its first attempt on. -/
def call (policy : ExponentialBackoff) (script : Script Value Error Interrupt) :
    Trace Interrupt × Outcome Value Error := policy.wrapper script.surroundings .empty

def pause (policy : ExponentialBackoff) (script : Script Value Error Interrupt) (attempt : Nat) : ℚ :=
  policy.delay (script.uniform attempt) attempt

def rounds (policy : ExponentialBackoff) (script : Script Value Error Interrupt) (count : Nat) : List Event :=
  (List.range count).flatMap fun attempt => [.invoked, .slept (policy.pause script attempt)]

variable {policy : ExponentialBackoff} {script : Script Value Error Interrupt} {count : Nat}

theorem func_surroundings (attempt : Nat) (trace : Trace Interrupt) : script.surroundings.func attempt trace =
    (⟨trace.events ++ [.invoked], (script.attempts attempt).interrupt⟩, (script.attempts attempt).outcome) := rfl

theorem sleep_surroundings (seconds : ℚ) (trace : Trace Interrupt) : script.surroundings.sleep seconds trace =
    (⟨trace.events ++ [.slept seconds], script.interrupts trace.sleeps.length⟩,
      (script.interrupts trace.sleeps.length).isSome) := rfl

/-! ## Rounds -/

theorem rounds_succ : policy.rounds script (count + 1) =
    policy.rounds script count ++ [.invoked, .slept (policy.pause script count)] := by
  simp [rounds, List.range_succ]

theorem sleeps_rounds (policy : ExponentialBackoff) (script : Script Value Error Interrupt) (count : Nat)
    (interrupt : Option Interrupt) :
    (⟨policy.rounds script count, interrupt⟩ : Trace Interrupt).sleeps =
      (List.range count).map (policy.pause script) := by
  induction count with
  | zero => rfl
  | succ count ih =>
    simp only [Trace.sleeps] at ih ⊢
    rw [rounds_succ, List.filterMap_append, ih, List.range_succ, List.map_append]
    rfl

theorem sleeps_invoked (events : List Event) (interrupt : Option Interrupt) :
    (⟨events ++ [.invoked], interrupt⟩ : Trace Interrupt).sleeps = (⟨events, interrupt⟩ : Trace Interrupt).sleeps := by
  simp [Trace.sleeps]

def Script.FailsBefore (script : Script Value Error Interrupt) (count : Nat) : Prop :=
  ∀ attempt < count, (script.attempts attempt).Fails ∧ script.interrupts attempt = none

theorem Script.FailsBefore.fails (before : script.FailsBefore count) :
    policy.Fails script.surroundings (fun attempt => ⟨policy.rounds script attempt, none⟩) count := by
  intro attempt early
  obtain ⟨⟨exception, raises⟩, passes⟩ := before attempt early
  refine ⟨⟨policy.rounds script attempt ++ [.invoked], none⟩, exception, ?_, ?_⟩
  · simp only [surroundings, raises, Attempt.interrupt, Attempt.outcome]
  · have slept : (⟨policy.rounds script attempt ++ [.invoked], none⟩ : Trace Interrupt).sleeps.length = attempt := by
      rw [sleeps_invoked, sleeps_rounds, List.length_map, List.length_range]
    simp only [surroundings, slept, passes, rounds_succ, pause]
    simp

/-! ## How a call goes -/

theorem call_after (enough : count ≤ policy.maxRetries) (before : script.FailsBefore count) :
    policy.call script = policy.attempts script.surroundings (policy.maxRetries - count) count
      ⟨policy.rounds script count, none⟩ :=
  wrapper_after enough before.fails

theorem call_exhausted {exception : Error} (before : script.FailsBefore policy.maxRetries)
    (fails : script.attempts policy.maxRetries = .fails exception) :
    policy.call script = (⟨policy.rounds script policy.maxRetries ++ [.invoked], none⟩, .raised exception) := by
  rw [call_after le_rfl before, Nat.sub_self]
  unfold attempts
  simp only [Script.surroundings, fails, Attempt.outcome, Attempt.interrupt]

/-! ## How long it sleeps -/

def capped (policy : ExponentialBackoff) (attempt : Nat) : ℚ :=
  min (policy.baseDelay * 2 ^ attempt) policy.maxDelay

def drawn (policy : ExponentialBackoff) (uniform : Nat → ℚ → ℚ → ℚ) (attempt : Nat) : ℚ :=
  uniform attempt (-(policy.capped attempt / 5)) (policy.capped attempt / 5)

def IsUniform (uniform : Nat → ℚ → ℚ → ℚ) : Prop :=
  ∀ attempt low high, low ≤ high → low ≤ uniform attempt low high ∧ uniform attempt low high ≤ high

structure WithinBounds (policy : ExponentialBackoff) (script : Script Value Error Interrupt) : Prop where
  bounded : ∀ seconds ∈ (policy.call script).1.sleeps, 0 ≤ seconds ∧ seconds ≤ policy.maxDelay
  increasing : policy.jitter = false → (policy.call script).1.sleeps.Pairwise (· ≤ ·)

theorem pause_eq : policy.pause script count =
    if policy.jitter then policy.capped count + policy.drawn script.uniform count else policy.capped count := rfl

theorem sleeps_attempts (policy : ExponentialBackoff) (script : Script Value Error Interrupt) (left attempt : Nat)
    (trace : Trace Interrupt) :
    ∃ slept ≤ left, (policy.attempts script.surroundings left attempt trace).1.sleeps =
      trace.sleeps ++ (List.range' attempt slept).map (policy.pause script) := by
  induction left generalizing attempt trace with
  | zero =>
    refine ⟨0, le_rfl, ?_⟩
    rw [attempts, func_surroundings]
    cases script.attempts attempt <;> simp [Attempt.outcome, Trace.sleeps]
  | succ left ih =>
    rw [attempts, func_surroundings]
    cases script.attempts attempt with
    | returns value => exact ⟨0, Nat.zero_le _, by simp [Attempt.outcome, Trace.sleeps]⟩
    | interrupted interrupt => exact ⟨0, Nat.zero_le _, by simp [Attempt.outcome, Trace.sleeps]⟩
    | fails exception =>
      simp only [Attempt.outcome, sleep_surroundings]
      generalize script.interrupts _ = interrupt
      have slept (rest : List ℚ) : (⟨trace.events ++ [.invoked] ++ [.slept (policy.pause script attempt)], interrupt⟩ :
          Trace Interrupt).sleeps ++ rest = trace.sleeps ++ policy.pause script attempt :: rest := by
        simp [Trace.sleeps]
      cases interrupt with
      | some interrupt =>
        refine ⟨1, by omega, ?_⟩
        rw [List.range'_one, List.map_singleton, ← slept, List.append_nil]
        rfl
      | none =>
        obtain ⟨more, bound, same⟩ := ih (attempt + 1)
          ⟨trace.events ++ [.invoked] ++ [.slept (policy.pause script attempt)], none⟩
        refine ⟨more + 1, Nat.succ_le_succ bound, ?_⟩
        rw [List.range'_succ, List.map_cons, ← slept, ← same]
        rfl

theorem sleeps_call (policy : ExponentialBackoff) (script : Script Value Error Interrupt) :
    ∃ slept ≤ policy.maxRetries, (policy.call script).1.sleeps = (List.range slept).map (policy.pause script) := by
  obtain ⟨slept, bound, same⟩ := sleeps_attempts policy script policy.maxRetries 0 .empty
  refine ⟨slept, bound, ?_⟩
  rw [List.range_eq_range']
  exact same

theorem sleeps_of_exhausted {exception : Error} (before : script.FailsBefore policy.maxRetries)
    (fails : script.attempts policy.maxRetries = .fails exception) :
    (policy.call script).1.sleeps = (List.range policy.maxRetries).map (policy.pause script) := by
  rw [call_exhausted before fails]
  exact (sleeps_invoked _ none).trans (sleeps_rounds policy script policy.maxRetries none)

section

variable (base : 0 ≤ policy.baseDelay) (cap : 0 ≤ policy.maxDelay)
include base cap

theorem capped_nonneg (attempt : Nat) : 0 ≤ policy.capped attempt :=
  le_min (mul_nonneg base (by positivity)) cap

omit base cap in
theorem capped_le (attempt : Nat) : policy.capped attempt ≤ policy.maxDelay := min_le_right _ _

omit cap in
theorem capped_mono {first second : Nat} (order : first ≤ second) :
    policy.capped first ≤ policy.capped second := by
  apply min_le_min_right
  exact mul_le_mul_of_nonneg_left (pow_le_pow_right₀ (by norm_num) order) base

theorem pause_nonneg (uniform : IsUniform script.uniform) (attempt : Nat) : 0 ≤ policy.pause script attempt := by
  have positive := capped_nonneg base cap attempt
  rw [pause_eq]
  split
  next =>
    have low := (uniform attempt (-(policy.capped attempt / 5)) (policy.capped attempt / 5) (by linarith)).1
    rw [drawn]
    linarith
  next => exact positive

end

theorem pairwise_sleeps (base : 0 ≤ policy.baseDelay) (plain : policy.jitter = false)
    (script : Script Value Error Interrupt) : (policy.call script).1.sleeps.Pairwise (· ≤ ·) := by
  obtain ⟨slept, -, same⟩ := sleeps_call policy script
  rw [same, List.pairwise_map]
  refine List.pairwise_lt_range.imp fun order => ?_
  rw [pause_eq, pause_eq, plain]
  exact capped_mono base order.le

/-- Every attempt fails, and nothing interrupts a sleep. -/
def exhausting [Inhabited Error] (uniform : Nat → ℚ → ℚ → ℚ) : Script Value Error Interrupt where
  attempts _ := .fails default
  uniform := uniform
  interrupts _ := none

theorem sleeps_exhausting [Inhabited Error] (policy : ExponentialBackoff) (uniform : Nat → ℚ → ℚ → ℚ) :
    (policy.call (exhausting uniform : Script Value Error Interrupt)).1.sleeps =
      (List.range policy.maxRetries).map (policy.pause (exhausting uniform : Script Value Error Interrupt)) :=
  sleeps_of_exhausted (fun _ _ => ⟨⟨default, rfl⟩, rfl⟩) rfl

/-- Some draws keep the sleeps within their bounds exactly if none of them takes a
delay beyond what the cap has left of it. -/
theorem draws_within_iff [Inhabited Error] (base : 0 ≤ policy.baseDelay) (cap : 0 ≤ policy.maxDelay)
    {uniform : Nat → ℚ → ℚ → ℚ} (isUniform : IsUniform uniform) :
    (∀ script : Script Value Error Interrupt, script.uniform = uniform → policy.WithinBounds script) ↔
      (policy.jitter = true → ∀ attempt < policy.maxRetries,
        policy.drawn uniform attempt ≤ policy.maxDelay - policy.capped attempt) := by
  constructor
  · intro within jittered attempt early
    have bounded := (within (exhausting uniform) rfl).bounded
    rw [sleeps_exhausting] at bounded
    have upper := (bounded _ (List.mem_map_of_mem (List.mem_range.mpr early))).2
    rw [pause_eq, if_pos jittered] at upper
    exact le_sub_iff_add_le'.mpr upper
  · rintro draws script rfl
    refine ⟨?_, fun plain => pairwise_sleeps base plain script⟩
    obtain ⟨slept, bound, same⟩ := sleeps_call policy script
    rw [same]
    intro seconds member
    obtain ⟨attempt, early, rfl⟩ := List.mem_map.mp member
    refine ⟨pause_nonneg base cap isUniform attempt, ?_⟩
    rw [pause_eq]
    split
    next jittered =>
      exact le_sub_iff_add_le'.mp (draws jittered attempt ((List.mem_range.mp early).trans_le bound))
    next => exact capped_le attempt

/-- The cap comes before the jitter, so it bounds the sleeps exactly if there is no
jitter, no sleep or no delay, or the cap is never so near that the jitter goes beyond it. -/
theorem within_bounds_iff [Inhabited Error] (policy : ExponentialBackoff) (base : 0 ≤ policy.baseDelay)
    (cap : 0 ≤ policy.maxDelay) :
    ((∀ script : Script Value Error Interrupt, IsUniform script.uniform → policy.WithinBounds script) ↔
      policy.jitter = false ∨ policy.maxRetries = 0 ∨ policy.maxDelay = 0 ∨
        6 * (policy.baseDelay * 2 ^ (policy.maxRetries - 1)) ≤ 5 * policy.maxDelay) ∧
    ∀ uniform, IsUniform uniform →
      ((∀ script : Script Value Error Interrupt, script.uniform = uniform → policy.WithinBounds script) ↔
        (policy.jitter = true → ∀ attempt < policy.maxRetries,
          policy.drawn uniform attempt ≤ policy.maxDelay - policy.capped attempt)) := by
  refine ⟨⟨fun within => ?_, fun room script isUniform => ?_⟩, fun uniform => draws_within_iff base cap⟩
  · by_contra tight
    simp only [not_or, Bool.not_eq_false, not_le] at tight
    obtain ⟨jittered, retries, delays, beyond⟩ := tight
    -- The largest draw after the last attempt but one.
    have highest : IsUniform fun _ _ high => high := fun _ _ _ order => ⟨order, le_rfl⟩
    have draws := (draws_within_iff base cap highest).mp
      (fun script same => within script (same ▸ highest)) jittered (policy.maxRetries - 1) (by omega)
    have positive : 0 < policy.maxDelay := lt_of_le_of_ne cap (Ne.symm delays)
    rcases min_choice (policy.baseDelay * 2 ^ (policy.maxRetries - 1)) policy.maxDelay with least | least <;>
      · rw [drawn, capped, least] at draws
        linarith
  · refine (draws_within_iff base cap isUniform).mpr (fun jittered attempt early => ?_) script rfl
    have nonneg := capped_nonneg base cap attempt
    have upper : policy.drawn script.uniform attempt ≤ policy.capped attempt / 5 :=
      (isUniform attempt _ _ (by linarith)).2
    have below : policy.capped attempt ≤ policy.maxDelay := capped_le attempt
    rcases room with plain | none | zero | room
    · rw [plain] at jittered
      cases jittered
    · omega
    · linarith
    · have last : policy.capped attempt ≤ policy.baseDelay * 2 ^ (policy.maxRetries - 1) :=
        (capped_mono base (by omega : attempt ≤ policy.maxRetries - 1)).trans (min_le_left _ _)
      linarith

/-- Three retries from one second on leave room under a cap of ten, also for the largest draws. -/
theorem ten_seconds_suffice : ({ maxDelay := 10 } : ExponentialBackoff).WithinBounds
    (exhausting fun _ _ high => high : Script Unit Unit Unit) :=
  (@within_bounds_iff Unit Unit Unit _ { maxDelay := 10 } (by norm_num) (by norm_num)).1.mpr (by norm_num) _
    fun _ _ _ order => ⟨order, le_rfl⟩

/-- With seven retries and the other defaults, the last sleep may take 72 of the 60 seconds. -/
theorem seventh_sleep_exceeds : ¬ ∀ script : Script Unit Unit Unit, IsUniform script.uniform →
    ({ maxRetries := 7 } : ExponentialBackoff).WithinBounds script := by
  intro within
  have highest : IsUniform fun _ _ high => high := fun _ _ _ order => ⟨order, le_rfl⟩
  have draws := (@draws_within_iff Unit Unit Unit { maxRetries := 7 } _ (by norm_num) (by norm_num) _ highest).mp
    (fun script same => within script (same ▸ highest)) rfl 6 (by norm_num)
  norm_num [drawn, capped] at draws

end DataPipeline.Platform.ExponentialBackoff
