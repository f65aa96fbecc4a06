import DataPipeline.Ingestor.SlidingWindow
import DataPipeline.Ingestor.TokenBucket

/-! Whether the waiting times that the limiters name are exact when nothing is added to them. -/

set_option autoImplicit false

namespace DataPipeline.Ingestor

open Execution Limiter

@[simp] theorem applyJitter_zero {value : ℚ} (positive : 0 ≤ value) (draw : ℚ) :
    applyJitter value 0 0 draw = value := by
  simp only [applyJitter, sub_self, zero_mul, add_zero]
  exact max_eq_right positive

/-! ## Token bucket -/

namespace TokenBucketLimiter

variable {limiter : TokenBucketLimiter} {entry : Option Bucket} {looked now clock : ℚ}

def wait (limiter : TokenBucketLimiter) (entry : Option Bucket) (now : ℚ) : ℚ :=
  max 0 ((1 - limiter.level entry now) / limiter.refillPerSecond)

theorem secondsUntilToken_unjittered (rate : 0 < limiter.refillPerSecond) (entry : Option Bucket)
    (order : looked ≤ now) (draw : ℚ) :
    limiter.secondsUntilToken entry looked now 0 0 draw = some (limiter.wait entry now) := by
  simp only [secondsUntilToken, refilled_getD rate.le entry order, wait]
  by_cases there : 1 - limiter.level entry now ≤ 0
  · rw [if_pos there, max_eq_left (div_nonpos_of_nonpos_of_nonneg there rate.le)]
  · have positive := (div_pos (not_le.mp there) rate).le
    rw [if_neg there, if_neg rate.ne', max_eq_right positive, applyJitter_zero positive]

theorem allowed_iff (refills : 0 ≤ limiter.refillPerSecond) (entry : Option Bucket) {request : Consume}
    (order : request.created ≤ request.now) :
    (limiter.policy.serve entry request).2.allowed = true ↔ request.tokens ≤ limiter.level entry request.now := by
  simp only [policy]
  rcases consume_cases refills entry order with ⟨enough, served⟩ | ⟨short, served⟩
  · exact iff_of_true (by rw [served]) enough
  · exact iff_of_false (by rw [served]; exact Bool.false_ne_true) short.not_ge

/-- In every state, whatever calls led to it, a token can be consumed exactly from the
time on that `seconds_until_token` names, if the key is not called meanwhile. -/
theorem seconds_until_token_exact (limiter : TokenBucketLimiter) (room : 1 ≤ limiter.capacity)
    (rate : 0 < limiter.refillPerSecond) (world : World String (Option Bucket) ℚ) (key : String)
    (looked now draw : ℚ) (order : looked ≤ now) :
    ∃ wait, limiter.secondsUntilToken (world.states key) looked now 0 0 draw = some wait ∧ 0 ≤ wait ∧
      ∀ reached created time, Undisturbed limiter.policy key world reached → created ≤ time → now ≤ time →
        ((reached.answer limiter.policy ⟨key, ⟨1, created, time⟩⟩).allowed = true ↔ now + wait ≤ time) := by
  refine ⟨_, secondsUntilToken_unjittered rate _ order draw, le_max_left _ _, ?_⟩
  intro reached created time undisturbed reading later
  have capacity : (1 : ℚ) ≤ limiter.capacity := by exact_mod_cast room
  have passed : 0 ≤ time - now := sub_nonneg.mpr later
  rw [World.answer, undisturbed.states, allowed_iff rate.le _ reading]
  simp only [Int.cast_one]
  rw [le_level_iff rate.le _ capacity later, ← div_le_iff₀ rate, ← le_sub_iff_add_le', wait, max_le_iff]
  exact (and_iff_right passed).symm

/-- A bucket of one token that is refilled in a second. -/
theorem one_second_exact :
    ∃ wait, (⟨1, 1⟩ : TokenBucketLimiter).secondsUntilToken (some ⟨0, 0⟩) 0 0 0 0 0 = some wait ∧ 0 ≤ wait ∧
      ∀ reached created time,
        Undisturbed (policy ⟨1, 1⟩) "a" ⟨fun _ => some ⟨0, 0⟩, 0⟩ reached → created ≤ time → 0 ≤ time →
        ((reached.answer (policy ⟨1, 1⟩) ⟨"a", ⟨1, created, time⟩⟩).allowed = true ↔ 0 + wait ≤ time) :=
  seconds_until_token_exact ⟨1, 1⟩ (by decide) (by norm_num) ⟨fun _ => some ⟨0, 0⟩, 0⟩ "a" 0 0 0 le_rfl

end TokenBucketLimiter

/-! ## Sliding window -/

namespace SlidingWindowLimiter

variable {limiter : SlidingWindowLimiter} {world : World String (List ℚ) ℚ} {calls : List (Call String ℚ)}
  {key : String} {clock now : ℚ}

/-- Once the wait is over a call of the key is admitted, and at every earlier time
it is denied, if the key is not called meanwhile. -/
def WaitExact (limiter : SlidingWindowLimiter) (world : World String (List ℚ) ℚ) (key : String) (now wait : ℚ) : Prop :=
  ∀ reached time, Undisturbed limiter.policy key world reached → reached.clock ≤ time → now ≤ time →
    (time = now + wait → (reached.answer limiter.policy ⟨key, time⟩).allowed = true) ∧
    (time < now + wait → (reached.answer limiter.policy ⟨key, time⟩).allowed = false)

theorem allowed_iff (limiter : SlidingWindowLimiter) (window : List ℚ) (now : ℚ) :
    (limiter.isAllowed window now).2.allowed = true ↔
      (evict (now - limiter.windowSeconds) window).length < limiter.limit := by
  rcases isAllowed_cases limiter window now with ⟨room, served⟩ | ⟨full, served⟩
  · exact iff_of_true (by rw [served]) room
  · exact iff_of_false (by rw [served]; exact Bool.false_ne_true) (Nat.not_lt.mpr full)

theorem window_of_denied (positive : 1 ≤ limiter.limit)
    (ran : (machine String limiter.policy).run (empty clock) calls = some world) (order : world.clock ≤ now)
    (denied : (world.answer limiter.policy ⟨key, now⟩).allowed = false) :
    ∃ oldest rest, (world.serve limiter.policy ⟨key, now⟩).states key = oldest :: rest ∧
      (oldest :: rest).length = limiter.limit ∧ now ≤ oldest + limiter.windowSeconds := by
  have recalls := recalls_run key ran
  have held := recalls.length_evict order
  have most := recalls.admittedIn_le now
  rcases isAllowed_cases limiter (world.states key) now with ⟨-, served⟩ | ⟨full, served⟩
  · simp [World.answer, policy, served] at denied
  · obtain ⟨oldest, rest, kept⟩ := List.exists_cons_of_length_pos (positive.trans full)
    refine ⟨oldest, rest, ?_, ?_, ?_⟩
    · have written : (world.serve limiter.policy ⟨key, now⟩).states key =
          (limiter.isAllowed (world.states key) now).1 := World.states_serve_self
      rw [written, served, kept]
    · rw [← kept]
      omega
    · have inside := head_evict kept
      linarith

/-- After a denial calls are admitted only later than the time that `reset_in`
names: at that very time the oldest call is still in the window. -/
theorem wait_never_exact (limiter : SlidingWindowLimiter) (positive : 1 ≤ limiter.limit) (clock : ℚ)
    (calls : List (Call String ℚ)) (world : World String (List ℚ) ℚ)
    (ran : (machine String limiter.policy).run (empty clock) calls = some world) (key : String) (now draw : ℚ)
    (order : world.clock ≤ now) (denied : (world.answer limiter.policy ⟨key, now⟩).allowed = false) :
    let after := world.serve limiter.policy ⟨key, now⟩
    let wait := limiter.resetIn (after.states key) now 0 0 draw
    ¬ limiter.WaitExact after key now wait ∧
      ∀ reached time, Undisturbed limiter.policy key after reached → now ≤ time →
        ((reached.answer limiter.policy ⟨key, time⟩).allowed = true ↔ now + wait < time) := by
  intro after wait
  obtain ⟨oldest, rest, window, full, inside⟩ := window_of_denied positive ran order denied
  have remaining : 0 ≤ oldest + limiter.windowSeconds - now := sub_nonneg.mpr inside
  have waits : now + wait = oldest + limiter.windowSeconds := by
    simp only [wait, after, window, resetIn, max_eq_right remaining, applyJitter_zero remaining]
    ring
  have admits : ∀ reached time, Undisturbed limiter.policy key after reached → now ≤ time →
      ((reached.answer limiter.policy ⟨key, time⟩).allowed = true ↔ now + wait < time) := by
    intro reached time undisturbed _
    have kept : reached.states key = oldest :: rest := undisturbed.states.trans window
    have answers : reached.answer limiter.policy ⟨key, time⟩ = (limiter.isAllowed (oldest :: rest) time).2 := by
      rw [World.answer, kept]
      rfl
    rw [answers, allowed_iff, ← full, length_evict_lt_iff, waits]
    exact lt_sub_iff_add_lt
  refine ⟨fun exactly => ?_, admits⟩
  have later : now ≤ now + wait := by
    rw [waits]
    exact inside
  have admitted := (exactly after (now + wait) (.refl _ _ _) later later).1 rfl
  exact lt_irrefl _ ((admits after (now + wait) (.refl _ _ _) later).mp admitted)

/-- One call a minute, and the second call comes after ten seconds. -/
def SecondCallDenied (world : World String (List ℚ) ℚ) : Prop :=
  world.clock = 0 ∧ (world.answer (policy ⟨1, 60⟩) ⟨"a", 10⟩).allowed = false ∧
    resetIn ⟨1, 60⟩ ((world.serve (policy ⟨1, 60⟩) ⟨"a", 10⟩).states "a") 10 0 0 0 = 50

instance : DecidablePred SecondCallDenied := fun _ => inferInstanceAs (Decidable (_ ∧ _))

theorem second_call_waits :
    ∃ world, (machine String (policy ⟨1, 60⟩)).run (empty 0) [⟨"a", 0⟩] = some world ∧ SecondCallDenied world ∧
      ∀ reached time, Undisturbed (policy ⟨1, 60⟩) "a" (world.serve (policy ⟨1, 60⟩) ⟨"a", 10⟩) reached → 10 ≤ time →
        ((reached.answer (policy ⟨1, 60⟩) ⟨"a", time⟩).allowed = true ↔ 10 + 50 < time) := by
  have ends : ((machine String (policy ⟨1, 60⟩)).run (empty 0) [⟨"a", 0⟩]).any fun world =>
      SecondCallDenied world := by decide +kernel
  obtain ⟨world, ran, ends⟩ := (Option.any_eq_true _ _).mp ends
  obtain ⟨clock, denied, named⟩ := of_decide_eq_true ends
  have order : world.clock ≤ 10 := by rw [clock]; norm_num
  have exactly := (wait_never_exact ⟨1, 60⟩ (by decide) 0 _ world ran "a" 10 0 order denied).2
  rw [named] at exactly
  exact ⟨world, ran, ⟨clock, denied, named⟩, exactly⟩

/-- It is told to wait for fifty seconds, and denied when it comes back at the end of the minute. -/
theorem end_of_minute_denied :
    ¬ ∀ (limiter : SlidingWindowLimiter) (clock : ℚ) (calls : List (Call String ℚ)) (world : World String (List ℚ) ℚ)
      (key : String) (now draw : ℚ), 1 ≤ limiter.limit →
      (machine String limiter.policy).run (empty clock) calls = some world → world.clock ≤ now →
      (world.answer limiter.policy ⟨key, now⟩).allowed = false →
      let after := world.serve limiter.policy ⟨key, now⟩
      limiter.WaitExact after key now (limiter.resetIn (after.states key) now 0 0 draw) := by
  intro always
  have ends : ((machine String (policy ⟨1, 60⟩)).run (empty 0) [⟨"a", 0⟩]).any fun world =>
      SecondCallDenied world ∧
        ((world.serve (policy ⟨1, 60⟩) ⟨"a", 10⟩).answer (policy ⟨1, 60⟩) ⟨"a", 60⟩).allowed = false ∧
        (world.serve (policy ⟨1, 60⟩) ⟨"a", 10⟩).clock ≤ 60 := by decide +kernel
  obtain ⟨world, ran, ends⟩ := (Option.any_eq_true _ _).mp ends
  obtain ⟨⟨clock, denied, named⟩, again, reached⟩ := of_decide_eq_true ends
  have order : world.clock ≤ 10 := by rw [clock]; norm_num
  have exactly := always ⟨1, 60⟩ 0 _ world "a" 10 0 (by decide) ran order denied
  simp only [named] at exactly
  have admitted := (exactly _ 60 (.refl _ _ _) reached (by norm_num)).1 (by norm_num)
  rw [again] at admitted
  cases admitted

end SlidingWindowLimiter

end DataPipeline.Ingestor
