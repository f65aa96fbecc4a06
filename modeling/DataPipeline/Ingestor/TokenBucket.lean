import DataPipeline.Ingestor.RateLimitingAdvanced

/-! What a token bucket guarantees in every run of `consume`.

A bucket is told by the level that a call would find in it. Levels compose:
refilling twice is refilling once, also under the cap, so a denied call that
only writes the level down changes nothing.
-/

set_option autoImplicit false

namespace DataPipeline.Ingestor.TokenBucketLimiter

open Execution Limiter

variable {limiter : TokenBucketLimiter} {bucket : Bucket} {entry : Option Bucket} {request : Consume}
  {now later clock : ℚ}

/-! ## Levels -/

/-- What a call at `now` finds in the bucket; a key without one has a full bucket. -/
def level (limiter : TokenBucketLimiter) (entry : Option Bucket) (now : ℚ) : ℚ :=
  match entry with
  | none => limiter.capacity
  | some bucket => limiter.refilled bucket now

theorem level_le_capacity : limiter.level entry now ≤ limiter.capacity := by
  cases entry with
  | none => exact le_rfl
  | some bucket => exact min_le_left _ _

theorem refilled_refilled (refills : 0 ≤ limiter.refillPerSecond) (bucket : Bucket) (order : now ≤ later) :
    limiter.refilled ⟨limiter.refilled bucket now, now⟩ later = limiter.refilled bucket later := by
  have gain : 0 ≤ (later - now) * limiter.refillPerSecond := mul_nonneg (sub_nonneg.mpr order) refills
  have capped : (limiter.capacity : ℚ) ≤ limiter.capacity + (later - now) * limiter.refillPerSecond := by linarith
  have elapsed : (later - bucket.lastRefill) * limiter.refillPerSecond =
      (now - bucket.lastRefill) * limiter.refillPerSecond + (later - now) * limiter.refillPerSecond := by ring
  simp only [refilled]
  rw [← min_add_add_right, ← min_assoc, min_eq_left capped, elapsed, add_assoc]

/-- A bucket that has been written down at `now` is found at the same level as one left alone. -/
theorem level_written (refills : 0 ≤ limiter.refillPerSecond) (entry : Option Bucket) (order : now ≤ later) :
    limiter.level (some ⟨limiter.level entry now, now⟩) later = limiter.level entry later := by
  cases entry with
  | none =>
    have gain : 0 ≤ (later - now) * limiter.refillPerSecond := mul_nonneg (sub_nonneg.mpr order) refills
    exact min_eq_left (by simp only [level]; linarith)
  | some bucket => exact refilled_refilled refills bucket order

theorem level_now {tokens : ℚ} (fits : tokens ≤ limiter.capacity) : limiter.level (some ⟨tokens, now⟩) now = tokens := by
  simp only [level, refilled, sub_self, zero_mul, add_zero]
  exact min_eq_right fits

theorem level_spent (refills : 0 ≤ limiter.refillPerSecond) (entry : Option Bucket) {spent : ℚ} (positive : 0 ≤ spent)
    (order : now ≤ later) :
    limiter.level (some ⟨limiter.level entry now - spent, now⟩) later ≤ limiter.level entry later ∧
    limiter.level (some ⟨limiter.level entry now - spent, now⟩) later ≤
      limiter.level entry now - spent + (later - now) * limiter.refillPerSecond := by
  refine ⟨?_, min_le_right _ _⟩
  rw [← level_written refills entry order]
  apply min_le_min_left
  simp only
  linarith

theorem refilled_getD (refills : 0 ≤ limiter.refillPerSecond) (entry : Option Bucket) {created : ℚ}
    (order : created ≤ now) :
    limiter.refilled (entry.getD ⟨limiter.capacity, created⟩) now = limiter.level entry now := by
  cases entry with
  | none =>
    have gain := mul_nonneg (sub_nonneg.mpr order) refills
    exact min_eq_left (by simp only [Option.getD_none]; linarith)
  | some bucket => rfl

theorem le_level_iff (refills : 0 ≤ limiter.refillPerSecond) (entry : Option Bucket) {height : ℚ}
    (fits : height ≤ limiter.capacity) (order : now ≤ later) :
    height ≤ limiter.level entry later ↔
      height - limiter.level entry now ≤ (later - now) * limiter.refillPerSecond := by
  rw [← level_written refills entry order, level, refilled, le_min_iff, sub_le_iff_le_add']
  exact and_iff_right fits

theorem consume_cases (refills : 0 ≤ limiter.refillPerSecond) (entry : Option Bucket)
    (order : request.created ≤ request.now) :
    (request.tokens ≤ limiter.level entry request.now ∧
      limiter.consume entry request =
        (⟨limiter.level entry request.now - request.tokens, request.now⟩,
          ⟨true, limiter.level entry request.now - request.tokens⟩)) ∨
    (limiter.level entry request.now < request.tokens ∧
      limiter.consume entry request =
        (⟨limiter.level entry request.now, request.now⟩, ⟨false, limiter.level entry request.now⟩)) := by
  simp only [consume, refilled_getD refills entry order]
  rcases le_or_gt (request.tokens : ℚ) (limiter.level entry request.now) with enough | short
  · exact .inl ⟨enough, if_pos enough⟩
  · exact .inr ⟨short, if_neg (not_le.mpr short)⟩

/-- Two entries at the same level are served in the same way. -/
theorem consume_congr (refills : 0 ≤ limiter.refillPerSecond) {other : Option Bucket}
    (order : request.created ≤ request.now) (same : limiter.level entry request.now = limiter.level other request.now) :
    limiter.consume entry request = limiter.consume other request := by
  rcases consume_cases refills entry order with ⟨enough, served⟩ | ⟨short, served⟩
  · rcases consume_cases refills other order with ⟨-, otherServed⟩ | ⟨otherShort, -⟩
    · rw [served, otherServed, same]
    · rw [same] at enough
      exact absurd enough otherShort.not_ge
  · rcases consume_cases refills other order with ⟨otherEnough, -⟩ | ⟨-, otherServed⟩
    · rw [same] at short
      exact absurd otherEnough short.not_ge
    · rw [served, otherServed, same]

/-! ## Denied calls -/

/-- No call from the time on finds different levels. -/
def Alike (limiter : TokenBucketLimiter) (time : ℚ) (first second : Option Bucket) : Prop :=
  ∀ now, time ≤ now → limiter.level first now = limiter.level second now

theorem forgets (refills : 0 ≤ limiter.refillPerSecond) : Forgets limiter.policy Decision.Denied limiter.Alike where
  refl _ _ := fun _ _ => rfl
  trans _ _ _ _ same next := fun now order => (same now order).trans (next now order)
  later _ _ _ _ order same := fun now after => same now (order.trans after)
  answers time first second request same order ends := by
    have served := consume_congr refills ends (same request.now (order.trans ends))
    simp only [policy, served, true_and]
    exact fun _ _ => rfl
  forgets entry request ends denied := by
    rcases consume_cases refills entry ends with ⟨-, served⟩ | ⟨-, served⟩
    · simp [Decision.Denied, policy, served] at denied
    · simp only [policy, served]
      exact fun now order => level_written refills entry order

/-- Deleting any of its denied calls from a run leaves the decision and the
remaining tokens of every other call as they are. -/
theorem denied_calls_invisible (limiter : TokenBucketLimiter) (refills : 0 ≤ limiter.refillPerSecond) (clock : ℚ)
    (calls : List (Call String Consume)) (final : World String (Option Bucket) ℚ)
    (kept : List (Served String Consume (Decision ℚ)))
    (ran : (machine String limiter.policy).run (empty clock) calls = some final)
    (thinned : Thinned (fun served => served.answer.allowed = false) (log limiter.policy (empty clock) calls) kept) :
    (∃ reached, (machine String limiter.policy).run (empty clock) (kept.map Served.call) = some reached) ∧
      log limiter.policy (empty clock) (kept.map Served.call) = kept :=
  ⟨run_thinned ran thinned, log_thinned (forgets refills) ran thinned⟩

def sampleCalls : List (Call String Consume) := [⟨"a", ⟨2, 0, 0⟩⟩, ⟨"a", ⟨1, 1 / 2, 1 / 2⟩⟩, ⟨"a", ⟨1, 1, 1⟩⟩]

/-- With a bucket of two and one token a second the last call is allowed either way. -/
theorem early_call_invisible :
    log (policy ⟨2, 1⟩) (empty 0) [⟨"a", ⟨2, 0, 0⟩⟩, ⟨"a", ⟨1, 1, 1⟩⟩] =
      [⟨⟨"a", ⟨2, 0, 0⟩⟩, ⟨true, 0⟩⟩, ⟨⟨"a", ⟨1, 1, 1⟩⟩, ⟨true, 0⟩⟩] := by
  have runs : ((machine String (policy ⟨2, 1⟩)).run (empty 0) sampleCalls).isSome := by decide +kernel
  obtain ⟨final, ran⟩ := Option.isSome_iff_exists.mp runs
  have logged : log (policy ⟨2, 1⟩) (empty 0) sampleCalls =
      [⟨⟨"a", ⟨2, 0, 0⟩⟩, ⟨true, 0⟩⟩, ⟨⟨"a", ⟨1, 1 / 2, 1 / 2⟩⟩, ⟨false, 1 / 2⟩⟩,
        ⟨⟨"a", ⟨1, 1, 1⟩⟩, ⟨true, 0⟩⟩] := by decide +kernel
  refine (denied_calls_invisible ⟨2, 1⟩ (by norm_num) 0 sampleCalls final
    [⟨⟨"a", ⟨2, 0, 0⟩⟩, ⟨true, 0⟩⟩, ⟨⟨"a", ⟨1, 1, 1⟩⟩, ⟨true, 0⟩⟩] ran ?_).2
  rw [logged]
  exact .keep _ (.drop _ rfl (.keep _ .nil))

/-! ## Bursts and rates -/

def admittedTokens (entries : List (Served String Consume (Decision ℚ))) (key : String) (first last : ℚ) : Int :=
  ((entries.filter fun served => served.call.key = key ∧ served.answer.allowed = true ∧
    first ≤ served.call.request.now ∧ served.call.request.now ≤ last).map fun served => served.call.request.tokens).sum

def Sound (limiter : TokenBucketLimiter) (world : World String (Option Bucket) ℚ) : Prop :=
  ∀ key bucket, world.states key = some bucket →
    0 ≤ bucket.tokens ∧ bucket.tokens ≤ limiter.capacity ∧ bucket.lastRefill ≤ world.clock

/-- What a key was given since `first`, together with the level of its bucket,
never exceeds a full bucket and what has been refilled. -/
structure Bounded (limiter : TokenBucketLimiter) (key : String) (first last : ℚ)
    (world : World String (Option Bucket) ℚ)
    (entries : List (Served String Consume (Decision ℚ))) : Prop where
  given : admittedTokens entries key first last ≤ limiter.capacity + limiter.refillPerSecond * (last - first)
  potential : world.clock ≤ last → ∀ now, world.clock ≤ now → first ≤ now →
    admittedTokens entries key first last + limiter.level (world.states key) now ≤
      limiter.capacity + limiter.refillPerSecond * (now - first)

variable {world : World String (Option Bucket) ℚ} {entries : List (Served String Consume (Decision ℚ))}
  {call : Call String Consume} {key : String} {first last : ℚ}

theorem Sound.level_nonneg (refills : 0 ≤ limiter.refillPerSecond) (sound : limiter.Sound world) (key : String)
    (order : world.clock ≤ now) : 0 ≤ limiter.level (world.states key) now := by
  cases entry : world.states key with
  | none => exact Nat.cast_nonneg _
  | some bucket =>
    obtain ⟨positive, -, past⟩ := sound key bucket entry
    have gain := mul_nonneg (sub_nonneg.mpr (past.trans order)) refills
    exact le_min (Nat.cast_nonneg _) (add_nonneg positive gain)

theorem Sound.step (refills : 0 ≤ limiter.refillPerSecond) (sound : limiter.Sound world)
    (order : world.clock ≤ call.request.created) (ends : call.request.created ≤ call.request.now)
    (legal : 1 ≤ call.request.tokens) : limiter.Sound (world.serve limiter.policy call) := by
  have level := sound.level_nonneg refills call.key (order.trans ends)
  have capped : limiter.level (world.states call.key) call.request.now ≤ limiter.capacity := level_le_capacity
  have positive : (0 : ℚ) ≤ call.request.tokens := by exact_mod_cast (by omega : (0 : Int) ≤ call.request.tokens)
  intro key bucket present
  simp only [World.serve, Function.update_apply] at present
  split at present
  · rcases consume_cases refills (world.states call.key) ends with ⟨enough, served⟩ | ⟨short, served⟩
    · simp only [policy, served, Option.some.injEq] at present
      subst present
      exact ⟨by simp only; linarith, by simp only; linarith, le_rfl⟩
    · simp only [policy, served, Option.some.injEq] at present
      subst present
      exact ⟨level, capped, le_rfl⟩
  · obtain ⟨lower, upper, past⟩ := sound key bucket present
    exact ⟨lower, upper, past.trans (order.trans ends)⟩

theorem Sound.advance (sound : limiter.Sound world) {after : World String (Option Bucket) ℚ}
    (same : world.states = after.states) (order : world.clock ≤ after.clock) : limiter.Sound after := by
  intro key bucket present
  rw [← same] at present
  obtain ⟨lower, upper, past⟩ := sound key bucket present
  exact ⟨lower, upper, past.trans order⟩

theorem admittedTokens_concat (served : Served String Consume (Decision ℚ)) :
    admittedTokens (entries ++ [served]) key first last = admittedTokens entries key first last +
      if served.call.key = key ∧ served.answer.allowed = true ∧ first ≤ served.call.request.now ∧
        served.call.request.now ≤ last then served.call.request.tokens else 0 := by
  simp only [admittedTokens, List.filter_append, List.map_append, List.sum_append, List.filter_cons, List.filter_nil]
  split <;> simp_all

/-- A call that is given nothing for the interval keeps the bound, because the
level is no higher for it. -/
theorem Bounded.ungiven (bounded : limiter.Bounded key first last world entries)
    {served : Served String Consume (Decision ℚ)} {after : World String (Option Bucket) ℚ}
    (nothing : ¬ (served.call.key = key ∧ served.answer.allowed = true ∧ first ≤ served.call.request.now ∧
      served.call.request.now ≤ last)) (order : world.clock ≤ after.clock)
    (lower : ∀ now, after.clock ≤ now → limiter.level (after.states key) now ≤ limiter.level (world.states key) now) :
    limiter.Bounded key first last after (entries ++ [served]) := by
  have same : admittedTokens (entries ++ [served]) key first last = admittedTokens entries key first last := by
    rw [admittedTokens_concat, if_neg nothing, add_zero]
  refine ⟨by rw [same]; exact bounded.given, fun inside now reached since => ?_⟩
  have potential := bounded.potential (order.trans inside) now (order.trans reached) since
  have level := lower now reached
  rw [same]
  linarith

theorem Bounded.step (refills : 0 ≤ limiter.refillPerSecond)
    (bounded : limiter.Bounded key first last world entries) (order : world.clock ≤ call.request.created)
    (ends : call.request.created ≤ call.request.now) (legal : 1 ≤ call.request.tokens) :
    limiter.Bounded key first last (world.serve limiter.policy call)
      (entries ++ [⟨call, world.answer limiter.policy call⟩]) := by
  have past : world.clock ≤ call.request.now := order.trans ends
  have positive : (0 : ℚ) ≤ call.request.tokens := by exact_mod_cast (by omega : (0 : Int) ≤ call.request.tokens)
  by_cases own : call.key = key
  case neg =>
    apply bounded.ungiven (fun given => own given.1) past
    intro now _
    rw [World.states_serve_of_ne own]
  case pos =>
    subst own
    rcases consume_cases refills (world.states call.key) ends with ⟨enough, served⟩ | ⟨short, served⟩
    -- What is found later is what would have been found, or less by what was taken.
    · have later : ∀ now, call.request.now ≤ now → limiter.level ((world.serve limiter.policy call).states call.key) now
          ≤ limiter.level (world.states call.key) now ∧
          limiter.level ((world.serve limiter.policy call).states call.key) now ≤
            limiter.level (world.states call.key) call.request.now - call.request.tokens +
              (now - call.request.now) * limiter.refillPerSecond := by
        intro now reached
        simp only [World.states_serve_self, policy, served]
        exact level_spent refills _ positive reached
      by_cases inside : first ≤ call.request.now ∧ call.request.now ≤ last
      · obtain ⟨since, before⟩ := inside
        have given : admittedTokens (entries ++ [⟨call, world.answer limiter.policy call⟩]) call.key first last =
            admittedTokens entries call.key first last + call.request.tokens := by
          rw [admittedTokens_concat, if_pos ⟨rfl, by simp [World.answer, policy, served], since, before⟩]
        have potential := bounded.potential (past.trans before) call.request.now past since
        refine ⟨?_, fun _ now reached _ => ?_⟩
        · have rest : limiter.refillPerSecond * (call.request.now - first) ≤
              limiter.refillPerSecond * (last - first) := by
            apply mul_le_mul_of_nonneg_left _ refills
            linarith
          rw [given, Int.cast_add]
          linarith
        · have level := (later now reached).2
          rw [given, Int.cast_add]
          linarith
      · exact bounded.ungiven (fun given => inside given.2.2) past fun now reached => (later now reached).1
    · apply bounded.ungiven (fun given => by simp [World.answer, policy, served] at given) past
      intro now reached
      simp only [World.states_serve_self, policy, served]
      exact (level_written refills _ reached).le

theorem sound_run (refills : 0 ≤ limiter.refillPerSecond) {calls : List (Call String Consume)}
    (ran : (machine String limiter.policy).run (empty clock) calls = some world) : limiter.Sound world := by
  refine invariant_logged (fun world _ => limiter.Sound world) (fun _ _ present => by cases present) ?_ ran
  intro before _ call sound order ends legal
  exact sound.step refills order ends (of_decide_eq_true legal)

theorem bounded_initial (refills : 0 ≤ limiter.refillPerSecond) (interval : first ≤ last) :
    limiter.Bounded key first last (empty clock) [] := by
  have none : admittedTokens [] key first last = 0 := rfl
  refine ⟨?_, fun _ now _ since => ?_⟩
  · have full := mul_nonneg refills (sub_nonneg.mpr interval)
    rw [none, Int.cast_zero]
    exact add_nonneg (Nat.cast_nonneg _) full
  · have full := mul_nonneg refills (sub_nonneg.mpr since)
    have level : limiter.level ((empty clock).states key) now ≤ limiter.capacity := level_le_capacity
    rw [none, Int.cast_zero]
    linarith

theorem bounded_run (refills : 0 ≤ limiter.refillPerSecond) {calls : List (Call String Consume)} (key : String)
    (interval : first ≤ last) (ran : (machine String limiter.policy).run (empty clock) calls = some world) :
    limiter.Bounded key first last world (log limiter.policy (empty clock) calls) := by
  refine invariant_logged (limiter.Bounded key first last) (bounded_initial refills interval) ?_ ran
  intro before entries call bounded order ends legal
  exact bounded.step refills order ends (of_decide_eq_true legal)

/-- In every run each bucket stays within its bounds, a key is given no more in
an interval than a full bucket and what is refilled meanwhile, and what it is
given depends on its own calls only. -/
theorem burst_and_rate_bound (limiter : TokenBucketLimiter) (refills : 0 ≤ limiter.refillPerSecond) (clock : ℚ)
    (calls : List (Call String Consume)) (world : World String (Option Bucket) ℚ)
    (ran : (machine String limiter.policy).run (empty clock) calls = some world) :
    (∀ key bucket, world.states key = some bucket → 0 ≤ bucket.tokens ∧ bucket.tokens ≤ limiter.capacity) ∧
    (∀ key first last, first ≤ last → admittedTokens (log limiter.policy (empty clock) calls) key first last ≤
      limiter.capacity + limiter.refillPerSecond * (last - first)) ∧
    ∀ key, (log limiter.policy (empty clock) calls).filter (fun served => served.call.key = key) =
      log limiter.policy (empty clock) (calls.filter fun call => call.key = key) := by
  refine ⟨fun key bucket present => ?_, fun key first last interval => ?_, fun key => log_key rfl calls⟩
  · obtain ⟨lower, upper, -⟩ := sound_run refills ran key bucket present
    exact ⟨lower, upper⟩
  · exact (bounded_run refills key interval ran).given

theorem sample_calls_bounded :
    admittedTokens (log (policy ⟨2, 1⟩) (empty 0) sampleCalls) "a" 0 1 ≤ (2 : ℚ) + 1 * (1 - 0) := by
  have runs : ((machine String (policy ⟨2, 1⟩)).run (empty 0) sampleCalls).isSome := by decide +kernel
  obtain ⟨world, ran⟩ := Option.isSome_iff_exists.mp runs
  exact (burst_and_rate_bound ⟨2, 1⟩ (by norm_num) 0 sampleCalls world ran).2.1 "a" 0 1 (by norm_num)

end DataPipeline.Ingestor.TokenBucketLimiter
