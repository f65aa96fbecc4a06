import DataPipeline.Ingestor.SlidingWindow
import DataPipeline.Ingestor.TokenBucket

/-! The rate-limited endpoints of `ingestor/routers/records_v2.py`, up to the
point where the record is created, and the waiting time that a refusal names.
-/

set_option autoImplicit false

namespace DataPipeline.Ingestor.RecordsV2

open Execution Limiter

/-! ## The endpoints -/

def tokenBucketCapacity : Nat := 20
def tokenBucketRefillPerSec : ℚ := 10 / 60
def slidingWindowLimit : Nat := 10
def slidingWindowSeconds : ℚ := 60
def jitterMinSeconds : ℚ := 5
def jitterMaxSeconds : ℚ := 10

def tokenBucket : TokenBucketLimiter := ⟨tokenBucketCapacity, tokenBucketRefillPerSec⟩

def slidingWindow : SlidingWindowLimiter := ⟨slidingWindowLimit, slidingWindowSeconds⟩

/-- `int` of a float cuts off what is behind the point. -/
def int (value : ℚ) : Int := if 0 ≤ value then ⌊value⌋ else ⌈value⌉

def rlHeaders (strategy : String) (limit : Nat) (remaining : ℚ) : List (String × String) :=
  [("X-RateLimit-Strategy", strategy), ("X-RateLimit-Limit", toString limit),
    ("X-RateLimit-Remaining", toString (int remaining))]

/-- The readings of the clock and the draw of the jitter while a request is
answered. The last three are taken for a refusal only. -/
structure Arrival where
  created : ℚ
  now : ℚ
  looked : ℚ
  read : ℚ
  draw : ℚ
  deriving DecidableEq

/-- The record is created, or the request is refused. A refusal names the
seconds to wait in its last header too. -/
inductive Response where
  | admitted (headers : List (String × String))
  | tooManyRequests (detail : String) (headers : List (String × String)) (retryAfter : Int)
  | internalServerError
  deriving DecidableEq

def Response.isAdmitted : Response → Bool
  | .admitted _ => true
  | .tooManyRequests _ _ _ | .internalServerError => false

def Response.retryAfter : Response → Option Int
  | .tooManyRequests _ _ retryAfter => some retryAfter
  | .admitted _ | .internalServerError => none

def refusal (detail : String) (headers : List (String × String)) (seconds : ℚ) : Response :=
  let retryAfter := int seconds + 1
  .tooManyRequests detail (headers ++ [("Retry-After", toString retryAfter)]) retryAfter

def createRecordTokenBucket (entry : Option Bucket) (arrival : Arrival) : Bucket × Response :=
  let (bucket, decision) := tokenBucket.consume entry ⟨1, arrival.created, arrival.now⟩
  let headers := rlHeaders "token-bucket" tokenBucket.capacity decision.remaining
  if decision.allowed then (bucket, .admitted headers)
  else
    -- The least offset is negated here, so jitter can shorten the wait.
    match tokenBucket.secondsUntilToken (some bucket) arrival.looked arrival.read (-jitterMinSeconds)
        jitterMaxSeconds arrival.draw with
    | some retryAfter => (bucket, refusal "Rate limit exceeded (token bucket drained)" headers retryAfter)
    | none => (bucket, .internalServerError)

def createRecordSlidingWindow (window : List ℚ) (arrival : Arrival) : List ℚ × Response :=
  let (window, decision) := slidingWindow.isAllowed window arrival.now
  let headers := rlHeaders "sliding-window" slidingWindow.limit decision.remaining
  if decision.allowed then (window, .admitted headers)
  else
    let retryAfter := slidingWindow.resetIn window arrival.read (-jitterMinSeconds) jitterMaxSeconds arrival.draw
    (window, refusal "Rate limit exceeded (sliding window full)" headers retryAfter)

/-- Readings come in the order in which they are taken, and draws are between 0 and 1. -/
def Arrival.legal (arrival : Arrival) : Bool :=
  arrival.created ≤ arrival.now && arrival.now ≤ arrival.looked && arrival.looked ≤ arrival.read &&
    0 ≤ arrival.draw && arrival.draw ≤ 1

def tokenBucketEndpoint : Policy (Option Bucket) Arrival Response ℚ where
  serve entry arrival :=
    let (bucket, response) := createRecordTokenBucket entry arrival
    (some bucket, response)
  started arrival := arrival.created
  decided arrival := arrival.read
  legal := Arrival.legal

def slidingWindowEndpoint : Policy (List ℚ) Arrival Response ℚ where
  serve := createRecordSlidingWindow
  started arrival := arrival.now
  decided arrival := arrival.read
  legal := Arrival.legal

/-- However other clients call in the meantime, a retry of this one is admitted
when it is its first request since and is decided no earlier than `time`. -/
def RetryAdmitted {State : Type} (endpoint : Policy State Arrival Response ℚ) (world : World String State ℚ)
    (client : String) (time : ℚ) : Prop :=
  ∀ others reached retry final, (machine String endpoint).run world others = some reached →
    (∀ call ∈ others, call.key ≠ client) → (machine String endpoint).step reached ⟨client, retry⟩ = some final →
    time ≤ retry.now → (reached.answer endpoint ⟨client, retry⟩).isAdmitted = true

/-- `random.uniform` with the bounds that both endpoints pass on. -/
def jitterOffset (draw : ℚ) : ℚ := -jitterMinSeconds + (jitterMaxSeconds - -jitterMinSeconds) * draw

/-! ## Whole seconds -/

theorem int_of_nonneg {value : ℚ} (positive : 0 ≤ value) : int value = ⌊value⌋ := if_pos positive

/-- A wait is covered by the seconds named for it exactly if it is at most one
second, or the offset takes no whole second away. -/
theorem le_seconds_iff (wait offset : ℚ) :
    wait ≤ (int (max 0 (wait + offset)) + 1 : ℤ) ↔ wait ≤ 1 ∨ ⌈wait⌉ - 1 - wait ≤ offset := by
  have short : ⌈wait⌉ - 1 ≤ (0 : ℚ) ↔ wait ≤ 1 := by
    rw [sub_nonpos]
    exact_mod_cast Int.ceil_le (a := wait) (z := 1)
  have kept : (⌈wait⌉ - 1 : ℚ) ≤ wait + offset ↔ ⌈wait⌉ - 1 - wait ≤ offset := by
    constructor <;> intro order <;> linarith
  rw [int_of_nonneg (le_max_left _ _), ← Int.ceil_le, ← sub_le_iff_le_add, Int.le_floor, le_max_iff]
  push_cast
  rw [short, kept]

theorem lt_seconds_iff (wait offset : ℚ) :
    wait < (int (max 0 (wait + offset)) + 1 : ℤ) ↔ wait < 1 ∨ ⌊wait⌋ - wait ≤ offset := by
  have short : (⌊wait⌋ : ℚ) ≤ 0 ↔ wait < 1 := by
    rw [Int.cast_nonpos, ← Int.lt_add_one_iff, Int.floor_lt]
    norm_num
  have kept : (⌊wait⌋ : ℚ) ≤ wait + offset ↔ ⌊wait⌋ - wait ≤ offset := by
    constructor <;> intro order <;> linarith
  rw [int_of_nonneg (le_max_left _ _), ← Int.floor_lt, Int.lt_add_one_iff, Int.le_floor, le_max_iff, short, kept]

theorem one_le_seconds {value : ℚ} (positive : 0 ≤ value) : 1 ≤ int value + 1 := by
  have floor := Int.floor_nonneg.mpr positive
  rw [int_of_nonneg positive]
  omega

/-! ## Retries -/

/-- How long the client has to wait until a token is there. -/
def tokenBucketWait (entry : Option Bucket) (read : ℚ) : ℚ :=
  max 0 ((1 - tokenBucket.level entry read) / tokenBucketRefillPerSec)

/-- How long the client has to wait until the oldest time is no longer in the
window, which it is at its very end. -/
def slidingWindowWait (window : List ℚ) (read : ℚ) : ℚ :=
  match window with
  | [] => 0
  | oldest :: _ => max 0 (oldest + slidingWindowSeconds - read)

variable {State : Type} {endpoint : Policy State Arrival Response ℚ} {world : World String State ℚ} {client : String}

def Arrival.instant (now : ℚ) : Arrival := ⟨now, now, now, now, 0⟩

theorem retryAdmitted_iff {time : ℚ} (admits : State → ℚ → Prop)
    (admitted : ∀ state arrival, arrival.legal = true →
      ((endpoint.serve state arrival).2.isAdmitted = true ↔ admits state arrival.now))
    (later : ∀ now, time ≤ now → admits (world.states client) time → admits (world.states client) now)
    (legal : endpoint.legal = Arrival.legal) (started : endpoint.started (.instant time) = time)
    (decided : endpoint.decided (.instant time) = time) (order : world.clock ≤ time) :
    RetryAdmitted endpoint world client time ↔ admits (world.states client) time := by
  have instantLegal : (Arrival.instant time).legal = true := by simp [Arrival.legal, Arrival.instant]
  constructor
  · intro always
    -- The retry comes at once when the time has come.
    have stepped : (machine String endpoint).step world ⟨client, .instant time⟩ =
        some (world.serve endpoint ⟨client, .instant time⟩) :=
      machine_step.mpr
        ⟨⟨by simpa only [started] using order, by rw [started, decided], by rw [legal, instantLegal]⟩, rfl⟩
    have answer := always [] world (.instant time) _ rfl (fun _ member => by cases member) stepped le_rfl
    exact (admitted _ _ instantLegal).mp answer
  · intro now others reached retry final ran foreign stepped order
    obtain ⟨⟨-, -, isLegal⟩, -⟩ := machine_step.mp stepped
    rw [legal] at isLegal
    apply (admitted _ _ isLegal).mpr
    rw [states_run_of_ne ran foreign]
    exact later retry.now order now

theorem legal_order {arrival : Arrival} (legal : arrival.legal = true) :
    arrival.created ≤ arrival.now ∧ arrival.now ≤ arrival.looked ∧ arrival.looked ≤ arrival.read := by
  simp only [Arrival.legal, Bool.and_eq_true, decide_eq_true_eq] at legal
  exact ⟨legal.1.1.1.1, legal.1.1.1.2, legal.1.1.2⟩

theorem refills : 0 ≤ tokenBucket.refillPerSecond := by norm_num [tokenBucket, tokenBucketRefillPerSec]

/-- Behind the endpoint is the limiter of `ingestor/rate_limiting_advanced.py`. -/
theorem tokenBucket_simulates : Simulates tokenBucketEndpoint tokenBucket.policy
    (fun arrival => ⟨1, arrival.created, arrival.now⟩)
    fun response decision => response.isAdmitted = decision.allowed where
  states entry arrival _ := by
    simp only [tokenBucketEndpoint, createRecordTokenBucket, TokenBucketLimiter.policy]
    split
    · rfl
    · split <;> rfl
  answers entry arrival _ := by
    simp only [tokenBucketEndpoint, createRecordTokenBucket, TokenBucketLimiter.policy]
    split
    next allowed => rw [allowed]; rfl
    next denied => split <;> simp [refusal, Response.isAdmitted, denied]
  legal _ _ := rfl
  started arrival _ := le_refl arrival.created
  ordered arrival legal := (legal_order legal).1
  decided arrival legal := (legal_order legal).2.1.trans (legal_order legal).2.2

theorem slidingWindow_simulates : Simulates slidingWindowEndpoint slidingWindow.policy (fun arrival => arrival.now)
    fun response decision => response.isAdmitted = decision.allowed where
  states window arrival _ := by
    simp only [slidingWindowEndpoint, createRecordSlidingWindow, SlidingWindowLimiter.policy]
    split <;> rfl
  answers window arrival _ := by
    simp only [slidingWindowEndpoint, createRecordSlidingWindow, SlidingWindowLimiter.policy]
    split
    next allowed => rw [allowed]; rfl
    next denied => simp [refusal, Response.isAdmitted, denied]
  legal _ _ := rfl
  started arrival _ := le_refl arrival.now
  ordered arrival _ := le_refl arrival.now
  decided arrival legal := (legal_order legal).2.1.trans (legal_order legal).2.2

/-- What the source adds to a wait before it is cut to whole seconds: a client
whose token is there already is told so without jitter. -/
def jittered (wait draw : ℚ) : ℚ := if wait = 0 then 0 else max 0 (wait + jitterOffset draw)

theorem secondsUntilToken_eq (bucket : Bucket) (looked read draw : ℚ) :
    tokenBucket.secondsUntilToken (some bucket) looked read (-jitterMinSeconds) jitterMaxSeconds draw =
      some (jittered (tokenBucketWait (some bucket) read) draw) := by
  have rate : (0 : ℚ) < tokenBucketRefillPerSec := by norm_num [tokenBucketRefillPerSec]
  have wait : tokenBucketWait (some bucket) read =
    max 0 ((1 - tokenBucket.refilled bucket read) / tokenBucketRefillPerSec) := rfl
  rw [TokenBucketLimiter.secondsUntilToken, Option.getD_some, jittered]
  by_cases full : 1 - tokenBucket.refilled bucket read ≤ 0
  · rw [max_eq_left (div_nonpos_of_nonpos_of_nonneg full rate.le)] at wait
    rw [if_pos wait, if_pos full]
  · have positive := div_pos (not_le.mp full) rate
    rw [max_eq_right positive.le] at wait
    have waits : tokenBucketWait (some bucket) read ≠ 0 := by rw [wait]; exact positive.ne'
    rw [if_neg waits, if_neg full, wait]
    exact if_neg rate.ne'

theorem createRecordTokenBucket_cases (entry : Option Bucket) {arrival : Arrival} (legal : arrival.legal = true) :
    (1 ≤ tokenBucket.level entry arrival.now ∧
      ∃ headers, (createRecordTokenBucket entry arrival).2 = .admitted headers) ∨
    (tokenBucket.level entry arrival.now < 1 ∧ ∃ detail headers, createRecordTokenBucket entry arrival =
      (⟨tokenBucket.level entry arrival.now, arrival.now⟩, .tooManyRequests detail headers
        (int (jittered (tokenBucketWait entry arrival.read) arrival.draw) + 1))) := by
  obtain ⟨order, looked, read⟩ := legal_order legal
  let request : TokenBucketLimiter.Consume := ⟨1, arrival.created, arrival.now⟩
  have ordered : request.created ≤ request.now := order
  rcases TokenBucketLimiter.consume_cases refills entry ordered with ⟨enough, served⟩ | ⟨short, served⟩
  · refine .inl ⟨by simpa [request] using enough, ?_⟩
    simp only [createRecordTokenBucket, request, served, ↓reduceIte]
    exact ⟨_, rfl⟩
  · refine .inr ⟨by simpa [request] using short, ?_⟩
    have wait : tokenBucketWait (some ⟨tokenBucket.level entry arrival.now, arrival.now⟩) arrival.read =
        tokenBucketWait entry arrival.read := by
      unfold tokenBucketWait
      rw [TokenBucketLimiter.level_written refills entry (looked.trans read)]
    simp only [createRecordTokenBucket, request, served, secondsUntilToken_eq, wait, refusal, Bool.false_eq_true,
      ↓reduceIte]
    exact ⟨_, _, rfl⟩

theorem le_jittered_iff (wait draw : ℚ) :
    wait ≤ (int (jittered wait draw) + 1 : ℤ) ↔ wait ≤ 1 ∨ ⌈wait⌉ - 1 - wait ≤ jitterOffset draw := by
  unfold jittered
  split
  next zero =>
    rw [zero]
    exact iff_of_true (by simp [int]) (.inl zero_le_one)
  next => exact le_seconds_iff wait (jitterOffset draw)

theorem jittered_nonneg (wait draw : ℚ) : 0 ≤ jittered wait draw := by
  unfold jittered
  split
  · exact le_rfl
  · exact le_max_left _ _

theorem level_reaches (entry : Option Bucket) {read now : ℚ} (order : read ≤ now) :
    1 ≤ tokenBucket.level entry now ↔ tokenBucketWait entry read ≤ now - read := by
  have rate : (0 : ℚ) < tokenBucketRefillPerSec := by norm_num [tokenBucketRefillPerSec]
  have capacity : (1 : ℚ) ≤ tokenBucket.capacity := by norm_num [tokenBucket, tokenBucketCapacity]
  have passed : 0 ≤ now - read := sub_nonneg.mpr order
  rw [TokenBucketLimiter.le_level_iff refills entry capacity order]
  simp only [tokenBucketWait, max_le_iff, passed, true_and, div_le_iff₀ rate]
  rfl

theorem tokenBucket_admitted_iff (entry : Option Bucket) (arrival : Arrival) (legal : arrival.legal = true) :
    (tokenBucketEndpoint.serve entry arrival).2.isAdmitted = true ↔ 1 ≤ tokenBucket.level entry arrival.now := by
  simp only [tokenBucketEndpoint]
  rcases createRecordTokenBucket_cases entry legal with ⟨enough, headers, admitted⟩ | ⟨short, _, _, refused⟩
  · exact iff_of_true (by rw [admitted]; rfl) enough
  · exact iff_of_false (by rw [refused]; exact Bool.false_ne_true) short.not_ge

variable {bucketWorld bucketAfter : World String (Option Bucket) ℚ} {windowWorld windowAfter : World String (List ℚ) ℚ}
  {arrival : Arrival} {retryAfter : Int} {clock : ℚ}

theorem tokenBucket_retryAdmitted_iff {read seconds : ℚ} (order : bucketWorld.clock ≤ read) (positive : 0 ≤ seconds) :
    RetryAdmitted tokenBucketEndpoint bucketWorld client (read + seconds) ↔
      tokenBucketWait (bucketWorld.states client) read ≤ seconds := by
  have reached : read ≤ read + seconds := le_add_of_nonneg_right positive
  rw [retryAdmitted_iff (fun entry now => 1 ≤ tokenBucket.level entry now) tokenBucket_admitted_iff ?_ rfl rfl rfl
    (order.trans reached), level_reaches _ reached, add_sub_cancel_left]
  intro now later enough
  rw [level_reaches _ reached] at enough
  rw [level_reaches _ (reached.trans later)]
  linarith

theorem tokenBucket_retry_iff
    (stepped : (machine String tokenBucketEndpoint).step bucketWorld ⟨client, arrival⟩ = some bucketAfter)
    (refused : (bucketWorld.answer tokenBucketEndpoint ⟨client, arrival⟩).retryAfter = some retryAfter) :
    RetryAdmitted tokenBucketEndpoint bucketAfter client (arrival.read + retryAfter) ↔
      tokenBucketWait (bucketAfter.states client) arrival.read ≤ 1 ∨
        ⌈tokenBucketWait (bucketAfter.states client) arrival.read⌉ - 1 -
          tokenBucketWait (bucketAfter.states client) arrival.read ≤ jitterOffset arrival.draw := by
  obtain ⟨⟨-, -, legal⟩, rfl⟩ := machine_step.mp stepped
  obtain ⟨-, looked, read⟩ := legal_order legal
  have waited := looked.trans read
  rcases createRecordTokenBucket_cases (bucketWorld.states client) legal with ⟨-, _, admitted⟩ | ⟨-, _, _, served⟩
  · simp only [World.answer, tokenBucketEndpoint, admitted, Response.retryAfter, reduceCtorEq] at refused
  · simp only [World.answer, tokenBucketEndpoint, served, Response.retryAfter, Option.some.injEq] at refused
    subst refused
    have bucket : (bucketWorld.serve tokenBucketEndpoint ⟨client, arrival⟩).states client =
        some ⟨tokenBucket.level (bucketWorld.states client) arrival.now, arrival.now⟩ := by
      have written : (tokenBucketEndpoint.serve (bucketWorld.states client) arrival).1 =
          some ⟨tokenBucket.level (bucketWorld.states client) arrival.now, arrival.now⟩ := by
        simp only [tokenBucketEndpoint, served]
      exact World.states_serve_self.trans written
    have same : tokenBucketWait (bucketWorld.states client) arrival.read =
        tokenBucketWait ((bucketWorld.serve tokenBucketEndpoint ⟨client, arrival⟩).states client) arrival.read := by
      rw [bucket]
      unfold tokenBucketWait
      rw [TokenBucketLimiter.level_written refills _ waited]
    have positive : (0 : ℚ) ≤ (int (jittered (tokenBucketWait (bucketWorld.states client) arrival.read) arrival.draw) +
        1 : ℤ) := by
      have named :=
        one_le_seconds (jittered_nonneg (tokenBucketWait (bucketWorld.states client) arrival.read) arrival.draw)
      exact_mod_cast (by omega)
    have order : (bucketWorld.serve tokenBucketEndpoint ⟨client, arrival⟩).clock ≤ arrival.read := le_refl arrival.read
    rw [tokenBucket_retryAdmitted_iff order positive, ← same]
    exact le_jittered_iff _ _

theorem createRecordSlidingWindow_cases (window : List ℚ) (arrival : Arrival) :
    ((SlidingWindowLimiter.evict (arrival.now - slidingWindowSeconds) window).length < slidingWindowLimit ∧
      ∃ headers, createRecordSlidingWindow window arrival =
        (SlidingWindowLimiter.evict (arrival.now - slidingWindowSeconds) window ++ [arrival.now], .admitted headers)) ∨
    (slidingWindowLimit ≤ (SlidingWindowLimiter.evict (arrival.now - slidingWindowSeconds) window).length ∧
      ∃ oldest rest, SlidingWindowLimiter.evict (arrival.now - slidingWindowSeconds) window = oldest :: rest ∧
        ∃ detail headers, createRecordSlidingWindow window arrival = (oldest :: rest, .tooManyRequests detail headers
          (int (max 0 (slidingWindowWait (oldest :: rest) arrival.read + jitterOffset arrival.draw)) + 1))) := by
  rcases SlidingWindowLimiter.isAllowed_cases slidingWindow window arrival.now with ⟨room, served⟩ | ⟨full, served⟩
  · refine .inl ⟨room, ?_⟩
    simp only [createRecordSlidingWindow, served, ↓reduceIte]
    exact ⟨_, rfl⟩
  · refine .inr ⟨full, ?_⟩
    have some : 0 < (SlidingWindowLimiter.evict (arrival.now - slidingWindowSeconds) window).length :=
      lt_of_lt_of_le (by decide) full
    obtain ⟨oldest, rest, split⟩ := List.exists_cons_of_length_pos some
    refine ⟨oldest, rest, split, ?_⟩
    have kept : SlidingWindowLimiter.evict (arrival.now - slidingWindow.windowSeconds) window = oldest :: rest := split
    simp only [createRecordSlidingWindow, served, kept, Bool.false_eq_true, ↓reduceIte]
    exact ⟨_, _, rfl⟩

theorem window_length_le {requests : List (Call String Arrival)}
    (ran : (machine String slidingWindowEndpoint).run (SlidingWindowLimiter.empty clock) requests = some windowWorld) :
    ∀ key, (windowWorld.states key).length ≤ slidingWindowLimit := by
  refine Machine.invariant_of_step (fun world : World String (List ℚ) ℚ =>
    ∀ key, (world.states key).length ≤ slidingWindowLimit) (fun _ => Nat.zero_le _) ?_ ran
  rintro before ⟨other, arrival⟩ after short stepped key
  obtain ⟨-, rfl⟩ := machine_step.mp stepped
  by_cases own : other = key
  case neg => rw [World.states_serve_of_ne own]; exact short key
  case pos =>
    subst own
    have written : (before.serve slidingWindowEndpoint ⟨other, arrival⟩).states other =
      (createRecordSlidingWindow (before.states other) arrival).1 := World.states_serve_self
    rw [written]
    rcases createRecordSlidingWindow_cases (before.states other) arrival with
      ⟨room, _, served⟩ | ⟨-, oldest, rest, split, _, _, served⟩
    · rw [served, List.length_append, List.length_singleton]
      exact room
    · rw [served, ← split]
      exact (SlidingWindowLimiter.length_evict_le _ _).trans (short other)

theorem slidingWindow_admitted_iff (window : List ℚ) (arrival : Arrival) (_ : arrival.legal = true) :
    (slidingWindowEndpoint.serve window arrival).2.isAdmitted = true ↔
      (SlidingWindowLimiter.evict (arrival.now - slidingWindowSeconds) window).length < slidingWindowLimit := by
  simp only [slidingWindowEndpoint]
  rcases createRecordSlidingWindow_cases window arrival with ⟨room, headers, served⟩ | ⟨full, _, _, _, _, _, served⟩
  · exact iff_of_true (by rw [served]; rfl) room
  · exact iff_of_false (by rw [served]; exact Bool.false_ne_true) (Nat.not_lt.mpr full)

theorem slidingWindow_retryAdmitted_iff {oldest read seconds : ℚ} {rest : List ℚ} (order : windowWorld.clock ≤ read)
    (positive : 0 < seconds) (window : windowWorld.states client = oldest :: rest)
    (full : (oldest :: rest).length = slidingWindowLimit) :
    RetryAdmitted slidingWindowEndpoint windowWorld client (read + seconds) ↔
      slidingWindowWait (oldest :: rest) read < seconds := by
  have admits : ∀ now, (SlidingWindowLimiter.evict (now - slidingWindowSeconds) (oldest :: rest)).length <
      slidingWindowLimit ↔ oldest < now - slidingWindowSeconds := by
    intro now
    rw [← full]
    exact SlidingWindowLimiter.length_evict_lt_iff _ oldest rest
  rw [retryAdmitted_iff (fun window now => (SlidingWindowLimiter.evict (now - slidingWindowSeconds) window).length <
    slidingWindowLimit) slidingWindow_admitted_iff ?_ rfl rfl rfl (order.trans (le_add_of_nonneg_right positive.le)),
    window, admits]
  · simp only [slidingWindowWait, max_lt_iff, positive, true_and]
    constructor <;> intro reached <;> linarith
  · intro now later room
    rw [window, admits] at room ⊢
    linarith

theorem slidingWindow_retry_iff {requests : List (Call String Arrival)}
    (ran : (machine String slidingWindowEndpoint).run (SlidingWindowLimiter.empty clock) requests = some windowWorld)
    (stepped : (machine String slidingWindowEndpoint).step windowWorld ⟨client, arrival⟩ = some windowAfter)
    (refused : (windowWorld.answer slidingWindowEndpoint ⟨client, arrival⟩).retryAfter = some retryAfter) :
    RetryAdmitted slidingWindowEndpoint windowAfter client (arrival.read + retryAfter) ↔
      slidingWindowWait (windowAfter.states client) arrival.read < 1 ∨
        ⌊slidingWindowWait (windowAfter.states client) arrival.read⌋ -
          slidingWindowWait (windowAfter.states client) arrival.read ≤ jitterOffset arrival.draw := by
  have most := window_length_le ran client
  obtain ⟨⟨-, -, legal⟩, rfl⟩ := machine_step.mp stepped
  rcases createRecordSlidingWindow_cases (windowWorld.states client) arrival with
    ⟨-, _, served⟩ | ⟨full, oldest, rest, split, _, _, served⟩
  · simp only [World.answer, slidingWindowEndpoint, served, Response.retryAfter, reduceCtorEq] at refused
  · simp only [World.answer, slidingWindowEndpoint, served, Response.retryAfter, Option.some.injEq] at refused
    subst refused
    have window : (windowWorld.serve slidingWindowEndpoint ⟨client, arrival⟩).states client = oldest :: rest := by
      have written : (createRecordSlidingWindow (windowWorld.states client) arrival).1 = oldest :: rest := by
        rw [served]
      exact World.states_serve_self.trans written
    have exactly : (oldest :: rest).length = slidingWindowLimit := by
      have kept := SlidingWindowLimiter.length_evict_le (arrival.now - slidingWindowSeconds) (windowWorld.states client)
      rw [split] at kept full
      omega
    have positive : (0 : ℚ) < (int (max 0 (slidingWindowWait (oldest :: rest) arrival.read +
        jitterOffset arrival.draw)) + 1 : ℤ) := by
      have named := one_le_seconds (le_max_left 0 (slidingWindowWait (oldest :: rest) arrival.read +
        jitterOffset arrival.draw))
      exact_mod_cast (by omega)
    have order : (windowWorld.serve slidingWindowEndpoint ⟨client, arrival⟩).clock ≤ arrival.read :=
      le_refl arrival.read
    rw [slidingWindow_retryAdmitted_iff order positive window exactly, window]
    exact lt_seconds_iff _ _

/-- Whoever is refused and waits for as long as the refusal says is admitted, in
every state that requests lead to and for every draw. -/
def RetryAfterSufficient (endpoint : Policy State Arrival Response ℚ) (start : ℚ → World String State ℚ) : Prop :=
  ∀ clock requests world client arrival after retryAfter,
    (machine String endpoint).run (start clock) requests = some world →
    (machine String endpoint).step world ⟨client, arrival⟩ = some after →
    (world.answer endpoint ⟨client, arrival⟩).retryAfter = some retryAfter →
    RetryAdmitted endpoint after client (arrival.read + retryAfter)

/-- A refused client that waits for as long as it is told is admitted exactly if
its wait is short or the offset drawn for it leaves the whole seconds of the
wait alone, at the one endpoint and at the other. -/
theorem retry_after_sufficient_iff (clock : ℚ) (requests : List (Call String Arrival)) (client : String)
    (arrival : Arrival) (retryAfter : Int) :
    (∀ world after, (machine String tokenBucketEndpoint).run (TokenBucketLimiter.empty clock) requests = some world →
      (machine String tokenBucketEndpoint).step world ⟨client, arrival⟩ = some after →
      (world.answer tokenBucketEndpoint ⟨client, arrival⟩).retryAfter = some retryAfter →
      (RetryAdmitted tokenBucketEndpoint after client (arrival.read + retryAfter) ↔
        tokenBucketWait (after.states client) arrival.read ≤ 1 ∨
          ⌈tokenBucketWait (after.states client) arrival.read⌉ - 1 - tokenBucketWait (after.states client) arrival.read ≤
            jitterOffset arrival.draw)) ∧
    ∀ world after, (machine String slidingWindowEndpoint).run (SlidingWindowLimiter.empty clock) requests = some world →
      (machine String slidingWindowEndpoint).step world ⟨client, arrival⟩ = some after →
      (world.answer slidingWindowEndpoint ⟨client, arrival⟩).retryAfter = some retryAfter →
      (RetryAdmitted slidingWindowEndpoint after client (arrival.read + retryAfter) ↔
        slidingWindowWait (after.states client) arrival.read < 1 ∨
          ⌊slidingWindowWait (after.states client) arrival.read⌋ - slidingWindowWait (after.states client) arrival.read ≤
            jitterOffset arrival.draw) :=
  ⟨fun _ _ _ => tokenBucket_retry_iff, fun _ _ => slidingWindow_retry_iff⟩

/-- Enough requests at one instant to be refused there, with the least offset. -/
def burst (size : Nat) : List (Call String Arrival) := List.replicate size ⟨"a", .instant 0⟩

/-- With the offset zero the client of a drained bucket is told to wait for seven seconds. -/
theorem seven_seconds_suffice : ∃ world after,
    (machine String tokenBucketEndpoint).run (TokenBucketLimiter.empty 0) (burst 20) = some world ∧
    (machine String tokenBucketEndpoint).step world ⟨"a", ⟨0, 0, 0, 0, 1 / 3⟩⟩ = some after ∧
    RetryAdmitted tokenBucketEndpoint after "a" (0 + (7 : Int)) := by
  have ends : ((machine String tokenBucketEndpoint).run (TokenBucketLimiter.empty 0) (burst 20)).any fun world =>
      ((machine String tokenBucketEndpoint).step world ⟨"a", ⟨0, 0, 0, 0, 1 / 3⟩⟩).any fun after =>
        (world.answer tokenBucketEndpoint ⟨"a", ⟨0, 0, 0, 0, 1 / 3⟩⟩).retryAfter = some 7 ∧
          ⌈tokenBucketWait (after.states "a") 0⌉ - 1 - tokenBucketWait (after.states "a") 0 ≤ jitterOffset (1 / 3) := by
    decide +kernel
  obtain ⟨world, ran, ends⟩ := (Option.any_eq_true _ _).mp ends
  obtain ⟨after, stepped, ends⟩ := (Option.any_eq_true _ _).mp ends
  obtain ⟨refused, covered⟩ := of_decide_eq_true ends
  exact ⟨world, after, ran, stepped,
    ((retry_after_sufficient_iff 0 (burst 20) "a" ⟨0, 0, 0, 0, 1 / 3⟩ 7).1 world after ran stepped refused).mpr
      (.inr covered)⟩

/-- The request after the burst is refused and comes back as soon as it may, in vain. -/
def TooShort (endpoint : Policy State Arrival Response ℚ) (start : ℚ → World String State ℚ) (size : Nat)
    (seconds : Int) : Bool :=
  ((machine String endpoint).run (start 0) (burst size)).any fun world =>
    (world.answer endpoint ⟨"a", .instant 0⟩).retryAfter = some seconds &&
      ((machine String endpoint).step world ⟨"a", .instant 0⟩).any fun after =>
        ((machine String endpoint).step after ⟨"a", .instant seconds⟩).isSome &&
          !(after.answer endpoint ⟨"a", .instant seconds⟩).isAdmitted

theorem not_sufficient {start : ℚ → World String State ℚ} {size : Nat} {seconds : Int}
    (short : TooShort endpoint start size seconds = true) : ¬ RetryAfterSufficient endpoint start := by
  intro sufficient
  obtain ⟨world, ran, short⟩ := (Option.any_eq_true _ _).mp short
  obtain ⟨refused, short⟩ := (Bool.and_eq_true _ _).mp short
  obtain ⟨after, stepped, short⟩ := (Option.any_eq_true _ _).mp short
  obtain ⟨returns, denied⟩ := (Bool.and_eq_true _ _).mp short
  obtain ⟨final, returned⟩ := Option.isSome_iff_exists.mp returns
  have waited : (Arrival.instant 0).read + seconds ≤ (Arrival.instant (seconds : ℚ)).now := by
    simp [Arrival.instant]
  have admitted :=
    sufficient 0 (burst size) world "a" (.instant 0) after seconds ran stepped (of_decide_eq_true refused)
    [] after (.instant seconds) final rfl (fun _ member => by cases member) returned waited
  rw [admitted] at denied
  cases denied

/-- Drained, the bucket has a token after six seconds, and a full window has
room after more than a minute; the clients are told to wait for 2 and 56 seconds. -/
theorem retry_after_too_short :
    ¬ RetryAfterSufficient tokenBucketEndpoint TokenBucketLimiter.empty ∧
    ¬ RetryAfterSufficient slidingWindowEndpoint SlidingWindowLimiter.empty := by
  have bucket : TooShort tokenBucketEndpoint TokenBucketLimiter.empty 20 2 = true := by decide +kernel
  have window : TooShort slidingWindowEndpoint SlidingWindowLimiter.empty 10 56 = true := by decide +kernel
  exact ⟨not_sufficient bucket, not_sufficient window⟩

end DataPipeline.Ingestor.RecordsV2
