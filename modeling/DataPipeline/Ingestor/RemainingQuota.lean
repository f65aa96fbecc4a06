import DataPipeline.Ingestor.RecordsV2

/-! What the rate-limited endpoints advertise in `X-RateLimit-Remaining`. -/

set_option autoImplicit false

namespace DataPipeline.Ingestor.RecordsV2

open Execution Limiter

def Response.status : Response → Nat
  | .admitted _ => 201
  | .tooManyRequests _ _ _ => 429
  | .internalServerError => 500

def Response.headers : Response → List (String × String)
  | .admitted headers | .tooManyRequests _ headers _ => headers
  | .internalServerError => []

/-- The response names a number in its header; of the requests that the client
sends at the same time, as many are admitted as it says and the next is refused. -/
def AdvertisesExactly {State : Type} (endpoint : Policy State Arrival Response ℚ) (after : World String State ℚ)
    (client : String) (now : ℚ) (response : Response) : Prop :=
  ∃ remaining : Nat, response.headers.lookup "X-RateLimit-Remaining" = some (toString remaining) ∧
    ∀ arrivals : List Arrival, arrivals.length = remaining + 1 →
      (∀ arrival ∈ arrivals, arrival.legal = true ∧ arrival.now = now) →
      (log endpoint after (arrivals.map fun arrival => ⟨client, arrival⟩)).map (fun served => served.answer.status) =
        List.replicate remaining 201 ++ [429]

theorem lookup_rlHeaders (strategy : String) (limit : Nat) (remaining : ℚ) (others : List (String × String)) :
    (rlHeaders strategy limit remaining ++ others).lookup "X-RateLimit-Remaining" = some (toString (int remaining)) := by
  simp [rlHeaders, List.lookup_cons]

variable {State : Type} {endpoint : Policy State Arrival Response ℚ} {client : String} {now : ℚ} {response : Response}

/-- What a quota is advertised as is what the next requests find. -/
theorem advertisesExactly_of_quota {quota : State → Nat} {after : World String State ℚ}
    (counts : Quota endpoint Response.status 201 429 (fun arrival => arrival.legal = true ∧ arrival.now = now) quota)
    (advertised : response.headers.lookup "X-RateLimit-Remaining" = some (toString (quota (after.states client)))) :
    AdvertisesExactly endpoint after client now response := by
  refine ⟨_, advertised, fun arrivals many together => ?_⟩
  rw [counts.outcomes after together, many, Nat.min_eq_left (Nat.le_succ _), Nat.add_sub_cancel_left,
    List.replicate_one]

/-! ## Token bucket -/

def wholeTokens (now : ℚ) (entry : Option Bucket) : Nat := ⌊tokenBucket.level entry now⌋.toNat

variable {entry : Option Bucket} {arrival : Arrival}

theorem tokenBucket_served (entry : Option Bucket) (legal : arrival.legal = true) :
    ∃ bucket, (tokenBucketEndpoint.serve entry arrival).1 = some bucket ∧
      (1 ≤ tokenBucket.level entry arrival.now ∧
          tokenBucket.level (some bucket) arrival.now = tokenBucket.level entry arrival.now - 1 ∧
          (tokenBucketEndpoint.serve entry arrival).2.status = 201 ∨
        tokenBucket.level entry arrival.now < 1 ∧
          tokenBucket.level (some bucket) arrival.now = tokenBucket.level entry arrival.now ∧
          (tokenBucketEndpoint.serve entry arrival).2.status = 429) ∧
      (tokenBucketEndpoint.serve entry arrival).2.headers.lookup "X-RateLimit-Remaining" =
        some (toString (int (tokenBucket.level (some bucket) arrival.now))) := by
  have fits : tokenBucket.level entry arrival.now ≤ tokenBucket.capacity := TokenBucketLimiter.level_le_capacity
  let request : TokenBucketLimiter.Consume := ⟨1, arrival.created, arrival.now⟩
  have ordered : request.created ≤ request.now := (legal_order legal).1
  rcases TokenBucketLimiter.consume_cases refills entry ordered with ⟨enough, served⟩ | ⟨short, served⟩
  · simp only [request, Int.cast_one] at enough served
    have left : tokenBucket.level (some ⟨tokenBucket.level entry arrival.now - 1, arrival.now⟩) arrival.now =
        tokenBucket.level entry arrival.now - 1 :=
      TokenBucketLimiter.level_now ((sub_le_self _ zero_le_one).trans fits)
    simp only [tokenBucketEndpoint, createRecordTokenBucket, served, ↓reduceIte, Response.status, Response.headers]
    refine ⟨_, rfl, .inl ⟨enough, left, trivial⟩, ?_⟩
    rw [left]
    exact lookup_rlHeaders _ _ _ []
  · simp only [request, Int.cast_one] at short served
    have left : tokenBucket.level (some ⟨tokenBucket.level entry arrival.now, arrival.now⟩) arrival.now =
        tokenBucket.level entry arrival.now := TokenBucketLimiter.level_now fits
    simp only [tokenBucketEndpoint, createRecordTokenBucket, served, Bool.false_eq_true, ↓reduceIte,
      secondsUntilToken_eq, refusal, Response.status, Response.headers]
    refine ⟨_, rfl, .inr ⟨short, left, trivial⟩, ?_⟩
    rw [left]
    exact lookup_rlHeaders _ _ _ _

theorem tokenBucket_quota (now : ℚ) :
    Quota tokenBucketEndpoint Response.status 201 429 (fun arrival => arrival.legal = true ∧ arrival.now = now)
      (wholeTokens now) where
  answers := by
    rintro entry arrival ⟨legal, rfl⟩
    have whole : 0 < wholeTokens arrival.now entry ↔ 1 ≤ tokenBucket.level entry arrival.now := by
      rw [wholeTokens, Int.pos_iff_toNat_pos.symm, Int.floor_pos]
    obtain ⟨bucket, -, ⟨enough, -, status⟩ | ⟨short, -, status⟩, -⟩ := tokenBucket_served entry legal
    · rw [status, if_pos (whole.mpr enough)]
    · rw [status, if_neg fun some => short.not_ge (whole.mp some)]
  spends := by
    rintro entry arrival ⟨legal, rfl⟩
    obtain ⟨bucket, written, ⟨enough, left, -⟩ | ⟨short, left, -⟩, -⟩ := tokenBucket_served entry legal
    · rw [written, wholeTokens, left, wholeTokens, Int.floor_sub_one]
      omega
    · have none : ⌊tokenBucket.level entry arrival.now⌋ < 1 := Int.floor_lt.mpr (by exact_mod_cast short)
      rw [written, wholeTokens, left, wholeTokens]
      omega

variable {clock : ℚ} {requests : List (Call String Arrival)} {bucketWorld : World String (Option Bucket) ℚ}

theorem sound_endpoint
    (ran : (machine String tokenBucketEndpoint).run (TokenBucketLimiter.empty clock) requests = some bucketWorld) :
    tokenBucket.Sound bucketWorld := by
  obtain ⟨reached, simple, ⟨states, order⟩, -⟩ := tokenBucket_simulates.run rfl le_rfl ran
  exact TokenBucketLimiter.Sound.advance (TokenBucketLimiter.sound_run refills simple) states order

theorem tokenBucket_advertises (legal : arrival.legal = true)
    (ran : (machine String tokenBucketEndpoint).run (TokenBucketLimiter.empty clock) requests = some bucketWorld)
    (order : bucketWorld.clock ≤ arrival.created) :
    AdvertisesExactly tokenBucketEndpoint (bucketWorld.serve tokenBucketEndpoint ⟨client, arrival⟩) client arrival.now
      (bucketWorld.answer tokenBucketEndpoint ⟨client, arrival⟩) := by
  apply advertisesExactly_of_quota (tokenBucket_quota arrival.now)
  have filled := (sound_endpoint ran).level_nonneg refills client (order.trans (legal_order legal).1)
  obtain ⟨bucket, written, cases, header⟩ := tokenBucket_served (bucketWorld.states client) legal
  have kept : (bucketWorld.serve tokenBucketEndpoint ⟨client, arrival⟩).states client = some bucket :=
    World.states_serve_self.trans written
  -- What is left is not negative, so that cutting it off is the same as rounding it down.
  have left : 0 ≤ tokenBucket.level (some bucket) arrival.now := by
    rcases cases with ⟨enough, left, -⟩ | ⟨-, left, -⟩
    · rw [left]
      exact sub_nonneg.mpr enough
    · rw [left]
      exact filled
  have whole : int (tokenBucket.level (some bucket) arrival.now) = (wholeTokens arrival.now (some bucket) : Int) := by
    rw [int_of_nonneg left, wholeTokens, Int.toNat_of_nonneg (Int.floor_nonneg.mpr left)]
  rw [kept, World.answer, header, whole]
  rfl

/-! ## Sliding window -/

def room (now : ℚ) (window : List ℚ) : Nat :=
  slidingWindow.limit - (SlidingWindowLimiter.evict (now - slidingWindow.windowSeconds) window).length

theorem slidingWindow_served (window : List ℚ) (arrival : Arrival) :
    room arrival.now (slidingWindowEndpoint.serve window arrival).1 = room arrival.now window - 1 ∧
      (slidingWindowEndpoint.serve window arrival).2.status = (if 0 < room arrival.now window then 201 else 429) ∧
      (slidingWindowEndpoint.serve window arrival).2.headers.lookup "X-RateLimit-Remaining" =
        some (toString (room arrival.now window - 1)) := by
  have inside : arrival.now - slidingWindow.windowSeconds ≤ arrival.now := by
    norm_num [slidingWindow, slidingWindowSeconds]
  have natural (n : Nat) : toString (int (n : ℚ)) = toString n := by
    rw [int_of_nonneg (Nat.cast_nonneg n), Int.floor_natCast]
    rfl
  rcases SlidingWindowLimiter.isAllowed_cases slidingWindow window arrival.now with ⟨free, served⟩ | ⟨full, served⟩
  · have some : 0 < room arrival.now window := Nat.sub_pos_of_lt free
    simp only [slidingWindowEndpoint, createRecordSlidingWindow, served, ↓reduceIte, Response.status, Response.headers]
    refine ⟨?_, (if_pos some).symm, ?_⟩
    · rw [room, SlidingWindowLimiter.evict_concat inside, List.length_append, List.length_singleton, Nat.sub_add_eq]
      rfl
    · rw [← natural]
      exact lookup_rlHeaders _ _ _ []
  · have none : room arrival.now window = 0 := Nat.sub_eq_zero_of_le full
    simp only [slidingWindowEndpoint, createRecordSlidingWindow, served, Bool.false_eq_true, ↓reduceIte, refusal,
      Response.status, Response.headers, none, lt_irrefl, Nat.zero_sub, true_and]
    refine ⟨?_, ?_⟩
    · rw [room, SlidingWindowLimiter.evict_evict le_rfl]
      exact none
    · rw [← natural]
      exact lookup_rlHeaders _ _ _ _

theorem slidingWindow_quota (now : ℚ) :
    Quota slidingWindowEndpoint Response.status 201 429 (fun arrival => arrival.legal = true ∧ arrival.now = now)
      (room now) where
  answers := by
    rintro window arrival ⟨-, rfl⟩
    exact (slidingWindow_served window arrival).2.1
  spends := by
    rintro window arrival ⟨-, rfl⟩
    exact (slidingWindow_served window arrival).1

theorem slidingWindow_advertises (world : World String (List ℚ) ℚ) :
    AdvertisesExactly slidingWindowEndpoint (world.serve slidingWindowEndpoint ⟨client, arrival⟩) client arrival.now
      (world.answer slidingWindowEndpoint ⟨client, arrival⟩) := by
  apply advertisesExactly_of_quota (slidingWindow_quota arrival.now)
  obtain ⟨spent, -, header⟩ := slidingWindow_served (world.states client) arrival
  have kept : (world.serve slidingWindowEndpoint ⟨client, arrival⟩).states client =
      (slidingWindowEndpoint.serve (world.states client) arrival).1 := World.states_serve_self
  rw [kept, spent]
  exact header

/-- Both endpoints advertise how many more requests of the client they would
admit at the same time, whether they have admitted this one or refused it. -/
theorem remaining_exact (clock : ℚ) (requests : List (Call String Arrival)) (client : String) (arrival : Arrival) :
    (∀ world after, (machine String tokenBucketEndpoint).run (TokenBucketLimiter.empty clock) requests = some world →
      (machine String tokenBucketEndpoint).step world ⟨client, arrival⟩ = some after →
      AdvertisesExactly tokenBucketEndpoint after client arrival.now
        (world.answer tokenBucketEndpoint ⟨client, arrival⟩)) ∧
    ∀ world after,
      (machine String slidingWindowEndpoint).run (SlidingWindowLimiter.empty clock) requests = some world →
      (machine String slidingWindowEndpoint).step world ⟨client, arrival⟩ = some after →
      AdvertisesExactly slidingWindowEndpoint after client arrival.now
        (world.answer slidingWindowEndpoint ⟨client, arrival⟩) := by
  refine ⟨fun world after ran stepped => ?_, fun world after _ stepped => ?_⟩
  · obtain ⟨⟨order, -, legal⟩, rfl⟩ := machine_step.mp stepped
    exact tokenBucket_advertises legal ran order
  · obtain ⟨-, rfl⟩ := machine_step.mp stepped
    exact slidingWindow_advertises world

/-- After five requests and one more, fourteen are left in the bucket and four in the window. -/
theorem sixth_request_exact :
    (∃ world after, (machine String tokenBucketEndpoint).run (TokenBucketLimiter.empty 0) (burst 5) = some world ∧
      (world.answer tokenBucketEndpoint ⟨"a", .instant 0⟩).headers.lookup "X-RateLimit-Remaining" = some "14" ∧
      AdvertisesExactly tokenBucketEndpoint after "a" 0 (world.answer tokenBucketEndpoint ⟨"a", .instant 0⟩)) ∧
    ∃ world after, (machine String slidingWindowEndpoint).run (SlidingWindowLimiter.empty 0) (burst 5) = some world ∧
      (world.answer slidingWindowEndpoint ⟨"a", .instant 0⟩).headers.lookup "X-RateLimit-Remaining" = some "4" ∧
      AdvertisesExactly slidingWindowEndpoint after "a" 0 (world.answer slidingWindowEndpoint ⟨"a", .instant 0⟩) := by
  have bucket : ((machine String tokenBucketEndpoint).run (TokenBucketLimiter.empty 0) (burst 5)).any fun world =>
      (world.answer tokenBucketEndpoint ⟨"a", .instant 0⟩).headers.lookup "X-RateLimit-Remaining" = some "14" ∧
        ((machine String tokenBucketEndpoint).step world ⟨"a", .instant 0⟩).isSome := by decide +kernel
  have window : ((machine String slidingWindowEndpoint).run (SlidingWindowLimiter.empty 0) (burst 5)).any fun world =>
      (world.answer slidingWindowEndpoint ⟨"a", .instant 0⟩).headers.lookup "X-RateLimit-Remaining" = some "4" ∧
        ((machine String slidingWindowEndpoint).step world ⟨"a", .instant 0⟩).isSome := by decide +kernel
  refine ⟨?_, ?_⟩
  · obtain ⟨world, ran, ends⟩ := (Option.any_eq_true _ _).mp bucket
    obtain ⟨advertised, goes⟩ := of_decide_eq_true ends
    obtain ⟨after, stepped⟩ := Option.isSome_iff_exists.mp goes
    exact ⟨world, after, ran, advertised, (remaining_exact 0 (burst 5) "a" (.instant 0)).1 world after ran stepped⟩
  · obtain ⟨world, ran, ends⟩ := (Option.any_eq_true _ _).mp window
    obtain ⟨advertised, goes⟩ := of_decide_eq_true ends
    obtain ⟨after, stepped⟩ := Option.isSome_iff_exists.mp goes
    exact ⟨world, after, ran, advertised, (remaining_exact 0 (burst 5) "a" (.instant 0)).2 world after ran stepped⟩

end DataPipeline.Ingestor.RecordsV2
