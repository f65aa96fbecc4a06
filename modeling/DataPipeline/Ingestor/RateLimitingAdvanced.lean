import DataPipeline.Library.Limiter
import Mathlib.Data.Rat.Floor
import Mathlib.Tactic.Linarith

/-! The in-memory limiters of `ingestor/rate_limiting_advanced.py`.

Tokens and readings of the monotonic clock are rationals, so refilling is
exact. Each call holds the lock without an await from its first reading to its
last, so it is one step. A limiter's dictionary is the states of a
`Limiter.World`; what a call does to the entry of its key is defined here.
-/

set_option autoImplicit false

namespace DataPipeline.Ingestor

/-- `apply_jitter`; `random.uniform` places its offset by a draw between 0 and 1. -/
def applyJitter (baseValue minJitter maxJitter draw : ℚ) : ℚ :=
  let offset := minJitter + (maxJitter - minJitter) * draw
  max 0 (baseValue + offset)

structure Decision (Remaining : Type) where
  allowed : Bool
  remaining : Remaining
  deriving DecidableEq, Repr

def Decision.Denied {Remaining : Type} (decision : Decision Remaining) : Prop := decision.allowed = false

/-! ## Token bucket -/

structure TokenBucketLimiter where
  capacity : Nat
  refillPerSecond : ℚ
  deriving DecidableEq

/-- An entry of `_buckets`. -/
structure Bucket where
  tokens : ℚ
  lastRefill : ℚ
  deriving DecidableEq

namespace TokenBucketLimiter

def refilled (limiter : TokenBucketLimiter) (bucket : Bucket) (now : ℚ) : ℚ :=
  let elapsed := now - bucket.lastRefill
  min limiter.capacity (bucket.tokens + elapsed * limiter.refillPerSecond)

/-- The arguments of `consume` but the key, with its readings of the clock: the
one with which a new bucket is created, and `now`. -/
structure Consume where
  tokens : Int
  created : ℚ
  now : ℚ
  deriving DecidableEq

def consume (limiter : TokenBucketLimiter) (bucket : Option Bucket) (request : Consume) : Bucket × Decision ℚ :=
  -- A key seen for the first time has a full bucket.
  let bucket := bucket.getD ⟨limiter.capacity, request.created⟩
  let current := limiter.refilled bucket request.now
  if request.tokens ≤ current then (⟨current - request.tokens, request.now⟩, ⟨true, current - request.tokens⟩)
  else (⟨current, request.now⟩, ⟨false, current⟩)

/-- The clock is read for a bucket that is missing, and again for the elapsed
time. None stands for a `ZeroDivisionError`. -/
def secondsUntilToken (limiter : TokenBucketLimiter) (bucket : Option Bucket) (looked now : ℚ)
    (minJitter maxJitter draw : ℚ) : Option ℚ :=
  let bucket := bucket.getD ⟨limiter.capacity, looked⟩
  let deficit := 1 - limiter.refilled bucket now
  if deficit ≤ 0 then some 0
  else if limiter.refillPerSecond = 0 then none
  else some (applyJitter (deficit / limiter.refillPerSecond) minJitter maxJitter draw)

def policy (limiter : TokenBucketLimiter) : Limiter.Policy (Option Bucket) Consume (Decision ℚ) ℚ where
  serve bucket request :=
    let (bucket, decision) := limiter.consume bucket request
    (some bucket, decision)
  started request := request.created
  decided request := request.now
  legal request := 1 ≤ request.tokens

def empty (clock : ℚ) : Limiter.World String (Option Bucket) ℚ := ⟨fun _ => none, clock⟩

end TokenBucketLimiter

/-! ## Sliding window -/

structure SlidingWindowLimiter where
  limit : Nat
  windowSeconds : ℚ
  deriving DecidableEq

namespace SlidingWindowLimiter

/-- The loop that drops timestamps from the old end of a deque. -/
def evict (cutoff : ℚ) : List ℚ → List ℚ
  | [] => []
  | oldest :: window => if oldest < cutoff then evict cutoff window else oldest :: window

def isAllowed (limiter : SlidingWindowLimiter) (window : List ℚ) (now : ℚ) : List ℚ × Decision Nat :=
  let window := evict (now - limiter.windowSeconds) window
  let currentCount := window.length
  if currentCount < limiter.limit then (window ++ [now], ⟨true, limiter.limit - currentCount - 1⟩)
  else (window, ⟨false, 0⟩)

def resetIn (limiter : SlidingWindowLimiter) (window : List ℚ) (now minJitter maxJitter draw : ℚ) : ℚ :=
  match window with
  | [] => 0
  | oldest :: _ =>
    let resetAt := oldest + limiter.windowSeconds
    applyJitter (max 0 (resetAt - now)) minJitter maxJitter draw

/-- A missing deque and an empty one are the same to every operation. -/
def policy (limiter : SlidingWindowLimiter) : Limiter.Policy (List ℚ) ℚ (Decision Nat) ℚ where
  serve window now := limiter.isAllowed window now
  started now := now
  decided now := now
  legal _ := true

def empty (clock : ℚ) : Limiter.World String (List ℚ) ℚ := ⟨fun _ => [], clock⟩

end SlidingWindowLimiter

end DataPipeline.Ingestor
