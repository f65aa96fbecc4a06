import DataPipeline.Ingestor.RecordsV2
import Mathlib.Data.List.TakeWhile

/-! By which key `ingestor/routers/records_v2.py` limits a client, behind the
proxy of `infra/nginx/nginx.conf`, which appends the address of the peer to the
forwarded header of the request.
-/

set_option autoImplicit false

namespace DataPipeline.Ingestor.RecordsV2

open Execution Limiter

/-! ## The key of a request -/

/-- What `str.strip` takes off. -/
def isSpace (c : Char) : Bool :=
  let code := c.toNat
  (9 ≤ code && code ≤ 13) || (28 ≤ code && code ≤ 32) || code = 0x85 || code = 0xA0 || code = 0x1680 ||
    (0x2000 ≤ code && code ≤ 0x200A) || code = 0x2028 || code = 0x2029 || code = 0x202F || code = 0x205F || code = 0x3000

def strip (text : List Char) : List Char := ((text.dropWhile isSpace).reverse.dropWhile isSpace).reverse

/-- `text.split(",")[0]` -/
def splitHead (text : List Char) : List Char := text.takeWhile fun c => c ≠ ','

structure Request where
  forwarded : Option String
  client : Option String
  deriving DecidableEq, Repr

def clientIp (request : Request) : String :=
  let direct := request.client.getD "unknown"
  match request.forwarded with
  | some forwarded => if forwarded = "" then direct else String.ofList (strip (splitHead forwarded.toList))
  | none => direct

/-- A peer of the proxy; its address has neither commas nor spaces. -/
structure Peer where
  address : String
  nonempty : address ≠ ""
  plain : ∀ c ∈ address.toList, c ≠ ',' ∧ isSpace c = false
  deriving DecidableEq

/-- `$proxy_add_x_forwarded_for`, for the values of the header in the order in
which the peer supplied them. -/
def proxyAddXForwardedFor (peer : Peer) : List String → String
  | [] => peer.address
  | value :: supplied => value ++ ", " ++ proxyAddXForwardedFor peer supplied

/-- A request that `peer` sends to the proxy, whose own address is `proxy`. -/
structure Sent where
  peer : Peer
  supplied : List String
  proxy : String
  arrival : Arrival
  deriving DecidableEq

/-- What `location /api/` passes on. -/
def Sent.request (sent : Sent) : Request := ⟨some (proxyAddXForwardedFor sent.peer sent.supplied), some sent.proxy⟩

def Sent.call (sent : Sent) : Call String Sent := ⟨clientIp sent.request, sent⟩

/-- The first entry of the header that the peer supplied, or its address if it supplied none. -/
def Sent.firstEntry (sent : Sent) : String :=
  match sent.supplied with
  | [] => sent.peer.address
  | value :: _ => String.ofList (strip (splitHead value.toList))

theorem dropWhile_isSpace {text : List Char} (plain : ∀ c ∈ text, isSpace c = false) :
    text.dropWhile isSpace = text := by
  cases text with
  | nil => rfl
  | cons c text => rw [List.dropWhile_cons_of_neg (by simp [plain c List.mem_cons_self])]

theorem strip_plain {text : List Char} (plain : ∀ c ∈ text, isSpace c = false) : strip text = text := by
  have reversed : ∀ c ∈ text.reverse, isSpace c = false := fun c member => plain c (List.mem_reverse.mp member)
  rw [strip, dropWhile_isSpace plain, dropWhile_isSpace reversed, List.reverse_reverse]

theorem splitHead_comma (value rest : List Char) : splitHead (value ++ ',' :: rest) = splitHead value := by
  induction value with
  | nil => rfl
  | cons c value ih =>
    unfold splitHead at ih ⊢
    rw [List.cons_append, List.takeWhile_cons, List.takeWhile_cons, ih]

theorem proxyAdd_ne_empty (peer : Peer) (supplied : List String) : proxyAddXForwardedFor peer supplied ≠ "" := by
  cases supplied with
  | nil => exact peer.nonempty
  | cons value supplied =>
    intro empty
    have length := congrArg String.length empty
    simp [proxyAddXForwardedFor, String.length_append] at length

/-- What the proxy appends is never what the key is taken from, unless the
header is the proxy's own. -/
theorem clientIp_request (sent : Sent) : clientIp sent.request = sent.firstEntry := by
  simp only [clientIp, Sent.request, proxyAdd_ne_empty, ↓reduceIte, Sent.firstEntry]
  cases sent.supplied with
  | nil =>
    have whole : splitHead sent.peer.address.toList = sent.peer.address.toList :=
      List.takeWhile_eq_self_iff.mpr fun c member => decide_eq_true (sent.peer.plain c member).1
    rw [proxyAddXForwardedFor, whole, strip_plain fun c member => (sent.peer.plain c member).2, String.ofList_toList]
  | cons value supplied =>
    have shape : (proxyAddXForwardedFor sent.peer (value :: supplied)).toList =
        value.toList ++ ',' :: ' ' :: (proxyAddXForwardedFor sent.peer supplied).toList := by
      simp [proxyAddXForwardedFor, String.toList_append]
    rw [shape, splitHead_comma]

/-! ## Runs behind the proxy -/

/-- The requests of all peers, each with the key by which it is limited. -/
def sentCalls (sent : List Sent) : List (Call String Sent) := sent.map Sent.call

def decisions (entries : List (Served String Sent Response)) (peer : Peer) : List Bool :=
  (entries.filter fun served => served.call.request.peer = peer).map fun served => served.answer.isAdmitted

def admissions (entries : List (Served String Sent Response)) (peer : Peer) (first last : ℚ) : Nat :=
  entries.countP fun served => served.call.request.peer = peer ∧ served.answer.isAdmitted = true ∧
    first ≤ served.call.request.arrival.now ∧ served.call.request.arrival.now ≤ last

/-- The two runs differ in nothing but the headers that the peer supplied. -/
def DifferInHeader (peer : Peer) : List Sent → List Sent → Prop :=
  List.Forall₂ fun one other =>
    other = { one with supplied := other.supplied } ∧ (one.peer ≠ peer → other.supplied = one.supplied)

def TokenBucketBound (count : ℚ → ℚ → Nat) : Prop :=
  ∀ first last, first ≤ last →
    (count first last : ℚ) ≤ tokenBucket.capacity + tokenBucket.refillPerSecond * (last - first)

def SlidingWindowBound (count : ℚ → ℚ → Nat) : Prop :=
  ∀ first, count first (first + slidingWindow.windowSeconds) ≤ slidingWindow.limit

variable {State : Type} {endpoint : Policy State Arrival Response ℚ} {peer : Peer} {one other : List Sent}

/-- The peer is limited by one key, decided alike in both runs, and admitted no
more often than the limiter allows. -/
structure Limited (endpoint : Policy State Arrival Response ℚ) (bound : (ℚ → ℚ → Nat) → Prop)
    (start : World String State ℚ) (peer : Peer) (one other : List Sent) : Prop where
  key : ∃ key, ∀ sent ∈ one ++ other, sent.peer = peer → sent.call.key = key
  alike : decisions (log (endpoint.comap Sent.arrival) start (sentCalls one)) peer =
    decisions (log (endpoint.comap Sent.arrival) start (sentCalls other)) peer
  bounded : ∀ sent ∈ [one, other],
    bound (admissions (log (endpoint.comap Sent.arrival) start (sentCalls sent)) peer)

/-- Every request of the peer, in both runs, names the same entry first. -/
def OneEntry (peer : Peer) (one other : List Sent) : Prop :=
  ∃ entry, ∀ sent ∈ one ++ other, sent.peer = peer → sent.firstEntry = entry

def SameCall (call other : Call String Sent) : Prop :=
  other.request.peer = call.request.peer ∧ other.key = call.key ∧ other.request.arrival = call.request.arrival

theorem sameCalls {key : String} (differ : DifferInHeader peer one other)
    (keyed : ∀ sent ∈ one ++ other, sent.peer = peer → sent.call.key = key) :
    List.Forall₂ SameCall (sentCalls one) (sentCalls other) := by
  induction differ with
  | nil => exact .nil
  | @cons first second one other alike differ ih =>
    have same : second.call.key = first.call.key := by
      by_cases own : first.peer = peer
      · have ownSecond : second.peer = peer := by rw [alike.1, own]
        rw [keyed first (by simp) own, keyed second (by simp) ownSecond]
      · have same : second = first := by rw [alike.1, alike.2 own]
        rw [same]
    have rest := ih fun sent member => keyed sent (by
      rcases List.mem_append.mp member with inOne | inOther
      · simp [inOne]
      · simp [inOther])
    refine .cons ⟨?_, same, ?_⟩ rest <;> simp only [Sent.call] <;> rw [alike.1]

theorem decisions_congr {entries others : List (Served String Sent Response)}
    (same : List.Forall₂ (fun served other => SameCall served.call other.call ∧ other.answer = served.answer)
      entries others) : decisions entries peer = decisions others peer := by
  induction same with
  | nil => rfl
  | cons first rest ih =>
    obtain ⟨⟨peers, -, -⟩, answers⟩ := first
    unfold decisions at ih ⊢
    simp only [List.filter_cons, peers]
    split
    · rw [List.map_cons, List.map_cons, answers, ih]
    · exact ih

theorem decisions_eq (start : World String State ℚ) (differ : DifferInHeader peer one other)
    (keyed : ∃ key, ∀ sent ∈ one ++ other, sent.peer = peer → sent.call.key = key) :
    decisions (log (endpoint.comap Sent.arrival) start (sentCalls one)) peer =
      decisions (log (endpoint.comap Sent.arrival) start (sentCalls other)) peer := by
  obtain ⟨key, keyed⟩ := keyed
  exact decisions_congr (log_comap_congr start (sameCalls differ keyed) fun _ _ same => same.2)

/-! ## What the limiters allow -/

theorem countP_le {Entry Reply : Type} {related : Entry → Reply → Prop} {entries : List Entry} {replies : List Reply}
    {counted : Entry → Bool} {matched : Reply → Bool} (alike : List.Forall₂ related entries replies)
    (implies : ∀ entry ∈ entries, ∀ reply, related entry reply → counted entry = true → matched reply = true) :
    entries.countP counted ≤ replies.countP matched := by
  induction alike with
  | nil => exact le_rfl
  | @cons entry reply entries replies first rest ih =>
    have tail := ih fun entry member => implies entry (List.mem_cons_of_mem _ member)
    have head := implies entry List.mem_cons_self reply first
    simp only [List.countP_cons]
    split
    next isCounted => rw [if_pos (head isCounted)]; omega
    next => omega

variable {key : String} {clock : ℚ} {sent : List Sent}

theorem peer_key {start : World String State ℚ} {served : Served String Sent Response}
    (keyed : ∀ request ∈ sent, request.peer = peer → request.call.key = key)
    (member : served ∈ log (endpoint.comap Sent.arrival) start (sentCalls sent))
    (own : served.call.request.peer = peer) : served.call.key = key := by
  have called := List.mem_map_of_mem (f := Served.call) member
  rw [log_calls] at called
  obtain ⟨request, isSent, same⟩ := List.mem_map.mp called
  rw [← same] at own ⊢
  exact keyed request isSent own

theorem slidingWindow_bounded {final : World String (List ℚ) ℚ}
    (keyed : ∀ request ∈ sent, request.peer = peer → request.call.key = key)
    (ran : (machine String (slidingWindowEndpoint.comap Sent.arrival)).run (SlidingWindowLimiter.empty clock)
      (sentCalls sent) = some final) :
    SlidingWindowBound (admissions (log (slidingWindowEndpoint.comap Sent.arrival) (SlidingWindowLimiter.empty clock)
      (sentCalls sent)) peer) := by
  obtain ⟨reached, simple, -, agrees⟩ := (slidingWindow_simulates.comap Sent.arrival).run rfl le_rfl ran
  intro first
  have bound := (SlidingWindowLimiter.recalls_run key simple).bounded first
  refine le_trans ?_ bound
  unfold SlidingWindowLimiter.admittedIn SlidingWindowLimiter.admittedTimes
  rw [List.countP_map, List.countP_filter]
  refine countP_le agrees ?_
  intro served member reply same counted
  obtain ⟨own, admitted, inside⟩ := of_decide_eq_true counted
  have allowed : reply.answer.allowed = true := by rw [← same.2, admitted]
  simp only [Function.comp_apply, same.1, peer_key keyed member own, allowed, inside, and_self, decide_true,
    Bool.and_self]

theorem countP_le_admittedTokens (key : String) (first last : ℚ)
    {entries : List (Served String TokenBucketLimiter.Consume (Decision ℚ))}
    (positive : ∀ served ∈ entries, 1 ≤ served.call.request.tokens) :
    (entries.countP fun served => served.call.key = key ∧ served.answer.allowed = true ∧
      first ≤ served.call.request.now ∧ served.call.request.now ≤ last : Int) ≤
      TokenBucketLimiter.admittedTokens entries key first last := by
  induction entries with
  | nil => exact le_rfl
  | cons served entries ih =>
    have tail := ih fun served member => positive served (List.mem_cons_of_mem _ member)
    have head := positive served List.mem_cons_self
    unfold TokenBucketLimiter.admittedTokens at tail ⊢
    rw [List.countP_cons, List.filter_cons]
    split
    next counted => simp only [List.map_cons, List.sum_cons]; push_cast; omega
    next => push_cast; omega

theorem tokenBucket_bounded {final : World String (Option Bucket) ℚ}
    (keyed : ∀ request ∈ sent, request.peer = peer → request.call.key = key)
    (ran : (machine String (tokenBucketEndpoint.comap Sent.arrival)).run (TokenBucketLimiter.empty clock)
      (sentCalls sent) = some final) :
    TokenBucketBound (admissions (log (tokenBucketEndpoint.comap Sent.arrival) (TokenBucketLimiter.empty clock)
      (sentCalls sent)) peer) := by
  obtain ⟨reached, simple, -, agrees⟩ := (tokenBucket_simulates.comap Sent.arrival).run rfl le_rfl ran
  intro first last interval
  have bound := (TokenBucketLimiter.bounded_run refills key interval simple).given
  have single : ∀ served ∈ log tokenBucket.policy (TokenBucketLimiter.empty clock)
      ((sentCalls sent).map fun call => ⟨call.key, 1, call.request.arrival.created, call.request.arrival.now⟩),
      1 ≤ served.call.request.tokens := by
    intro served member
    have called := List.mem_map_of_mem (f := Served.call) member
    rw [log_calls] at called
    obtain ⟨call, -, same⟩ := List.mem_map.mp called
    rw [← same]
  have counted := countP_le_admittedTokens key first last single
  refine le_trans ?_ bound
  refine le_trans ?_ (Int.cast_le.mpr counted)
  rw [Int.cast_natCast, Nat.cast_le]
  refine countP_le agrees ?_
  intro served member reply same counted
  obtain ⟨own, admitted, inside⟩ := of_decide_eq_true counted
  have allowed : reply.answer.allowed = true := by rw [← same.2, admitted]
  simp only [same.1, peer_key keyed member own, allowed, inside, and_self, decide_true]

theorem one_key_iff :
    (∃ key, ∀ sent ∈ one ++ other, sent.peer = peer → sent.call.key = key) ↔ OneEntry peer one other := by
  unfold OneEntry Sent.call
  simp only [clientIp_request]

theorem Limited.of_oneEntry {start : World String State ℚ} {bound : (ℚ → ℚ → Nat) → Prop}
    (differ : DifferInHeader peer one other) (entries : OneEntry peer one other)
    (bounded : ∀ sent ∈ [one, other], ∀ key, (∀ request ∈ sent, request.peer = peer → request.call.key = key) →
      bound (admissions (log (endpoint.comap Sent.arrival) start (sentCalls sent)) peer)) :
    Limited endpoint bound start peer one other := by
  have keyed := one_key_iff.mpr entries
  refine ⟨keyed, decisions_eq start differ keyed, ?_⟩
  obtain ⟨key, keyed⟩ := keyed
  intro sent member
  apply bounded sent member key
  intro request isSent own
  apply keyed request _ own
  rcases List.mem_pair.mp member with rfl | rfl
  · exact List.mem_append_left _ isSent
  · exact List.mem_append_right _ isSent

/-- A peer cannot choose how it is limited exactly as far as it names one entry
first: at both endpoints its two runs, which differ in the headers it supplied,
are limited by one key, decided alike, and bounded. -/
theorem limited_iff (peer : Peer) (clock : ℚ) (one other : List Sent) (differ : DifferInHeader peer one other) :
    (∀ world reached,
      (machine String (tokenBucketEndpoint.comap Sent.arrival)).run (TokenBucketLimiter.empty clock) (sentCalls one) =
        some world →
      (machine String (tokenBucketEndpoint.comap Sent.arrival)).run (TokenBucketLimiter.empty clock) (sentCalls other) =
        some reached →
      (Limited tokenBucketEndpoint TokenBucketBound (TokenBucketLimiter.empty clock) peer one other ↔
        OneEntry peer one other)) ∧
    ∀ world reached,
      (machine String (slidingWindowEndpoint.comap Sent.arrival)).run (SlidingWindowLimiter.empty clock)
        (sentCalls one) = some world →
      (machine String (slidingWindowEndpoint.comap Sent.arrival)).run (SlidingWindowLimiter.empty clock)
        (sentCalls other) = some reached →
      (Limited slidingWindowEndpoint SlidingWindowBound (SlidingWindowLimiter.empty clock) peer one other ↔
        OneEntry peer one other) := by
  refine ⟨fun world reached ran ranOther => ?_, fun world reached ran ranOther => ?_⟩
  · refine ⟨fun limited => one_key_iff.mp limited.key, fun entries => .of_oneEntry differ entries ?_⟩
    intro sent member key keyed
    rcases List.mem_pair.mp member with rfl | rfl
    · exact tokenBucket_bounded keyed ran
    · exact tokenBucket_bounded keyed ranOther
  · refine ⟨fun limited => one_key_iff.mp limited.key, fun entries => .of_oneEntry differ entries ?_⟩
    intro sent member key keyed
    rcases List.mem_pair.mp member with rfl | rfl
    · exact slidingWindow_bounded keyed ran
    · exact slidingWindow_bounded keyed ranOther

def visitor : Peer := ⟨"10.0.0.7", by decide, by simp [isSpace]⟩

def visits (headers : List (List String)) : List Sent :=
  headers.map fun supplied => ⟨visitor, supplied, "172.18.0.2", .instant 0⟩

theorem visits_differ (headers others : List (List String)) (length : headers.length = others.length) :
    DifferInHeader visitor (visits headers) (visits others) := by
  refine List.forall₂_map_left_iff.mpr (List.forall₂_map_right_iff.mpr ?_)
  refine List.forall₂_iff_zip.mpr ⟨length, ?_⟩
  intro _ _ _
  exact ⟨rfl, fun foreign => absurd rfl foreign⟩

/-- To name one's own address is to name none. -/
theorem own_address_limited :
    Limited tokenBucketEndpoint TokenBucketBound (TokenBucketLimiter.empty 0) visitor (visits [[], []])
      (visits [[], [" 10.0.0.7 , 1"]]) ∧
    Limited slidingWindowEndpoint SlidingWindowBound (SlidingWindowLimiter.empty 0) visitor (visits [[], []])
      (visits [[], [" 10.0.0.7 , 1"]]) := by
  have differ : DifferInHeader visitor (visits [[], []]) (visits [[], [" 10.0.0.7 , 1"]]) := visits_differ _ _ rfl
  have entries : OneEntry visitor (visits [[], []]) (visits [[], [" 10.0.0.7 , 1"]]) :=
    ⟨"10.0.0.7", by decide +kernel⟩
  have buckets : ∀ sent ∈ [visits [[], []], visits [[], [" 10.0.0.7 , 1"]]],
      ((machine String (tokenBucketEndpoint.comap Sent.arrival)).run (TokenBucketLimiter.empty 0)
        (sentCalls sent)).isSome := by decide +kernel
  have windows : ∀ sent ∈ [visits [[], []], visits [[], [" 10.0.0.7 , 1"]]],
      ((machine String (slidingWindowEndpoint.comap Sent.arrival)).run (SlidingWindowLimiter.empty 0)
        (sentCalls sent)).isSome := by decide +kernel
  obtain ⟨world, ran⟩ := Option.isSome_iff_exists.mp (buckets _ List.mem_cons_self)
  obtain ⟨reached, ranOther⟩ := Option.isSome_iff_exists.mp (buckets _ (List.mem_cons_of_mem _ List.mem_cons_self))
  obtain ⟨windowWorld, windowRan⟩ := Option.isSome_iff_exists.mp (windows _ List.mem_cons_self)
  obtain ⟨windowReached, windowOther⟩ :=
    Option.isSome_iff_exists.mp (windows _ (List.mem_cons_of_mem _ List.mem_cons_self))
  have limited := limited_iff visitor 0 _ _ differ
  exact ⟨(limited.1 world reached ran ranOther).mpr entries,
    (limited.2 windowWorld windowReached windowRan windowOther).mpr entries⟩

def Escapes (endpoint : Policy State Arrival Response ℚ) (start : World String State ℚ) (size : Nat) : Bool :=
  let plain := sentCalls (visits (List.replicate size []))
  let named := sentCalls (visits ((List.range size).map fun i => [toString i]))
  ((machine String (endpoint.comap Sent.arrival)).run start plain).isSome &&
    ((machine String (endpoint.comap Sent.arrival)).run start named).isSome &&
    decisions (log (endpoint.comap Sent.arrival) start plain) visitor ≠
      decisions (log (endpoint.comap Sent.arrival) start named) visitor

theorem not_limited {start : ℚ → World String State ℚ} {bound : (ℚ → ℚ → Nat) → Prop} {size : Nat}
    (escapes : Escapes endpoint (start 0) size = true) :
    ¬ ∀ peer clock one other world reached, DifferInHeader peer one other →
      (machine String (endpoint.comap Sent.arrival)).run (start clock) (sentCalls one) = some world →
      (machine String (endpoint.comap Sent.arrival)).run (start clock) (sentCalls other) = some reached →
      Limited endpoint bound (start clock) peer one other := by
  intro always
  simp only [Escapes, Bool.and_eq_true, decide_eq_true_eq] at escapes
  obtain ⟨⟨plain, named⟩, differs⟩ := escapes
  obtain ⟨world, ran⟩ := Option.isSome_iff_exists.mp plain
  obtain ⟨reached, ranOther⟩ := Option.isSome_iff_exists.mp named
  have differ := visits_differ (List.replicate size []) ((List.range size).map fun i => [toString i]) (by simp)
  exact differs (always visitor 0 _ _ world reached differ ran ranOther).alike

/-- With a new name for each request 21 requests are admitted at once where 20
tokens are to be had, and 11 where 10 requests fill the window. -/
theorem names_escape_limits :
    (¬ ∀ peer clock one other world reached, DifferInHeader peer one other →
      (machine String (tokenBucketEndpoint.comap Sent.arrival)).run (TokenBucketLimiter.empty clock) (sentCalls one) =
        some world →
      (machine String (tokenBucketEndpoint.comap Sent.arrival)).run (TokenBucketLimiter.empty clock) (sentCalls other) =
        some reached →
      Limited tokenBucketEndpoint TokenBucketBound (TokenBucketLimiter.empty clock) peer one other) ∧
    ¬ ∀ peer clock one other world reached, DifferInHeader peer one other →
      (machine String (slidingWindowEndpoint.comap Sent.arrival)).run (SlidingWindowLimiter.empty clock)
        (sentCalls one) = some world →
      (machine String (slidingWindowEndpoint.comap Sent.arrival)).run (SlidingWindowLimiter.empty clock)
        (sentCalls other) = some reached →
      Limited slidingWindowEndpoint SlidingWindowBound (SlidingWindowLimiter.empty clock) peer one other := by
  have bucket : Escapes tokenBucketEndpoint (TokenBucketLimiter.empty 0) 21 = true := by decide +kernel
  have window : Escapes slidingWindowEndpoint (SlidingWindowLimiter.empty 0) 11 = true := by decide +kernel
  exact ⟨not_limited bucket, not_limited window⟩

end DataPipeline.Ingestor.RecordsV2
