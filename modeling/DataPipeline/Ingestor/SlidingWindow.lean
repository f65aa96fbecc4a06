import DataPipeline.Ingestor.RateLimitingAdvanced
import Mathlib.Data.List.Pairwise

/-! What a sliding window guarantees in every run of `is_allowed`.

The deque of a key holds its newest admitted times in order, so evicting from
the old end leaves those in the window, whenever the next call comes.
-/

set_option autoImplicit false

namespace DataPipeline.Ingestor.SlidingWindowLimiter

open Execution Limiter

variable {limiter : SlidingWindowLimiter} {window : List ℚ} {now later cutoff : ℚ}

/-! ## Evicting -/

/-- Evicting twice is evicting once, up to the later cutoff. -/
theorem evict_evict {after : ℚ} (order : cutoff ≤ after) (window : List ℚ) :
    evict after (evict cutoff window) = evict after window := by
  induction window with
  | nil => rfl
  | cons oldest window ih =>
    by_cases gone : oldest < cutoff
    · have goneLater : oldest < after := gone.trans_le order
      simp only [evict, gone, goneLater, ↓reduceIte, ih]
    · simp only [evict, gone, ↓reduceIte]

theorem evict_eq_filter (sorted : window.Pairwise (· ≤ ·)) :
    evict cutoff window = window.filter fun time => cutoff ≤ time := by
  induction sorted with
  | nil => rfl
  | cons first _ ih =>
    rename_i oldest window _
    by_cases gone : oldest < cutoff
    · have leaves : ¬ cutoff ≤ oldest := not_le.mpr gone
      simp only [evict, gone, ↓reduceIte, List.filter_cons, leaves, decide_false, Bool.false_eq_true, ih]
    -- Where the oldest time stays, every later one does.
    · have stays : cutoff ≤ oldest := not_lt.mp gone
      have all : window.filter (fun time => cutoff ≤ time) = window :=
        List.filter_eq_self.mpr fun time member => decide_eq_true (stays.trans (first time member))
      simp only [evict, gone, ↓reduceIte, List.filter_cons, stays, decide_true, all]

theorem length_evict_le (cutoff : ℚ) (window : List ℚ) :
    (evict cutoff window).length ≤ window.length := by
  induction window with
  | nil => exact le_rfl
  | cons oldest window ih =>
    unfold evict
    split
    · exact ih.trans (Nat.le_succ _)
    · exact le_rfl

theorem length_evict_lt_iff (cutoff oldest : ℚ) (rest : List ℚ) :
    (evict cutoff (oldest :: rest)).length < (oldest :: rest).length ↔ oldest < cutoff := by
  unfold evict
  split
  next gone => exact iff_of_true (Nat.lt_succ_of_le (length_evict_le cutoff rest)) gone
  next stays => exact iff_of_false (lt_irrefl _) stays

theorem head_evict {oldest : ℚ} {rest : List ℚ} (kept : evict cutoff window = oldest :: rest) : cutoff ≤ oldest := by
  induction window with
  | nil => cases kept
  | cons first window ih =>
    rw [evict] at kept
    split at kept
    next => exact ih kept
    next stays =>
      cases kept
      exact not_lt.mp stays

theorem evict_concat {newest : ℚ} (inside : cutoff ≤ newest) (window : List ℚ) :
    evict cutoff (evict cutoff window ++ [newest]) = evict cutoff window ++ [newest] := by
  cases kept : evict cutoff window with
  | nil => simp only [List.nil_append, evict, not_lt.mpr inside, ↓reduceIte]
  | cons oldest rest => simp only [List.cons_append, evict, not_lt.mpr (head_evict kept), ↓reduceIte]

/-! ## Denied calls -/

/-- No call from the time on finds different windows. -/
def Alike (limiter : SlidingWindowLimiter) (time : ℚ) (first second : List ℚ) : Prop :=
  ∀ now, time ≤ now → evict (now - limiter.windowSeconds) first = evict (now - limiter.windowSeconds) second

theorem isAllowed_cases (limiter : SlidingWindowLimiter) (window : List ℚ) (now : ℚ) :
    ((evict (now - limiter.windowSeconds) window).length < limiter.limit ∧
      limiter.isAllowed window now = (evict (now - limiter.windowSeconds) window ++ [now],
        ⟨true, limiter.limit - (evict (now - limiter.windowSeconds) window).length - 1⟩)) ∨
    (limiter.limit ≤ (evict (now - limiter.windowSeconds) window).length ∧
      limiter.isAllowed window now = (evict (now - limiter.windowSeconds) window, ⟨false, 0⟩)) := by
  unfold isAllowed
  rcases Nat.lt_or_ge (evict (now - limiter.windowSeconds) window).length limiter.limit with room | full
  · exact .inl ⟨room, if_pos room⟩
  · exact .inr ⟨full, if_neg (Nat.not_lt.mpr full)⟩

theorem forgets (limiter : SlidingWindowLimiter) : Forgets limiter.policy Decision.Denied limiter.Alike where
  refl _ _ := fun _ _ => rfl
  trans _ _ _ _ same next := fun now order => (same now order).trans (next now order)
  later _ _ _ _ order same := fun now after => same now (order.trans after)
  answers time first second now same order _ := by
    have served : limiter.isAllowed first now = limiter.isAllowed second now := by
      unfold isAllowed
      rw [same now order]
    simp only [policy, served, true_and]
    exact fun _ _ => rfl
  forgets window now _ denied := by
    rcases isAllowed_cases limiter window now with ⟨-, served⟩ | ⟨-, served⟩
    · simp [Decision.Denied, policy, served] at denied
    · simp only [policy, served]
      exact fun later order => evict_evict (sub_le_sub_right order _) window

/-! ## The window of a key -/

def admittedTimes (entries : List (Served String ℚ (Decision Nat))) (key : String) : List ℚ :=
  (entries.filter fun served => served.call.key = key ∧ served.answer.allowed = true).map fun served =>
    served.call.request

def admittedIn (entries : List (Served String ℚ (Decision Nat))) (key : String) (first last : ℚ) : Nat :=
  (admittedTimes entries key).countP fun time => first ≤ time ∧ time ≤ last

/-- The deque of a key shows every later call the admitted times in its window,
and no interval of that length holds more of them than the limit. -/
structure Recalls (limiter : SlidingWindowLimiter) (key : String) (world : World String (List ℚ) ℚ)
    (entries : List (Served String ℚ (Decision Nat))) : Prop where
  sorted : (admittedTimes entries key).Pairwise (· ≤ ·)
  past : ∀ time ∈ admittedTimes entries key, time ≤ world.clock
  shown : ∀ now, world.clock ≤ now → evict (now - limiter.windowSeconds) (world.states key) =
    (admittedTimes entries key).filter fun time => now - limiter.windowSeconds ≤ time
  bounded : ∀ first, admittedIn entries key first (first + limiter.windowSeconds) ≤ limiter.limit

variable {world : World String (List ℚ) ℚ} {entries : List (Served String ℚ (Decision Nat))}
  {call : Call String ℚ} {key : String}

theorem admittedTimes_concat (served : Served String ℚ (Decision Nat)) :
    admittedTimes (entries ++ [served]) key = admittedTimes entries key ++
      if served.call.key = key ∧ served.answer.allowed = true then [served.call.request] else [] := by
  simp only [admittedTimes, List.filter_append, List.map_append, List.filter_cons, List.filter_nil]
  split <;> simp_all

theorem Recalls.initial (clock : ℚ) : limiter.Recalls key (empty clock) [] :=
  ⟨.nil, fun _ member => (by cases member), fun _ _ => rfl, fun _ => Nat.zero_le _⟩

theorem Recalls.length_evict (recalls : limiter.Recalls key world entries) (order : world.clock ≤ now) :
    (evict (now - limiter.windowSeconds) (world.states key)).length =
      admittedIn entries key (now - limiter.windowSeconds) now := by
  rw [recalls.shown now order, ← List.countP_eq_length_filter]
  apply List.countP_congr
  intro time member
  have past := (recalls.past time member).trans order
  simp only [decide_eq_true_eq, past, and_true]

theorem Recalls.admittedIn_le (recalls : limiter.Recalls key world entries) (now : ℚ) :
    admittedIn entries key (now - limiter.windowSeconds) now ≤ limiter.limit := by
  have bounded := recalls.bounded (now - limiter.windowSeconds)
  rwa [sub_add_cancel] at bounded

/-- Nothing is admitted, and the deque shows every later call what it did before. -/
theorem Recalls.unadmitted (recalls : limiter.Recalls key world entries) {served : Served String ℚ (Decision Nat)}
    {after : World String (List ℚ) ℚ} (nothing : ¬ (served.call.key = key ∧ served.answer.allowed = true))
    (order : world.clock ≤ after.clock)
    (same : ∀ now, after.clock ≤ now →
      evict (now - limiter.windowSeconds) (after.states key) = evict (now - limiter.windowSeconds) (world.states key)) :
    limiter.Recalls key after (entries ++ [served]) := by
  have times : admittedTimes (entries ++ [served]) key = admittedTimes entries key := by
    rw [admittedTimes_concat, if_neg nothing, List.append_nil]
  refine ⟨?_, fun time member => ?_, fun now reached => ?_, fun first => ?_⟩
  · rw [times]
    exact recalls.sorted
  · rw [times] at member
    exact (recalls.past time member).trans order
  · rw [times, same now reached]
    exact recalls.shown now (order.trans reached)
  · rw [admittedIn, times]
    exact recalls.bounded first

/-- An interval that ends no earlier than a call holds no more old times than
the window of the call. -/
theorem Recalls.admittedIn_before (recalls : limiter.Recalls key world entries) (order : world.clock ≤ now) {first : ℚ}
    (inside : now ≤ first + limiter.windowSeconds) :
    admittedIn entries key first (first + limiter.windowSeconds) ≤
      admittedIn entries key (now - limiter.windowSeconds) now := by
  apply List.countP_mono_left
  intro time member within
  have within := of_decide_eq_true within
  have past := (recalls.past time member).trans order
  exact decide_eq_true ⟨by linarith [within.1], past⟩

theorem Recalls.admitted (recalls : limiter.Recalls key world entries) {served : Served String ℚ (Decision Nat)}
    {after : World String (List ℚ) ℚ} (own : served.call.key = key) (allowed : served.answer.allowed = true)
    (order : world.clock ≤ served.call.request) (clock : after.clock = served.call.request)
    (room : (evict (served.call.request - limiter.windowSeconds) (world.states key)).length < limiter.limit)
    (window : after.states key =
      evict (served.call.request - limiter.windowSeconds) (world.states key) ++ [served.call.request]) :
    limiter.Recalls key after (entries ++ [served]) := by
  have times : admittedTimes (entries ++ [served]) key = admittedTimes entries key ++ [served.call.request] := by
    rw [admittedTimes_concat, if_pos ⟨own, allowed⟩]
  have sorted : (admittedTimes entries key ++ [served.call.request]).Pairwise (· ≤ ·) := by
    apply List.pairwise_append.mpr
    refine ⟨recalls.sorted, List.pairwise_singleton _ _, fun time member newest isNewest => ?_⟩
    rw [List.mem_singleton.mp isNewest]
    exact (recalls.past time member).trans order
  refine ⟨times ▸ sorted, fun time member => ?_, fun now reached => ?_, fun first => ?_⟩
  · rw [times] at member
    rw [clock]
    rcases List.mem_append.mp member with old | newest
    · exact (recalls.past time old).trans order
    · exact (List.mem_singleton.mp newest).le
  · rw [clock] at reached
    -- The new time comes last, so the deque is still in order.
    have still : ((admittedTimes entries key).filter (fun time => served.call.request - limiter.windowSeconds ≤ time) ++
        [served.call.request]).Pairwise (· ≤ ·) :=
      sorted.sublist (List.filter_sublist.append_right [served.call.request])
    rw [times, window, recalls.shown _ order, evict_eq_filter still, List.filter_append, List.filter_append,
      List.filter_filter]
    congr 1
    apply List.filter_congr
    intro time _
    rw [Bool.and_eq_left_iff_imp]
    intro recent
    have recent := of_decide_eq_true recent
    exact decide_eq_true (by linarith)
  · have before := recalls.bounded first
    rw [admittedIn] at before ⊢
    rw [times, List.countP_append, List.countP_singleton]
    split
    next inside =>
      have inside := of_decide_eq_true inside
      have held := recalls.admittedIn_before order inside.2
      rw [← recalls.length_evict order, admittedIn] at held
      omega
    next => exact before

theorem Recalls.step (recalls : limiter.Recalls key world entries) (order : world.clock ≤ call.request) :
    limiter.Recalls key (world.serve limiter.policy call) (entries ++ [⟨call, world.answer limiter.policy call⟩]) := by
  by_cases own : call.key = key
  case neg =>
    apply recalls.unadmitted (fun admitted => own admitted.1) order
    intro now _
    rw [World.states_serve_of_ne own]
  case pos =>
    subst own
    rcases isAllowed_cases limiter (world.states call.key) call.request with ⟨room, served⟩ | ⟨full, served⟩
    · apply recalls.admitted rfl (by simp [World.answer, policy, served]) order rfl room
      simp only [World.states_serve_self, policy, served]
    · apply recalls.unadmitted (fun admitted => by simp [World.answer, policy, served] at admitted) order
      intro now reached
      simp only [World.states_serve_self, policy, served]
      exact evict_evict (sub_le_sub_right reached _) _

theorem recalls_run {clock : ℚ} {calls : List (Call String ℚ)} (key : String)
    (ran : (machine String limiter.policy).run (empty clock) calls = some world) :
    limiter.Recalls key world (log limiter.policy (empty clock) calls) := by
  refine invariant_logged (limiter.Recalls key) (.initial clock) ?_ ran
  intro before entries call recalls order _ _
  exact recalls.step order

theorem Recalls.denied_iff (recalls : limiter.Recalls call.key world entries) (order : world.clock ≤ call.request) :
    (world.answer limiter.policy call).allowed = false ↔
      admittedIn entries call.key (call.request - limiter.windowSeconds) call.request = limiter.limit := by
  have most := recalls.admittedIn_le call.request
  have held := recalls.length_evict order
  rcases isAllowed_cases limiter (world.states call.key) call.request with ⟨room, served⟩ | ⟨full, served⟩
  · exact iff_of_false (by simp [World.answer, policy, served]) (by omega)
  · exact iff_of_true (by simp [World.answer, policy, served]) (by omega)

/-- In every run no closed interval as long as the window holds more admitted
calls of a key than the limit, a call is denied exactly if the interval that
ends with it holds as many, and what a key is answered depends neither on other
keys nor on its own denied calls. -/
theorem window_bound (limiter : SlidingWindowLimiter) (clock : ℚ) (calls : List (Call String ℚ))
    (final : World String (List ℚ) ℚ)
    (ran : (machine String limiter.policy).run (empty clock) calls = some final) :
    (∀ key first, admittedIn (log limiter.policy (empty clock) calls) key first (first + limiter.windowSeconds) ≤
      limiter.limit) ∧
    (∀ earlier served later, log limiter.policy (empty clock) calls = earlier ++ served :: later →
      (served.answer.allowed = false ↔ admittedIn earlier served.call.key
        (served.call.request - limiter.windowSeconds) served.call.request = limiter.limit)) ∧
    ∀ key kept, Thinned (fun served => served.call.key ≠ key ∨ served.answer.allowed = false)
        (log limiter.policy (empty clock) calls) kept →
      (log limiter.policy (empty clock) (kept.map Served.call)).filter (fun served => served.call.key = key) =
        kept.filter fun served => served.call.key = key := by
  refine ⟨fun key => (recalls_run key ran).bounded, ?_, fun key kept => log_thinned_key limiter.forgets ran⟩
  intro earlier served later split
  obtain ⟨front, middle, head, logged, answered, order, -⟩ := served_of_log ran split
  have recalls := recalls_run served.call.key head
  rw [logged] at recalls
  rw [answered]
  exact recalls.denied_iff order

def sampleCalls : List (Call String ℚ) := [⟨"a", 0⟩, ⟨"b", 1⟩, ⟨"a", 30⟩, ⟨"a", 60⟩]

theorem third_call_denied :
    admittedIn [⟨⟨"a", 0⟩, ⟨true, 1⟩⟩, ⟨⟨"b", 1⟩, ⟨true, 1⟩⟩, ⟨⟨"a", 30⟩, ⟨true, 0⟩⟩] "a" (60 - 60) 60 = 2 := by
  have runs : ((machine String (policy ⟨2, 60⟩)).run (empty 0) sampleCalls).isSome := by decide +kernel
  obtain ⟨final, ran⟩ := Option.isSome_iff_exists.mp runs
  have logged : log (policy ⟨2, 60⟩) (empty 0) sampleCalls =
      [⟨⟨"a", 0⟩, ⟨true, 1⟩⟩, ⟨⟨"b", 1⟩, ⟨true, 1⟩⟩, ⟨⟨"a", 30⟩, ⟨true, 0⟩⟩] ++ ⟨⟨"a", 60⟩, ⟨false, 0⟩⟩ :: [] := by
    decide +kernel
  exact ((window_bound ⟨2, 60⟩ 0 sampleCalls final ran).2.1 _ _ _ logged).mp rfl

end DataPipeline.Ingestor.SlidingWindowLimiter
