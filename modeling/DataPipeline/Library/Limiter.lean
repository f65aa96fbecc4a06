import DataPipeline.Library.Execution
import Mathlib.Logic.Function.Basic
import Mathlib.Order.Lattice

/-! Limiters that keep one state for each key.

A request is answered from the state of its key and from readings of a clock
that never runs backwards. Two questions are settled once for all of them:
whether the calls of one key can be told from those of another, and whether a
call that was denied leaves a trace.
-/

set_option autoImplicit false

namespace Limiter

open Execution

/-- How one key is served. A request carries the readings of the clock that
serving it takes, `started` the first and `decided` the last of them. -/
structure Policy (State Request Answer Time : Type) where
  serve : State → Request → State × Answer
  started : Request → Time
  decided : Request → Time
  legal : Request → Bool

structure Call (Key Request : Type) where
  key : Key
  request : Request
  deriving DecidableEq, Repr

structure Served (Key Request Answer : Type) where
  call : Call Key Request
  answer : Answer
  deriving DecidableEq, Repr

structure World (Key State Time : Type) where
  states : Key → State
  clock : Time

variable {Key State Request Answer Time : Type} [DecidableEq Key]

namespace World

def answer (world : World Key State Time) (policy : Policy State Request Answer Time) (call : Call Key Request) :
    Answer :=
  (policy.serve (world.states call.key) call.request).2

def serve (world : World Key State Time) (policy : Policy State Request Answer Time) (call : Call Key Request) :
    World Key State Time where
  states := Function.update world.states call.key (policy.serve (world.states call.key) call.request).1
  clock := policy.decided call.request

variable {policy : Policy State Request Answer Time} {world : World Key State Time} {call : Call Key Request}

@[simp] theorem states_serve_self :
    (world.serve policy call).states call.key = (policy.serve (world.states call.key) call.request).1 :=
  Function.update_self _ _ _

theorem states_serve_of_ne {key : Key} (foreign : call.key ≠ key) :
    (world.serve policy call).states key = world.states key :=
  Function.update_of_ne (Ne.symm foreign) _ _

end World

/-- The calls of a run with their answers. -/
def log (policy : Policy State Request Answer Time) :
    World Key State Time → List (Call Key Request) → List (Served Key Request Answer)
  | _, [] => []
  | world, call :: rest => ⟨call, world.answer policy call⟩ :: log policy (world.serve policy call) rest

theorem log_calls (policy : Policy State Request Answer Time) (start : World Key State Time)
    (calls : List (Call Key Request)) : (log policy start calls).map Served.call = calls := by
  induction calls generalizing start with
  | nil => rfl
  | cons call calls ih => rw [log, List.map_cons, ih]

variable [LinearOrder Time]

/-- Legal calls, with a clock that never runs backwards. -/
def machine (Key : Type) [DecidableEq Key] (policy : Policy State Request Answer Time) :
    Machine (World Key State Time) (Call Key Request) where
  step world call :=
    if world.clock ≤ policy.started call.request ∧ policy.started call.request ≤ policy.decided call.request ∧
        policy.legal call.request = true then
      some (world.serve policy call)
    else none

variable {policy : Policy State Request Answer Time} {start middle final other : World Key State Time}
  {call last : Call Key Request} {calls : List (Call Key Request)} {key : Key}

theorem machine_step :
    (machine Key policy).step start call = some final ↔
      (start.clock ≤ policy.started call.request ∧ policy.started call.request ≤ policy.decided call.request ∧
        policy.legal call.request = true) ∧ final = start.serve policy call := by
  simp only [machine, Option.ite_none_right_eq_some, Option.some.injEq]
  exact and_congr_right fun _ => eq_comm

theorem log_concat (ran : (machine Key policy).run start calls = some middle) :
    log policy start (calls ++ [last]) = log policy start calls ++ [⟨last, middle.answer policy last⟩] := by
  induction calls generalizing start with
  | nil => cases ran; rfl
  | cons call calls ih =>
    obtain ⟨next, stepped, tail⟩ := Machine.run_cons.mp ran
    obtain ⟨-, rfl⟩ := machine_step.mp stepped
    simp only [List.cons_append, log, ih tail]

/-- An invariant of the world and the log of the calls that led to it. -/
theorem invariant_logged (inv : World Key State Time → List (Served Key Request Answer) → Prop)
    (initial : inv start [])
    (keeps : ∀ before log call, inv before log →
      before.clock ≤ policy.started call.request → policy.started call.request ≤ policy.decided call.request →
      policy.legal call.request = true →
      inv (before.serve policy call) (log ++ [⟨call, before.answer policy call⟩]))
    (ran : (machine Key policy).run start calls = some final) : inv final (log policy start calls) := by
  induction calls using List.reverseRecOn generalizing final with
  | nil => cases ran; exact initial
  | append_singleton calls last ih =>
    obtain ⟨middle, head, stepped⟩ := Machine.run_concat.mp ran
    obtain ⟨⟨order, ends, legal⟩, rfl⟩ := machine_step.mp stepped
    rw [log_concat head]
    exact keeps middle _ last (ih head) order ends legal

theorem served_of_log {earlier later : List (Served Key Request Answer)} {served : Served Key Request Answer}
    (ran : (machine Key policy).run start calls = some final)
    (split : log policy start calls = earlier ++ served :: later) :
    ∃ front middle, (machine Key policy).run start front = some middle ∧ log policy start front = earlier ∧
      served.answer = middle.answer policy served.call ∧
      middle.clock ≤ policy.started served.call.request ∧
      policy.started served.call.request ≤ policy.decided served.call.request := by
  induction calls generalizing start earlier with
  | nil => simp [log] at split
  | cons call calls ih =>
    obtain ⟨next, stepped, tail⟩ := Machine.run_cons.mp ran
    have ⟨⟨order, ends, _⟩, same⟩ := machine_step.mp stepped
    cases earlier with
    | nil =>
      rw [log, List.nil_append, List.cons.injEq] at split
      obtain ⟨rfl, -⟩ := split
      exact ⟨[], start, rfl, rfl, rfl, order, ends⟩
    | cons first earlier =>
      rw [log, List.cons_append, List.cons.injEq] at split
      obtain ⟨rfl, split⟩ := split
      rw [← same] at split
      obtain ⟨front, middle, head, logged, answered⟩ := ih tail split
      refine ⟨call :: front, middle, Machine.run_cons.mpr ⟨next, stepped, head⟩, ?_, answered⟩
      rw [log, ← same, logged]

theorem run_sublist {fewer : List (Call Key Request)} (sublist : fewer.Sublist calls)
    (earlier : other.clock ≤ start.clock) (ran : (machine Key policy).run start calls = some final) :
    ∃ reached, (machine Key policy).run other fewer = some reached := by
  induction sublist generalizing start other with
  | slnil => exact ⟨other, rfl⟩
  | cons call sublist ih =>
    obtain ⟨next, stepped, tail⟩ := Machine.run_cons.mp ran
    obtain ⟨⟨order, ends, -⟩, rfl⟩ := machine_step.mp stepped
    exact ih (earlier.trans (order.trans ends)) tail
  | cons_cons call sublist ih =>
    obtain ⟨next, stepped, tail⟩ := Machine.run_cons.mp ran
    obtain ⟨⟨order, ends, legal⟩, rfl⟩ := machine_step.mp stepped
    have stepped : (machine Key policy).step other call = some (other.serve policy call) :=
      machine_step.mpr ⟨⟨earlier.trans order, ends, legal⟩, rfl⟩
    have together : (other.serve policy call).clock ≤ (start.serve policy call).clock :=
      le_refl (policy.decided call.request)
    obtain ⟨reached, rest⟩ := ih together tail
    exact ⟨reached, Machine.run_cons.mpr ⟨_, stepped, rest⟩⟩

/-! ## Keys do not see each other -/

omit [LinearOrder Time] in
/-- What one key is answered follows from the calls of that key alone. -/
theorem log_key (agree : start.states key = other.states key) (calls : List (Call Key Request)) :
    (log policy start calls).filter (fun served => served.call.key = key) =
      log policy other (calls.filter fun call => call.key = key) := by
  induction calls generalizing start other with
  | nil => rfl
  | cons call calls ih =>
    by_cases own : call.key = key
    · have answers : start.answer policy call = other.answer policy call := by
        unfold World.answer
        rw [own, agree]
      have next : (start.serve policy call).states key = (other.serve policy call).states key := by
        simp only [World.serve, own, agree, Function.update_self]
      simp only [log, List.filter_cons, own, decide_true, ↓reduceIte, answers, ih next]
    · have next : (start.serve policy call).states key = other.states key := by
        rw [World.states_serve_of_ne own, agree]
      simp only [log, List.filter_cons, own, decide_false, Bool.false_eq_true, ↓reduceIte, ih next]

theorem states_run_of_ne (ran : (machine Key policy).run start calls = some final)
    (foreign : ∀ call ∈ calls, call.key ≠ key) : final.states key = start.states key := by
  induction calls generalizing start with
  | nil => cases ran; rfl
  | cons call calls ih =>
    obtain ⟨next, stepped, tail⟩ := Machine.run_cons.mp ran
    obtain ⟨-, rfl⟩ := machine_step.mp stepped
    obtain ⟨first, rest⟩ := List.forall_mem_cons.mp foreign
    rw [ih tail rest, World.states_serve_of_ne first]

/-- A run in which the key is not called. -/
def Undisturbed (policy : Policy State Request Answer Time) (key : Key) (world reached : World Key State Time) : Prop :=
  ∃ others, (machine Key policy).run world others = some reached ∧ ∀ call ∈ others, call.key ≠ key

theorem Undisturbed.refl (policy : Policy State Request Answer Time) (key : Key) (world : World Key State Time) :
    Undisturbed policy key world world :=
  ⟨[], rfl, fun _ member => absurd member List.not_mem_nil⟩

theorem Undisturbed.states (undisturbed : Undisturbed policy key start final) : final.states key = start.states key := by
  obtain ⟨others, ran, foreign⟩ := undisturbed
  exact states_run_of_ne ran foreign

/-! ## Quotas -/

/-- How many more requests of a kind a state admits, where `yes` and `no` are the
outcomes of an answer: each request takes one away until none is left. -/
structure Quota {Outcome : Type} (policy : Policy State Request Answer Time) (outcome : Answer → Outcome)
    (yes no : Outcome) (kind : Request → Prop) (quota : State → Nat) : Prop where
  answers : ∀ state request, kind request →
    outcome (policy.serve state request).2 = if 0 < quota state then yes else no
  spends : ∀ state request, kind request → quota (policy.serve state request).1 = quota state - 1

omit [LinearOrder Time] in
theorem Quota.outcomes {Outcome : Type} {outcome : Answer → Outcome} {yes no : Outcome} {kind : Request → Prop}
    {quota : State → Nat} (counts : Quota policy outcome yes no kind quota) (start : World Key State Time)
    {requests : List Request} (alike : ∀ request ∈ requests, kind request) :
    (log policy start (requests.map fun request => ⟨key, request⟩)).map (fun served => outcome served.answer) =
      List.replicate (min (quota (start.states key)) requests.length) yes ++
        List.replicate (requests.length - quota (start.states key)) no := by
  induction requests generalizing start with
  | nil => simp [log]
  | cons request requests ih =>
    obtain ⟨first, rest⟩ := List.forall_mem_cons.mp alike
    have answer := counts.answers (start.states key) request first
    have served : (start.serve policy ⟨key, request⟩).states key = (policy.serve (start.states key) request).1 :=
      World.states_serve_self
    have left : quota ((start.serve policy ⟨key, request⟩).states key) = quota (start.states key) - 1 := by
      rw [served]
      exact counts.spends _ _ first
    simp only [List.map_cons, log, ih (start.serve policy ⟨key, request⟩) rest, left, World.answer, answer]
    cases quota (start.states key) with
    | zero =>
      simp only [Nat.lt_irrefl, ↓reduceIte, Nat.zero_sub, Nat.zero_min, List.replicate_zero, List.nil_append,
        Nat.sub_zero, List.length_cons, List.replicate_succ]
    | succ more =>
      simp only [Nat.zero_lt_succ, ↓reduceIte, Nat.add_sub_cancel, List.length_cons, Nat.succ_min_succ,
        List.replicate_succ, List.cons_append, Nat.add_sub_add_right]

/-! ## Denied calls leave no trace -/

/-- The second list is the first without some of the entries that may go. -/
inductive Thinned {Entry : Type} (mayGo : Entry → Prop) : List Entry → List Entry → Prop where
  | nil : Thinned mayGo [] []
  | keep (entry : Entry) {entries kept : List Entry} (rest : Thinned mayGo entries kept) :
      Thinned mayGo (entry :: entries) (entry :: kept)
  | drop (entry : Entry) {entries kept : List Entry} (goes : mayGo entry) (rest : Thinned mayGo entries kept) :
      Thinned mayGo (entry :: entries) kept

theorem Thinned.sublist {Entry : Type} {mayGo : Entry → Prop} {entries kept : List Entry}
    (thinned : Thinned mayGo entries kept) : kept.Sublist entries := by
  induction thinned with
  | nil => exact .slnil
  | keep entry _ ih => exact ih.cons_cons entry
  | drop entry _ _ ih => exact ih.cons entry

theorem Thinned.filter {Entry : Type} {mayGo goes : Entry → Prop} {entries kept : List Entry} (only : Entry → Bool)
    (thinned : Thinned mayGo entries kept) (implies : ∀ entry, only entry = true → mayGo entry → goes entry) :
    Thinned goes (entries.filter only) (kept.filter only) := by
  induction thinned with
  | nil => exact .nil
  | keep entry _ ih =>
    simp only [List.filter_cons]
    split
    next => exact .keep entry ih
    next => exact ih
  | drop entry gone _ ih =>
    rw [List.filter_cons]
    split
    next kept => exact .drop entry (implies entry kept gone) ih
    next => exact ih

/-- States are alike from a time on if no request that starts then or later can
tell them apart; being denied leaves a state that is like the one before. -/
structure Forgets (policy : Policy State Request Answer Time) (denied : Answer → Prop)
    (alike : Time → State → State → Prop) : Prop where
  refl : ∀ time state, alike time state state
  trans : ∀ time first second third, alike time first second → alike time second third → alike time first third
  later : ∀ time after first second, time ≤ after → alike time first second → alike after first second
  answers : ∀ time first second request, alike time first second → time ≤ policy.started request →
    policy.started request ≤ policy.decided request →
    (policy.serve first request).2 = (policy.serve second request).2 ∧
      alike (policy.decided request) (policy.serve first request).1 (policy.serve second request).1
  forgets : ∀ state request, policy.started request ≤ policy.decided request →
    denied (policy.serve state request).2 → alike (policy.decided request) (policy.serve state request).1 state

variable {denied : Answer → Prop} {alike : Time → State → State → Prop}
  {kept : List (Served Key Request Answer)}

theorem log_thinned_alike (forgets : Forgets policy denied alike)
    (same : ∀ key, alike start.clock (start.states key) (other.states key))
    (ran : (machine Key policy).run start calls = some final)
    (thinned : Thinned (fun served => denied served.answer) (log policy start calls) kept) :
    log policy other (kept.map Served.call) = kept := by
  induction calls generalizing start other kept with
  | nil => cases thinned; rfl
  | cons call calls ih =>
    obtain ⟨next, stepped, tail⟩ := Machine.run_cons.mp ran
    obtain ⟨⟨order, ends, -⟩, rfl⟩ := machine_step.mp stepped
    obtain ⟨answers, alikeNext⟩ := forgets.answers _ _ _ call.request (same call.key) order ends
    have untouched : ∀ key, alike (policy.decided call.request) (start.states key) (other.states key) :=
      fun key => forgets.later _ _ _ _ (order.trans ends) (same key)
    cases thinned with
    | keep _ rest =>
      have next : ∀ key, alike (policy.decided call.request) ((start.serve policy call).states key)
          ((other.serve policy call).states key) := by
        intro key
        simp only [World.serve, Function.update_apply]
        split
        · exact alikeNext
        · exact untouched key
      have answer : other.answer policy call = start.answer policy call := answers.symm
      simp only [List.map_cons, log, ih next tail rest, answer]
    | drop _ gone rest =>
      -- The other run goes on from where it is; what the denied call wrote is like it.
      have next : ∀ key, alike (policy.decided call.request) ((start.serve policy call).states key)
          (other.states key) := by
        intro key
        simp only [World.serve, Function.update_apply]
        split
        next own =>
          rw [own]
          exact forgets.trans _ _ _ _ (forgets.forgets _ _ ends gone) (untouched call.key)
        next => exact untouched key
      exact ih next tail rest

/-- Without some of its denied calls a run answers every other call as before. -/
theorem log_thinned (forgets : Forgets policy denied alike)
    (ran : (machine Key policy).run start calls = some final)
    (thinned : Thinned (fun served => denied served.answer) (log policy start calls) kept) :
    log policy start (kept.map Served.call) = kept :=
  log_thinned_alike forgets (fun _ => forgets.refl _ _) ran thinned

theorem run_thinned {mayGo : Served Key Request Answer → Prop}
    (ran : (machine Key policy).run start calls = some final)
    (thinned : Thinned mayGo (log policy start calls) kept) :
    ∃ reached, (machine Key policy).run start (kept.map Served.call) = some reached := by
  have fewer := thinned.sublist.map Served.call
  rw [log_calls] at fewer
  exact run_sublist fewer le_rfl ran

theorem log_thinned_key (forgets : Forgets policy denied alike)
    (ran : (machine Key policy).run start calls = some final)
    (thinned : Thinned (fun served => served.call.key ≠ key ∨ denied served.answer) (log policy start calls) kept) :
    (log policy start (kept.map Served.call)).filter (fun served => served.call.key = key) =
      kept.filter fun served => served.call.key = key := by
  obtain ⟨reached, ownRan⟩ := run_sublist (List.filter_sublist (p := fun call => decide (call.key = key))) le_rfl ran
  have own : Thinned (fun served => denied served.answer)
      ((log policy start calls).filter fun served => served.call.key = key)
      (kept.filter fun served => served.call.key = key) := by
    apply thinned.filter
    rintro served isOwn (foreign | gone)
    · exact absurd (of_decide_eq_true isOwn) foreign
    · exact gone
  rw [log_key rfl] at own
  have answers := log_thinned forgets ownRan own
  rw [log_key rfl, List.filter_map]
  exact answers

/-! ## One policy behind another -/

variable {Outer Simple Reply : Type}

/-- Requests that carry more than the policy looks at. -/
def Policy.comap (policy : Policy State Request Answer Time) (project : Outer → Request) :
    Policy State Outer Answer Time where
  serve state outer := policy.serve state (project outer)
  started outer := policy.started (project outer)
  decided outer := policy.decided (project outer)
  legal outer := policy.legal (project outer)

/-- Serving a request does to the state what the simpler policy does for a
simpler request, which it starts no earlier and decides no later. -/
structure Simulates (policy : Policy State Request Answer Time) (simple : Policy State Simple Reply Time)
    (simplify : Request → Simple) (agree : Answer → Reply → Prop) : Prop where
  states : ∀ state request, policy.legal request = true →
    (simple.serve state (simplify request)).1 = (policy.serve state request).1
  answers : ∀ state request, policy.legal request = true →
    agree (policy.serve state request).2 (simple.serve state (simplify request)).2
  legal : ∀ request, policy.legal request = true → simple.legal (simplify request) = true
  started : ∀ request, policy.legal request = true → policy.started request ≤ simple.started (simplify request)
  ordered : ∀ request, policy.legal request = true →
    simple.started (simplify request) ≤ simple.decided (simplify request)
  decided : ∀ request, policy.legal request = true → simple.decided (simplify request) ≤ policy.decided request

theorem Simulates.comap {simple : Policy State Simple Reply Time} {simplify : Request → Simple}
    {agree : Answer → Reply → Prop} (simulates : Simulates policy simple simplify agree) (project : Outer → Request) :
    Simulates (policy.comap project) simple (fun outer => simplify (project outer)) agree where
  states state outer := simulates.states state (project outer)
  answers state outer := simulates.answers state (project outer)
  legal outer := simulates.legal (project outer)
  started outer := simulates.started (project outer)
  ordered outer := simulates.ordered (project outer)
  decided outer := simulates.decided (project outer)

/-- A run is a run of the simpler policy too, with answers that agree. -/
theorem Simulates.run {simple : Policy State Simple Reply Time} {simplify : Request → Simple}
    {agree : Answer → Reply → Prop} (simulates : Simulates policy simple simplify agree)
    (states : other.states = start.states) (earlier : other.clock ≤ start.clock)
    (ran : (machine Key policy).run start calls = some final) :
    ∃ reached, (machine Key simple).run other (calls.map fun call => ⟨call.key, simplify call.request⟩) = some reached ∧
      (reached.states = final.states ∧ reached.clock ≤ final.clock) ∧
      List.Forall₂ (fun served reply => reply.call = ⟨served.call.key, simplify served.call.request⟩ ∧
          agree served.answer reply.answer)
        (log policy start calls) (log simple other (calls.map fun call => ⟨call.key, simplify call.request⟩)) := by
  induction calls generalizing start other with
  | nil => cases ran; exact ⟨other, rfl, ⟨states, earlier⟩, .nil⟩
  | cons call calls ih =>
    obtain ⟨next, stepped, tail⟩ := Machine.run_cons.mp ran
    obtain ⟨⟨order, ends, legal⟩, rfl⟩ := machine_step.mp stepped
    let simpler : Call Key Simple := ⟨call.key, simplify call.request⟩
    have together : (other.serve simple simpler).states = (start.serve policy call).states := by
      simp only [World.serve, states, simpler, simulates.states _ _ legal]
    have agrees : agree (start.answer policy call) (other.answer simple simpler) := by
      simp only [World.answer, states, simpler]
      exact simulates.answers _ _ legal
    obtain ⟨reached, rest, same, logged⟩ := ih together (simulates.decided _ legal) tail
    have begins := earlier.trans (order.trans (simulates.started _ legal))
    have stepped : (machine Key simple).step other simpler = some (other.serve simple simpler) :=
      machine_step.mpr ⟨⟨begins, simulates.ordered _ legal, simulates.legal _ legal⟩, rfl⟩
    exact ⟨reached, Machine.run_cons.mpr ⟨_, stepped, rest⟩, same, .cons ⟨rfl, agrees⟩ logged⟩

omit [LinearOrder Time] in
theorem log_comap_congr {project : Outer → Request} {same : Call Key Outer → Call Key Outer → Prop}
    {calls others : List (Call Key Outer)} (start : World Key State Time) (alike : List.Forall₂ same calls others)
    (looks : ∀ call other, same call other →
      other.key = call.key ∧ project other.request = project call.request) :
    List.Forall₂ (fun served reply => same served.call reply.call ∧ reply.answer = served.answer)
      (log (policy.comap project) start calls) (log (policy.comap project) start others) := by
  induction alike generalizing start with
  | nil => exact .nil
  | @cons call other calls others first rest ih =>
    obtain ⟨key, request⟩ := looks call other first
    have answers : start.answer (policy.comap project) other = start.answer (policy.comap project) call := by
      simp only [World.answer, Policy.comap, key, request]
    have next : start.serve (policy.comap project) other = start.serve (policy.comap project) call := by
      simp only [World.serve, Policy.comap, key, request]
    rw [log, log, next]
    exact .cons ⟨first, answers⟩ (ih (start.serve (policy.comap project) call))

end Limiter
