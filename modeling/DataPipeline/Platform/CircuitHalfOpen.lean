import DataPipeline.Platform.CircuitConcurrency

/-! How many calls a HALF_OPEN breaker lets through.

The state is checked when a call is admitted and changed when an outcome is
recorded, and nothing in between marks that a probe is on its way.
-/

set_option autoImplicit false

namespace DataPipeline.Platform.CircuitConcurrency

open Execution

/-- The calls admitted since the breaker became HALF_OPEN, the latest first;
none while it is CLOSED or OPEN. -/
def noteProbe (probes : List Nat) (_ : World) (label : Label) (after : World) : List Nat :=
  if after.breaker.state = .halfOpen then
    match label with
    | .enter call _ => call :: probes
    | .settle _ _ | .record _ _ | .abandon _ => probes
  else []

def probes (config : CircuitConfig) (start : World) (labels : List Label) : List Nat :=
  (machine config).observe noteProbe [] start labels

def InFlight (world : World) (probes : List Nat) (call : Nat) : Prop :=
  call ∈ probes ∧ world.calls call = .running

/-- A HALF_OPEN breaker has one probe in flight at most. A call that arrives
while there is one is turned away, and a call that arrives after all probes
were cancelled is the next probe. -/
structure SingleProbe (config : CircuitConfig) (start : World) (labels : List Label) : Prop where
  alone : ∀ earlier later world, labels = earlier ++ later → (machine config).run start earlier = some world →
    ∀ call other, InFlight world (probes config start earlier) call →
      InFlight world (probes config start earlier) other → call = other
  rejects : (machine config).Every start labels fun earlier before label after =>
    ∀ call now probe, label = .enter call now → InFlight before (probes config start earlier) probe →
      after.calls call = .finished
  renews : (machine config).Every start labels fun earlier before label after =>
    ∀ call now, label = .enter call now → before.breaker.state = .halfOpen →
      (∀ probe ∈ probes config start earlier, before.calls probe = .finished) → after.calls call = .running

/-- No call arrives while a probe is in flight. -/
def ArrivesAlone (config : CircuitConfig) (start : World) (labels : List Label) : Prop :=
  (machine config).Every start labels fun earlier before label _ =>
    ∀ call now, label = .enter call now → ∀ probe, ¬ InFlight before (probes config start earlier) probe

variable {config : CircuitConfig} {before after : World} {noted : List Nat}

def NotedHalfOpen (world : World) (noted : List Nat) : Prop := noted ≠ [] → world.breaker.state = .halfOpen

theorem notedHalfOpen_note (label : Label) : NotedHalfOpen after (noteProbe noted before label after) := by
  intro some
  by_contra other
  exact some (if_neg other)

theorem notedHalfOpen_run {clock : ℚ} {labels : List Label} {world : World}
    (ran : (machine config).run (.initial clock) labels = some world) :
    NotedHalfOpen world (probes config (.initial clock) labels) :=
  Machine.observed_of_step NotedHalfOpen (fun some => absurd rfl some)
    (fun _ _ label _ _ _ => notedHalfOpen_note label) ran

theorem enter_halfOpen {call : Nat} {now : ℚ} (half : before.breaker.state = .halfOpen)
    (stepped : (machine config).step before (.enter call now) = some after) : after.calls call = .running := by
  obtain ⟨-, -, rfl⟩ := enter_step stepped
  have passed : ¬ (before.breaker.maybeTransitionToHalfOpen config now).state = .open := by
    rw [CircuitBreaker.gate_open_iff, half]
    simp
  simp [passed]

theorem running_of_update {calls : Nat → Phase} {ended call : Nat} {phase : Phase} (other : phase ≠ .running)
    (running : Function.update calls ended phase call = .running) : calls call = .running := by
  rw [Function.update_apply] at running
  split at running
  · exact absurd running other
  · exact running

theorem running_step {label : Label} {call : Nat}
    (stepped : (machine config).step before label = some after) (running : after.calls call = .running) :
    before.calls call = .running ∨ ∃ now, label = .enter call now := by
  cases label with
  | enter entering now =>
    obtain ⟨-, -, rfl⟩ := enter_step stepped
    by_cases same : call = entering
    · exact .inr ⟨now, by rw [same]⟩
    · exact .inl ((Function.update_of_ne same _ _).symm.trans running)
  | settle settled func =>
    simp only [machine, step, Option.ite_none_right_eq_some, Option.some.injEq] at stepped
    obtain ⟨-, rfl⟩ := stepped
    exact .inl (running_of_update (by cases func <;> simp) running)
  | record recording now =>
    simp only [machine, step, Option.ite_none_right_eq_some] at stepped
    obtain ⟨-, stepped⟩ := stepped
    split at stepped
    · cases stepped; exact .inl (running_of_update (by simp) running)
    · cases stepped; exact .inl (running_of_update (by simp) running)
    all_goals cases stepped
  | abandon abandoned =>
    simp only [machine, step, Option.ite_none_right_eq_some, Option.some.injEq] at stepped
    obtain ⟨-, rfl⟩ := stepped
    exact .inl (running_of_update (by simp) running)

/-- What is in flight after a step was so before, or is the call that has just
been admitted by the HALF_OPEN breaker. -/
theorem inFlight_note {label : Label} {call : Nat} (stepped : (machine config).step before label = some after)
    (flying : InFlight after (noteProbe noted before label after) call) :
    InFlight before noted call ∨ ∃ now, label = .enter call now := by
  obtain ⟨member, running⟩ := flying
  unfold noteProbe at member
  split at member
  · rcases running_step stepped running with old | new
    · refine .inl ⟨?_, old⟩
      cases label with
      | enter entering now =>
        rcases List.mem_cons.mp member with rfl | member
        · rw [(enter_step stepped).1] at old
          cases old
        · exact member
      | settle | record | abandon => exact member
    · exact .inr new
  · cases member

/-- A HALF_OPEN breaker lets one probe at a time through exactly if no call
arrives while a probe is in flight. -/
theorem single_probe_iff (config : CircuitConfig) (clock : ℚ) (labels : List Label) :
    SingleProbe config (.initial clock) labels ↔ ArrivesAlone config (.initial clock) labels := by
  constructor
  · intro single
    refine single.rejects.mono ?_
    intro earlier before label after ran stepped rejected call now same probe flying
    subst same
    -- The breaker is HALF_OPEN, so the call is admitted all the same.
    have half := notedHalfOpen_run ran (List.ne_nil_of_mem flying.1)
    have admitted := enter_halfOpen half stepped
    rw [rejected call now probe rfl flying] at admitted
    cases admitted
  · intro alone
    refine ⟨?_, ?_, ?_⟩
    · rintro earlier later world rfl ran
      refine Machine.invariant_observed
        (fun world noted => ∀ call other, InFlight world noted call → InFlight world noted other → call = other)
        (fun call other flying => by cases flying.1) (Machine.Every.of_append alone) ?_ ran
      intro front before label after held quiet stepped call other flying otherFlying
      rcases inFlight_note stepped flying with old | ⟨now, rfl⟩
      · rcases inFlight_note stepped otherFlying with otherOld | ⟨now, rfl⟩
        · exact held call other old otherOld
        · exact absurd old (quiet other now rfl call)
      · rcases inFlight_note stepped otherFlying with otherOld | ⟨time, same⟩
        · exact absurd otherOld (quiet call now rfl other)
        · cases same; rfl
    · refine alone.mono ?_
      intro earlier before label after _ _ quiet call now probe same flying
      exact absurd flying (quiet call now same probe)
    · intro earlier label later before after _ _ stepped call now same half _
      subst same
      exact enter_halfOpen half stepped

/-- Call 0 opens the breaker; calls 1 and 2 arrive when the timeout has elapsed. -/
def twoProbes : List Label :=
  [.enter 0 0, .settle 0 (.raised ()), .record 0 1, .enter 1 11, .enter 2 11]

theorem two_probes_in_flight : ¬ SingleProbe ⟨"fetch", 1, 10⟩ (.initial 0) twoProbes := by
  intro single
  have ends : ((machine ⟨"fetch", 1, 10⟩).run (.initial 0) twoProbes).any fun world =>
      world.calls 1 = .running ∧ world.calls 2 = .running := by decide +kernel
  have noted : probes ⟨"fetch", 1, 10⟩ (.initial 0) twoProbes = [2, 1] := by decide +kernel
  obtain ⟨world, ran, ends⟩ := (Option.any_eq_true _ _).mp ends
  obtain ⟨first, second⟩ := of_decide_eq_true ends
  have same := single.alone twoProbes [] world (by simp) ran 1 2 ⟨by simp [noted], first⟩ ⟨by simp [noted], second⟩
  cases same

end DataPipeline.Platform.CircuitConcurrency
