import DataPipeline.Library.Execution

/-! Tasks that run side by side and are gathered, some of them in need of a permit
of a semaphore that others may hold permits of as well.
-/

set_option autoImplicit false

namespace Semaphore

open Execution

variable {Input Local Result : Type}

/-- A task returns before it asks for a permit, or goes on with one. -/
structure Work (Input Local Result : Type) where
  start : Input → Result ⊕ Local
  inside : Nat → Local → Result

/-- What the task at a position returns in the end. -/
def Work.value (work : Work Input Local Result) (position : Nat) (input : Input) : Result :=
  (work.start input).elim id (work.inside position)

inductive Phase (Local Result : Type) where
  | waiting
  | inside (held : Local)
  | returned (result : Result)

namespace Phase

def waits : Phase Local Result → Bool
  | waiting => true
  | _ => false

def holds : Phase Local Result → Bool
  | inside _ => true
  | _ => false

def result? : Phase Local Result → Option Result
  | returned result => some result
  | _ => none

end Phase

/-- The permits that are free, those that others hold, and the tasks. -/
structure World (Local Result : Type) where
  permits : Nat
  others : Nat
  phases : List (Phase Local Result)

inductive Label where
  | enter (position : Nat)
  | leave (position : Nat)
  | acquire
  | release

namespace World

def initial (permits others : Nat) (inputs : List Input) : World Local Result :=
  ⟨permits, others, inputs.map fun _ => .waiting⟩

def inFlight (world : World Local Result) : Nat := world.phases.countP Phase.holds

/-- The results in the order of the tasks, once all have returned. -/
def gather (world : World Local Result) : Option (List Result) := world.phases.mapM Phase.result?

def enter (work : Work Input Local Result) (world : World Local Result) (position : Nat) (input : Input) :
    Option (World Local Result) :=
  match work.start input with
  | .inl result => some { world with phases := world.phases.set position (.returned result) }
  | .inr held =>
    if 0 < world.permits then
      some { world with permits := world.permits - 1, phases := world.phases.set position (.inside held) }
    else none

end World

def machine (work : Work Input Local Result) (inputs : List Input) : Machine (World Local Result) Label where
  step world
    | .enter position =>
      match inputs[position]?, world.phases[position]? with
      | some input, some .waiting => world.enter work position input
      | _, _ => none
    | .leave position =>
      match world.phases[position]? with
      | some (.inside held) =>
        some { world with
          permits := world.permits + 1
          phases := world.phases.set position (.returned (work.inside position held)) }
      | _ => none
    | .acquire =>
      if 0 < world.permits then some { world with permits := world.permits - 1, others := world.others + 1 } else none
    | .release =>
      if 0 < world.others then some { world with permits := world.permits + 1, others := world.others - 1 } else none

variable {work : Work Input Local Result} {inputs : List Input} {world next : World Local Result} {label : Label}

/-- All that a step can be: one task moves on, or a permit goes to others or comes back. -/
theorem step_cases (stepped : (machine work inputs).step world label = some next) :
    (∃ position input result, inputs[position]? = some input ∧ world.phases[position]? = some .waiting ∧
      work.start input = .inl result ∧
      next = { world with phases := world.phases.set position (.returned result) }) ∨
    (∃ position input held, inputs[position]? = some input ∧ world.phases[position]? = some .waiting ∧
      work.start input = .inr held ∧ 0 < world.permits ∧
      next = { world with permits := world.permits - 1, phases := world.phases.set position (.inside held) }) ∨
    (∃ position held, world.phases[position]? = some (.inside held) ∧
      next = { world with
        permits := world.permits + 1
        phases := world.phases.set position (.returned (work.inside position held)) }) ∨
    (0 < world.permits ∧ next = { world with permits := world.permits - 1, others := world.others + 1 }) ∨
    (0 < world.others ∧ next = { world with permits := world.permits + 1, others := world.others - 1 }) := by
  cases label with
  | enter position =>
    simp only [machine] at stepped
    split at stepped
    next _ _ input given phase =>
      unfold World.enter at stepped
      split at stepped
      next result early => exact .inl ⟨position, input, result, given, phase, early, (Option.some.inj stepped).symm⟩
      next held starts =>
        obtain ⟨free, same⟩ := Option.ite_none_right_eq_some.mp stepped
        exact .inr (.inl ⟨position, input, held, given, phase, starts, free, (Option.some.inj same).symm⟩)
    next => cases stepped
  | leave position =>
    simp only [machine] at stepped
    split at stepped
    next _ held phase => exact .inr (.inr (.inl ⟨position, held, phase, (Option.some.inj stepped).symm⟩))
    next => cases stepped
  | acquire =>
    obtain ⟨free, same⟩ := Option.ite_none_right_eq_some.mp stepped
    exact .inr (.inr (.inr (.inl ⟨free, (Option.some.inj same).symm⟩)))
  | release =>
    obtain ⟨held, same⟩ := Option.ite_none_right_eq_some.mp stepped
    exact .inr (.inr (.inr (.inr ⟨held, (Option.some.inj same).symm⟩)))

/-- No permit is lost or made up, and a task that has returned has returned its value. -/
structure Sound (work : Work Input Local Result) (inputs : List Input) (bound : Nat) (world : World Local Result) :
    Prop where
  conserved : world.permits + world.others + world.inFlight = bound
  length_phases : world.phases.length = inputs.length
  values : ∀ (position : Nat) (result : Result), world.phases[position]? = some (.returned result) →
    inputs[position]?.map (work.value position) = some result
  /-- Whoever is inside has not returned early. -/
  entered : ∀ (position : Nat) (held : Local), world.phases[position]? = some (.inside held) →
    inputs[position]?.map work.start = some (.inr held)

theorem mem_set_phase {phases : List (Phase Local Result)} {position other : Nat} {phase old : Phase Local Result}
    (present : phases[position]? = some old) :
    (phases.set position phase)[other]? = if position = other then some phase else phases[other]? := by
  rw [List.getElem?_set]
  split
  next same => rw [if_pos (List.getElem?_eq_some_iff.mp present).1]
  next => rfl

theorem countP_set {phases : List (Phase Local Result)} {position : Nat} {phase old : Phase Local Result}
    (kind : Phase Local Result → Bool) (present : phases[position]? = some old) :
    (phases.set position phase).countP kind + (kind old).toNat = phases.countP kind + (kind phase).toNat := by
  obtain ⟨bound, same⟩ := List.getElem?_eq_some_iff.mp present
  have counted : (kind old).toNat ≤ phases.countP kind := by
    cases holds : kind old with
    | false => exact Nat.zero_le _
    | true => exact List.countP_pos_iff.mpr ⟨old, same ▸ List.getElem_mem bound, holds⟩
  have one (held : Bool) : (if held = true then 1 else 0) = held.toNat := by cases held <;> rfl
  rw [List.countP_set bound, same, one, one]
  omega

theorem sound_initial (work : Work Input Local Result) (inputs : List Input) (permits others : Nat) :
    Sound work inputs (permits + others) (World.initial permits others inputs) where
  conserved := by
    have none : World.inFlight (World.initial permits others inputs : World Local Result) = 0 := by
      refine List.countP_eq_zero.mpr fun phase member => ?_
      obtain ⟨input, _, rfl⟩ := List.mem_map.mp member
      exact nofun
    rw [none]
    rfl
  length_phases := List.length_map _
  values position result returned := by
    rw [World.initial, List.getElem?_map] at returned
    obtain ⟨input, _, same⟩ := Option.map_eq_some_iff.mp returned
    cases same
  entered position held inside := by
    rw [World.initial, List.getElem?_map] at inside
    obtain ⟨input, _, same⟩ := Option.map_eq_some_iff.mp inside
    cases same

theorem Sound.set {bound permits position : Nat} {input : Input} {old phase : Phase Local Result}
    (sound : Sound work inputs bound world) (given : inputs[position]? = some input)
    (present : world.phases[position]? = some old)
    (moved : permits + phase.holds.toNat = world.permits + old.holds.toNat)
    (value : ∀ result, phase = .returned result → work.value position input = result)
    (entered : ∀ held, phase = .inside held → work.start input = .inr held) :
    Sound work inputs bound ⟨permits, world.others, world.phases.set position phase⟩ where
  conserved := by
    have counted := @countP_set _ _ _ _ phase _ Phase.holds present
    have before := sound.conserved
    simp only [World.inFlight] at before ⊢
    omega
  length_phases := by
    rw [List.length_set]
    exact sound.length_phases
  values other result returned := by
    rw [mem_set_phase present] at returned
    split at returned
    next same =>
      subst same
      rw [given, Option.map_some, value result (Option.some.inj returned)]
    next => exact sound.values other result returned
  entered other held inside := by
    rw [mem_set_phase present] at inside
    split at inside
    next same =>
      subst same
      rw [given, Option.map_some, entered held (Option.some.inj inside)]
    next => exact sound.entered other held inside

theorem Sound.trade {bound permits others : Nat} (sound : Sound work inputs bound world)
    (moved : permits + others = world.permits + world.others) :
    Sound work inputs bound ⟨permits, others, world.phases⟩ where
  conserved := moved ▸ sound.conserved
  length_phases := sound.length_phases
  values := sound.values
  entered := sound.entered

theorem sound_step {bound : Nat} (sound : Sound work inputs bound world)
    (stepped : (machine work inputs).step world label = some next) : Sound work inputs bound next := by
  rcases step_cases stepped with ⟨position, input, result, given, phase, early, rfl⟩ |
    ⟨position, input, held, given, phase, starts, free, rfl⟩ | ⟨position, held, phase, rfl⟩ | ⟨free, rfl⟩ | ⟨held, rfl⟩
  · refine sound.set given phase rfl ?_ nofun
    rintro _ ⟨⟩
    rw [Work.value, early]
    rfl
  · refine sound.set given phase (Nat.sub_add_cancel free) nofun ?_
    rintro _ ⟨⟩
    exact starts
  · obtain ⟨input, given, starts⟩ := Option.map_eq_some_iff.mp (sound.entered position held phase)
    refine sound.set given phase rfl ?_ nofun
    rintro _ ⟨⟩
    rw [Work.value, starts]
    rfl
  · exact sound.trade (by omega)
  · exact sound.trade (by omega)

theorem sound_run {permits others : Nat} {labels : List Label}
    (ran : (machine work inputs).run (World.initial permits others inputs) labels = some world) :
    Sound work inputs (permits + others) world :=
  Machine.invariant_of_step (Sound work inputs (permits + others)) (sound_initial work inputs permits others)
    (fun _ _ _ => sound_step) ran

theorem Sound.inFlight_le {bound : Nat} (sound : Sound work inputs bound world) : world.inFlight ≤ bound := by
  have conserved := sound.conserved
  omega

/-- What is left to do, with a task counted twice that has not got its permit. -/
def World.remaining (world : World Local Result) : Nat :=
  2 * world.phases.countP Phase.waits + world.phases.countP Phase.holds + world.others

theorem exists_unfinished {phases : List (Phase Local Result)} (unfinished : phases.mapM Phase.result? = none) :
    ∃ phase ∈ phases, phase.result? = none := by
  induction phases with
  | nil => cases unfinished
  | cons phase phases ih =>
    cases returned : phase.result? with
    | none => exact ⟨phase, List.mem_cons_self, returned⟩
    | some result =>
      have rest : phases.mapM Phase.result? = none := by
        cases gathered : phases.mapM Phase.result? with
        | none => rfl
        | some results =>
          rw [List.mapM_cons, returned, gathered] at unfinished
          cases unfinished
      obtain ⟨other, member, none⟩ := ih rest
      exact ⟨other, List.mem_cons_of_mem phase member, none⟩

theorem Sound.input_of_phase {bound position : Nat} {phase : Phase Local Result} (sound : Sound work inputs bound world)
    (present : world.phases[position]? = some phase) : ∃ input, inputs[position]? = some input := by
  obtain ⟨inRange, _⟩ := List.getElem?_eq_some_iff.mp present
  rw [sound.length_phases] at inRange
  exact ⟨_, List.getElem?_eq_getElem inRange⟩

def Phase.weight : Phase Local Result → Nat
  | waiting => 2
  | inside _ => 1
  | returned _ => 0

theorem remaining_set {position : Nat} {phase old : Phase Local Result} (permits : Nat)
    (present : world.phases[position]? = some old) :
    World.remaining ⟨permits, world.others, world.phases.set position phase⟩ + old.weight =
      world.remaining + phase.weight := by
  have waits := @countP_set _ _ _ _ phase _ Phase.waits present
  have inside := @countP_set _ _ _ _ phase _ Phase.holds present
  have twofold (phase : Phase Local Result) : phase.weight = 2 * phase.waits.toNat + phase.holds.toNat := by
    cases phase <;> rfl
  rw [twofold, twofold]
  simp only [World.remaining]
  omega

theorem remaining_lt {position : Nat} {phase old : Phase Local Result} (permits : Nat)
    (present : world.phases[position]? = some old) (less : phase.weight < old.weight) :
    World.remaining ⟨permits, world.others, world.phases.set position phase⟩ < world.remaining := by
  have moved := @remaining_set _ _ world position phase old permits present
  omega

/-- Unless all have returned, something can be done, if only by those who hold the permits. -/
theorem Sound.exists_step {bound : Nat} (sound : Sound work inputs bound world) (positive : 0 < bound)
    (unfinished : world.gather = none) :
    ∃ label next, (machine work inputs).step world label = some next ∧ next.remaining < world.remaining := by
  by_cases held : 0 < world.others
  · refine ⟨.release, _, if_pos held, ?_⟩
    simp only [World.remaining]
    omega
  by_cases occupied : 0 < world.inFlight
  · obtain ⟨phase, member, holds⟩ := List.countP_pos_iff.mp occupied
    obtain ⟨position, present⟩ := List.mem_iff_getElem?.mp member
    obtain ⟨input, given⟩ := sound.input_of_phase present
    cases phase with
    | waiting => cases holds
    | returned result => cases holds
    | inside held =>
      refine ⟨.leave position, { world with
        permits := world.permits + 1
        phases := world.phases.set position (.returned (work.inside position held)) }, ?_,
        remaining_lt _ present Nat.zero_lt_one⟩
      simp only [machine, present]
  -- Nobody holds a permit, so that all of them are free.
  · obtain ⟨phase, member, none⟩ := exists_unfinished unfinished
    obtain ⟨position, present⟩ := List.mem_iff_getElem?.mp member
    obtain ⟨input, given⟩ := sound.input_of_phase present
    have conserved := sound.conserved
    have free : 0 < world.permits := by omega
    cases phase with
    | returned result => cases none
    | inside held => exact absurd (List.countP_pos_iff.mpr ⟨_, member, rfl⟩) occupied
    | waiting =>
      cases starts : work.start input with
      | inl result =>
        refine ⟨.enter position, { world with phases := world.phases.set position (.returned result) }, ?_,
          remaining_lt _ present Nat.zero_lt_two⟩
        simp only [machine, given, present, World.enter, starts]
      | inr held =>
        refine ⟨.enter position,
          { world with permits := world.permits - 1, phases := world.phases.set position (.inside held) }, ?_,
          remaining_lt _ present Nat.one_lt_two⟩
        simp only [machine, given, present, World.enter, starts, if_pos free]

theorem Sound.finishes {bound : Nat} (sound : Sound work inputs bound world) (positive : 0 < bound) :
    ∃ labels final results, (machine work inputs).run world labels = some final ∧ final.gather = some results := by
  induction size : world.remaining using Nat.strongRecOn generalizing world with
  | ind size ih =>
    cases gathered : world.gather with
    | some results => exact ⟨[], world, results, rfl, gathered⟩
    | none =>
      obtain ⟨label, next, stepped, less⟩ := sound.exists_step positive gathered
      obtain ⟨labels, final, results, ran, done⟩ := ih _ (size ▸ less) (sound_step sound stepped) rfl
      exact ⟨label :: labels, final, results, Machine.run_cons.mpr ⟨next, stepped, ran⟩, done⟩

end Semaphore
