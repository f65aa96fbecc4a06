import Mathlib.Data.List.Induction

/-! Runs of machines whose step may refuse a label.

A run is a list of labels, every one of which the machine accepted. Claims
about runs are quantified over all such lists, so an interleaving of several
parties is a list in which their labels are mixed.
-/

set_option autoImplicit false

namespace Execution

/-- How an awaited function ends: with a value, with an exception that handlers
see, or cancelled, which no ordinary handler stops. -/
inductive Outcome (α ε : Type) where
  | returned (value : α)
  | raised (exception : ε)
  | cancelled
  deriving DecidableEq, Repr

/-- A refused label has no successor state. -/
structure Machine (State Label : Type) where
  step : State → Label → Option State

variable {State Label : Type}

namespace Machine

def run (machine : Machine State Label) : State → List Label → Option State
  | start, [] => some start
  | start, label :: rest => (machine.step start label).bind fun next => machine.run next rest

variable {machine : Machine State Label}

@[simp] theorem run_nil (start : State) : machine.run start [] = some start := rfl

theorem run_cons {start final : State} {label : Label} {rest : List Label} :
    machine.run start (label :: rest) = some final ↔
      ∃ next, machine.step start label = some next ∧ machine.run next rest = some final := by
  simp only [run, Option.bind_eq_some_iff]

theorem run_append {start final : State} {first rest : List Label} :
    machine.run start (first ++ rest) = some final ↔
      ∃ middle, machine.run start first = some middle ∧ machine.run middle rest = some final := by
  induction first generalizing start with
  | nil => simp
  | cons label first ih =>
    constructor
    · intro ran
      obtain ⟨next, stepped, tail⟩ := run_cons.mp ran
      obtain ⟨middle, head, last⟩ := ih.mp tail
      exact ⟨middle, run_cons.mpr ⟨next, stepped, head⟩, last⟩
    · rintro ⟨middle, head, last⟩
      obtain ⟨next, stepped, head⟩ := run_cons.mp head
      exact run_cons.mpr ⟨next, stepped, ih.mpr ⟨middle, head, last⟩⟩

theorem run_concat {start final : State} {first : List Label} {label : Label} :
    machine.run start (first ++ [label]) = some final ↔
      ∃ middle, machine.run start first = some middle ∧ machine.step middle label = some final := by
  simp only [run_append, run_cons, run_nil, Option.some.injEq, exists_eq_right]

/-- A part of the state that follows each step by steps of its own makes a run
of its own. -/
theorem run_project {Part PartLabel : Type} {part : Machine Part PartLabel} (project : State → Part)
    (translate : Label → List PartLabel)
    (follows : ∀ before label after, machine.step before label = some after →
      part.run (project before) (translate label) = some (project after))
    {start final : State} {labels : List Label} (ran : machine.run start labels = some final) :
    part.run (project start) (labels.flatMap translate) = some (project final) := by
  induction labels generalizing start with
  | nil => cases ran; rfl
  | cons label rest ih =>
    obtain ⟨next, stepped, tail⟩ := run_cons.mp ran
    rw [List.flatMap_cons]
    exact run_append.mpr ⟨project next, follows start label next stepped, ih tail⟩

/-- Every step of the run satisfies `claim`, which sees the labels taken before
the step, the state before it, the label and the state after it. -/
def Every (machine : Machine State Label) (start : State) (labels : List Label)
    (claim : List Label → State → Label → State → Prop) : Prop :=
  ∀ earlier label later before after, labels = earlier ++ label :: later →
    machine.run start earlier = some before → machine.step before label = some after →
    claim earlier before label after

theorem Every.mono {start : State} {labels : List Label}
    {claim weaker : List Label → State → Label → State → Prop}
    (every : machine.Every start labels claim)
    (implies : ∀ earlier before label after, machine.run start earlier = some before →
      machine.step before label = some after → claim earlier before label after →
      weaker earlier before label after) : machine.Every start labels weaker :=
  fun earlier label later before after split ran stepped =>
    implies earlier before label after ran stepped (every earlier label later before after split ran stepped)

theorem Every.of_append {start : State} {first rest : List Label}
    {claim : List Label → State → Label → State → Prop} (every : machine.Every start (first ++ rest) claim) :
    machine.Every start first claim :=
  fun earlier label later before after split =>
    every earlier label (later ++ rest) before after (by simp [split])

theorem every_nil {start : State} {claim : List Label → State → Label → State → Prop} :
    machine.Every start [] claim := by
  intro earlier label later before after split
  simp at split

theorem every_concat {start : State} {labels : List Label} {last : Label}
    {claim : List Label → State → Label → State → Prop} :
    machine.Every start (labels ++ [last]) claim ↔
      machine.Every start labels claim ∧
      ∀ before after, machine.run start labels = some before →
        machine.step before last = some after → claim labels before last after := by
  constructor
  · intro every
    exact ⟨every.of_append, fun before after => every labels last [] before after rfl⟩
  · rintro ⟨every, final⟩ earlier label later before after split
    -- The step is the last one of the run, or one of those before it.
    rcases List.eq_nil_or_concat later with rfl | ⟨front, tail, rfl⟩
    · obtain ⟨rfl, same⟩ := List.append_inj' split rfl
      cases same
      exact final before after
    · have split' : labels ++ [last] = (earlier ++ label :: front) ++ [tail] := by simpa using split
      obtain ⟨rfl, -⟩ := List.append_inj' split' rfl
      exact every earlier label front before after rfl

/-- Whether each step of the run meets a condition on the state before it. -/
def meets (machine : Machine State Label) (condition : State → Label → Bool) : State → List Label → Bool
  | _, [] => true
  | start, label :: rest =>
    match machine.step start label with
    | some next => condition start label && meets machine condition next rest
    | none => true

theorem every_of_meets {condition : State → Label → Bool} {start : State} {labels : List Label}
    (met : machine.meets condition start labels = true) :
    machine.Every start labels fun _ before label _ => condition before label = true := by
  intro earlier label later before after split ran stepped
  induction earlier generalizing start labels with
  | nil =>
    cases ran
    subst split
    rw [List.nil_append, meets, stepped, Bool.and_eq_true] at met
    exact met.1
  | cons first earlier ih =>
    obtain ⟨next, firstStep, rest⟩ := run_cons.mp ran
    subst split
    rw [List.cons_append, meets, firstStep, Bool.and_eq_true] at met
    exact ih met.2 rfl rest

/-- An invariant that every step keeps, where the step may assume what the run
promises about it. -/
theorem invariant (inv : State → Prop) {start final : State} {labels : List Label}
    {claim : List Label → State → Label → State → Prop}
    (initial : inv start) (every : machine.Every start labels claim)
    (keeps : ∀ earlier before label after, inv before → claim earlier before label after →
      machine.step before label = some after → inv after)
    (ran : machine.run start labels = some final) : inv final := by
  -- Runs grow at the end, where the last step has the claims of all before it.
  induction labels using List.reverseRecOn generalizing final with
  | nil => cases ran; exact initial
  | append_singleton labels last ih =>
    obtain ⟨middle, head, stepped⟩ := run_concat.mp ran
    obtain ⟨every, claimed⟩ := every_concat.mp every
    exact keeps labels middle last final (ih every head) (claimed middle final head stepped) stepped

/-- The unconditional form: every step keeps the invariant. -/
theorem invariant_of_step (inv : State → Prop) {start final : State} {labels : List Label}
    (initial : inv start)
    (keeps : ∀ before label after, inv before → machine.step before label = some after → inv after)
    (ran : machine.run start labels = some final) : inv final :=
  have every : machine.Every start labels fun _ _ _ _ => True := fun _ _ _ _ _ _ _ _ => trivial
  invariant inv initial every (fun _ before label after held _ => keeps before label after held) ran

/-- Every state on the way of the run satisfies `claim`. -/
def Throughout (machine : Machine State Label) (start : State) (labels : List Label)
    (claim : State → Prop) : Prop :=
  ∀ earlier later state, labels = earlier ++ later → machine.run start earlier = some state → claim state

/-- Whether every state on the way passes a test. -/
def stays (machine : Machine State Label) (test : State → Bool) : State → List Label → Bool
  | start, [] => test start
  | start, label :: rest =>
    test start &&
      match machine.step start label with
      | some next => stays machine test next rest
      | none => true

theorem throughout_congr (inv : State → Prop) {start : State} {claim other : State → Prop}
    (initial : inv start)
    (keeps : ∀ before label after, inv before → machine.step before label = some after → inv after)
    (same : ∀ state, inv state → (claim state ↔ other state)) (labels : List Label) :
    machine.Throughout start labels claim ↔ machine.Throughout start labels other := by
  constructor
  · intro holds earlier later state split ran
    exact (same state (invariant_of_step inv initial keeps ran)).mp (holds earlier later state split ran)
  · intro holds earlier later state split ran
    exact (same state (invariant_of_step inv initial keeps ran)).mpr (holds earlier later state split ran)

/-- An invariant that every step of the run keeps, if it meets its condition. -/
theorem throughout_of_every (inv : State → Prop) {start : State} {labels : List Label}
    {claim : List Label → State → Label → State → Prop}
    (initial : inv start) (every : machine.Every start labels claim)
    (keeps : ∀ earlier before label after, inv before → claim earlier before label after →
      machine.step before label = some after → inv after) : machine.Throughout start labels inv := by
  rintro earlier later state rfl ran
  exact invariant inv initial every.of_append keeps ran

theorem throughout_iff_every (inv : State → Prop) {good : State → Prop} {condition : State → Label → Prop}
    {start : State} (initial : inv start) (starts : good start)
    (keeps : ∀ before label after, inv before → machine.step before label = some after → inv after)
    (exact : ∀ before label after, inv before → good before → machine.step before label = some after →
      (good after ↔ condition before label)) (labels : List Label) :
    machine.Throughout start labels good ↔
      machine.Every start labels fun _ before label _ => condition before label := by
  constructor
  · intro throughout earlier label later before after split ran stepped
    have goodBefore := throughout earlier (label :: later) before split ran
    have goodAfter := throughout (earlier ++ [label]) later after (by simp [split])
      (run_concat.mpr ⟨before, ran, stepped⟩)
    exact (exact before label after (invariant_of_step inv initial keeps ran) goodBefore stepped).mp goodAfter
  · intro every
    have both : machine.Throughout start labels fun state => inv state ∧ good state := by
      refine throughout_of_every _ ⟨initial, starts⟩ every ?_
      intro _ before label after held meets stepped
      exact ⟨keeps before label after held.1 stepped, (exact before label after held.1 held.2 stepped).mpr meets⟩
    exact fun earlier later state split ran => (both earlier later state split ran).2

/-- A state some run from `start` reaches. -/
def Reachable (machine : Machine State Label) (start final : State) : Prop :=
  ∃ labels, machine.run start labels = some final

/-! ## Observers -/

variable {Note Event : Type}

/-- What an observer has noted at the end of a run, who sees every step of it
and changes nothing. -/
def observe (machine : Machine State Label) (note : Note → State → Label → State → Note) :
    Note → State → List Label → Note
  | notes, _, [] => notes
  | notes, start, label :: rest =>
    match machine.step start label with
    | some next => observe machine note (note notes start label next) next rest
    -- A refused label is the end of what there is to see.
    | none => notes

theorem observe_concat {note : Note → State → Label → State → Note} {notes : Note}
    {start middle final : State} {labels : List Label} {last : Label}
    (ran : machine.run start labels = some middle) (stepped : machine.step middle last = some final) :
    machine.observe note notes start (labels ++ [last]) =
      note (machine.observe note notes start labels) middle last final := by
  induction labels generalizing start notes with
  | nil =>
    cases ran
    simp only [List.nil_append, observe, stepped]
  | cons label labels ih =>
    obtain ⟨next, first, tail⟩ := run_cons.mp ran
    simp only [List.cons_append, observe, first]
    exact ih tail

/-- An invariant of a state together with what has been noted on the way to
it, where the step may assume what the run promises about it. -/
theorem invariant_observed (inv : State → Note → Prop) {note : Note → State → Label → State → Note}
    {notes : Note} {start final : State} {labels : List Label}
    {claim : List Label → State → Label → State → Prop}
    (initial : inv start notes) (every : machine.Every start labels claim)
    (keeps : ∀ earlier before label after, inv before (machine.observe note notes start earlier) →
      claim earlier before label after → machine.step before label = some after →
      inv after (note (machine.observe note notes start earlier) before label after))
    (ran : machine.run start labels = some final) :
    inv final (machine.observe note notes start labels) := by
  induction labels using List.reverseRecOn generalizing final with
  | nil => cases ran; exact initial
  | append_singleton labels last ih =>
    obtain ⟨middle, head, stepped⟩ := run_concat.mp ran
    obtain ⟨every, claimed⟩ := every_concat.mp every
    rw [observe_concat head stepped]
    exact keeps labels middle last final (ih every head) (claimed middle final head stepped) stepped

theorem observed_of_step (inv : State → Note → Prop) {note : Note → State → Label → State → Note}
    {notes : Note} {start final : State} {labels : List Label} (initial : inv start notes)
    (keeps : ∀ before noted label after, inv before noted → machine.step before label = some after →
      inv after (note noted before label after))
    (ran : machine.run start labels = some final) :
    inv final (machine.observe note notes start labels) :=
  have every : machine.Every start labels fun _ _ _ _ => True := fun _ _ _ _ _ _ _ _ => trivial
  invariant_observed inv initial every
    (fun _ before label after held _ => keeps before _ label after held) ran

end Machine

end Execution
