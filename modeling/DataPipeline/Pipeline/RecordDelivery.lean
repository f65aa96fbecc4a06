import DataPipeline.Pipeline.RecordEvents

/-! When an event is not sent, and that each is processed once where nothing fails. -/

set_option autoImplicit false

namespace DataPipeline.Pipeline

open Encoding Execution Platform Ingestor Publishing Processor

variable {repr : Double → Text} {interpreter : Interpreter} {before after : World}

/-! ## The breaker of all publishers -/

def recordedBy (before : World) : Label → Option Observed
  | .record call now => CircuitConcurrency.recordedBy before.circuit (.record call now)
  | _ => none

/-- The outcomes of the sends of a run, the newest first, to either topic. -/
def recorded (repr : Double → Text) (interpreter : Interpreter) (start : World) (labels : List Label) :
    List Observed :=
  (machine repr interpreter).observe (fun history before label _ => (recordedBy before label).toList ++ history)
    [] start labels

/-- A step of the pipeline is one of the breaker, or the breaker does not notice it. -/
theorem circuit_step {label : Label} (stepped : step repr interpreter before label = some after) :
    (after.circuit = before.circuit ∧ recordedBy before label = none) ∨
    ∃ inner, (CircuitConcurrency.machine sendConfig).step before.circuit inner = some after.circuit ∧
      recordedBy before label = CircuitConcurrency.recordedBy before.circuit inner := by
  cases label with
  | create call body fresh =>
    obtain ⟨-, -, store, row, -, rfl⟩ := create_step stepped
    exact .inl ⟨rfl, rfl⟩
  | scraped call source count =>
    obtain ⟨-, rfl⟩ := scraped_step stepped
    exact .inl ⟨rfl, rfl⟩
  | connect | disconnect =>
    cases stepped
    exact .inl ⟨rfl, rfl⟩
  | enter call now =>
    obtain ⟨-, -, ⟨-, rfl⟩ | ⟨circuit, -, entered, ⟨-, rfl⟩ | ⟨-, rfl⟩⟩⟩ := enter_step stepped
    · exact .inl ⟨rfl, rfl⟩
    · exact .inr ⟨.enter call now, entered, rfl⟩
    · exact .inr ⟨.enter call now, entered, rfl⟩
  | append call partition offset =>
    obtain ⟨origin, -, -, rfl⟩ := append_step stepped
    exact .inl ⟨rfl, rfl⟩
  | settle call outcome =>
    obtain ⟨origin, circuit, -, -, settled, rfl⟩ := settle_step stepped
    exact .inr ⟨.settle call (forget outcome), settled, rfl⟩
  | record call now =>
    obtain ⟨circuit, recorded, rfl⟩ := record_step stepped
    exact .inr ⟨.record call now, recorded, rfl⟩
  | abandon call =>
    obtain ⟨circuit, abandoned, rfl⟩ := abandon_step stepped
    exact .inr ⟨.abandon call, abandoned, rfl⟩
  | deliver message outcome =>
    obtain ⟨-, loop, -, rfl⟩ := deliver_step stepped
    exact .inl ⟨rfl, rfl⟩

theorem represents_run {store : Store} {clock : ℚ} {labels : List Label} {world : World}
    (ran : (machine repr interpreter).run (.initial store clock) labels = some world) :
    Represents sendConfig world.circuit.breaker (recorded repr interpreter (.initial store clock) labels)
      world.circuit.clock := by
  refine Machine.observed_of_step
    (fun world history => Represents sendConfig world.circuit.breaker history world.circuit.clock)
    (.initial (by decide) clock) ?_ ran
  intro before history label after represents stepped
  rcases circuit_step stepped with ⟨same, unnoticed⟩ | ⟨inner, stepped, noted⟩
  · rw [same, unnoticed]
    exact represents
  · rw [noted]
    exact CircuitConcurrency.represents_step (by decide) represents stepped

/-- With a producer there, the event of a call is given up at the gate exactly
if at least five sends have failed since the last one that succeeded, to
whichever topic, the latest of them less than thirty seconds ago. -/
theorem given_up_iff (repr : Double → Text) (interpreter : Interpreter) (store : Store) (clock : ℚ)
    (labels : List Label) (before after : World) (call : Nat) (now : ℚ)
    (ran : (machine repr interpreter).run (.initial store clock) labels = some before)
    (stepped : (machine repr interpreter).step before (.enter call now) = some after)
    (connected : before.producer = true) :
    (∃ text, after.endings call = some (.circuitOpenError text)) ↔
      5 ≤ failuresSinceSuccess (recorded repr interpreter (.initial store clock) labels) ∧
      ∃ last, latestFailure (recorded repr interpreter (.initial store clock) labels) = some last ∧
        now - last < 30 := by
  have stepped : step repr interpreter before (.enter call now) = some after := stepped
  obtain ⟨-, unfinished, ⟨absent, -⟩ | ⟨circuit, -, entered, ended⟩⟩ := enter_step stepped
  · rw [connected] at absent
    cases absent
  · obtain ⟨-, order, rfl⟩ := CircuitConcurrency.enter_step entered
    have gate := (represents_run ran).gate_open (by decide) order
    rw [show (5 : Nat) = sendConfig.failureThreshold from rfl, show (30 : ℚ) = sendConfig.recoveryTimeout from rfl,
      ← gate]
    simp only [Function.update_self] at ended
    rcases ended with ⟨finished, rfl⟩ | ⟨admitted, rfl⟩
    · refine iff_of_true ⟨_, Function.update_self _ _ _⟩ ?_
      by_contra passed
      rw [if_neg passed] at finished
      cases finished
    · refine iff_of_false ?_ fun shut => admitted (if_pos shut)
      rintro ⟨text, ending⟩
      simp only [unfinished, reduceCtorEq] at ending

/-- Five scrapes whose events the broker refuses, one a second. -/
def fiveRefusals : List Label :=
  .connect :: (List.range 5).flatMap fun (call : Nat) =>
    [.scraped call "hn" 0, .enter call call, .settle call (.raised .kafkaError), .record call call]

/-- After them the event of a record is given up six seconds later. -/
theorem given_up_after_five_refusals :
    ∃ before after, (machine (fun _ => []) sampleInterpreter).run (.initial .empty 0)
        (fiveRefusals ++ [.create 5 reading freshOne]) = some before ∧
      (machine (fun _ => []) sampleInterpreter).step before (.enter 5 10) = some after ∧
      ∃ text, after.endings 5 = some (.circuitOpenError text) := by
  have ends : ((machine (fun _ => []) sampleInterpreter).run (.initial .empty 0)
      (fiveRefusals ++ [.create 5 reading freshOne])).any fun before =>
        before.producer = true ∧ ((machine (fun _ => []) sampleInterpreter).step before (.enter 5 10)).isSome := by
    decide +kernel
  have history : recorded (fun _ => []) sampleInterpreter (.initial .empty 0)
      (fiveRefusals ++ [.create 5 reading freshOne]) = [.failed 4, .failed 3, .failed 2, .failed 1, .failed 0] := by
    decide +kernel
  obtain ⟨before, ran, ends⟩ := (Option.any_eq_true _ _).mp ends
  obtain ⟨connected, next⟩ := of_decide_eq_true ends
  obtain ⟨after, stepped⟩ := Option.isSome_iff_exists.mp next
  refine ⟨before, after, ran, stepped, ?_⟩
  refine (given_up_iff (fun _ => []) sampleInterpreter .empty 0 _ before after 5 10 ran stepped connected).mpr ?_
  rw [history]
  exact ⟨by decide, 4, rfl, by norm_num⟩

/-! ## Every event once -/

/-- The broker and the client do their work: there is a producer when a call
comes to it, each send is acknowledged, nothing is sent twice, and no call is
cancelled. -/
def Reliable (repr : Double → Text) (before : World) : Label → Prop
  | .enter _ _ => before.producer = true
  | .append call _ _ =>
    ∀ origin ∈ before.origins call, origin.topic = topicRecordCreated → ¬ before.Appended repr origin
  | .settle _ outcome => outcome = .returned ()
  | .abandon _ => False
  | _ => True

instance (repr : Double → Text) (before : World) (label : Label) : Decidable (Reliable repr before label) := by
  cases label <;> unfold Reliable <;> infer_instance

structure Distinct (world : World) : Prop where
  ids : (world.created.map Record.id).Nodup
  issued : ∀ row ∈ world.created, row.id ∈ world.store.issued

structure Clean (world : World) : Prop where
  closed : world.circuit.breaker.state = .closed
  none_failed : ∀ call, world.circuit.calls call ≠ .failed
  none_erred : ∀ call, world.errors call = none
  published : ∀ call ending, world.endings call = some ending → ending = .published
  once : ((world.topics topicRecordCreated).map Message.value).Nodup

theorem Distinct.initial (store : Store) (clock : ℚ) : Distinct (.initial store clock) :=
  ⟨List.nodup_nil, by rintro row ⟨⟩⟩

theorem Clean.initial (store : Store) (clock : ℚ) : Clean (.initial store clock) :=
  ⟨rfl, fun _ => by simp [World.initial, CircuitConcurrency.World.initial], fun _ => rfl, by rintro call ending ⟨⟩,
    List.nodup_nil⟩

theorem Distinct.step {label : Label} (distinct : Distinct before)
    (stepped : step repr interpreter before label = some after) : Distinct after := by
  obtain ⟨-, -, ⟨call, body, fresh, rfl⟩ | ⟨created, store⟩⟩ := frame stepped
  · obtain ⟨-, unused, store, row, made, rfl⟩ := create_step stepped
    obtain ⟨rfl, inserted⟩ := createRecord_eq_some made
    have issued : store.issued = fresh.id :: before.store.issued := (Table.insert?_fresh inserted).2
    constructor
    · rw [List.map_append]
      refine distinct.ids.append (List.nodup_singleton _) ?_
      intro id present single
      obtain ⟨old, member, rfl⟩ := List.mem_map.mp present
      have same : old.id = fresh.id := List.mem_singleton.mp single
      exact unused (same ▸ distinct.issued old member)
    · intro row member
      rw [issued]
      rcases List.mem_append.mp member with old | newest
      · exact List.mem_cons_of_mem _ (distinct.issued row old)
      · rw [List.mem_singleton.mp newest]
        exact List.mem_cons_self
  · exact ⟨by rw [created]; exact distinct.ids, by rw [created, store]; exact distinct.issued⟩

/-- The gate of a closed breaker lets every call through. -/
theorem Clean.enter {call : Nat} {now : ℚ} (clean : Clean before) (connected : before.producer = true)
    (stepped : step repr interpreter before (.enter call now) = some after) : Clean after := by
  obtain ⟨-, unfinished, ⟨absent, -⟩ | ⟨circuit, -, entered, ended⟩⟩ := enter_step stepped
  · rw [connected] at absent
    cases absent
  · obtain ⟨-, -, rfl⟩ := CircuitConcurrency.enter_step entered
    have shut := (CircuitBreaker.gate_closed_iff sendConfig before.circuit.breaker now).mpr clean.closed
    have passed : (before.circuit.breaker.maybeTransitionToHalfOpen sendConfig now).state ≠ .open := by
      rw [shut]
      decide
    simp only [Function.update_self, if_neg passed, reduceCtorEq, false_and, ne_eq, not_false_eq_true, true_and,
      false_or] at ended
    subst ended
    refine ⟨shut, fun other => ?_, clean.none_erred, clean.published, clean.once⟩
    simp only [Function.update_apply]
    split
    · decide
    · exact clean.none_failed other

theorem Clean.append {call : Nat} {partition offset : Int} (clean : Clean before)
    (unsent : ∀ origin ∈ before.origins call, origin.topic = topicRecordCreated → ¬ before.Appended repr origin)
    (stepped : step repr interpreter before (.append call partition offset) = some after) : Clean after := by
  obtain ⟨origin, known, -, rfl⟩ := append_step stepped
  refine ⟨clean.closed, clean.none_failed, clean.none_erred, clean.published, ?_⟩
  simp only [Function.update_apply]
  split
  next same =>
    obtain ⟨row, rfl⟩ := record_of_topic same.symm
    have new := unsent _ known rfl
    rw [List.map_append]
    refine clean.once.append (List.nodup_singleton _) ?_
    intro value present single
    obtain ⟨message, member, rfl⟩ := List.mem_map.mp present
    exact new ⟨message, member, List.mem_singleton.mp single⟩
  next => exact clean.once

theorem Clean.acknowledge {call : Nat} (clean : Clean before)
    (stepped : step repr interpreter before (.settle call (.returned ())) = some after) : Clean after := by
  obtain ⟨origin, circuit, -, -, settled, rfl⟩ := settle_step stepped
  obtain ⟨-, phase, rfl, ⟨-, rfl⟩ | ⟨raised, -⟩ | ⟨cancelled, -⟩⟩ := CircuitConcurrency.settle_step settled
  · refine ⟨clean.closed, fun other => ?_, fun other => ?_, clean.published, clean.once⟩
    all_goals simp only [Function.update_apply]
    all_goals split
    · decide
    · exact clean.none_failed other
    · rfl
    · exact clean.none_erred other
  · cases raised
  · cases cancelled

theorem Clean.record {call : Nat} {now : ℚ} (clean : Clean before)
    (stepped : step repr interpreter before (.record call now) = some after) : Clean after := by
  obtain ⟨circuit, recorded, rfl⟩ := record_step stepped
  obtain ⟨-, calls⟩ := CircuitConcurrency.record_step recorded
  refine ⟨?_, fun other => ?_, clean.none_erred, fun other ending ended => ?_, clean.once⟩
  · have recorded : (CircuitConcurrency.machine sendConfig).step before.circuit (.record call now) = some circuit :=
      recorded
    rcases CircuitConcurrency.step_cases recorded with
      ⟨_, _, other, -⟩ | ⟨_, _, -, -, -, same, -⟩ | ⟨other, _, same, -, failed, -⟩ | ⟨same, -⟩
    · cases other
    · simp only [World.finish, same, CircuitBreaker.onSuccess_state]
    · exact absurd failed (clean.none_failed other)
    · simp only [World.finish, same, clean.closed]
  · simp only [World.finish, calls, Function.update_apply]
    split
    · decide
    · exact clean.none_failed other
  · simp only [World.finish, Function.update_apply, clean.none_erred call, endingOf] at ended
    split at ended
    · exact (Option.some.inj ended).symm
    · exact clean.published other ending ended

theorem Clean.step {label : Label} (clean : Clean before) (reliable : Reliable repr before label)
    (stepped : step repr interpreter before label = some after) : Clean after := by
  cases label with
  | create call body fresh =>
    obtain ⟨-, -, store, row, -, rfl⟩ := create_step stepped
    exact { clean with }
  | scraped call source count =>
    obtain ⟨-, rfl⟩ := scraped_step stepped
    exact { clean with }
  | connect | disconnect =>
    cases stepped
    exact { clean with }
  | enter call now => exact clean.enter reliable stepped
  | append call partition offset => exact clean.append reliable stepped
  | settle call outcome =>
    cases show outcome = .returned () from reliable
    exact clean.acknowledge stepped
  | record call now => exact clean.record stepped
  | abandon call => exact reliable.elim
  | deliver message outcome =>
    obtain ⟨-, loop, -, rfl⟩ := deliver_step stepped
    exact { clean with }

def eventRecordId (interpreter : Interpreter) (message : Message) : Option Int :=
  match message.value.map (Json.loadsBytes interpreter.loadsDepth) with
  | some (.ok (.dict entries)) =>
    match Json.get entries "payload" with
    | some (.dict payload) =>
      match Json.get payload "record_id" with
      | some (.int id) => some id
      | _ => none
    | _ => none
  | _ => none

theorem eventRecordId_record (capable : Capable interpreter) {message : Message} {row : Record}
    (value : message.value = (Origin.record row).value repr) : eventRecordId interpreter message = some row.id := by
  obtain ⟨bytes, encoded, decoded, -⟩ := record_value repr capable row
  have payload : (Origin.record row).event.payload = [(Text.ofString "record_id", .int row.id),
      (Text.ofString "source", .str (Text.ofString row.source))] := rfl
  simp [eventRecordId, value, encoded, decoded, EventPayload.toDict, payload, Json.get, Text.ofString, List.lookup_cons]

/-- In a run where nothing fails, once each create has been answered and the
topic has been delivered, the processor has processed the event of every row
that was created, each once. -/
theorem every_event_processed_once (repr : Double → Text) (interpreter : Interpreter) (capable : Capable interpreter)
    (store : Store) (clock : ℚ) (labels : List Label) (world : World)
    (ran : (machine repr interpreter).run (.initial store clock) labels = some world)
    (reliable : (machine repr interpreter).Every (.initial store clock) labels
      fun _ before label _ => Reliable repr before label)
    (ended : ∀ row ∈ world.created, ∃ call, world.origins call = some (.record row) ∧ world.endings call ≠ none)
    (drained : world.topics Processor.topic ⊆ world.loop.passed) :
    world.loop.processed = world.loop.passed.map Message.key ∧
    (world.loop.passed.map (eventRecordId interpreter)).Perm (world.created.map fun row => some row.id) := by
  obtain ⟨published, consumed⟩ := reached capable ran
  obtain ⟨distinct, clean⟩ := Machine.invariant (fun world => Distinct world ∧ Clean world)
    ⟨.initial store clock, .initial store clock⟩ reliable
    (fun _ _ _ _ held reliable stepped => ⟨held.1.step stepped, held.2.step reliable stepped⟩) ran
  refine ⟨consumed.processed, ?_⟩
  have written : ∀ message ∈ world.loop.passed, ∃ row ∈ world.created,
      message.value = (Origin.record row).value repr :=
    fun message passed => published.written message (consumed.delivered passed)
  have onlyOnce : ∀ first ∈ world.loop.passed, ∀ second ∈ world.loop.passed,
      eventRecordId interpreter first = eventRecordId interpreter second → first = second := by
    intro first firstPassed second secondPassed same
    obtain ⟨row, created, value⟩ := written first firstPassed
    obtain ⟨other, otherCreated, otherValue⟩ := written second secondPassed
    rw [eventRecordId_record capable value, eventRecordId_record capable otherValue, Option.some.injEq] at same
    cases List.inj_on_of_nodup_map distinct.ids created otherCreated same
    exact List.inj_on_of_nodup_map clean.once (consumed.delivered firstPassed) (consumed.delivered secondPassed)
      (value.trans otherValue.symm)
  have left : (world.loop.passed.map (eventRecordId interpreter)).Nodup :=
    (List.Nodup.of_map _ consumed.keys).map_on onlyOnce
  have right : (world.created.map fun row => some row.id).Nodup := by
    have ids := distinct.ids.map (Option.some_injective Int)
    rwa [List.map_map] at ids
  refine (List.perm_ext_iff_of_nodup left right).mpr fun id => ?_
  rw [List.mem_map, List.mem_map]
  constructor
  · rintro ⟨message, passed, rfl⟩
    obtain ⟨row, created, value⟩ := written message passed
    exact ⟨row, created, (eventRecordId_record capable value).symm⟩
  · rintro ⟨row, created, rfl⟩
    -- The call of the row has ended, which it does only when its send is acknowledged.
    obtain ⟨call, known, answered⟩ := ended row created
    obtain ⟨ending, done⟩ := Option.ne_none_iff_exists'.mp answered
    cases clean.published call ending done
    obtain ⟨message, member, value⟩ := published.acknowledged call _ known (.inr done)
    exact ⟨message, drained member, eventRecordId_record capable value⟩

theorem every_event_processed_once_sample :
    ∃ world, (machine (fun _ => []) sampleInterpreter).run (.initial .empty 0) oneCreate = some world ∧
      world.loop.processed = world.loop.passed.map Message.key ∧
      (world.loop.passed.map (eventRecordId sampleInterpreter)).Perm [some 1] := by
  have ends : ((machine (fun _ => []) sampleInterpreter).run (.initial .empty 0) oneCreate).any fun world =>
      world.created = [.ofRequest reading freshOne] ∧ world.topics Processor.topic = world.loop.passed ∧
        world.endings 0 ≠ none ∧ (world.origins 0).bind Origin.row? = some (.ofRequest reading freshOne) := by
    decide +kernel
  have reliable : (machine (fun _ => []) sampleInterpreter).meets
      (fun before label => Reliable (fun _ => []) before label) (.initial .empty 0) oneCreate = true := by
    decide +kernel
  obtain ⟨world, ran, ends⟩ := (Option.any_eq_true _ _).mp ends
  obtain ⟨created, drained, answered, origin⟩ := of_decide_eq_true ends
  have known : world.origins 0 = some (.record (.ofRequest reading freshOne)) := by
    obtain ⟨origin, started, same⟩ := Option.bind_eq_some_iff.mp origin
    rw [started, Origin.row?_eq_some.mp same]
  have once := every_event_processed_once (fun _ => []) sampleInterpreter ⟨by decide, by decide⟩ .empty 0 oneCreate
    world ran ((Machine.every_of_meets reliable).mono fun _ _ _ _ _ _ => of_decide_eq_true)
    (by rw [created]; exact List.forall_mem_singleton.mpr ⟨0, known, answered⟩) (by rw [drained]; exact List.Subset.refl _)
  rw [created] at once
  exact ⟨world, ran, once⟩

end DataPipeline.Pipeline
