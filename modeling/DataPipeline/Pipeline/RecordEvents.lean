import DataPipeline.Ingestor.Crud
import DataPipeline.Ingestor.Publishing
import DataPipeline.Platform.CircuitConcurrency

/-! The way of an event from `create_record` of `ingestor/routers/records.py`
or `scrape_source` of `ingestor/routers/scraper.py` over the circuit breaker of
`_send_to_kafka` and the broker to the loop of `services/processor/main.py`.

Requests overlap at the awaits: between the commit and the gate of the breaker,
while the producer waits for the broker, and before an outcome is recorded. The
second test for a producer, inside the breaker, comes right after the first.
-/

set_option autoImplicit false

namespace DataPipeline.Pipeline

open Encoding Execution Platform Ingestor Publishing Processor

/-- The arguments of the decorator of `_send_to_kafka`. -/
def sendConfig : CircuitConfig := ⟨"_send_to_kafka", 5, 30⟩

/-- What `send_and_wait` raises: an error of the broker or the client, or anything else. -/
inductive SendError where
  | kafkaError
  | other
  deriving DecidableEq, Repr

inductive Origin where
  | record (row : Record)
  | scrape (source : String) (count : Nat)

namespace Origin

def event : Origin → EventPayload
  | .record row => recordCreated row.id [(Text.ofString "source", .str (Text.ofString row.source))]
  | .scrape source count => docScraped source count

def topic : Origin → String
  | .record _ => topicRecordCreated
  | .scrape _ _ => topicScraped

def value (repr : Double → Text) (origin : Origin) : Option Bytes := origin.event.value repr

def row? : Origin → Option Record
  | .record row => some row
  | .scrape _ _ => none

theorem row?_eq_some {origin : Origin} {row : Record} : origin.row? = some row ↔ origin = .record row := by
  cases origin <;> simp [row?]

end Origin

/-- How a call of a publisher ends. After the first four it returns, and the
request is answered as if there were no events; `raised` fails the request. -/
inductive Ending where
  | notConnected
  | published
  | circuitOpenError (text : String)
  | kafkaError
  | raised
  | cancelled
  deriving DecidableEq, Repr

structure World where
  store : Store
  /-- The rows inserted by `create_record`, in the order of their commits. -/
  created : List Record
  /-- What the calls under way and those that have ended publish. -/
  origins : Nat → Option Origin
  endings : Nat → Option Ending
  /-- What the send of a call has raised. -/
  errors : Nat → Option SendError
  /-- Whether `_producer` is not None. -/
  producer : Bool
  circuit : CircuitConcurrency.World
  topics : String → List Message
  loop : Loop

def World.initial (store : Store) (clock : ℚ) : World where
  store
  created := []
  origins := fun _ => none
  endings := fun _ => none
  errors := fun _ => none
  producer := false
  circuit := .initial clock
  topics := fun _ => []
  loop := .initial

def World.finish (world : World) (call : Nat) (ending : Ending) : World :=
  { world with endings := Function.update world.endings call (some ending) }

inductive Label where
  | create (call : Nat) (body : RecordRequest) (fresh : Fresh)
  | scraped (call : Nat) (source : String) (count : Nat)
  | connect
  | disconnect
  | enter (call : Nat) (now : ℚ)
  /-- The broker appends the message; the client may send it more than once. -/
  | append (call : Nat) (partition offset : Int)
  | settle (call : Nat) (outcome : Outcome Unit SendError)
  | record (call : Nat) (now : ℚ)
  | abandon (call : Nat)
  | deliver (message : Message) (outcome : SendOutcome)

/-- The outcome as the breaker sees it, to which all exceptions are the same. -/
def forget : Outcome Unit SendError → Outcome Unit Unit
  | .returned value => .returned value
  | .raised _ => .raised ()
  | .cancelled => .cancelled

def errorOf : Outcome Unit SendError → Option SendError
  | .raised error => some error
  | .returned _ | .cancelled => none

def endingOf : Option SendError → Ending
  | none => .published
  | some .kafkaError => .kafkaError
  | some .other => .raised

/-- The message of the call has been handed to the client, which may go on
sending it when the call has failed or was cancelled. -/
def World.handed (world : World) (call : Nat) : Bool :=
  match world.circuit.calls call, world.endings call with
  | .idle, _ | _, some (.circuitOpenError _) => false
  | _, _ => true

def World.Free (world : World) (topic : String) (partition offset : Int) : Prop :=
  ∀ old ∈ world.topics topic, old.key ≠ (partition, offset)

instance (world : World) (topic : String) (partition offset : Int) : Decidable (world.Free topic partition offset) :=
  inferInstanceAs (Decidable (∀ old ∈ _, _))

def World.Appended (repr : Double → Text) (world : World) (origin : Origin) : Prop :=
  ∃ message ∈ world.topics origin.topic, message.value = origin.value repr

instance (repr : Double → Text) (world : World) (origin : Origin) : Decidable (world.Appended repr origin) :=
  inferInstanceAs (Decidable (∃ message ∈ _, _))

def step (repr : Double → Text) (interpreter : Interpreter) (world : World) : Label → Option World
  | .create call body fresh =>
    if (world.origins call).isSome ∨ fresh.id ∈ world.store.issued then none
    else
      -- An `IntegrityError` ends the request before anything is published.
      (createRecord world.store body fresh).map fun (store, row) =>
        { world with
          store
          created := world.created ++ [row]
          origins := Function.update world.origins call (some (.record row)) }
  | .scraped call source count =>
    if (world.origins call).isSome then none
    else some { world with origins := Function.update world.origins call (some (.scrape source count)) }
  | .connect => some { world with producer := true }
  | .disconnect => some { world with producer := false }
  | .enter call now =>
    if (world.origins call).isNone ∨ (world.endings call).isSome then none
    else if world.producer = false then some (world.finish call .notConnected)
    else
      (CircuitConcurrency.step sendConfig world.circuit (.enter call now)).map fun circuit =>
        if circuit.calls call = .finished then
          { world with circuit }.finish call (.circuitOpenError (circuitOpenMessage sendConfig.name))
        else { world with circuit }
  | .append call partition offset =>
    match world.origins call with
    | none => none
    | some origin =>
      if world.handed call = true ∧ world.Free origin.topic partition offset then
        some { world with
          topics := Function.update world.topics origin.topic
            (world.topics origin.topic ++ [⟨partition, offset, origin.value repr⟩]) }
      else none
  | .settle call outcome =>
    match world.origins call with
    | none => none
    | some origin =>
      -- The broker acknowledges only what it has appended.
      if outcome = .returned () ∧ ¬ world.Appended repr origin then none
      else
        (CircuitConcurrency.step sendConfig world.circuit (.settle call (forget outcome))).map fun circuit =>
          let world := { world with circuit, errors := Function.update world.errors call (errorOf outcome) }
          if outcome = .cancelled then world.finish call .cancelled else world
  | .record call now =>
    (CircuitConcurrency.step sendConfig world.circuit (.record call now)).map fun circuit =>
      { world with circuit }.finish call (endingOf (world.errors call))
  | .abandon call =>
    (CircuitConcurrency.step sendConfig world.circuit (.abandon call)).map fun circuit =>
      { world with circuit }.finish call .cancelled
  | .deliver message outcome =>
    if message ∈ world.topics Processor.topic then
      ((Processor.machine interpreter).step world.loop ⟨message, outcome⟩).map fun loop => { world with loop }
    else none

def machine (repr : Double → Text) (interpreter : Interpreter) : Machine World Label := ⟨step repr interpreter⟩

variable {repr : Double → Text} {interpreter : Interpreter} {before after : World}

/-! ## What a step can do -/

theorem create_step {call : Nat} {body : RecordRequest} {fresh : Fresh}
    (stepped : step repr interpreter before (.create call body fresh) = some after) :
    before.origins call = none ∧ fresh.id ∉ before.store.issued ∧ ∃ store row,
      createRecord before.store body fresh = some (store, row) ∧
      after = { before with
        store
        created := before.created ++ [row]
        origins := Function.update before.origins call (some (.record row)) } := by
  simp only [step, Option.ite_none_left_eq_some, not_or, Option.not_isSome_iff_eq_none,
    Option.map_eq_some_iff] at stepped
  obtain ⟨⟨new, unused⟩, ⟨store, row⟩, created, rfl⟩ := stepped
  exact ⟨new, unused, store, row, created, rfl⟩

theorem scraped_step {call : Nat} {source : String} {count : Nat}
    (stepped : step repr interpreter before (.scraped call source count) = some after) :
    before.origins call = none ∧
      after = { before with origins := Function.update before.origins call (some (.scrape source count)) } := by
  simp only [step, Option.ite_none_left_eq_some, Option.not_isSome_iff_eq_none, Option.some.injEq] at stepped
  exact ⟨stepped.1, stepped.2.symm⟩

theorem enter_step {call : Nat} {now : ℚ} (stepped : step repr interpreter before (.enter call now) = some after) :
    (∃ origin, before.origins call = some origin) ∧ before.endings call = none ∧
    ((before.producer = false ∧ after = before.finish call .notConnected) ∨
      ∃ circuit, before.producer = true ∧
        CircuitConcurrency.step sendConfig before.circuit (.enter call now) = some circuit ∧
        ((circuit.calls call = .finished ∧
          after = { before with circuit }.finish call (.circuitOpenError (circuitOpenMessage sendConfig.name))) ∨
        (circuit.calls call ≠ .finished ∧ after = { before with circuit }))) := by
  simp only [step, Option.ite_none_left_eq_some, not_or, Option.not_isSome_iff_eq_none, Option.isNone_iff_eq_none,
    ← ne_eq, Option.ne_none_iff_exists'] at stepped
  obtain ⟨⟨known, unfinished⟩, stepped⟩ := stepped
  refine ⟨known, unfinished, ?_⟩
  split at stepped
  next absent => exact .inl ⟨absent, (Option.some.inj stepped).symm⟩
  next present =>
    obtain ⟨circuit, entered, same⟩ := Option.map_eq_some_iff.mp stepped
    refine .inr ⟨circuit, by simpa using present, entered, ?_⟩
    split at same
    next rejected => exact .inl ⟨rejected, same.symm⟩
    next admitted => exact .inr ⟨admitted, same.symm⟩

theorem append_step {call : Nat} {partition offset : Int}
    (stepped : step repr interpreter before (.append call partition offset) = some after) :
    ∃ origin, before.origins call = some origin ∧ before.Free origin.topic partition offset ∧
      after = { before with
        topics := Function.update before.topics origin.topic
          (before.topics origin.topic ++ [⟨partition, offset, origin.value repr⟩]) } := by
  simp only [step] at stepped
  split at stepped
  next => cases stepped
  next origin known =>
    rw [Option.ite_none_right_eq_some] at stepped
    exact ⟨origin, known, stepped.1.2, (Option.some.inj stepped.2).symm⟩

theorem settle_step {call : Nat} {outcome : Outcome Unit SendError}
    (stepped : step repr interpreter before (.settle call outcome) = some after) :
    ∃ origin circuit, before.origins call = some origin ∧ (outcome = .returned () → before.Appended repr origin) ∧
      CircuitConcurrency.step sendConfig before.circuit (.settle call (forget outcome)) = some circuit ∧
      after = { before with
        circuit
        errors := Function.update before.errors call (errorOf outcome)
        endings := if outcome = .cancelled then Function.update before.endings call (some .cancelled)
          else before.endings } := by
  simp only [step] at stepped
  split at stepped
  next => cases stepped
  next origin known =>
    rw [Option.ite_none_left_eq_some, Option.map_eq_some_iff] at stepped
    obtain ⟨acknowledged, circuit, settled, rfl⟩ := stepped
    refine ⟨origin, circuit, known, fun returned => ?_, settled, ?_⟩
    · by_contra missing
      exact acknowledged ⟨returned, missing⟩
    · split <;> rfl

theorem record_step {call : Nat} {now : ℚ} (stepped : step repr interpreter before (.record call now) = some after) :
    ∃ circuit, CircuitConcurrency.step sendConfig before.circuit (.record call now) = some circuit ∧
      after = { before with circuit }.finish call (endingOf (before.errors call)) := by
  simp only [step, Option.map_eq_some_iff] at stepped
  obtain ⟨circuit, recorded, rfl⟩ := stepped
  exact ⟨circuit, recorded, rfl⟩

theorem abandon_step {call : Nat} (stepped : step repr interpreter before (.abandon call) = some after) :
    ∃ circuit, CircuitConcurrency.step sendConfig before.circuit (.abandon call) = some circuit ∧
      after = { before with circuit }.finish call .cancelled := by
  simp only [step, Option.map_eq_some_iff] at stepped
  obtain ⟨circuit, abandoned, rfl⟩ := stepped
  exact ⟨circuit, abandoned, rfl⟩

theorem deliver_step {message : Message} {outcome : SendOutcome}
    (stepped : step repr interpreter before (.deliver message outcome) = some after) :
    message ∈ before.topics Processor.topic ∧ ∃ loop,
      (Processor.machine interpreter).step before.loop ⟨message, outcome⟩ = some loop ∧
      after = { before with loop } := by
  simp only [step, Option.ite_none_right_eq_some, Option.map_eq_some_iff] at stepped
  obtain ⟨member, loop, consumed, rfl⟩ := stepped
  exact ⟨member, loop, consumed, rfl⟩

/-! ## What the topic holds -/

/-- The rows that were created, the messages of their topic, and how far the calls have come. -/
structure Published (repr : Double → Text) (world : World) : Prop where
  known : ∀ call row, world.origins call = some (.record row) → row ∈ world.created
  written : ∀ message ∈ world.topics topicRecordCreated, ∃ row ∈ world.created,
    message.value = (Origin.record row).value repr
  keys : ((world.topics topicRecordCreated).map Message.key).Nodup
  waiting : ∀ call, world.origins call = none → world.circuit.calls call = .idle ∧ world.endings call = none
  acknowledged : ∀ call origin, world.origins call = some origin →
    world.circuit.calls call = .succeeded ∨ world.endings call = some .published → world.Appended repr origin
  erring : ∀ call, world.circuit.calls call = .failed → world.errors call ≠ none

theorem Published.initial (store : Store) (clock : ℚ) : Published repr (.initial store clock) where
  known := by rintro call row ⟨⟩
  written := by rintro message ⟨⟩
  keys := List.nodup_nil
  waiting := fun _ _ => ⟨rfl, rfl⟩
  acknowledged := by rintro call origin ⟨⟩
  erring := by rintro call ⟨⟩

theorem World.Appended.grow {origin : Origin} {world larger : World} (appended : world.Appended repr origin)
    (grows : ∀ topic, world.topics topic ⊆ larger.topics topic) : larger.Appended repr origin := by
  obtain ⟨message, member, value⟩ := appended
  exact ⟨message, grows _ member, value⟩

theorem topics_grow (topics : String → List Message) (topic : String) (message : Message) (other : String) :
    topics other ⊆ Function.update topics topic (topics topic ++ [message]) other := by
  intro old member
  rw [Function.update_apply]
  split
  next same => exact List.mem_append_left _ (same ▸ member)
  next => exact member

/-- A step of one call that writes no message and creates no row. -/
theorem Published.of_call {call : Nat} {origin : Origin} {circuit : CircuitConcurrency.World}
    {endings : Nat → Option Ending} {errors : Nat → Option SendError} (published : Published repr before)
    (known : before.origins call = some origin)
    (others : ∀ other, other ≠ call → circuit.calls other = before.circuit.calls other ∧
      endings other = before.endings other ∧ errors other = before.errors other)
    (acknowledged : circuit.calls call = .succeeded ∨ endings call = some .published → before.Appended repr origin)
    (erring : circuit.calls call = .failed → errors call ≠ none) :
    Published repr { before with circuit, endings, errors } where
  known := published.known
  written := published.written
  keys := published.keys
  waiting := by
    intro other unknown
    have different : other ≠ call := by
      rintro rfl
      rw [known] at unknown
      cases unknown
    obtain ⟨phase, ending, -⟩ := others other different
    simp only [phase, ending]
    exact published.waiting other unknown
  acknowledged := by
    intro other started knownOther done
    by_cases same : other = call
    · subst same
      cases known.symm.trans knownOther
      exact acknowledged done
    · obtain ⟨phase, ending, -⟩ := others other same
      simp only [phase, ending] at done
      exact published.acknowledged other started knownOther done
  erring := by
    intro other failed
    by_cases same : other = call
    · subst same
      exact erring failed
    · obtain ⟨phase, -, error⟩ := others other same
      simp only [phase] at failed
      simp only [error]
      exact published.erring other failed

theorem Published.of_new {call : Nat} {origin : Origin} {store : Store} {created : List Record}
    (published : Published repr before) (new : before.origins call = none) (grows : before.created ⊆ created)
    (known : ∀ row, origin = .record row → row ∈ created) :
    Published repr { before with store, created, origins := Function.update before.origins call (some origin) } where
  known := by
    intro other row started
    simp only [Function.update_apply] at started
    split at started
    · exact known row (Option.some.inj started)
    · exact grows (published.known other row started)
  written := by
    intro message member
    obtain ⟨row, present, value⟩ := published.written message member
    exact ⟨row, grows present, value⟩
  keys := published.keys
  waiting := by
    intro other unknown
    simp only [Function.update_apply] at unknown
    split at unknown
    · cases unknown
    · exact published.waiting other unknown
  acknowledged := by
    intro other started knownOther done
    simp only [Function.update_apply] at knownOther
    split at knownOther
    next same =>
      obtain ⟨idle, unfinished⟩ := published.waiting call new
      rw [same, idle, unfinished] at done
      rcases done with succeeded | ended
      · cases succeeded
      · cases ended
    next => exact published.acknowledged other started knownOther done
  erring := published.erring

theorem endingOf_published {error : Option SendError} : endingOf error = .published ↔ error = none := by
  cases error with
  | none => simp [endingOf]
  | some error => cases error <;> simp [endingOf]

theorem forget_returned {outcome : Outcome Unit SendError} : forget outcome = .returned () ↔ outcome = .returned () := by
  cases outcome <;> simp [forget]

theorem errorOf_raised {outcome : Outcome Unit SendError} (raised : forget outcome = .raised ()) :
    errorOf outcome ≠ none := by
  cases outcome <;> simp [forget, errorOf] at raised ⊢

theorem record_of_topic {origin : Origin} (same : origin.topic = topicRecordCreated) : ∃ row, origin = .record row := by
  cases origin with
  | record row => exact ⟨row, rfl⟩
  | scrape source count => exact absurd same (by decide : topicScraped ≠ topicRecordCreated)

theorem Published.started {call : Nat} (published : Published repr before)
    (settled : before.circuit.calls call = .succeeded ∨ before.circuit.calls call = .failed) :
    ∃ origin, before.origins call = some origin := by
  cases known : before.origins call with
  | some origin => exact ⟨origin, rfl⟩
  | none =>
    have idle := (published.waiting call known).1
    simp [idle] at settled

theorem Published.enter {call : Nat} {now : ℚ} (published : Published repr before)
    (stepped : step repr interpreter before (.enter call now) = some after) : Published repr after := by
  obtain ⟨⟨origin, known⟩, unfinished, ⟨-, rfl⟩ | ⟨circuit, -, entered, ended⟩⟩ := enter_step stepped
  · refine published.of_call known (fun other different => ⟨rfl, Function.update_of_ne different _ _, rfl⟩) ?_
      (published.erring call)
    rintro (succeeded | ending)
    · exact published.acknowledged call origin known (.inl succeeded)
    · simp at ending
  · -- The call runs now, or the breaker has turned it away.
    obtain ⟨-, -, rfl⟩ := CircuitConcurrency.enter_step entered
    rcases ended with ⟨-, rfl⟩ | ⟨-, rfl⟩
    all_goals
      refine published.of_call known (fun other different => ⟨Function.update_of_ne different _ _, ?_, rfl⟩) ?_ ?_
      · first | rfl | exact Function.update_of_ne different _ _
      · simp only [Function.update_self]
        split <;> simp [unfinished]
      · simp only [Function.update_self]
        split <;> simp

/-- What is appended belongs to a call, so under the topic of the records it is
a row's; and its offset is new. -/
theorem Published.append {call : Nat} {partition offset : Int} (published : Published repr before)
    (stepped : step repr interpreter before (.append call partition offset) = some after) : Published repr after := by
  obtain ⟨origin, known, free, rfl⟩ := append_step stepped
  refine ⟨published.known, ?_, ?_, published.waiting, fun other started knownOther done => ?_, published.erring⟩
  · intro message member
    simp only [Function.update_apply] at member
    split at member
    next same =>
      rcases List.mem_append.mp member with old | new
      · exact published.written message (same ▸ old)
      · obtain ⟨row, rfl⟩ := record_of_topic same.symm
        exact ⟨row, published.known call row known, by rw [List.mem_singleton.mp new]⟩
    next => exact published.written message member
  · simp only [Function.update_apply]
    split
    next same =>
      rw [← same] at free ⊢
      rw [List.map_append]
      refine published.keys.append (List.nodup_singleton _) ?_
      rintro key member single
      obtain ⟨old, present, rfl⟩ := List.mem_map.mp member
      exact free old present (List.mem_singleton.mp single)
    next => exact published.keys
  · exact (published.acknowledged other started knownOther done).grow (topics_grow _ _ _)

theorem Published.settle {call : Nat} {outcome : Outcome Unit SendError} (published : Published repr before)
    (stepped : step repr interpreter before (.settle call outcome) = some after) : Published repr after := by
  obtain ⟨origin, circuit, known, acknowledged, settled, rfl⟩ := settle_step stepped
  obtain ⟨running, phase, rfl, cases⟩ := CircuitConcurrency.settle_step settled
  refine published.of_call known (fun other different => ⟨Function.update_of_ne different _ _, ?_,
    Function.update_of_ne different _ _⟩) ?_ ?_
  · split
    · exact Function.update_of_ne different _ _
    · rfl
  · rintro (succeeded | ending)
    · simp only [Function.update_self] at succeeded
      subst succeeded
      exact acknowledged (forget_returned.mp (by simpa using cases))
    · split at ending
      · simp at ending
      · exact published.acknowledged call origin known (.inr ending)
  · intro failed
    simp only [Function.update_self] at failed ⊢
    subst failed
    exact errorOf_raised (by simpa using cases)

theorem Published.record {call : Nat} {now : ℚ} (published : Published repr before)
    (stepped : step repr interpreter before (.record call now) = some after) : Published repr after := by
  obtain ⟨circuit, recorded, rfl⟩ := record_step stepped
  obtain ⟨settled, same⟩ := CircuitConcurrency.record_step recorded
  obtain ⟨origin, known⟩ := published.started settled
  refine published.of_call known (fun other different => ⟨?_, Function.update_of_ne different _ _, rfl⟩) ?_ ?_
  · rw [same, Function.update_of_ne different]
  · rintro (succeeded | ending)
    · simp [same] at succeeded
    · -- Only a success leaves no error behind.
      rw [Function.update_self, Option.some.injEq, endingOf_published] at ending
      rcases settled with succeeded | failed
      · exact published.acknowledged call origin known (.inl succeeded)
      · exact absurd ending (published.erring call failed)
  · simp [same]

theorem Published.abandon {call : Nat} (published : Published repr before)
    (stepped : step repr interpreter before (.abandon call) = some after) : Published repr after := by
  obtain ⟨circuit, abandoned, rfl⟩ := abandon_step stepped
  obtain ⟨settled, rfl⟩ := CircuitConcurrency.abandon_step abandoned
  obtain ⟨origin, known⟩ := published.started settled
  refine published.of_call known (fun other different => ⟨Function.update_of_ne different _ _,
    Function.update_of_ne different _ _, rfl⟩) ?_ ?_ <;> simp

theorem Published.step {label : Label} (published : Published repr before)
    (stepped : step repr interpreter before label = some after) : Published repr after := by
  cases label with
  | create call body fresh =>
    obtain ⟨new, -, store, row, -, rfl⟩ := create_step stepped
    refine published.of_new new (List.subset_append_left _ _) ?_
    rintro row ⟨⟩
    exact List.mem_append_right _ (List.mem_singleton_self _)
  | scraped call source count =>
    obtain ⟨new, rfl⟩ := scraped_step stepped
    refine published.of_new new (List.Subset.refl _) ?_
    rintro row ⟨⟩
  | connect | disconnect =>
    cases stepped
    exact { published with }
  | enter call now => exact published.enter stepped
  | append call partition offset => exact published.append stepped
  | settle call outcome => exact published.settle stepped
  | record call now => exact published.record stepped
  | abandon call => exact published.abandon stepped
  | deliver message outcome =>
    obtain ⟨-, loop, -, rfl⟩ := deliver_step stepped
    exact { published with }

/-! ## What the processor has made of it -/

/-- The stack of the processor has room for an event with a flat payload. -/
structure Capable (interpreter : Interpreter) : Prop where
  loads : 2 ≤ interpreter.loadsDepth
  dumps : 1 ≤ interpreter.dumpsDepth

theorem record_value (repr : Double → Text) (capable : Capable interpreter) (row : Record) :
    ∃ bytes, (Origin.record row).value repr = some bytes ∧
      Json.loadsBytes interpreter.loadsDepth bytes = .ok (Origin.record row).event.toDict ∧
      handle interpreter (some bytes) = .ok () := by
  have written : Payload [(Text.ofString "source", .str (Text.ofString row.source))] :=
    ⟨by simp, unpaired_ofString _, unpaired_ofString _, trivial⟩
  have flat : Json.nestingEntries (Origin.record row).event.payload = 0 := by
    rw [← Nat.le_zero]
    exact (Json.nestingEntries_merge _ _).trans (by simp [Json.nestingEntries, Json.nesting])
  have room : Room interpreter (Origin.record row).event.payload := by
    constructor <;> rw [flat]
    exacts [capable.loads, capable.dumps]
  exact handle_value repr (payload_recordCreated row.id_fits written) room

/-- Nothing but messages of the topic have been consumed, and all of them were processed. -/
structure Consumed (world : World) : Prop where
  running : world.loop.ended = none
  delivered : world.loop.passed ⊆ world.topics Processor.topic
  processed : world.loop.processed = world.loop.passed.map Message.key
  keys : (world.loop.passed.map Message.key).Nodup
  settled : ∀ key, world.loop.retryCounts key = none
  deadLetters : world.loop.deadLetters = []

theorem Consumed.initial (store : Store) (clock : ℚ) : Consumed (.initial store clock) :=
  ⟨rfl, List.nil_subset _, rfl, List.nodup_nil, fun _ => rfl, rfl⟩

theorem consume_ok {loop : Loop} {message : Message} {outcome : SendOutcome}
    (handled : handle interpreter message.value = .ok ()) :
    consume interpreter loop message outcome =
      { loop with
        retryCounts := Function.update loop.retryCounts message.key none
        processed := loop.processed ++ [message.key]
        passed := loop.passed ++ [message] } := by
  simp only [consume, handled]

/-- Only the broker writes to a topic, and it takes nothing out; only a delivery
moves the loop; only a create makes a row. -/
theorem frame {label : Label} (stepped : step repr interpreter before label = some after) :
    (∀ topic, before.topics topic ⊆ after.topics topic) ∧
    ((∃ message outcome, label = .deliver message outcome) ∨ after.loop = before.loop) ∧
    ((∃ call body fresh, label = .create call body fresh) ∨
      after.created = before.created ∧ after.store = before.store) := by
  cases label with
  | create call body fresh =>
    obtain ⟨-, -, store, row, -, rfl⟩ := create_step stepped
    exact ⟨fun _ => List.Subset.refl _, .inr rfl, .inl ⟨call, body, fresh, rfl⟩⟩
  | scraped call source count =>
    obtain ⟨-, rfl⟩ := scraped_step stepped
    exact ⟨fun _ => List.Subset.refl _, .inr rfl, .inr ⟨rfl, rfl⟩⟩
  | connect | disconnect =>
    cases stepped
    exact ⟨fun _ => List.Subset.refl _, .inr rfl, .inr ⟨rfl, rfl⟩⟩
  | enter call now =>
    obtain ⟨-, -, ⟨-, rfl⟩ | ⟨circuit, -, -, ⟨-, rfl⟩ | ⟨-, rfl⟩⟩⟩ := enter_step stepped
    all_goals exact ⟨fun _ => List.Subset.refl _, .inr rfl, .inr ⟨rfl, rfl⟩⟩
  | append call partition offset =>
    obtain ⟨origin, -, -, rfl⟩ := append_step stepped
    exact ⟨topics_grow _ _ _, .inr rfl, .inr ⟨rfl, rfl⟩⟩
  | settle call outcome =>
    obtain ⟨origin, circuit, -, -, -, rfl⟩ := settle_step stepped
    exact ⟨fun _ => List.Subset.refl _, .inr rfl, .inr ⟨rfl, rfl⟩⟩
  | record call now =>
    obtain ⟨circuit, -, rfl⟩ := record_step stepped
    exact ⟨fun _ => List.Subset.refl _, .inr rfl, .inr ⟨rfl, rfl⟩⟩
  | abandon call =>
    obtain ⟨circuit, -, rfl⟩ := abandon_step stepped
    exact ⟨fun _ => List.Subset.refl _, .inr rfl, .inr ⟨rfl, rfl⟩⟩
  | deliver message outcome =>
    obtain ⟨-, loop, -, rfl⟩ := deliver_step stepped
    exact ⟨fun _ => List.Subset.refl _, .inl ⟨message, outcome, rfl⟩, .inr ⟨rfl, rfl⟩⟩

theorem Consumed.step (capable : Capable interpreter) {label : Label} (consumed : Consumed before)
    (published : Published repr before) (stepped : step repr interpreter before label = some after) :
    Consumed after := by
  obtain ⟨grows, ⟨message, outcome, rfl⟩ | same, -⟩ := frame stepped
  · obtain ⟨member, loop, delivered, rfl⟩ := deliver_step stepped
    obtain ⟨⟨-, new⟩, rfl⟩ := Processor.machine_step.mp delivered
    -- The message is that of a row, which is handled at the first attempt.
    obtain ⟨row, -, value⟩ := published.written message member
    obtain ⟨bytes, encoded, -, handled⟩ := record_value repr capable row
    rw [← encoded, ← value] at handled
    rw [consume_ok handled]
    refine ⟨consumed.running, ?_, ?_, ?_, fun key => ?_, consumed.deadLetters⟩
    · exact List.append_subset.mpr ⟨consumed.delivered, by simpa using member⟩
    · simp [consumed.processed]
    · simp only [List.map_append, List.map_cons, List.map_nil]
      refine consumed.keys.append (List.nodup_singleton _) ?_
      intro key passed single
      obtain ⟨old, present, rfl⟩ := List.mem_map.mp passed
      exact new old present (List.mem_singleton.mp single)
    · simp only [Function.update_apply]
      split
      · rfl
      · exact consumed.settled key
  · constructor <;> rw [same]
    exacts [consumed.running, fun message member => grows _ (consumed.delivered member), consumed.processed,
      consumed.keys, consumed.settled, consumed.deadLetters]

theorem reached (capable : Capable interpreter) {store : Store} {clock : ℚ} {labels : List Label} {world : World}
    (ran : (machine repr interpreter).run (.initial store clock) labels = some world) :
    Published repr world ∧ Consumed world :=
  Machine.invariant_of_step (fun world => Published repr world ∧ Consumed world)
    ⟨.initial store clock, .initial store clock⟩
    (fun _ _ _ held stepped => ⟨held.1.step stepped, held.2.step capable held.1 stepped⟩) ran

def Carries (interpreter : Interpreter) (message : Message) (row : Record) : Prop :=
  ∃ bytes, message.value = some bytes ∧
    Json.loadsBytes interpreter.loadsDepth bytes = .ok (Origin.record row).event.toDict

/-- Whatever the interleaving of creates, scrapes, sends and deliveries, and
whatever the broker and the breaker do: the processor goes on, sends no dead
letter and loses nothing; each message it has processed is the event of a row
that was created; and the event of a create whose send was acknowledged is in
the topic, so it has been processed when the topic has been delivered. -/
theorem events_safe (repr : Double → Text) (interpreter : Interpreter) (capable : Capable interpreter)
    (store : Store) (clock : ℚ) (labels : List Label) (world : World)
    (ran : (machine repr interpreter).run (.initial store clock) labels = some world) :
    world.loop.Running ∧ world.loop.deadLetters = [] ∧ NothingLost world.loop ∧
    (∀ key ∈ world.loop.processed, ∃ message ∈ world.topics Processor.topic, message.key = key ∧
      ∃ row ∈ world.created, Carries interpreter message row) ∧
    ∀ call row, world.origins call = some (.record row) → world.endings call = some .published →
      ∃ message ∈ world.topics Processor.topic, Carries interpreter message row ∧
        (world.topics Processor.topic ⊆ world.loop.passed → message.key ∈ world.loop.processed) := by
  obtain ⟨published, consumed⟩ := reached capable ran
  have carries : ∀ message row, message.value = (Origin.record row).value repr → Carries interpreter message row := by
    intro message row value
    obtain ⟨bytes, encoded, decoded, -⟩ := record_value repr capable row
    exact ⟨bytes, value.trans encoded, decoded⟩
  refine ⟨consumed.running, consumed.deadLetters, ?_, ?_, ?_⟩
  · intro message passed
    rw [consumed.processed]
    exact ⟨.inl (List.mem_map_of_mem passed), consumed.settled message.key⟩
  · intro key member
    rw [consumed.processed] at member
    obtain ⟨message, passed, rfl⟩ := List.mem_map.mp member
    obtain ⟨row, created, value⟩ := published.written message (consumed.delivered passed)
    exact ⟨message, consumed.delivered passed, rfl, row, created, carries message row value⟩
  · intro call row known ended
    obtain ⟨message, member, value⟩ := published.acknowledged call _ known (.inr ended)
    refine ⟨message, member, carries message row value, fun drained => ?_⟩
    rw [consumed.processed]
    exact List.mem_map_of_mem (drained member)

/-- A create whose event is sent, appended, acknowledged and delivered. -/
def oneCreate : List Label :=
  [.connect, .create 0 reading freshOne, .enter 0 0, .append 0 0 0, .settle 0 (.returned ()), .record 0 1,
    .deliver ⟨0, 0, (Origin.record (.ofRequest reading freshOne)).value fun _ => []⟩ .sent]

theorem events_safe_sample :
    ∃ world, (machine (fun _ => []) sampleInterpreter).run (.initial .empty 0) oneCreate = some world ∧
      world.loop.processed = [(0, 0)] ∧ world.loop.Running ∧
      ∃ message ∈ world.topics Processor.topic, Carries sampleInterpreter message (.ofRequest reading freshOne) := by
  have ends : ((machine (fun _ => []) sampleInterpreter).run (.initial .empty 0) oneCreate).any fun world =>
      world.loop.processed = [(0, 0)] ∧ world.created = [.ofRequest reading freshOne] := by decide +kernel
  obtain ⟨world, ran, ends⟩ := (Option.any_eq_true _ _).mp ends
  obtain ⟨processed, created⟩ := of_decide_eq_true ends
  obtain ⟨running, -, -, carried, -⟩ :=
    events_safe (fun _ => []) sampleInterpreter ⟨by decide, by decide⟩ .empty 0 oneCreate world ran
  obtain ⟨message, member, -, row, present, carries⟩ := carried (0, 0) (by rw [processed]; exact List.mem_singleton_self _)
  rw [created] at present
  cases List.mem_singleton.mp present
  exact ⟨world, ran, processed, running, message, member, carries⟩

end DataPipeline.Pipeline
