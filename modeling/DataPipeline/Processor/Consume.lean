import DataPipeline.Library.Execution
import DataPipeline.Library.Json

/-! The consumer loop of `services/processor/main.py`.

A broker delivers each offset of a partition once within one run of the loop.
Tracing is left out, and so is the connecting of the clients. Of the log lines
only the one of a processed event matters, because writing it can fail.
-/

set_option autoImplicit false

namespace DataPipeline.Processor

open Encoding Execution

def topic : String := "records.events"
def maxRetries : Nat := 3

structure Message where
  partition : Int
  offset : Int
  value : Option Bytes
  deriving DecidableEq

def Message.key (message : Message) : Int × Int := (message.partition, message.offset)

/-- What handling a message raises. A `JSONDecodeError` and a `UnicodeDecodeError` are `ValueError`s. -/
inductive Failure where
  | valueError (text : Text)
  | typeError
  | attributeError
  | recursionError
  deriving DecidableEq

/-- The interpreter: how deep the decoder and the encoder of JSON and `str` can
go, and what it says about bytes that it cannot decode. -/
structure Interpreter where
  loadsDepth : Nat
  dumpsDepth : Nat
  strDepth : Nat
  decodeError : Bytes → Text

/-- `_process_message`. The event type and the payload are written to a log
line, and a logging handler passes a `RecursionError` on. -/
def processMessage (interpreter : Interpreter) (event : Json) : Except Failure Unit :=
  match event with
  | .dict entries =>
    let eventType := (Json.get entries "event_type").getD .null
    let payload := (Json.get entries "payload").getD .null
    if eventType = .null ∨ payload = .null then
      .error (.valueError (Text.ofString "event missing 'event_type' or 'payload'"))
    else if payload.nesting ≤ interpreter.dumpsDepth ∧ eventType.nesting ≤ interpreter.strDepth then .ok ()
    else .error .recursionError
  | _ => .error .attributeError

/-- `json.loads` and `_process_message` on the value of a message. -/
def handle (interpreter : Interpreter) (value : Option Bytes) : Except Failure Unit :=
  match value with
  | none => .error .typeError
  | some bytes =>
    match Json.loadsBytes interpreter.loadsDepth bytes with
    | .error .value => .error (.valueError (interpreter.decodeError bytes))
    | .error .recursion => .error .recursionError
    | .ok event => processMessage interpreter event

/-- How sending to the dead-letter topic ends; only the first is an acceptance. -/
inductive SendOutcome where
  | sent
  | timeout
  | kafkaError
  deriving DecidableEq

def dlqPayload (rawValue : Bytes) (reason : Text) (partition offset : Int) : Text :=
  Json.dumpsObjectSpaced
    [(Text.ofString "source_topic", Json.dumpsString (Text.ofString topic)),
      (Text.ofString "source_partition", Json.dumpsInt partition),
      (Text.ofString "source_offset", Json.dumpsInt offset),
      (Text.ofString "reason", Json.dumpsString reason),
      (Text.ofString "original", Json.dumpsString (decodeUtf8Replacing rawValue))]

/-- `_send_to_dlq`: what the dead-letter topic has accepted. A timeout and a
`KafkaError` are logged and forgotten. -/
def sendToDlq (outcome : SendOutcome) (rawValue : Bytes) (reason : Text) (partition offset : Int) : List Bytes :=
  match outcome with
  | .sent => (encodeUtf8 (dlqPayload rawValue reason partition offset)).toList
  | .timeout | .kafkaError => []

/-! ## The loop -/

/-- `retry_counts`, and what has become of the messages so far: those the loop
has gone past, those processed, what was accepted as a dead letter, and the
exception that has ended the loop. -/
structure Loop where
  retryCounts : Int × Int → Option Nat
  passed : List Message
  processed : List (Int × Int)
  deadLetters : List ((Int × Int) × Bytes)
  ended : Option Failure

def Loop.initial : Loop := ⟨fun _ => none, [], [], [], none⟩

/-- One round of the loop of `consume`. -/
def consume (interpreter : Interpreter) (loop : Loop) (message : Message) (outcome : SendOutcome) : Loop :=
  let attempt := (loop.retryCounts message.key).getD 0 + 1
  match message.value, handle interpreter message.value with
  | _, .ok () =>
    { loop with
      retryCounts := Function.update loop.retryCounts message.key none
      processed := loop.processed ++ [message.key]
      passed := loop.passed ++ [message] }
  -- Both are `ValueError`s here: a text that is no JSON, and an event that lacks a key.
  | some value, .error (.valueError reason) =>
    -- The count is dropped here even if the producer did not accept the message.
    if maxRetries ≤ attempt then
      let accepted := sendToDlq outcome value reason message.partition message.offset
      { loop with
        deadLetters := loop.deadLetters ++ accepted.map fun payload => (message.key, payload)
        retryCounts := Function.update loop.retryCounts message.key none
        passed := loop.passed ++ [message] }
    else
      { loop with
        retryCounts := Function.update loop.retryCounts message.key (some attempt)
        passed := loop.passed ++ [message] }
  -- Any other exception leaves the `async for`.
  | _, .error failure => { loop with ended := some failure }

structure Delivery where
  message : Message
  outcome : SendOutcome
  deriving DecidableEq

/-- No offset is delivered twice, and nothing is delivered to a loop that has ended. -/
def machine (interpreter : Interpreter) : Machine Loop Delivery where
  step loop delivery :=
    if loop.ended = none ∧ ∀ old ∈ loop.passed, old.key ≠ delivery.message.key then
      some (consume interpreter loop delivery.message delivery.outcome)
    else none

/-- Each message the loop has gone past was processed or accepted as a dead
letter, and is not waiting for a retry. -/
def NothingLost (loop : Loop) : Prop :=
  ∀ message ∈ loop.passed,
    (message.key ∈ loop.processed ∨ message.key ∈ loop.deadLetters.map (·.1)) ∧
      loop.retryCounts message.key = none

/-- The value is no JSON text, or an object without an event type or a payload. -/
def Message.Malformed (interpreter : Interpreter) (message : Message) : Prop :=
  ∃ bytes, message.value = some bytes ∧
    (Json.loadsBytes interpreter.loadsDepth bytes = .error .value ∨
      ∃ entries, Json.loadsBytes interpreter.loadsDepth bytes = .ok (.dict entries) ∧
        ((Json.get entries "event_type").getD .null = .null ∨ (Json.get entries "payload").getD .null = .null))

variable {interpreter : Interpreter} {message : Message} {loop before after : Loop} {outcome : SendOutcome}

theorem processMessage_valueError_iff {event : Json} :
    (∃ reason, processMessage interpreter event = .error (.valueError reason)) ↔
      ∃ entries, event = .dict entries ∧
        ((Json.get entries "event_type").getD .null = .null ∨ (Json.get entries "payload").getD .null = .null) := by
  unfold processMessage
  split
  next entries =>
    simp only [Json.dict.injEq, exists_eq_left']
    split
    next missing => exact iff_of_true ⟨_, rfl⟩ missing
    next present =>
      refine iff_of_false ?_ present
      rintro ⟨reason, raised⟩
      split at raised <;> cases raised
  next notDict =>
    refine iff_of_false ?_ fun ⟨entries, same, _⟩ => notDict entries same
    rintro ⟨reason, raised⟩
    cases raised

theorem handle_valueError_iff :
    (∃ reason, handle interpreter message.value = .error (.valueError reason)) ↔ message.Malformed interpreter := by
  unfold handle Message.Malformed
  cases message.value with
  | none => simp
  | some bytes =>
    simp only [Option.some.injEq, exists_eq_left']
    cases Json.loadsBytes interpreter.loadsDepth bytes with
    | error failure => cases failure <;> simp
    | ok event => simp [processMessage_valueError_iff]

theorem consume_first (first : loop.retryCounts message.key = none) :
    (¬ message.Malformed interpreter ∧ consume interpreter loop message outcome =
      { loop with
        retryCounts := Function.update loop.retryCounts message.key none
        processed := loop.processed ++ [message.key]
        passed := loop.passed ++ [message] }) ∨
    (message.Malformed interpreter ∧ consume interpreter loop message outcome =
      { loop with
        retryCounts := Function.update loop.retryCounts message.key (some 1)
        passed := loop.passed ++ [message] }) ∨
    (¬ message.Malformed interpreter ∧ ∃ failure,
      consume interpreter loop message outcome = { loop with ended := some failure }) := by
  have malformed : (∃ reason, handle interpreter message.value = .error (.valueError reason)) ↔
    message.Malformed interpreter := handle_valueError_iff
  cases handled : handle interpreter message.value with
  | ok result =>
    rw [handled] at malformed
    refine .inl ⟨malformed.not.mp fun ⟨_, raised⟩ => (by cases raised), ?_⟩
    simp only [consume, handled]
  | error failure =>
    rw [handled] at malformed
    cases failure with
    | valueError reason =>
      obtain ⟨bytes, value, undecodable⟩ := malformed.mp ⟨reason, rfl⟩
      refine .inr (.inl ⟨⟨bytes, value, undecodable⟩, ?_⟩)
      rw [value] at handled
      -- The first attempt is below the limit, so the message is only counted.
      simp only [consume, value, handled, first, Option.getD_none, maxRetries, Nat.reduceLeDiff, Nat.reduceAdd,
        ↓reduceIte]
    | typeError | attributeError | recursionError =>
      refine .inr (.inr ⟨malformed.not.mp fun ⟨_, raised⟩ => (by cases raised), ?_⟩)
      simp only [consume, handled]
      exact ⟨_, rfl⟩

def CountsPassed (loop : Loop) : Prop :=
  ∀ key, loop.retryCounts key ≠ none → ∃ old ∈ loop.passed, old.key = key

theorem machine_step {delivery : Delivery} :
    (machine interpreter).step before delivery = some after ↔
      (before.ended = none ∧ ∀ old ∈ before.passed, old.key ≠ delivery.message.key) ∧
      after = consume interpreter before delivery.message delivery.outcome := by
  simp only [machine, Option.ite_none_right_eq_some, Option.some.injEq]
  exact and_congr_right fun _ => eq_comm

theorem CountsPassed.first (counts : CountsPassed loop) (new : ∀ old ∈ loop.passed, old.key ≠ message.key) :
    loop.retryCounts message.key = none := by
  by_contra counted
  obtain ⟨old, member, same⟩ := counts message.key counted
  exact new old member same

theorem CountsPassed.step {delivery : Delivery} (counts : CountsPassed before)
    (stepped : (machine interpreter).step before delivery = some after) : CountsPassed after := by
  obtain ⟨⟨-, new⟩, rfl⟩ := machine_step.mp stepped
  intro key counted
  rcases consume_first (counts.first new) with ⟨-, same⟩ | ⟨-, same⟩ | ⟨-, failure, same⟩ <;>
    rw [same] at counted ⊢ <;> simp only [Function.update_apply] at counted
  · split at counted
    · exact absurd rfl counted
    · obtain ⟨old, member, named⟩ := counts key counted
      exact ⟨old, List.mem_append_left _ member, named⟩
  · split at counted
    next named => exact ⟨delivery.message, List.mem_append_right _ (List.mem_singleton_self _), named.symm⟩
    next =>
      obtain ⟨old, member, named⟩ := counts key counted
      exact ⟨old, List.mem_append_left _ member, named⟩
  · exact counts key counted

theorem nothingLost_step {delivery : Delivery} (counts : CountsPassed before) (kept : NothingLost before)
    (stepped : (machine interpreter).step before delivery = some after) :
    NothingLost after ↔ ¬ delivery.message.Malformed interpreter := by
  obtain ⟨⟨-, new⟩, rfl⟩ := machine_step.mp stepped
  have first := counts.first new
  rcases consume_first first with
    ⟨wellFormed, same⟩ | ⟨malformed, same⟩ | ⟨wellFormed, failure, same⟩ <;> rw [same]
  · refine iff_of_true ?_ wellFormed
    intro message member
    simp only [Function.update_apply]
    rcases List.mem_append.mp member with old | newest
    · obtain ⟨accounted, settled⟩ := kept message old
      rw [if_neg (new message old)]
      exact ⟨accounted.imp_left (List.mem_append_left _), settled⟩
    · rw [List.mem_singleton.mp newest, if_pos rfl]
      exact ⟨.inl (List.mem_append_right _ (List.mem_singleton_self _)), rfl⟩
  -- The count of a malformed message is left behind, and is never looked at again.
  · refine iff_of_false (fun lost => ?_) (not_not_intro malformed)
    have settled := (lost delivery.message (List.mem_append_right _ (List.mem_singleton_self _))).2
    simp only [Function.update_self, reduceCtorEq] at settled
  · exact iff_of_true kept wellFormed

/-- In a run of the loop nothing is lost exactly if no message that reaches it
is malformed. -/
theorem nothing_lost_iff (interpreter : Interpreter) (deliveries : List Delivery) :
    (machine interpreter).Throughout .initial deliveries NothingLost ↔
      (machine interpreter).Every .initial deliveries
        fun _ _ delivery _ => ¬ delivery.message.Malformed interpreter :=
  Machine.throughout_iff_every CountsPassed (fun _ counted => absurd rfl counted)
    (fun _ member => absurd member List.not_mem_nil) (fun _ _ _ counts stepped => counts.step stepped)
    (fun _ _ _ counts kept stepped => nothingLost_step counts kept stepped) deliveries

/-- The interpreter as CPython answers on the text below. -/
def sampleInterpreter : Interpreter :=
  ⟨1000, 1000, 1000, fun _ => Text.ofString "Expecting value: line 1 column 1 (char 0)"⟩

/-- A message that is no JSON is passed over, although the dead-letter topic would accept it. -/
theorem undecodable_message_lost :
    ∃ loop, (machine sampleInterpreter).run .initial [⟨⟨0, 0, some [120]⟩, .sent⟩] = some loop ∧
      loop.ended = none ∧ loop.passed = [⟨0, 0, some [120]⟩] ∧ loop.processed = [] ∧ loop.deadLetters = [] ∧
      loop.retryCounts (0, 0) = some 1 ∧ ¬ NothingLost loop := by
  have ends : ((machine sampleInterpreter).run .initial [⟨⟨0, 0, some [120]⟩, .sent⟩]).any fun loop =>
      loop.ended = none ∧ loop.passed = [⟨0, 0, some [120]⟩] ∧ loop.processed = [] ∧ loop.deadLetters = [] ∧
        loop.retryCounts (0, 0) = some 1 := by decide +kernel
  obtain ⟨loop, ran, ends⟩ := (Option.any_eq_true _ _).mp ends
  obtain ⟨running, passed, processed, deadLetters, counted⟩ := of_decide_eq_true ends
  refine ⟨loop, ran, running, passed, processed, deadLetters, counted, fun kept => ?_⟩
  have settled := (kept ⟨0, 0, some [120]⟩ (by rw [passed]; exact List.mem_singleton_self _)).2
  cases counted.symm.trans settled

/-- No run of the loop ever sends a dead letter: a message is tried once, and
only a third attempt would be the last. -/
theorem no_dead_letters {deliveries : List Delivery}
    (ran : (machine interpreter).run .initial deliveries = some loop) : loop.deadLetters = [] := by
  refine (Machine.invariant_of_step (fun loop => CountsPassed loop ∧ loop.deadLetters = [])
    ⟨fun _ counted => absurd rfl counted, rfl⟩ ?_ ran).2
  rintro before delivery after ⟨counts, none⟩ stepped
  refine ⟨counts.step stepped, ?_⟩
  obtain ⟨⟨-, new⟩, rfl⟩ := machine_step.mp stepped
  rcases consume_first (counts.first new) with ⟨-, same⟩ | ⟨-, same⟩ | ⟨-, failure, same⟩
  all_goals
    rw [same]
    exact none

/-! ## Going on to the next message -/

/-- Whatever handling the message raises is a `ValueError`: the value is there,
nested no deeper than the decoder goes, and any JSON it holds is an object. An
event type and a payload are nested no deeper than the log line goes. -/
def Message.Caught (interpreter : Interpreter) (message : Message) : Prop :=
  ∃ bytes, message.value = some bytes ∧
    (Json.loadsBytes interpreter.loadsDepth bytes = .error .value ∨
      ∃ entries, Json.loadsBytes interpreter.loadsDepth bytes = .ok (.dict entries) ∧
        ((Json.get entries "event_type").getD .null = .null ∨ (Json.get entries "payload").getD .null = .null ∨
          (((Json.get entries "payload").getD .null).nesting ≤ interpreter.dumpsDepth ∧
            ((Json.get entries "event_type").getD .null).nesting ≤ interpreter.strDepth)))

def Loop.Running (loop : Loop) : Prop := loop.ended = none

/-- The loop has gone past the message and waits for the next one. -/
def Continues (interpreter : Interpreter) (loop : Loop) (message : Message) (outcome : SendOutcome) : Prop :=
  (consume interpreter loop message outcome).Running ∧
    (consume interpreter loop message outcome).passed = loop.passed ++ [message]

def Failure.IsValueError (failure : Failure) : Prop := ∃ reason, failure = .valueError reason

theorem processMessage_caught_iff {entries : List (Text × Json)} :
    (∀ failure, processMessage interpreter (.dict entries) = .error failure → failure.IsValueError) ↔
      (Json.get entries "event_type").getD .null = .null ∨ (Json.get entries "payload").getD .null = .null ∨
        (((Json.get entries "payload").getD .null).nesting ≤ interpreter.dumpsDepth ∧
          ((Json.get entries "event_type").getD .null).nesting ≤ interpreter.strDepth) := by
  unfold processMessage
  simp only
  split
  next missing =>
    refine iff_of_true ?_ (missing.imp_right .inl)
    intro failure raised
    cases raised
    exact ⟨_, rfl⟩
  next present =>
    split
    next shallow => exact iff_of_true (fun _ raised => by cases raised) (.inr (.inr shallow))
    next deep =>
      refine iff_of_false (fun caught => ?_) ?_
      · obtain ⟨reason, same⟩ := caught .recursionError rfl
        cases same
      · rintro (missing | missing | shallow)
        exacts [present (.inl missing), present (.inr missing), deep shallow]

theorem not_caught {failure : Failure} (uncaught : ¬ failure.IsValueError) :
    ¬ ∀ other, (Except.error failure : Except Failure Unit) = .error other → other.IsValueError :=
  fun all => uncaught (all failure rfl)

theorem caught_valueError (reason : Text) :
    ∀ other, (Except.error (.valueError reason) : Except Failure Unit) = .error other → other.IsValueError := by
  intro other same
  cases same
  exact ⟨reason, rfl⟩

theorem handle_caught_iff :
    (∀ failure, handle interpreter message.value = .error failure → failure.IsValueError) ↔
      message.Caught interpreter := by
  unfold handle Message.Caught
  cases message.value with
  -- A tombstone is no argument for `json.loads`.
  | none => exact iff_of_false (not_caught (by simp [Failure.IsValueError])) (by simp)
  | some bytes =>
    simp only [Option.some.injEq, exists_eq_left']
    cases Json.loadsBytes interpreter.loadsDepth bytes with
    | error failure =>
      cases failure with
      | value => exact iff_of_true (caught_valueError _) (.inl rfl)
      | recursion => exact iff_of_false (not_caught (by simp [Failure.IsValueError])) (by simp)
    | ok event =>
      cases event with
      | dict entries => simpa using processMessage_caught_iff
      -- Every other value decodes, but has no `get`.
      | null | bool | int | float | str | list =>
        exact iff_of_false (not_caught (by simp [Failure.IsValueError])) (by simp)

theorem consume_cases (running : loop.Running) :
    (message.Caught interpreter ∧ Continues interpreter loop message outcome) ∨
    (¬ message.Caught interpreter ∧ ¬ (consume interpreter loop message outcome).Running) := by
  rw [← handle_caught_iff]
  unfold Loop.Running at running
  unfold Continues Loop.Running consume
  cases handled : handle interpreter message.value with
  | ok result => exact .inl ⟨fun _ raised => (by cases raised), by simp [running]⟩
  | error failure =>
    cases failure with
    | valueError reason =>
      obtain ⟨bytes, value, -⟩ := handle_valueError_iff.mp ⟨reason, handled⟩
      refine .inl ⟨caught_valueError reason, ?_⟩
      simp only [value]
      split
      all_goals simp [running]
    | typeError | attributeError | recursionError =>
      exact .inr ⟨not_caught (by simp [Failure.IsValueError]), by simp⟩

theorem continues_iff (running : loop.Running) :
    Continues interpreter loop message outcome ↔ message.Caught interpreter := by
  rcases consume_cases running with ⟨caught, continues⟩ | ⟨escapes, ends⟩
  · exact iff_of_true continues caught
  · exact iff_of_false (fun continues => ends continues.1) escapes

theorem running_iff (running : loop.Running) :
    (consume interpreter loop message outcome).Running ↔ message.Caught interpreter := by
  rcases consume_cases running with ⟨caught, continues⟩ | ⟨escapes, ends⟩
  · exact iff_of_true continues.1 caught
  · exact iff_of_false ends escapes

/-- The payload of a dead letter is ASCII, so encoding it raises nothing. -/
theorem dlqPayload_encodes (rawValue : Bytes) (reason : Text) (partition offset : Int) :
    ∃ payload, encodeUtf8 (dlqPayload rawValue reason partition offset) = some payload := by
  refine ⟨_, encodeUtf8_ascii (Json.dumpsObjectSpaced_ascii ?_)⟩
  simp only [List.forall_mem_cons, Json.dumpsString_ascii, Json.dumpsInt_ascii, List.not_mem_nil, false_implies,
    implies_true, and_self]

/-- From any state of the loop and of its retry counts, it goes on to the next
message exactly if all that its message raises is caught, and it survives a
run exactly if that is so of every message delivered in it. -/
theorem consumer_continues_iff (interpreter : Interpreter) (loop : Loop) (running : loop.Running) :
    (∀ message outcome, Continues interpreter loop message outcome ↔ message.Caught interpreter) ∧
    ∀ deliveries, (machine interpreter).Throughout loop deliveries Loop.Running ↔
      (machine interpreter).Every loop deliveries fun _ _ delivery _ => delivery.message.Caught interpreter := by
  refine ⟨fun message outcome => continues_iff running, fun deliveries => ?_⟩
  apply Machine.throughout_iff_every (fun _ => True) trivial running (fun _ _ _ _ _ => trivial)
  intro before delivery after _ goes stepped
  obtain ⟨-, rfl⟩ := machine_step.mp stepped
  exact running_iff goes

/-- Bytes that are no JSON text are caught, here on their third attempt. -/
theorem undecodable_message_continues :
    Continues sampleInterpreter { Loop.initial with retryCounts := fun _ => some 2 } ⟨0, 0, some [120]⟩ .timeout :=
  ((consumer_continues_iff sampleInterpreter { Loop.initial with retryCounts := fun _ => some 2 } rfl).1
    ⟨0, 0, some [120]⟩ .timeout).mpr ⟨[120], rfl, .inl (by decide +kernel)⟩

/-- A tombstone and the JSON texts `null` and `[]` end the loop. -/
theorem tombstone_ends_loop :
    (consume sampleInterpreter .initial ⟨0, 0, none⟩ .sent).ended = some .typeError ∧
    (consume sampleInterpreter .initial ⟨0, 1, some [110, 117, 108, 108]⟩ .sent).ended = some .attributeError ∧
    (consume sampleInterpreter .initial ⟨0, 2, some [91, 93]⟩ .sent).ended = some .attributeError ∧
    ¬ Continues sampleInterpreter .initial ⟨0, 0, none⟩ .sent := by
  refine ⟨by decide +kernel, by decide +kernel, by decide +kernel, fun continues => ?_⟩
  cases continues.1

end DataPipeline.Processor
