import DataPipeline.Ingestor.Publishing
import DataPipeline.Ingestor.Scrapers
import DataPipeline.Library.Calendar
import DataPipeline.Platform.CircuitConcurrency

/-! The loop of `scrape_source` of `ingestor/routers/scraper.py` that stores what
has been scraped, over the circuit breaker of `ingestor/storage/mongo.py`.

Requests overlap at the awaits. MongoDB may apply an insert after its client has
given it up, but no insert twice. The second test for a database, inside the
breaker, comes right after the first.
-/

set_option autoImplicit false

namespace DataPipeline.Ingestor.ScrapeStorage

open Encoding Calendar Execution Platform Publishing Scrapers

/-- The arguments of the decorator of `_mongo_insert_one`. -/
def insertConfig : CircuitConfig := ⟨"_mongo_insert_one", 5, 30⟩

/-- The arguments of one call of `insert_scraped_doc`: which item of which request
it is for, and the time it writes into the document. -/
structure Write where
  request : Nat
  position : Nat
  item : ScrapedItem
  scrapedAt : DateTime

/-- A request that has scraped its items: how many of them are done with and how
many of these are stored, and the call of the insert that is under way. -/
structure Scrape where
  source : String
  items : List ScrapedItem
  done : Nat
  stored : Nat
  insert : Option Nat
  ended : Bool

structure ScrapeResponse where
  source : String
  scraped : Nat
  stored : Nat
  deriving DecidableEq

structure World where
  /-- Whether `_db` is not None. -/
  connected : Bool
  circuit : CircuitConcurrency.World
  scrapes : Nat → Option Scrape
  /-- The calls that have come through the breaker. -/
  writes : Nat → Option Write
  /-- The collection, each document under the call that has written it. -/
  docs : List (Nat × Write)
  /-- The answer of a request, with the event it hands to the publisher. -/
  answers : Nat → Option (ScrapeResponse × EventPayload)

def World.initial (clock : ℚ) : World where
  connected := false
  circuit := .initial clock
  scrapes := fun _ => none
  writes := fun _ => none
  docs := []
  answers := fun _ => none

inductive Label where
  | connect
  | disconnect
  | begin (request : Nat) (source : String) (items : List ScrapedItem)
  | insert (request call : Nat) (now : ℚ) (scrapedAt : DateTime)
  | apply (call : Nat)
  | settle (request call : Nat) (outcome : Outcome Unit Unit)
  | record (request call : Nat) (now : ℚ)
  | abandon (request call : Nat)
  | answer (request : Nat)

def World.put (world : World) (request : Nat) (scrape : Scrape) : World :=
  { world with scrapes := Function.update world.scrapes request (some scrape) }

def Scrape.next (scrape : Scrape) (stored : Bool) : Scrape :=
  { scrape with
    done := scrape.done + 1
    stored := if stored then scrape.stored + 1 else scrape.stored
    insert := none }

def Scrape.response (scrape : Scrape) : ScrapeResponse × EventPayload :=
  (⟨scrape.source, scrape.items.length, scrape.stored⟩, docScraped scrape.source scrape.stored)

def World.Applied (world : World) (call : Nat) : Prop := call ∈ world.docs.map Prod.fst

instance (world : World) (call : Nat) : Decidable (world.Applied call) := inferInstanceAs (Decidable (_ ∈ _))

def step (world : World) : Label → Option World
  | .connect => some { world with connected := true }
  | .disconnect => some { world with connected := false }
  | .begin request source items =>
    if (world.scrapes request).isSome then none
    else some (world.put request ⟨source, items, 0, 0, none, false⟩)
  | .insert request call now scrapedAt =>
    (world.scrapes request).bind fun scrape =>
      if scrape.ended = true ∨ scrape.insert ≠ none then none
      else
        (scrape.items[scrape.done]?).bind fun item =>
          -- A `RuntimeError`, outside the breaker.
          if world.connected = false then some (world.put request (scrape.next false))
          else
            (CircuitConcurrency.step insertConfig world.circuit (.enter call now)).map fun circuit =>
              if circuit.calls call = .finished then { world with circuit }.put request (scrape.next false)
              else
                { world with
                  circuit
                  writes := Function.update world.writes call
                    (some ⟨request, scrape.done, item, scrapedAt⟩) }.put
                  request { scrape with insert := some call }
  | .apply call =>
    (world.writes call).bind fun write =>
      if world.Applied call then none else some { world with docs := world.docs ++ [(call, write)] }
  | .settle request call outcome =>
    (world.scrapes request).bind fun scrape =>
      -- An insert is acknowledged only when it is applied.
      if scrape.insert ≠ some call ∨ scrape.ended = true ∨ (outcome = .returned () ∧ ¬ world.Applied call) then none
      else
        (CircuitConcurrency.step insertConfig world.circuit (.settle call outcome)).map fun circuit =>
          if outcome = .cancelled then { world with circuit }.put request { scrape with ended := true }
          else { world with circuit }
  | .record request call now =>
    (world.scrapes request).bind fun scrape =>
      if scrape.insert ≠ some call ∨ scrape.ended = true then none
      else
        (CircuitConcurrency.step insertConfig world.circuit (.record call now)).map fun circuit =>
          { world with circuit }.put request (scrape.next (world.circuit.calls call = CircuitConcurrency.Phase.succeeded))
  | .abandon request call =>
    (world.scrapes request).bind fun scrape =>
      if scrape.insert ≠ some call ∨ scrape.ended = true then none
      else
        (CircuitConcurrency.step insertConfig world.circuit (.abandon call)).map fun circuit =>
          { world with circuit }.put request { scrape with ended := true }
  | .answer request =>
    (world.scrapes request).bind fun scrape =>
      if scrape.ended = true ∨ scrape.done < scrape.items.length then none
      else
        some { world.put request { scrape with ended := true } with
          answers := Function.update world.answers request (some scrape.response) }

def machine : Machine World Label := ⟨step⟩

/-- The request has not ended, and this is the call of its insert under way, if there is one. -/
structure Scrape.Runs (world : World) (request : Nat) (scrape : Scrape) (insert : Option Nat) : Prop where
  present : world.scrapes request = some scrape
  running : scrape.ended = false
  insert : scrape.insert = insert

inductive Transition (before : World) : Label → World → Prop where
  | connected : Transition before .connect { before with connected := true }
  | disconnected : Transition before .disconnect { before with connected := false }
  | begun (request : Nat) (source : String) (items : List ScrapedItem) (unused : before.scrapes request = none) :
      Transition before (.begin request source items) (before.put request ⟨source, items, 0, 0, none, false⟩)
  | unconnected {request call : Nat} {now : ℚ} {scrapedAt : DateTime} {scrape : Scrape} {item : ScrapedItem}
      (runs : scrape.Runs before request none) (here : scrape.items[scrape.done]? = some item) :
      Transition before (.insert request call now scrapedAt) (before.put request (scrape.next false))
  | turnedAway {request call : Nat} {now : ℚ} {scrapedAt : DateTime} {scrape : Scrape} {item : ScrapedItem}
      {circuit : CircuitConcurrency.World} (runs : scrape.Runs before request none)
      (here : scrape.items[scrape.done]? = some item) (idle : before.circuit.calls call = .idle)
      (calls : circuit.calls = Function.update before.circuit.calls call .finished) :
      Transition before (.insert request call now scrapedAt) ({ before with circuit }.put request (scrape.next false))
  | sent {request call : Nat} {now : ℚ} (scrapedAt : DateTime) {scrape : Scrape} {item : ScrapedItem}
      {circuit : CircuitConcurrency.World} (runs : scrape.Runs before request none)
      (here : scrape.items[scrape.done]? = some item) (idle : before.circuit.calls call = .idle)
      (calls : circuit.calls = Function.update before.circuit.calls call .running) :
      Transition before (.insert request call now scrapedAt)
        ({ before with
          circuit
          writes := Function.update before.writes call (some ⟨request, scrape.done, item, scrapedAt⟩) }.put
          request { scrape with insert := some call })
  | applied {call : Nat} {write : Write} (written : before.writes call = some write) (new : ¬ before.Applied call) :
      Transition before (.apply call) { before with docs := before.docs ++ [(call, write)] }
  | settled {request call : Nat} {outcome : Outcome Unit Unit} {scrape : Scrape} {circuit : CircuitConcurrency.World}
      {phase : CircuitConcurrency.Phase} (runs : scrape.Runs before request (some call))
      (ends : outcome ≠ .cancelled) (calls : circuit.calls = Function.update before.circuit.calls call phase)
      (started : phase ≠ .idle) (acknowledged : phase = .succeeded → before.Applied call) :
      Transition before (.settle request call outcome) { before with circuit }
  | interrupted {request call : Nat} {scrape : Scrape} {circuit : CircuitConcurrency.World}
      (runs : scrape.Runs before request (some call))
      (calls : circuit.calls = Function.update before.circuit.calls call .finished) :
      Transition before (.settle request call .cancelled)
        ({ before with circuit }.put request { scrape with ended := true })
  | stored {request call : Nat} {now : ℚ} {scrape : Scrape} {circuit : CircuitConcurrency.World}
      (runs : scrape.Runs before request (some call)) (succeeded : before.circuit.calls call = .succeeded)
      (calls : circuit.calls = Function.update before.circuit.calls call .finished) :
      Transition before (.record request call now) ({ before with circuit }.put request (scrape.next true))
  | skipped {request call : Nat} {now : ℚ} {scrape : Scrape} {circuit : CircuitConcurrency.World}
      (runs : scrape.Runs before request (some call)) (failed : before.circuit.calls call = .failed)
      (calls : circuit.calls = Function.update before.circuit.calls call .finished) :
      Transition before (.record request call now) ({ before with circuit }.put request (scrape.next false))
  | abandoned {request call : Nat} {scrape : Scrape} {circuit : CircuitConcurrency.World}
      (runs : scrape.Runs before request (some call))
      (calls : circuit.calls = Function.update before.circuit.calls call .finished) :
      Transition before (.abandon request call) ({ before with circuit }.put request { scrape with ended := true })
  | answered {request : Nat} {scrape : Scrape} (runs : scrape.Runs before request scrape.insert)
      (whole : scrape.items.length ≤ scrape.done) :
      Transition before (.answer request)
        { before.put request { scrape with ended := true } with
          answers := Function.update before.answers request (some scrape.response) }

section

variable {before after : World} {request call : Nat}

/-- The breaker admits a call or turns it away. -/
theorem enter_calls {circuit entered : CircuitConcurrency.World} {now : ℚ}
    (stepped : CircuitConcurrency.step insertConfig circuit (.enter call now) = some entered) :
    circuit.calls call = .idle ∧
      (entered.calls = Function.update circuit.calls call .finished ∨
        entered.calls = Function.update circuit.calls call .running) := by
  obtain ⟨idle, -, rfl⟩ := CircuitConcurrency.enter_step stepped
  refine ⟨idle, ?_⟩
  dsimp only
  split
  next => exact .inl rfl
  next => exact .inr rfl

theorem insert_transition {now : ℚ} {scrapedAt : DateTime}
    (stepped : machine.step before (.insert request call now scrapedAt) = some after) :
    Transition before (.insert request call now scrapedAt) after := by
  simp only [machine, ScrapeStorage.step, Option.bind_eq_some_iff] at stepped
  obtain ⟨scrape, present, stepped⟩ := stepped
  split at stepped
  next => cases stepped
  next free =>
    rw [not_or, not_not, Bool.not_eq_true] at free
    have runs : scrape.Runs before request none := ⟨present, free.1, free.2⟩
    obtain ⟨item, here, stepped⟩ := Option.bind_eq_some_iff.mp stepped
    split at stepped
    next =>
      cases stepped
      exact .unconnected runs here
    next =>
      obtain ⟨circuit, entered, stepped⟩ := Option.map_eq_some_iff.mp stepped
      obtain ⟨idle, calls⟩ := enter_calls entered
      split at stepped
      next turned =>
        subst stepped
        refine .turnedAway runs here idle (calls.resolve_right fun calls => ?_)
        rw [calls, Function.update_self] at turned
        cases turned
      next admitted =>
        subst stepped
        refine .sent scrapedAt runs here idle (calls.resolve_left fun calls => admitted ?_)
        rw [calls, Function.update_self]

theorem settle_transition {outcome : Outcome Unit Unit}
    (stepped : machine.step before (.settle request call outcome) = some after) :
    Transition before (.settle request call outcome) after := by
  simp only [machine, ScrapeStorage.step, Option.bind_eq_some_iff] at stepped
  obtain ⟨scrape, present, stepped⟩ := stepped
  split at stepped
  next => cases stepped
  next free =>
    obtain ⟨inserts, running, applied⟩ : scrape.insert = some call ∧ scrape.ended = false ∧
        (outcome = .returned () → before.Applied call) := by
      simpa only [ne_eq, not_or, not_not, Bool.not_eq_true, not_and] using free
    obtain ⟨circuit, settled, stepped⟩ := Option.map_eq_some_iff.mp stepped
    obtain ⟨-, phase, rfl, ⟨rfl, rfl⟩ | ⟨rfl, rfl⟩ | ⟨rfl, rfl⟩⟩ := CircuitConcurrency.settle_step settled
    · cases stepped
      exact .settled ⟨present, running, inserts⟩ nofun rfl nofun fun _ => applied rfl
    · cases stepped
      exact .settled ⟨present, running, inserts⟩ nofun rfl nofun nofun
    · cases stepped
      exact .interrupted ⟨present, running, inserts⟩ rfl

theorem record_transition {now : ℚ} (stepped : machine.step before (.record request call now) = some after) :
    Transition before (.record request call now) after := by
  simp only [machine, ScrapeStorage.step, Option.bind_eq_some_iff] at stepped
  obtain ⟨scrape, present, stepped⟩ := stepped
  split at stepped
  next => cases stepped
  next free =>
    rw [not_or, not_not, Bool.not_eq_true] at free
    obtain ⟨circuit, recorded, rfl⟩ := Option.map_eq_some_iff.mp stepped
    obtain ⟨succeeded | failed, calls⟩ := CircuitConcurrency.record_step recorded
    · rw [succeeded, decide_eq_true rfl]
      exact .stored ⟨present, free.2, free.1⟩ succeeded calls
    · have no : decide (before.circuit.calls call = CircuitConcurrency.Phase.succeeded) = false := by
        rw [failed]
        rfl
      rw [no]
      exact .skipped ⟨present, free.2, free.1⟩ failed calls

theorem transition_of_step {label : Label} (stepped : machine.step before label = some after) :
    Transition before label after := by
  cases label with
  | connect =>
    cases stepped
    exact .connected
  | disconnect =>
    cases stepped
    exact .disconnected
  | begin request source items =>
    simp only [machine, ScrapeStorage.step] at stepped
    split at stepped
    next => cases stepped
    next unused =>
      cases stepped
      exact .begun request source items (by simpa using unused)
  | insert => exact insert_transition stepped
  | apply call =>
    simp only [machine, ScrapeStorage.step, Option.bind_eq_some_iff] at stepped
    obtain ⟨write, written, stepped⟩ := stepped
    split at stepped
    next => cases stepped
    next new =>
      cases stepped
      exact .applied written new
  | settle => exact settle_transition stepped
  | record => exact record_transition stepped
  | abandon request call =>
    simp only [machine, ScrapeStorage.step, Option.bind_eq_some_iff] at stepped
    obtain ⟨scrape, present, stepped⟩ := stepped
    split at stepped
    next => cases stepped
    next free =>
      rw [not_or, not_not, Bool.not_eq_true] at free
      obtain ⟨circuit, abandoned, rfl⟩ := Option.map_eq_some_iff.mp stepped
      obtain ⟨-, rfl⟩ := CircuitConcurrency.abandon_step abandoned
      exact .abandoned ⟨present, free.2, free.1⟩ rfl
  | answer request =>
    simp only [machine, ScrapeStorage.step, Option.bind_eq_some_iff] at stepped
    obtain ⟨scrape, present, stepped⟩ := stepped
    split at stepped
    next => cases stepped
    next free =>
      rw [not_or, Bool.not_eq_true, Nat.not_lt] at free
      cases stepped
      exact .answered ⟨present, free.1, rfl⟩ free.2

end

/-! ## What is kept -/

/-- The calls whose inserts a request has seen acknowledged. -/
structure Acknowledged (world : World) (request done stored : Nat) (calls : List Nat) : Prop where
  distinct : calls.Nodup
  count : calls.length = stored
  own : ∀ call ∈ calls, ∃ write, world.writes call = some write ∧ write.request = request ∧
    write.position < done ∧ world.Applied call

structure Scrape.Good (world : World) (request : Nat) (scrape : Scrape) : Prop where
  bounded : scrape.done ≤ scrape.items.length
  acknowledged : ∃ calls, Acknowledged world request scrape.done scrape.stored calls
  /-- The insert under way is for the next item, and acknowledged only if it is applied. -/
  insert : ∀ call, scrape.insert = some call →
    scrape.done < scrape.items.length ∧
    (∃ write, world.writes call = some write ∧ write.request = request ∧ write.position = scrape.done) ∧
    (world.circuit.calls call = .succeeded → world.Applied call)

/-- Every write is for an item of its request and for no item twice, and every
document is what one write has written. -/
structure Stored (world : World) : Prop where
  scrapes : ∀ request scrape, world.scrapes request = some scrape → scrape.Good world request
  fresh : ∀ call, world.circuit.calls call = .idle → world.writes call = none
  writes : ∀ call write, world.writes call = some write → ∃ scrape, world.scrapes write.request = some scrape ∧
    scrape.items[write.position]? = some write.item ∧
    (write.position < scrape.done ∨ (write.position = scrape.done ∧ scrape.insert = some call))
  once : ∀ first second write other, world.writes first = some write → world.writes second = some other →
    write.request = other.request → write.position = other.position → first = second
  docs : ∀ doc ∈ world.docs, world.writes doc.1 = some doc.2
  distinct : (world.docs.map Prod.fst).Nodup
  answers : ∀ request response, world.answers request = some response →
    ∃ scrape, world.scrapes request = some scrape ∧ scrape.ended = true ∧ scrape.done = scrape.items.length ∧
      response = scrape.response

variable {world before after : World} {request call : Nat} {scrape : Scrape} {write : Write}

theorem Stored.initial (clock : ℚ) : Stored (.initial clock) where
  scrapes := fun _ _ present => by cases present
  fresh := fun _ _ => rfl
  writes := fun _ _ present => by cases present
  once := fun _ _ _ _ present => by cases present
  docs := fun _ member => absurd member List.not_mem_nil
  distinct := List.nodup_nil
  answers := fun _ _ present => by cases present

/-- Nothing is forgotten, and no call has newly succeeded that is not applied. -/
structure Grows (before after : World) : Prop where
  writes : ∀ call write, before.writes call = some write → after.writes call = some write
  applied : ∀ call, before.Applied call → after.Applied call
  succeeded : ∀ call write, before.writes call = some write → after.circuit.calls call = .succeeded →
    before.circuit.calls call = .succeeded ∨ after.Applied call

theorem Scrape.Good.grow (good : scrape.Good before request) (grows : Grows before after) :
    scrape.Good after request where
  bounded := good.bounded
  acknowledged := by
    obtain ⟨calls, distinct, count, own⟩ := good.acknowledged
    refine ⟨calls, distinct, count, fun call member => ?_⟩
    obtain ⟨write, written, named, earlier, applied⟩ := own call member
    exact ⟨write, grows.writes call write written, named, earlier, grows.applied call applied⟩
  insert := by
    intro call inserts
    obtain ⟨within, ⟨write, written, named, here⟩, succeeded⟩ := good.insert call inserts
    refine ⟨within, ⟨write, grows.writes call write written, named, here⟩, fun now => ?_⟩
    rcases grows.succeeded call write written now with earlier | applied
    · exact grows.applied call (succeeded earlier)
    · exact applied

/-- A request that has been answered does not go on. -/
theorem Stored.answers_put {next : Scrape} (stored : Stored world) (present : world.scrapes request = some scrape)
    (running : scrape.ended = false) (other : Nat) (response : ScrapeResponse × EventPayload)
    (answered : world.answers other = some response) :
    ∃ own, (world.put request next).scrapes other = some own ∧ own.ended = true ∧ own.done = own.items.length ∧
      response = own.response := by
  obtain ⟨own, found, ended, rest⟩ := stored.answers other response answered
  simp only [World.put]
  by_cases same : other = request
  · rw [same, present] at found
    cases found
    rw [running] at ended
    cases ended
  · rw [Function.update_of_ne same]
    exact ⟨own, found, ended, rest⟩

/-- A request goes on, and all of its writes stay behind it. -/
theorem Stored.put {next : Scrape} (stored : Stored world) (present : world.scrapes request = some scrape)
    (running : scrape.ended = false) (items : next.items = scrape.items) (good : next.Good world request)
    (behind : ∀ call write, world.writes call = some write → write.request = request →
      write.position < next.done ∨ (write.position = next.done ∧ next.insert = some call)) :
    Stored (world.put request next) where
  scrapes := by
    intro other own assigned
    simp only [World.put] at assigned
    by_cases same : other = request
    · rw [same, Function.update_self] at assigned
      cases assigned
      rw [same]
      exact good.grow ⟨fun _ _ => id, fun _ => id, fun _ _ _ => .inl⟩
    · rw [Function.update_of_ne same] at assigned
      exact (stored.scrapes other own assigned).grow ⟨fun _ _ => id, fun _ => id, fun _ _ _ => .inl⟩
  fresh := stored.fresh
  writes := by
    intro call write written
    obtain ⟨own, found, item, place⟩ := stored.writes call write written
    simp only [World.put]
    by_cases same : write.request = request
    · rw [same, Function.update_self]
      rw [same, present] at found
      cases found
      exact ⟨next, rfl, items ▸ item, behind call write written same⟩
    · rw [Function.update_of_ne same]
      exact ⟨own, found, item, place⟩
  once := stored.once
  docs := stored.docs
  distinct := stored.distinct
  answers := stored.answers_put present running

theorem Stored.connection (stored : Stored world) (connected : Bool) : Stored { world with connected } where
  scrapes := fun other own present =>
    (stored.scrapes other own present).grow ⟨fun _ _ => id, fun _ => id, fun _ _ _ => .inl⟩
  fresh := stored.fresh
  writes := stored.writes
  once := stored.once
  docs := stored.docs
  distinct := stored.distinct
  answers := stored.answers

theorem Stored.breaker (stored : Stored world) {circuit : CircuitConcurrency.World}
    (idle : ∀ call, circuit.calls call = .idle → world.circuit.calls call = .idle)
    (succeeded : ∀ call, circuit.calls call = .succeeded → world.circuit.calls call = .succeeded ∨ world.Applied call) :
    Stored { world with circuit } where
  scrapes := fun other own present =>
    (stored.scrapes other own present).grow ⟨fun _ _ => id, fun _ => id, fun call _ _ => succeeded call⟩
  fresh := fun call none => stored.fresh call (idle call none)
  writes := stored.writes
  once := stored.once
  docs := stored.docs
  distinct := stored.distinct
  answers := stored.answers

theorem Stored.done_le (stored : Stored world) (written : world.writes call = some write)
    (present : world.scrapes write.request = some scrape) (idle : scrape.insert = none) :
    write.position < scrape.done := by
  obtain ⟨own, found, -, place⟩ := stored.writes call write written
  cases present.symm.trans found
  rcases place with earlier | ⟨-, inserts⟩
  · exact earlier
  · rw [idle] at inserts
    cases inserts

theorem Stored.once_update (stored : Stored world)
    (new : ∀ old other, world.writes old = some other → other.request = write.request →
      other.position ≠ write.position) (first second : Nat) (one other : Write)
    (firstIs : Function.update world.writes call (some write) first = some one)
    (secondIs : Function.update world.writes call (some write) second = some other)
    (request : one.request = other.request) (position : one.position = other.position) : first = second := by
  by_cases firstNew : first = call
  · by_cases secondNew : second = call
    · rw [firstNew, secondNew]
    · rw [firstNew, Function.update_self] at firstIs
      rw [Function.update_of_ne secondNew] at secondIs
      cases firstIs
      exact absurd position.symm (new second other secondIs request.symm)
  · rw [Function.update_of_ne firstNew] at firstIs
    by_cases secondNew : second = call
    · rw [secondNew, Function.update_self] at secondIs
      cases secondIs
      exact absurd position (new first one firstIs request)
    · rw [Function.update_of_ne secondNew] at secondIs
      exact stored.once first second one other firstIs secondIs request position

theorem Stored.send (stored : Stored world) (present : world.scrapes request = some scrape)
    (running : scrape.ended = false) (waiting : scrape.insert = none) {item : ScrapedItem}
    (here : scrape.items[scrape.done]? = some item) (idle : world.circuit.calls call = .idle)
    {circuit : CircuitConcurrency.World} (calls : circuit.calls = Function.update world.circuit.calls call .running)
    (scrapedAt : DateTime) :
    Stored ({ world with
      circuit
      writes := Function.update world.writes call (some ⟨request, scrape.done, item, scrapedAt⟩) }.put
      request { scrape with insert := some call }) := by
  have unused : world.writes call = none := stored.fresh call idle
  have other {old : Nat} {write : Write} (written : world.writes old = some write) : old ≠ call := by
    rintro rfl
    rw [unused] at written
    cases written
  have settled {old : Nat} (other : old ≠ call) : circuit.calls old = world.circuit.calls old := by
    rw [calls, Function.update_of_ne other]
  have grows : Grows world ({ world with
      circuit
      writes := Function.update world.writes call (some ⟨request, scrape.done, item, scrapedAt⟩) }.put
      request { scrape with insert := some call }) := by
    refine ⟨fun old write written => ?_, fun _ => id, fun old write written now => .inl ?_⟩
    · exact (Function.update_of_ne (other written) _ _).trans written
    · exact (settled (other written)).symm.trans now
  have good := stored.scrapes request scrape present
  refine ⟨?_, ?_, ?_, ?_, ?_, stored.distinct, ?_⟩
  case refine_1 =>
    intro id own assigned
    simp only [World.put] at assigned
    by_cases same : id = request
    · rw [same, Function.update_self] at assigned
      cases assigned
      rw [same]
      have kept := good.grow grows
      refine ⟨kept.bounded, kept.acknowledged, fun inserted inserts => ?_⟩
      cases inserts
      refine ⟨(List.getElem?_eq_some_iff.mp here).1, ⟨_, Function.update_self _ _ _, rfl, rfl⟩, fun succeeded => ?_⟩
      simp only [World.put, calls, Function.update_self, reduceCtorEq] at succeeded
    · rw [Function.update_of_ne same] at assigned
      exact (stored.scrapes id own assigned).grow grows
  case refine_2 =>
    intro old none
    have apart : old ≠ call := by
      rintro rfl
      simp only [World.put, calls, Function.update_self, reduceCtorEq] at none
    exact (Function.update_of_ne apart _ _).trans (stored.fresh old ((settled apart).symm.trans none))
  case refine_3 =>
    intro old write written
    simp only [World.put] at written ⊢
    by_cases own : old = call
    · rw [own, Function.update_self] at written
      cases written
      exact ⟨_, Function.update_self _ _ _, here, .inr ⟨rfl, congrArg some own.symm⟩⟩
    · rw [Function.update_of_ne own] at written
      by_cases same : write.request = request
      · have earlier := stored.done_le written (same ▸ present) waiting
        obtain ⟨held, found, item', -⟩ := stored.writes old write written
        rw [same, present] at found
        cases found
        rw [same, Function.update_self]
        exact ⟨_, rfl, item', .inl earlier⟩
      · rw [Function.update_of_ne same]
        exact stored.writes old write written
  case refine_4 =>
    exact stored.once_update fun old write written same =>
      (stored.done_le written (same ▸ present) waiting).ne
  case refine_5 => exact fun doc member => grows.writes _ _ (stored.docs doc member)
  case refine_6 => exact stored.answers_put present running

/-- The request is done with its item without having it stored. -/
theorem Scrape.Good.skip (good : scrape.Good world request) (within : scrape.done < scrape.items.length) :
    (scrape.next false).Good world request where
  bounded := within
  acknowledged := by
    obtain ⟨calls, distinct, count, own⟩ := good.acknowledged
    refine ⟨calls, distinct, count, fun call member => ?_⟩
    obtain ⟨write, written, named, earlier, applied⟩ := own call member
    exact ⟨write, written, named, Nat.lt_succ_of_lt earlier, applied⟩
  insert := fun _ inserts => by cases inserts

theorem Scrape.Good.store (good : scrape.Good world request) (inserts : scrape.insert = some call)
    (applied : world.Applied call) : (scrape.next true).Good world request where
  bounded := (good.insert call inserts).1
  acknowledged := by
    obtain ⟨-, ⟨own, written, named, here⟩, -⟩ := good.insert call inserts
    obtain ⟨calls, distinct, count, earlier⟩ := good.acknowledged
    -- The acknowledged writes are for earlier items than this one.
    have new : call ∉ calls := by
      intro member
      obtain ⟨write, old, -, before, -⟩ := earlier call member
      cases old.symm.trans written
      exact absurd here before.ne
    refine ⟨call :: calls, List.nodup_cons.mpr ⟨new, distinct⟩, congrArg Nat.succ count, ?_⟩
    rintro id member
    rcases List.mem_cons.mp member with rfl | member
    · exact ⟨own, written, named, here ▸ Nat.lt_succ_self _, applied⟩
    · obtain ⟨write, old, same, before, held⟩ := earlier id member
      exact ⟨write, old, same, Nat.lt_succ_of_lt before, held⟩
  insert := fun _ inserts => by cases inserts

theorem Scrape.Good.end (good : scrape.Good world request) : { scrape with ended := true }.Good world request :=
  ⟨good.bounded, good.acknowledged, good.insert⟩

/-! ## Steps -/

theorem Stored.apply (stored : Stored world) (written : world.writes call = some write) (new : ¬ world.Applied call) :
    Stored { world with docs := world.docs ++ [(call, write)] } where
  scrapes := fun request scrape present =>
    (stored.scrapes request scrape present).grow
      ⟨fun _ _ => id, fun old applied => by
        simp only [World.Applied, List.map_append, List.mem_append]
        exact .inl applied, fun _ _ _ => .inl⟩
  fresh := stored.fresh
  writes := stored.writes
  once := stored.once
  docs := by
    intro doc member
    rcases List.mem_append.mp member with old | added
    · exact stored.docs doc old
    · cases List.mem_singleton.mp added
      exact written
  distinct := by
    rw [List.map_append, List.map_singleton]
    refine List.nodup_append.mpr ⟨stored.distinct, List.nodup_singleton _, fun old member added single same => ?_⟩
    rw [same, List.mem_singleton.mp single] at member
    exact new member
  answers := stored.answers

theorem Stored.begin (stored : Stored world) (unused : world.scrapes request = none) (source : String)
    (items : List ScrapedItem) : Stored (world.put request ⟨source, items, 0, 0, none, false⟩) where
  scrapes := by
    intro other own assigned
    simp only [World.put] at assigned
    by_cases same : other = request
    · rw [same, Function.update_self] at assigned
      cases assigned
      exact ⟨Nat.zero_le _, ⟨[], List.nodup_nil, rfl, fun _ member => absurd member List.not_mem_nil⟩, nofun⟩
    · rw [Function.update_of_ne same] at assigned
      exact (stored.scrapes other own assigned).grow ⟨fun _ _ => id, fun _ => id, fun _ _ _ => .inl⟩
  fresh := stored.fresh
  writes := by
    intro call write written
    obtain ⟨own, found, rest⟩ := stored.writes call write written
    have apart : write.request ≠ request := by
      rintro rfl
      rw [unused] at found
      cases found
    exact ⟨own, (Function.update_of_ne apart _ _).trans found, rest⟩
  once := stored.once
  docs := stored.docs
  distinct := stored.distinct
  answers := by
    intro other response answered
    obtain ⟨own, found, rest⟩ := stored.answers other response answered
    have apart : other ≠ request := by
      rintro rfl
      rw [unused] at found
      cases found
    exact ⟨own, (Function.update_of_ne apart _ _).trans found, rest⟩

theorem Stored.next (stored : Stored world) (present : world.scrapes request = some scrape)
    (running : scrape.ended = false) {saved : Bool} (good : (scrape.next saved).Good world request) :
    Stored (world.put request (scrape.next saved)) := by
  refine stored.put present running rfl good fun call write written named => .inl ?_
  obtain ⟨own, found, -, place⟩ := stored.writes call write written
  rw [named, present] at found
  cases found
  rcases place with earlier | ⟨here, -⟩
  · exact Nat.lt_succ_of_lt earlier
  · exact here ▸ Nat.lt_succ_self _

theorem Stored.end (stored : Stored world) (present : world.scrapes request = some scrape)
    (running : scrape.ended = false) : Stored (world.put request { scrape with ended := true }) := by
  refine stored.put present running rfl (stored.scrapes request scrape present).end fun call write written named => ?_
  obtain ⟨own, found, -, place⟩ := stored.writes call write written
  rw [named, present] at found
  cases found
  exact place

theorem Stored.answer (stored : Stored world) (present : world.scrapes request = some scrape)
    (ended : scrape.ended = true) (whole : scrape.done = scrape.items.length) :
    Stored { world with answers := Function.update world.answers request (some scrape.response) } where
  scrapes := fun other own present =>
    (stored.scrapes other own present).grow ⟨fun _ _ => id, fun _ => id, fun _ _ _ => .inl⟩
  fresh := stored.fresh
  writes := stored.writes
  once := stored.once
  docs := stored.docs
  distinct := stored.distinct
  answers := by
    intro other response answered
    dsimp only at answered ⊢
    by_cases own : other = request
    · rw [own] at answered ⊢
      rw [Function.update_self] at answered
      cases answered
      exact ⟨scrape, present, ended, whole, rfl⟩
    · rw [Function.update_of_ne own] at answered
      exact stored.answers other response answered

theorem Stored.phase (stored : Stored world) {circuit : CircuitConcurrency.World} {phase : CircuitConcurrency.Phase}
    (calls : circuit.calls = Function.update world.circuit.calls call phase) (started : phase ≠ .idle)
    (applied : phase = .succeeded → world.Applied call) : Stored { world with circuit } := by
  refine stored.breaker (fun old none => ?_) fun old succeeded => ?_
  · rw [calls] at none
    by_cases own : old = call
    · rw [own, Function.update_self] at none
      exact absurd none started
    · rwa [Function.update_of_ne own] at none
  · rw [calls] at succeeded
    by_cases own : old = call
    · rw [own, Function.update_self] at succeeded
      exact .inr (own ▸ applied succeeded)
    · rw [Function.update_of_ne own] at succeeded
      exact .inl succeeded

theorem Stored.step {label : Label} (stored : Stored before) (stepped : machine.step before label = some after) :
    Stored after := by
  cases transition_of_step stepped with
  | connected => exact stored.connection true
  | disconnected => exact stored.connection false
  | begun request source items unused => exact stored.begin unused source items
  | unconnected runs here =>
    have within := (List.getElem?_eq_some_iff.mp here).1
    exact stored.next runs.present runs.running ((stored.scrapes _ _ runs.present).skip within)
  | turnedAway runs here _ calls =>
    have within := (List.getElem?_eq_some_iff.mp here).1
    have gated := stored.phase calls nofun nofun
    exact gated.next runs.present runs.running ((gated.scrapes _ _ runs.present).skip within)
  | sent scrapedAt runs here idle calls =>
    exact stored.send runs.present runs.running runs.insert here idle calls scrapedAt
  | applied written new => exact stored.apply written new
  | settled _ _ calls started acknowledged => exact stored.phase calls started acknowledged
  | interrupted runs calls => exact (stored.phase calls nofun nofun).end runs.present runs.running
  | stored runs succeeded calls =>
    have kept := stored.phase calls nofun nofun
    obtain ⟨-, -, acknowledged⟩ := (stored.scrapes _ _ runs.present).insert _ runs.insert
    have good := (kept.scrapes _ _ runs.present).store runs.insert (acknowledged succeeded)
    exact kept.next runs.present runs.running good
  | skipped runs _ calls =>
    have kept := stored.phase calls nofun nofun
    obtain ⟨within, -⟩ := (stored.scrapes _ _ runs.present).insert _ runs.insert
    exact kept.next runs.present runs.running ((kept.scrapes _ _ runs.present).skip within)
  | abandoned runs calls => exact (stored.phase calls nofun nofun).end runs.present runs.running
  | @answered request scrape runs whole =>
    have all := Nat.le_antisymm (stored.scrapes request scrape runs.present).bounded whole
    have own : (before.put request { scrape with ended := true }).scrapes request =
        some { scrape with ended := true } := Function.update_self _ _ _
    have answered := (stored.end runs.present runs.running).answer own rfl all
    exact answered

theorem stored_run {clock : ℚ} {labels : List Label} (ran : machine.run (.initial clock) labels = some world) :
    Stored world :=
  Machine.invariant_of_step Stored (.initial clock) (fun _ _ _ stored => stored.step) ran

/-! ## What was asked for -/

def Scrape.asked (scrape : Scrape) : String × List ScrapedItem := (scrape.source, scrape.items)

def World.asked (world : World) (request : Nat) : Option (String × List ScrapedItem) :=
  (world.scrapes request).map Scrape.asked

theorem asked_put {next : Scrape} {id : Nat} (present : before.scrapes id = some scrape)
    (put : after.scrapes = Function.update before.scrapes id (some next)) (same : next.asked = scrape.asked) :
    after.asked request = before.asked request := by
  simp only [World.asked, put]
  by_cases own : request = id
  · rw [own, Function.update_self, present, Option.map_some, Option.map_some, same]
  · rw [Function.update_of_ne own]

/-- Only the beginning of a request says what it asks for. -/
theorem asked_step {label : Label} (stepped : machine.step before label = some after)
    (later : ∀ source items, label ≠ .begin request source items) : after.asked request = before.asked request := by
  cases transition_of_step stepped with
  | connected | disconnected | applied | settled => rfl
  | begun id source items =>
    have apart : request ≠ id := by
      rintro rfl
      exact later source items rfl
    exact congrArg (Option.map Scrape.asked) (Function.update_of_ne apart _ _)
  | unconnected runs | turnedAway runs | sent _ runs | interrupted runs | stored runs | skipped runs | abandoned runs
  | answered runs => exact asked_put runs.present rfl rfl

theorem asked_run {clock : ℚ} {labels : List Label} (ran : machine.run (.initial clock) labels = some world)
    (source : String) (items : List ScrapedItem) :
    world.asked request = some (source, items) ↔ .begin request source items ∈ labels := by
  induction labels using List.reverseRecOn generalizing world with
  | nil =>
    cases ran
    exact iff_of_false nofun List.not_mem_nil
  | append_singleton labels label ih =>
    obtain ⟨before, ran, stepped⟩ := Machine.run_concat.mp ran
    have earlier := ih ran
    rw [List.mem_append, List.mem_singleton, ← earlier]
    by_cases begins : ∃ source items, label = .begin request source items
    · obtain ⟨own, scraped, rfl⟩ := begins
      simp only [machine, ScrapeStorage.step] at stepped
      split at stepped
      next => cases stepped
      next unused =>
        cases stepped
        have new : before.asked request = none := by simpa [World.asked] using unused
        have given : (before.put request ⟨own, scraped, 0, 0, none, false⟩).asked request = some (own, scraped) := by
          simp [World.asked, World.put, Scrape.asked]
        rw [new, given]
        simp [eq_comm]
    · have other : ∀ source items, label ≠ .begin request source items :=
        fun own scraped same => begins ⟨own, scraped, same⟩
      rw [asked_step stepped other, or_iff_left (other source items).symm]

/-! ## The documents of a request -/

def World.documents (world : World) (request : Nat) : List (Nat × Write) :=
  world.docs.filter fun doc => doc.2.request = request

def position (doc : Nat × Write) : Nat := doc.2.position

theorem mem_documents {doc : Nat × Write} :
    doc ∈ world.documents request ↔ doc ∈ world.docs ∧ doc.2.request = request := by
  rw [World.documents, List.mem_filter, decide_eq_true_iff]

theorem Stored.positions (stored : Stored world) (request : Nat) :
    ((world.documents request).map position).Nodup := by
  have docs : world.docs.Nodup := stored.distinct.of_map
  apply (docs.filter _).map_on
  intro first one second two same
  obtain ⟨firstIn, firstOwn⟩ := mem_documents.mp one
  obtain ⟨secondIn, secondOwn⟩ := mem_documents.mp two
  have firstWritten := stored.docs first firstIn
  have secondWritten := stored.docs second secondIn
  have call := stored.once _ _ _ _ firstWritten secondWritten (firstOwn.trans secondOwn.symm) same
  rw [call] at firstWritten
  exact Prod.ext call (Option.some.inj (firstWritten.symm.trans secondWritten))

theorem Stored.item (stored : Stored world) (present : world.scrapes request = some scrape) {doc : Nat × Write}
    (member : doc ∈ world.documents request) : scrape.items[position doc]? = some doc.2.item := by
  obtain ⟨inside, own⟩ := mem_documents.mp member
  obtain ⟨held, found, item, -⟩ := stored.writes _ _ (stored.docs doc inside)
  rw [own, present] at found
  cases found
  exact item

theorem Stored.documents_le (stored : Stored world) (present : world.scrapes request = some scrape) :
    (world.documents request).length ≤ scrape.items.length := by
  have range : (world.documents request).map position ⊆ List.range scrape.items.length := by
    intro place member
    obtain ⟨doc, inside, rfl⟩ := List.mem_map.mp member
    exact List.mem_range.mpr (List.getElem?_eq_some_iff.mp (stored.item present inside)).1
  simpa using (List.subperm_of_subset (stored.positions request) range).length_le

theorem Stored.stored_le (stored : Stored world) (present : world.scrapes request = some scrape) :
    scrape.stored ≤ (world.documents request).length := by
  obtain ⟨calls, distinct, count, own⟩ := (stored.scrapes request scrape present).acknowledged
  have inside : calls ⊆ (world.documents request).map Prod.fst := by
    intro call member
    obtain ⟨write, written, named, -, applied⟩ := own call member
    obtain ⟨doc, inside, rfl⟩ := List.mem_map.mp applied
    cases (stored.docs doc inside).symm.trans written
    exact List.mem_map.mpr ⟨doc, mem_documents.mpr ⟨inside, named⟩, rfl⟩
  simpa [count] using (List.subperm_of_subset distinct inside).length_le

/-- After any run, each document holds an item that some request has scraped, and
no item of a request is in two documents. The answer to a request tells how many
items it has scraped, and its event and its answer the same number of stored ones,
which is never more than there are documents. -/
theorem scraped_stored {clock : ℚ} {labels : List Label} {world : World}
    (ran : machine.run (.initial clock) labels = some world) :
    (∀ doc ∈ world.docs, ∃ source items, .begin doc.2.request source items ∈ labels) ∧
    ∀ request source items, .begin request source items ∈ labels →
      (∀ doc ∈ world.documents request, items[position doc]? = some doc.2.item) ∧
      ((world.documents request).map position).Nodup ∧
      ∀ response event, world.answers request = some (response, event) →
        ∃ count ≤ (world.documents request).length, (world.documents request).length ≤ items.length ∧
          response = ⟨source, items.length, count⟩ ∧ event = docScraped source count := by
  have stored := stored_run ran
  constructor
  · intro doc member
    obtain ⟨scrape, present, -⟩ := stored.writes _ _ (stored.docs doc member)
    exact ⟨scrape.source, scrape.items, (asked_run ran _ _).mp (congrArg (Option.map Scrape.asked) present)⟩
  · intro request source items begun
    obtain ⟨scrape, present, asked⟩ := Option.map_eq_some_iff.mp ((asked_run ran source items).mpr begun)
    cases asked
    refine ⟨fun doc => stored.item present, stored.positions request, ?_⟩
    intro response event answered
    obtain ⟨held, found, -, -, same⟩ := stored.answers request _ answered
    cases present.symm.trans found
    cases same
    exact ⟨scrape.stored, stored.stored_le present, stored.documents_le present, rfl, rfl⟩

/-! ## A scrape of two items -/

def midnight : DateTime := ⟨⟨1, 1, 1, by decide⟩, 0, 0, 0, 0, by decide⟩

def twoPosts : List ScrapedItem :=
  [⟨Text.ofString "1", .str [], .str [], "hn"⟩, ⟨Text.ofString "2", .str [], .str [], "hn"⟩]

/-- MongoDB applies the first insert, which then times out. -/
def timedOut : List Label :=
  [.connect, .begin 0 "hn" twoPosts, .insert 0 0 0 midnight, .apply 0, .settle 0 0 (.raised ()), .record 0 0 0,
    .insert 0 1 0 midnight, .apply 1, .settle 0 1 (.returned ()), .record 0 1 0, .answer 0]

/-- Two documents, of which the answer counts one. -/
theorem timedOut_stored : ∃ world, machine.run (.initial 0) timedOut = some world ∧
    (world.answers 0).map Prod.fst = some ⟨"hn", 2, 1⟩ ∧ (world.documents 0).map position = [0, 1] ∧
    ∀ doc ∈ world.documents 0, twoPosts[position doc]? = some doc.2.item := by
  have ends : (machine.run (.initial 0) timedOut).any fun world =>
      (world.answers 0).map Prod.fst = some ⟨"hn", 2, 1⟩ ∧ (world.documents 0).map position = [0, 1] := by
    decide +kernel
  obtain ⟨world, ran, ends⟩ := (Option.any_eq_true _ _).mp ends
  obtain ⟨answered, places⟩ := of_decide_eq_true ends
  have begun : Label.begin 0 "hn" twoPosts ∈ timedOut := by
    rw [timedOut]
    exact List.mem_cons_of_mem _ List.mem_cons_self
  exact ⟨world, ran, answered, places, ((scraped_stored ran).2 0 "hn" twoPosts begun).1⟩

end DataPipeline.Ingestor.ScrapeStorage
