import Mathlib.Algebra.Order.Ring.GeomSum
import Mathlib.Data.List.Nodup
import DataPipeline.Library.Execution

/-! `fetch_with_retry` of `ingestor/fetch.py` and the HTTP clients it runs on, one
for each event loop.

Calls on one loop overlap at their awaits, and loops run in threads of their own.
`close_all_http_clients` is one step for each client that it pops.
-/

set_option autoImplicit false

namespace DataPipeline.Ingestor.Fetch

open Execution

abbrev Loop := Nat

/-- Clients are numbered as they are created. -/
abbrev Client := Nat

inductive Event where
  | requested (call : Nat) (loop : Loop) (client : Client)
  | closing (client : Client)
  deriving DecidableEq

structure Clients where
  /-- `_http_clients` -/
  table : Loop → Option Client
  /-- The loop that each client was created on. -/
  loops : List Loop
  /-- The clients that another thread has told their loop to close. -/
  scheduled : List Client
  log : List Event

namespace Clients

def empty : Clients := ⟨fun _ => none, [], [], []⟩

def getHttpClient (clients : Clients) (loop : Loop) : Clients × Client :=
  match clients.table loop with
  | some client => (clients, client)
  | none =>
    ({ clients with
        table := Function.update clients.table loop (some clients.loops.length)
        loops := clients.loops ++ [loop] }, clients.loops.length)

/-- `close_http_client`, up to where `aclose` waits. -/
def closeHttpClient (clients : Clients) (loop : Loop) : Clients :=
  match clients.table loop with
  | none => clients
  | some client =>
    { clients with table := Function.update clients.table loop none, log := clients.log ++ [.closing client] }

/-- `close_all_http_clients` comes to a loop: `elsewhere` if this loop runs in another thread. -/
def closeOne (clients : Clients) (loop : Loop) (elsewhere : Bool) : Clients :=
  if elsewhere then
    match clients.table loop with
    | none => clients
    | some client =>
      { clients with table := Function.update clients.table loop none, scheduled := clients.scheduled ++ [client] }
  else clients.closeHttpClient loop

/-- The loop of the client runs the `aclose` that it has been told. -/
def close (clients : Clients) (client : Client) : Option Clients :=
  if client ∈ clients.scheduled then
    some { clients with scheduled := clients.scheduled.erase client, log := clients.log ++ [.closing client] }
  else none

end Clients

variable {Body Error : Type}

inductive Failure (Error : Type) where
  | simulated
  | upstream (error : Error)
  | unknown

inductive Phase (Body Error : Type) where
  | ready
  | requesting
  | sleeping
  | returned (body : Body)
  | raised (failure : Failure Error)
  | cancelled

structure Call (Body Error : Type) where
  loop : Loop
  maxRetries : Nat
  simulateFailures : Bool
  /-- The exceptions so far, as many as there were attempts. -/
  failures : List (Failure Error)
  /-- The seconds that the call has asked to sleep. -/
  slept : Nat
  phase : Phase Body Error

def Call.begin (loop : Loop) (maxRetries : Nat) (simulateFailures : Bool) : Call Body Error :=
  ⟨loop, maxRetries, simulateFailures, [], 0, if maxRetries = 0 then .raised .unknown else .ready⟩

def Call.fail (call : Call Body Error) (failure : Failure Error) : Call Body Error :=
  let attempt := call.failures.length
  let failed := { call with failures := call.failures ++ [failure] }
  if attempt < call.maxRetries - 1 then { failed with slept := call.slept + 2 ^ attempt, phase := .sleeping }
  else { failed with phase := .raised failure }

structure World (Body Error : Type) where
  clients : Clients
  calls : Nat → Option (Call Body Error)

def World.initial : World Body Error := ⟨.empty, fun _ => none⟩

def World.put (world : World Body Error) (id : Nat) (call : Call Body Error) : World Body Error :=
  { world with calls := Function.update world.calls id (some call) }

inductive Label (Body Error : Type) where
  | begin (id : Nat) (loop : Loop) (maxRetries : Nat) (simulateFailures : Bool)
  /-- `random.random() < 0.1` -/
  | simulate (id : Nat)
  | request (id : Nat)
  | answer (id : Nat) (outcome : Outcome Body Error)
  | wake (id : Nat)
  /-- Cancelled while it sleeps. -/
  | interrupt (id : Nat)
  | closeHttpClient (loop : Loop)
  | closeOne (loop : Loop) (elsewhere : Bool)
  | close (client : Client)

def Phase.isReady : Phase Body Error → Bool
  | .ready => true
  | _ => false

def Phase.isRequesting : Phase Body Error → Bool
  | .requesting => true
  | _ => false

def Phase.isSleeping : Phase Body Error → Bool
  | .sleeping => true
  | _ => false

def Call.answer (call : Call Body Error) : Outcome Body Error → Call Body Error
  | .returned body => { call with phase := .returned body }
  | .raised error => call.fail (.upstream error)
  -- `except Exception` lets a cancellation through.
  | .cancelled => { call with phase := .cancelled }

def step (world : World Body Error) : Label Body Error → Option (World Body Error)
  | .begin id loop maxRetries simulateFailures =>
    if (world.calls id).isSome then none else some (world.put id (.begin loop maxRetries simulateFailures))
  | .simulate id =>
    (world.calls id).bind fun call =>
      if call.phase.isReady ∧ call.simulateFailures then some (world.put id (call.fail .simulated)) else none
  | .request id =>
    (world.calls id).bind fun call =>
      if call.phase.isReady then
        let found := world.clients.getHttpClient call.loop
        some ({ world with
            clients := { found.1 with log := found.1.log ++ [Event.requested id call.loop found.2] } }.put id
          { call with phase := .requesting })
      else none
  | .answer id outcome =>
    (world.calls id).bind fun call => if call.phase.isRequesting then some (world.put id (call.answer outcome)) else none
  | .wake id =>
    (world.calls id).bind fun call =>
      if call.phase.isSleeping then some (world.put id { call with phase := .ready }) else none
  | .interrupt id =>
    (world.calls id).bind fun call =>
      if call.phase.isSleeping then some (world.put id { call with phase := .cancelled }) else none
  | .closeHttpClient loop => some { world with clients := world.clients.closeHttpClient loop }
  | .closeOne loop elsewhere => some { world with clients := world.clients.closeOne loop elsewhere }
  | .close client => (world.clients.close client).map fun clients => { world with clients }

def machine (Body Error : Type) : Machine (World Body Error) (Label Body Error) := ⟨step⟩

/-! ## The clients -/

/-- What may come after an event: a client whose closing has begun is neither used nor closed again. -/
def Event.Before (earlier later : Event) : Prop :=
  ∀ client, earlier = .closing client → later ≠ .closing client ∧ ∀ call loop, later ≠ .requested call loop client

/-- Every client is in the table, or about to be closed, or closed. -/
structure Clients.Sound (clients : Clients) : Prop where
  owned : ∀ loop client, clients.table loop = some client → clients.loops[client]? = some loop
  usable : ∀ loop client, clients.table loop = some client → client ∉ clients.scheduled ∧ .closing client ∉ clients.log
  scheduled : ∀ client ∈ clients.scheduled, client < clients.loops.length ∧ .closing client ∉ clients.log
  once : clients.scheduled.Nodup
  closing : ∀ client, .closing client ∈ clients.log → client < clients.loops.length
  order : clients.log.Pairwise Event.Before
  requested : ∀ call loop client, .requested call loop client ∈ clients.log → clients.loops[client]? = some loop
  kept : ∀ client loop, clients.loops[client]? = some loop →
    clients.table loop = some client ∨ client ∈ clients.scheduled ∨ .closing client ∈ clients.log

namespace Clients

variable {clients : Clients} {loop : Loop} {client : Client}

theorem Sound.empty : Sound .empty where
  owned := fun _ _ present => by cases present
  usable := fun _ _ present => by cases present
  scheduled := fun _ member => absurd member List.not_mem_nil
  once := List.nodup_nil
  closing := fun _ member => absurd member List.not_mem_nil
  order := .nil
  requested := fun _ _ _ member => absurd member List.not_mem_nil
  kept := fun _ _ found => by cases found

theorem Sound.fresh (sound : clients.Sound) :
    clients.loops.length ∉ clients.scheduled ∧ .closing clients.loops.length ∉ clients.log :=
  ⟨fun member => absurd (sound.scheduled _ member).1 (Nat.lt_irrefl _),
    fun member => absurd (sound.closing _ member) (Nat.lt_irrefl _)⟩

theorem getElem?_snoc_of_some {loops : List Loop} {found : Loop} (present : loops[client]? = some found) :
    (loops ++ [loop])[client]? = some found := by
  rw [List.getElem?_append_left (List.getElem?_eq_some_iff.mp present).1]
  exact present

theorem Sound.created (sound : clients.Sound) (absent : clients.table loop = none) :
    Sound { clients with
      table := Function.update clients.table loop (some clients.loops.length)
      loops := clients.loops ++ [loop] } where
  owned := by
    intro other client present
    dsimp only at present ⊢
    by_cases own : other = loop
    · rw [own, Function.update_self] at present
      cases present
      rw [own, List.getElem?_concat_length]
    · rw [Function.update_of_ne own] at present
      exact getElem?_snoc_of_some (sound.owned other client present)
  usable := by
    intro other client present
    dsimp only at present ⊢
    by_cases own : other = loop
    · rw [own, Function.update_self] at present
      cases present
      exact sound.fresh
    · rw [Function.update_of_ne own] at present
      exact sound.usable other client present
  scheduled := by
    intro client member
    obtain ⟨inside, closing⟩ := sound.scheduled client member
    rw [List.length_append]
    exact ⟨Nat.lt_add_right _ inside, closing⟩
  once := sound.once
  closing := by
    intro client member
    rw [List.length_append]
    exact Nat.lt_add_right _ (sound.closing client member)
  order := sound.order
  requested := fun call other client member => getElem?_snoc_of_some (sound.requested call other client member)
  kept := by
    intro client other found
    dsimp only at found ⊢
    rw [List.getElem?_append] at found
    split at found
    next =>
      rcases sound.kept client other found with present | elsewhere
      · have apart : other ≠ loop := by
          rintro rfl
          rw [absent] at present
          cases present
        exact .inl ((Function.update_of_ne apart _ _).trans present)
      · exact .inr elsewhere
    next beyond =>
      rw [List.getElem?_singleton] at found
      split at found
      next first =>
        cases found
        have last : client = clients.loops.length :=
          Nat.le_antisymm (Nat.sub_eq_zero_iff_le.mp first) (Nat.not_lt.mp beyond)
        rw [last, Function.update_self]
        exact .inl rfl
      next => cases found

theorem Sound.get (sound : clients.Sound) (loop : Loop) :
    (clients.getHttpClient loop).1.Sound ∧
      (clients.getHttpClient loop).1.table loop = some (clients.getHttpClient loop).2 := by
  unfold getHttpClient
  split
  next present => exact ⟨sound, present⟩
  next absent => exact ⟨sound.created absent, Function.update_self _ _ _⟩

theorem Sound.request (sound : clients.Sound) (present : clients.table loop = some client) (call : Nat) :
    Sound { clients with log := clients.log ++ [.requested call loop client] } where
  owned := sound.owned
  usable := by
    intro other found own
    obtain ⟨waiting, closing⟩ := sound.usable other found own
    exact ⟨waiting, by simp [closing]⟩
  scheduled := by
    intro found member
    obtain ⟨inside, closing⟩ := sound.scheduled found member
    exact ⟨inside, by simp [closing]⟩
  once := sound.once
  closing := fun found member => sound.closing found (by simpa using member)
  order := by
    refine List.pairwise_append.mpr ⟨sound.order, List.pairwise_singleton _ _, ?_⟩
    intro earlier member later single found same
    cases List.mem_singleton.mp single
    refine ⟨nofun, ?_⟩
    rintro _ _ ⟨⟩
    -- The client in the table has not been closed.
    exact (sound.usable loop client present).2 (same ▸ member)
  requested := by
    intro other on found member
    rcases List.mem_append.mp member with old | new
    · exact sound.requested other on found old
    · cases List.mem_singleton.mp new
      exact sound.owned loop client present
  kept := by
    intro found other created
    rcases sound.kept found other created with inside | waiting | closing
    · exact .inl inside
    · exact .inr (.inl waiting)
    · exact .inr (.inr (List.mem_append_left _ closing))

theorem Sound.closing_order (sound : clients.Sound) (unclosed : Event.closing client ∉ clients.log) :
    (clients.log ++ [Event.closing client]).Pairwise Event.Before := by
  refine List.pairwise_append.mpr ⟨sound.order, List.pairwise_singleton _ _, ?_⟩
  intro earlier member later single found same
  cases List.mem_singleton.mp single
  refine ⟨fun again => ?_, fun _ _ => nofun⟩
  cases again
  exact unclosed (same ▸ member)

theorem Sound.others (sound : clients.Sound) (present : clients.table loop = some client) {other : Loop}
    {found : Client} (inside : Function.update clients.table loop none other = some found) :
    clients.table other = some found ∧ found ≠ client := by
  by_cases own : other = loop
  · rw [own, Function.update_self] at inside
    cases inside
  · rw [Function.update_of_ne own] at inside
    refine ⟨inside, ?_⟩
    rintro rfl
    exact own (Option.some.inj ((sound.owned other _ inside).symm.trans (sound.owned loop _ present)))

theorem Sound.kept_others (sound : clients.Sound) (present : clients.table loop = some client) {found : Client}
    {other : Loop} (created : clients.loops[found]? = some other) :
    found = client ∨ Function.update clients.table loop none other = some found ∨ found ∈ clients.scheduled ∨
      .closing found ∈ clients.log := by
  rcases sound.kept found other created with inside | elsewhere
  · by_cases own : other = loop
    · rw [own, present] at inside
      exact .inl (Option.some.inj inside).symm
    · exact .inr (.inl ((Function.update_of_ne own _ _).trans inside))
  · exact .inr (.inr elsewhere)

theorem Sound.popped (sound : clients.Sound) (present : clients.table loop = some client) :
    Sound { clients with table := Function.update clients.table loop none, log := clients.log ++ [.closing client] } where
  owned := fun other found inside => sound.owned other found (sound.others present inside).1
  usable := by
    intro other found inside
    obtain ⟨inside, different⟩ := sound.others present inside
    obtain ⟨waiting, closing⟩ := sound.usable other found inside
    exact ⟨waiting, by simp [closing, different]⟩
  scheduled := by
    intro found member
    obtain ⟨inside, closing⟩ := sound.scheduled found member
    refine ⟨inside, ?_⟩
    have different : found ≠ client := by
      rintro rfl
      exact (sound.usable loop _ present).1 member
    simp [closing, different]
  once := sound.once
  closing := by
    intro found member
    rcases List.mem_append.mp member with old | new
    · exact sound.closing found old
    · cases List.mem_singleton.mp new
      exact (List.getElem?_eq_some_iff.mp (sound.owned loop _ present)).1
  order := sound.closing_order (sound.usable loop client present).2
  requested := fun call other found member => sound.requested call other found (by simpa using member)
  kept := by
    intro found other created
    rcases sound.kept_others present created with same | inside | waiting | closing
    · exact .inr (.inr (by simp [same]))
    · exact .inl inside
    · exact .inr (.inl waiting)
    · exact .inr (.inr (List.mem_append_left _ closing))

theorem Sound.handed (sound : clients.Sound) (present : clients.table loop = some client) :
    Sound { clients with
      table := Function.update clients.table loop none
      scheduled := clients.scheduled ++ [client] } where
  owned := fun other found inside => sound.owned other found (sound.others present inside).1
  usable := by
    intro other found inside
    obtain ⟨inside, different⟩ := sound.others present inside
    obtain ⟨waiting, closing⟩ := sound.usable other found inside
    exact ⟨by simp [waiting, different], closing⟩
  scheduled := by
    intro found member
    rcases List.mem_append.mp member with old | new
    · exact sound.scheduled found old
    · cases List.mem_singleton.mp new
      exact ⟨(List.getElem?_eq_some_iff.mp (sound.owned loop _ present)).1, (sound.usable loop _ present).2⟩
  once := by
    refine List.nodup_append.mpr ⟨sound.once, List.nodup_singleton _, fun found member other single same => ?_⟩
    rw [same, List.mem_singleton.mp single] at member
    exact (sound.usable loop client present).1 member
  closing := sound.closing
  order := sound.order
  requested := sound.requested
  kept := by
    intro found other created
    rcases sound.kept_others present created with same | inside | waiting | closing
    · exact .inr (.inl (by simp [same]))
    · exact .inl inside
    · exact .inr (.inl (List.mem_append_left _ waiting))
    · exact .inr (.inr closing)

theorem Sound.closeHttpClient (sound : clients.Sound) (loop : Loop) : (clients.closeHttpClient loop).Sound := by
  unfold Clients.closeHttpClient
  split
  next => exact sound
  next present => exact sound.popped present

theorem Sound.closeOne (sound : clients.Sound) (loop : Loop) (elsewhere : Bool) :
    (clients.closeOne loop elsewhere).Sound := by
  unfold Clients.closeOne
  split
  next =>
    split
    next => exact sound
    next present => exact sound.handed present
  next => exact sound.closeHttpClient loop

theorem Sound.close {after : Clients} (sound : clients.Sound) (closed : clients.close client = some after) :
    after.Sound := by
  unfold Clients.close at closed
  split at closed
  next member =>
    cases closed
    obtain ⟨inside, unclosed⟩ := sound.scheduled client member
    refine ⟨sound.owned, ?_, ?_, sound.once.erase client, ?_, sound.closing_order unclosed, ?_, ?_⟩
    case refine_1 =>
      intro loop found present
      obtain ⟨waiting, closing⟩ := sound.usable loop found present
      have different : found ≠ client := by
        rintro rfl
        exact waiting member
      exact ⟨fun still => waiting (List.mem_of_mem_erase still), by simp [closing, different]⟩
    case refine_2 =>
      intro found still
      obtain ⟨inside, closing⟩ := sound.scheduled found (List.mem_of_mem_erase still)
      have different : found ≠ client := by
        rintro rfl
        exact sound.once.not_mem_erase still
      exact ⟨inside, by simp [closing, different]⟩
    case refine_3 =>
      intro found member
      rcases List.mem_append.mp member with old | new
      · exact sound.closing found old
      · cases List.mem_singleton.mp new
        exact inside
    case refine_4 => exact fun call other found member => sound.requested call other found (by simpa using member)
    case refine_5 =>
      intro found loop created
      rcases sound.kept found loop created with present | waiting | closing
      · exact .inl present
      · by_cases same : found = client
        · exact .inr (.inr (by simp [same]))
        · exact .inr (.inl ((List.mem_erase_of_ne same).mpr waiting))
      · exact .inr (.inr (List.mem_append_left _ closing))
  next => cases closed

end Clients

/-! ## The calls -/

def Phase.attempting : Phase Body Error → Nat
  | .requesting | .returned _ | .cancelled => 1
  | .ready | .sleeping | .raised _ => 0

theorem Phase.attempting_le (phase : Phase Body Error) : phase.attempting ≤ 1 := by
  cases phase with
  | requesting | returned | cancelled => exact Nat.le_refl _
  | ready | sleeping | raised => exact Nat.zero_le _

def Event.isOf (id : Nat) : Event → Bool
  | .requested call _ _ => call = id
  | .closing _ => false

def requestsOf (id : Nat) (log : List Event) : Nat := log.countP (Event.isOf id)

/-- A call sleeps one second, two, four and so on between its attempts, and
raises what the last of them has raised. -/
structure Call.Good (call : Call Body Error) : Prop where
  slept : call.slept = 2 ^ min call.failures.length (call.maxRetries - 1) - 1
  within : (∀ failure, call.phase ≠ .raised failure) → call.failures.length < call.maxRetries
  raised : ∀ failure, call.phase = .raised failure →
    call.maxRetries = 0 ∧ call.failures = [] ∧ failure = .unknown ∨
      call.failures.length = call.maxRetries ∧ call.failures.getLast? = some failure

namespace Call

variable {call : Call Body Error}

theorem Good.begin (loop : Loop) (maxRetries : Nat) (simulateFailures : Bool) :
    (Call.begin loop maxRetries simulateFailures : Call Body Error).Good where
  slept := by simp [Call.begin]
  within := by
    intro pending
    dsimp only [Call.begin] at pending ⊢
    split at pending
    next => exact absurd rfl (pending .unknown)
    next some => exact Nat.pos_of_ne_zero some
  raised := by
    intro failure raised
    dsimp only [Call.begin] at raised
    split at raised
    next none =>
      cases raised
      exact .inl ⟨none, rfl, rfl⟩
    next => cases raised

theorem Good.continue (good : call.Good) (within : call.failures.length < call.maxRetries) {phase : Phase Body Error}
    (pending : ∀ failure, phase ≠ .raised failure) : Good { call with phase } where
  slept := good.slept
  within := fun _ => within
  raised := fun failure raised => absurd raised (pending failure)

theorem Good.attempts_le (good : call.Good) : call.failures.length + call.phase.attempting ≤ call.maxRetries := by
  by_cases ended : ∃ failure, call.phase = .raised failure
  · obtain ⟨failure, raised⟩ := ended
    rw [raised]
    rcases good.raised failure raised with ⟨-, none, -⟩ | ⟨every, -⟩
    · rw [none]
      exact Nat.zero_le _
    · exact Nat.le_of_eq every
  · have within := good.within fun failure raised => ended ⟨failure, raised⟩
    exact Nat.le_trans (Nat.add_le_add_left call.phase.attempting_le _) within

theorem Good.fail (good : call.Good) (within : call.failures.length < call.maxRetries) (failure : Failure Error) :
    (call.fail failure).Good := by
  unfold Call.fail
  dsimp only
  split
  next more =>
    refine ⟨?_, fun _ => ?_, nofun⟩
    · -- The sleeps so far and the next one double.
      have before : min call.failures.length (call.maxRetries - 1) = call.failures.length := Nat.min_eq_left (Nat.le_of_lt more)
      have after : min (call.failures ++ [failure]).length (call.maxRetries - 1) = call.failures.length + 1 := by
        rw [List.length_append, List.length_singleton]
        exact Nat.min_eq_left more
      have power : 2 ^ (call.failures.length + 1) = 2 ^ call.failures.length + 2 ^ call.failures.length := by
        rw [Nat.pow_succ, Nat.mul_two]
      have positive : 0 < 2 ^ call.failures.length := Nat.two_pow_pos _
      dsimp only
      rw [after, good.slept, before, power]
      omega
    · dsimp only
      rw [List.length_append, List.length_singleton]
      omega
  next last =>
    have every : call.failures.length + 1 = call.maxRetries := by omega
    refine ⟨?_, fun pending => absurd rfl (pending failure), ?_⟩
    · have before : min call.failures.length (call.maxRetries - 1) = call.maxRetries - 1 := by omega
      have after : min (call.failures ++ [failure]).length (call.maxRetries - 1) = call.maxRetries - 1 := by
        rw [List.length_append, List.length_singleton]
        omega
      dsimp only
      rw [after, good.slept, before]
    · rintro other ⟨⟩
      exact .inr ⟨by rw [List.length_append, List.length_singleton, every], List.getLast?_concat⟩

end Call

/-! ## Calls and clients -/

structure World.Sound (world : World Body Error) : Prop where
  clients : world.clients.Sound
  calls : ∀ id call, world.calls id = some call →
    call.Good ∧ requestsOf id world.clients.log ≤ call.failures.length + call.phase.attempting
  made : ∀ id loop client, .requested id loop client ∈ world.clients.log →
    ∃ call, world.calls id = some call ∧ call.loop = loop

variable {before after world : World Body Error} {id : Nat} {call next : Call Body Error}

theorem World.Sound.initial : (World.initial : World Body Error).Sound where
  clients := .empty
  calls := fun _ _ present => by cases present
  made := fun _ _ _ member => absurd member List.not_mem_nil

theorem World.Sound.put (sound : world.Sound) (present : world.calls id = some call) (loop : next.loop = call.loop)
    (good : next.Good) (attempts : call.failures.length + call.phase.attempting ≤
      next.failures.length + next.phase.attempting) : (world.put id next).Sound where
  clients := sound.clients
  calls := by
    intro other found assigned
    simp only [World.put] at assigned
    by_cases own : other = id
    · rw [own, Function.update_self] at assigned
      cases assigned
      rw [own]
      exact ⟨good, Nat.le_trans (sound.calls id call present).2 attempts⟩
    · rw [Function.update_of_ne own] at assigned
      exact sound.calls other found assigned
  made := by
    intro other on client member
    obtain ⟨found, known, same⟩ := sound.made other on client member
    simp only [World.put]
    by_cases own : other = id
    · rw [own] at known ⊢
      cases present.symm.trans known
      exact ⟨next, Function.update_self _ _ _, loop.trans same⟩
    · exact ⟨found, (Function.update_of_ne own _ _).trans known, same⟩

theorem World.Sound.withClients (sound : world.Sound) {clients : Clients} (good : clients.Sound)
    (same : ∀ id, requestsOf id clients.log = requestsOf id world.clients.log)
    (old : ∀ id loop client, .requested id loop client ∈ clients.log → .requested id loop client ∈ world.clients.log) :
    ({ world with clients } : World Body Error).Sound where
  clients := good
  calls := by
    intro other found present
    dsimp only
    rw [same]
    exact sound.calls other found present
  made := fun other loop client member => sound.made other loop client (old other loop client member)

theorem closeHttpClient_log (clients : Clients) (loop : Loop) :
    (clients.closeHttpClient loop).log = clients.log ∨
      ∃ client, (clients.closeHttpClient loop).log = clients.log ++ [.closing client] := by
  unfold Clients.closeHttpClient
  split
  next => exact .inl rfl
  next client _ => exact .inr ⟨client, rfl⟩

theorem requestsOf_closing (id : Nat) (log : List Event) (client : Client) :
    requestsOf id (log ++ [.closing client]) = requestsOf id log := by
  rw [requestsOf, List.countP_append]
  rfl

theorem World.Sound.closed (sound : world.Sound) {clients : Clients} (good : clients.Sound)
    (log : clients.log = world.clients.log ∨ ∃ client, clients.log = world.clients.log ++ [.closing client]) :
    ({ world with clients } : World Body Error).Sound := by
  rcases log with same | ⟨client, closes⟩
  · exact sound.withClients good (fun id => by rw [same]) fun _ _ _ member => same ▸ member
  · refine sound.withClients good (fun id => by rw [closes, requestsOf_closing]) fun id loop found member => ?_
    rw [closes] at member
    simpa using member

theorem World.Sound.begin (sound : world.Sound) (unused : world.calls id = none) (fresh : next.Good) :
    (world.put id next).Sound where
  clients := sound.clients
  calls := by
    intro other found assigned
    simp only [World.put] at assigned
    by_cases own : other = id
    · rw [own, Function.update_self] at assigned
      cases assigned
      -- No request has been made for a call that has not begun.
      have none : requestsOf other world.clients.log = 0 := by
        refine List.countP_eq_zero.mpr fun event member => ?_
        cases event with
        | closing client => exact Bool.false_ne_true
        | requested earlier loop client =>
          obtain ⟨call, known, -⟩ := sound.made earlier loop client member
          have apart : earlier ≠ other := by
            rintro rfl
            rw [own, unused] at known
            cases known
          simpa [Event.isOf] using apart
      exact ⟨fresh, none ▸ Nat.zero_le _⟩
    · rw [Function.update_of_ne own] at assigned
      exact sound.calls other found assigned
  made := by
    intro other on client member
    obtain ⟨found, known, same⟩ := sound.made other on client member
    have apart : other ≠ id := by
      rintro rfl
      rw [unused] at known
      cases known
    exact ⟨found, (Function.update_of_ne apart _ _).trans known, same⟩

/-- A ready call takes the client of its loop and makes a request with it. -/
theorem World.Sound.request (sound : world.Sound) (present : world.calls id = some call)
    (ready : call.phase.attempting = 0) (within : call.failures.length < call.maxRetries) :
    ({ world with clients := { (world.clients.getHttpClient call.loop).1 with
        log := (world.clients.getHttpClient call.loop).1.log ++
          [Event.requested id call.loop (world.clients.getHttpClient call.loop).2] } }.put id
      { call with phase := .requesting }).Sound := by
  obtain ⟨got, holds⟩ := sound.clients.get call.loop
  have log : (world.clients.getHttpClient call.loop).1.log = world.clients.log := by
    unfold Clients.getHttpClient
    split <;> rfl
  generalize world.clients.getHttpClient call.loop = found at got holds log
  obtain ⟨clients, client⟩ := found
  dsimp only at got holds log ⊢
  have count (other : Nat) : requestsOf other (clients.log ++ [.requested id call.loop client]) =
      requestsOf other world.clients.log + if id = other then 1 else 0 := by
    rw [requestsOf, List.countP_append, log]
    simp [requestsOf, Event.isOf, List.countP_singleton]
  refine ⟨got.request holds id, ?_, ?_⟩
  · intro other found assigned
    simp only [World.put] at assigned ⊢
    rw [count]
    by_cases own : other = id
    · rw [own, Function.update_self] at assigned
      cases assigned
      obtain ⟨good, made⟩ := sound.calls id call present
      rw [ready] at made
      rw [own, if_pos rfl]
      exact ⟨good.continue within nofun, Nat.add_le_add_right made 1⟩
    · rw [Function.update_of_ne own] at assigned
      rw [if_neg (Ne.symm own), Nat.add_zero]
      exact sound.calls other found assigned
  · intro other on used member
    simp only [World.put] at member ⊢
    rcases List.mem_append.mp member with old | new
    · obtain ⟨known, seen, same⟩ := sound.made other on used (log ▸ old)
      by_cases own : other = id
      · rw [own] at seen ⊢
        cases present.symm.trans seen
        exact ⟨_, Function.update_self _ _ _, same⟩
      · exact ⟨known, (Function.update_of_ne own _ _).trans seen, same⟩
    · cases List.mem_singleton.mp new
      exact ⟨_, Function.update_self _ _ _, rfl⟩

theorem Phase.ready_of {phase : Phase Body Error} (ready : phase.isReady = true) : phase = .ready := by
  cases phase with
  | ready => rfl
  | requesting | sleeping | returned | raised | cancelled => cases ready

theorem Phase.requesting_of {phase : Phase Body Error} (requesting : phase.isRequesting = true) :
    phase = .requesting := by
  cases phase with
  | requesting => rfl
  | ready | sleeping | returned | raised | cancelled => cases requesting

theorem Phase.sleeping_of {phase : Phase Body Error} (sleeping : phase.isSleeping = true) : phase = .sleeping := by
  cases phase with
  | sleeping => rfl
  | ready | requesting | returned | raised | cancelled => cases sleeping

theorem Call.attempts_fail (call : Call Body Error) (failure : Failure Error) :
    call.failures.length + call.phase.attempting ≤
      (call.fail failure).failures.length + (call.fail failure).phase.attempting := by
  have length : (call.fail failure).failures.length = call.failures.length + 1 := by
    unfold Call.fail
    dsimp only
    split <;> simp
  have one := call.phase.attempting_le
  omega

theorem World.Sound.fail (sound : world.Sound) (present : world.calls id = some call)
    (within : call.failures.length < call.maxRetries) (failure : Failure Error) :
    (world.put id (call.fail failure)).Sound := by
  refine sound.put present ?_ ((sound.calls id call present).1.fail within failure) (call.attempts_fail failure)
  unfold Call.fail
  dsimp only
  split <;> rfl

theorem World.Sound.continue (sound : world.Sound) (present : world.calls id = some call) {phase : Phase Body Error}
    (within : call.failures.length < call.maxRetries) (attempts : call.phase.attempting ≤ phase.attempting)
    (pending : ∀ failure, phase ≠ .raised failure) : (world.put id { call with phase }).Sound :=
  sound.put present rfl ((sound.calls id call present).1.continue within pending) (Nat.add_le_add_left attempts _)

theorem World.Sound.step {label : Label Body Error} (sound : before.Sound)
    (stepped : (machine Body Error).step before label = some after) : after.Sound := by
  cases label with
  | begin id loop maxRetries simulateFailures =>
    simp only [machine, Fetch.step] at stepped
    split at stepped
    next => cases stepped
    next unused =>
      cases stepped
      exact sound.begin (by simpa using unused) (.begin loop maxRetries simulateFailures)
  | simulate id =>
    obtain ⟨call, present, stepped⟩ := Option.bind_eq_some_iff.mp stepped
    split at stepped
    next ready =>
      cases stepped
      have pending := Phase.ready_of ready.1
      exact sound.fail present ((sound.calls id call present).1.within (by rw [pending]; exact nofun)) .simulated
    next => cases stepped
  | request id =>
    obtain ⟨call, present, stepped⟩ := Option.bind_eq_some_iff.mp stepped
    split at stepped
    next ready =>
      cases stepped
      have pending := Phase.ready_of ready
      have within := (sound.calls id call present).1.within (by rw [pending]; exact nofun)
      exact sound.request present (by rw [pending]; rfl) within
    next => cases stepped
  | answer id outcome =>
    obtain ⟨call, present, stepped⟩ := Option.bind_eq_some_iff.mp stepped
    split at stepped
    next requesting =>
      cases stepped
      have pending := Phase.requesting_of requesting
      have within := (sound.calls id call present).1.within (by rw [pending]; exact nofun)
      cases outcome with
      | returned body => exact sound.continue present within call.phase.attempting_le nofun
      | raised error => exact sound.fail present within (.upstream error)
      | cancelled => exact sound.continue present within call.phase.attempting_le nofun
    next => cases stepped
  | wake id =>
    obtain ⟨call, present, stepped⟩ := Option.bind_eq_some_iff.mp stepped
    split at stepped
    next sleeping =>
      cases stepped
      have pending := Phase.sleeping_of sleeping
      have within := (sound.calls id call present).1.within (by rw [pending]; exact nofun)
      exact sound.continue present within (by rw [pending]; exact Nat.le_refl _) nofun
    next => cases stepped
  | interrupt id =>
    obtain ⟨call, present, stepped⟩ := Option.bind_eq_some_iff.mp stepped
    split at stepped
    next sleeping =>
      cases stepped
      have pending := Phase.sleeping_of sleeping
      have within := (sound.calls id call present).1.within (by rw [pending]; exact nofun)
      exact sound.continue present within call.phase.attempting_le nofun
    next => cases stepped
  | closeHttpClient loop =>
    cases stepped
    exact sound.closed (sound.clients.closeHttpClient loop) (closeHttpClient_log before.clients loop)
  | closeOne loop elsewhere =>
    cases stepped
    refine sound.closed (sound.clients.closeOne loop elsewhere) ?_
    unfold Clients.closeOne
    split
    next =>
      split
      next => exact .inl rfl
      next => exact .inl rfl
    next => exact closeHttpClient_log before.clients loop
  | close client =>
    obtain ⟨clients, closed, rfl⟩ := Option.map_eq_some_iff.mp stepped
    refine sound.closed (sound.clients.close closed) ?_
    unfold Clients.close at closed
    split at closed
    next =>
      cases closed
      exact .inr ⟨client, rfl⟩
    next => cases closed

/-- After any run: a request is made with a client of the loop of its call, never
with one whose closing has begun, and no client is closed twice. Every client is
in use by its loop, about to be closed, or closed. A call makes at most
`max_retries` requests, sleeps 1 + 2 + 4 + ... seconds in all, one summand for
each exception but the last, and raises only when its attempts are used up, what
the last of them has raised. -/
theorem fetches (labels : List (Label Body Error)) {world : World Body Error}
    (ran : (machine Body Error).run .initial labels = some world) :
    (world.clients.log.Pairwise Event.Before ∧
      (∀ id loop client, .requested id loop client ∈ world.clients.log → world.clients.loops[client]? = some loop ∧
        ∃ call, world.calls id = some call ∧ call.loop = loop) ∧
      ∀ client loop, world.clients.loops[client]? = some loop → world.clients.table loop = some client ∨
        client ∈ world.clients.scheduled ∨ .closing client ∈ world.clients.log) ∧
    ∀ id call, world.calls id = some call →
      requestsOf id world.clients.log ≤ call.maxRetries ∧
        call.slept = ∑ attempt ∈ Finset.range (min call.failures.length (call.maxRetries - 1)), 2 ^ attempt ∧
        ∀ failure, call.phase = .raised failure → call.maxRetries = 0 ∧ failure = .unknown ∨
          call.failures.length = call.maxRetries ∧ call.failures.getLast? = some failure := by
  have sound : world.Sound := Machine.invariant_of_step _ .initial (fun _ _ _ sound => sound.step) ran
  refine ⟨⟨sound.clients.order, fun id loop client member => ?_, sound.clients.kept⟩, fun id call present => ?_⟩
  · exact ⟨sound.clients.requested id loop client member, sound.made id loop client member⟩
  · obtain ⟨good, made⟩ := sound.calls id call present
    refine ⟨?_, ?_, fun failure raised => ?_⟩
    · exact Nat.le_trans made good.attempts_le
    · rw [good.slept, Nat.geomSum_eq (Nat.le_refl 2), Nat.div_one]
    · rcases good.raised failure raised with ⟨none, -, unknown⟩ | every
      · exact .inl ⟨none, unknown⟩
      · exact .inr every

/-! ## A client closed under a request -/

def closedUnder : List (Label String String) :=
  [.begin 0 7 2 false, .request 0, .closeHttpClient 7, .answer 0 (.raised "closed"), .wake 0, .request 0,
    .answer 0 (.returned "post")]

/-- The second attempt gets a client of its own. -/
theorem closedUnder_fetched : ∃ world, (machine String String).run .initial closedUnder = some world ∧
    world.clients.log = [.requested 0 7 0, .closing 0, .requested 0 7 1] ∧
    ∀ call, world.calls 0 = some call → requestsOf 0 world.clients.log ≤ call.maxRetries := by
  have ends : ((machine String String).run .initial closedUnder).any fun world =>
      world.clients.log = [.requested 0 7 0, .closing 0, .requested 0 7 1] := by
    decide
  obtain ⟨world, ran, ends⟩ := (Option.any_eq_true _ _).mp ends
  exact ⟨world, ran, of_decide_eq_true ends, fun call present => ((fetches closedUnder ran).2 0 call present).1⟩

end DataPipeline.Ingestor.Fetch
