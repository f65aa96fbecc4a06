import DataPipeline.Library.Execution
import Mathlib.Data.Int.Order.Basic
import Mathlib.Order.Basic

/-! The sessions of `ingestor/auth.py`, which are looked after only when they are verified.

Neither call awaits anything while it uses the store, so each of them is one step.
Instants are numbers of microseconds.
-/

set_option autoImplicit false

namespace DataPipeline.Ingestor.Sessions

open Execution

/-- What a session holds under a key. Custom data may bring values of any other type. -/
inductive Field (Custom : Type) where
  | text (value : String)
  | datetime (instant : Int)
  | custom (value : Custom)
  deriving DecidableEq

abbrev SessionData (Custom : Type) := List (String × Field Custom)

abbrev SessionStore (Custom : Type) := String → Option (SessionData Custom)

variable {Custom : Type}

/-- An entry of a dict display, which takes the place of an earlier one under its key. -/
def assign : SessionData Custom → String × Field Custom → SessionData Custom
  | [], entry => [entry]
  | (key, value) :: rest, entry => if key = entry.1 then entry :: rest else (key, value) :: assign rest entry

def defaultRole : String := "viewer"

structure Creation (Custom : Type) where
  sessionId : String
  userId : String
  customData : SessionData Custom
  now : Int
  created : Int
  deriving DecidableEq

structure Settings where
  tokenExpiryHours : Int
  isoformat : Int → String

def Creation.expiresAt (creation : Creation Custom) (settings : Settings) : Int :=
  creation.now + settings.tokenExpiryHours * 3600 * 1000000

/-- The dict that is stored. -/
def Creation.data (creation : Creation Custom) (settings : Settings) : SessionData Custom :=
  creation.customData.foldl assign
    [("user_id", .text creation.userId), ("role", .text defaultRole),
      ("created_at", .text (settings.isoformat creation.created)),
      ("expires_at", .datetime (creation.expiresAt settings))]

/-- `create_session`, which returns the id twice. -/
def createSession (settings : Settings) (store : SessionStore Custom) (creation : Creation Custom) :
    SessionStore Custom × String × String :=
  (Function.update store creation.sessionId (some (creation.data settings)), creation.sessionId, creation.sessionId)

/-- What `verify_session` raises: a 401 with its detail, or the error of comparing something else with the time. -/
inductive Rejection where
  | unauthorized (detail : String)
  | typeError
  deriving DecidableEq

def verifySession (store : SessionStore Custom) (sessionId : Option String) (now : Int) :
    SessionStore Custom × Except Rejection (SessionData Custom) :=
  match sessionId with
  | none | some "" => (store, .error (.unauthorized "Missing session cookie"))
  | some sessionId =>
    match store sessionId with
    | none | some [] => (store, .error (.unauthorized "Invalid or expired session"))
    | some sessionData =>
      match sessionData.lookup "expires_at" with
      | none => (Function.update store sessionId none, .error (.unauthorized "Session expired"))
      | some (.datetime expiresAt) =>
        if expiresAt < now then (Function.update store sessionId none, .error (.unauthorized "Session expired"))
        else (store, .ok sessionData)
      | some _ => (store, .error .typeError)

/-! ## Runs -/

inductive Label (Custom : Type) where
  | create (creation : Creation Custom)
  | verify (sessionId : Option String) (now : Int)

structure World (Custom : Type) where
  store : SessionStore Custom
  issued : List String
  clock : Int

def World.initial (clock : Int) : World Custom := ⟨fun _ => none, [], clock⟩

/-- Ids are never given out twice, the clock does not run backwards, and custom data brings no expiry. -/
def machine (settings : Settings) : Machine (World Custom) (Label Custom) where
  step
    | world, .create creation =>
      if world.clock ≤ creation.now ∧ creation.now ≤ creation.created ∧ creation.sessionId ∉ world.issued ∧
          creation.sessionId ≠ "" ∧ "expires_at" ∉ creation.customData.map Prod.fst then
        some ⟨(createSession settings world.store creation).1, creation.sessionId :: world.issued, creation.created⟩
      else none
    | world, .verify sessionId now =>
      if world.clock ≤ now then some { world with store := (verifySession world.store sessionId now).1, clock := now }
      else none

/-! ## The data of a creation -/

variable {settings : Settings} {store : SessionStore Custom} {world before after : World Custom}
  {creation : Creation Custom} {label : Label Custom} {labels : List (Label Custom)} {sessionId : String}
  {now clock : Int} {data : SessionData Custom}

theorem lookup_assign {entry : String × Field Custom} {key : String} (other : key ≠ entry.1)
    (data : SessionData Custom) :
    (assign data entry).lookup key = data.lookup key := by
  obtain ⟨own, given⟩ := entry
  induction data with
  | nil => simp [assign, other]
  | cons first rest ih =>
    obtain ⟨name, value⟩ := first
    unfold assign
    split
    next same =>
      subst same
      simp only [List.lookup_cons, beq_false_of_ne other]
    next => simp only [List.lookup_cons, ih]

theorem lookup_assigned {key : String} {entries : SessionData Custom} (absent : key ∉ entries.map Prod.fst)
    (data : SessionData Custom) : (entries.foldl assign data).lookup key = data.lookup key := by
  induction entries generalizing data with
  | nil => rfl
  | cons entry entries ih =>
    rw [List.map_cons, List.mem_cons, not_or] at absent
    rw [List.foldl_cons, ih absent.2, lookup_assign absent.1]

theorem lookup_expiresAt (plain : "expires_at" ∉ creation.customData.map Prod.fst) :
    (creation.data settings).lookup "expires_at" = some (.datetime (creation.expiresAt settings)) := by
  rw [Creation.data, lookup_assigned plain]
  simp [List.lookup_cons]

/-! ## One call -/

theorem verifySession_other {id : Option String} {other : String} (different : id ≠ some other) :
    (verifySession store id now).1 other = store other := by
  unfold verifySession
  split
  next => rfl
  next => rfl
  next key _ =>
    have apart : other ≠ key := fun same => different (congrArg some same.symm)
    repeat' split
    all_goals first | rfl | exact Function.update_of_ne apart _ _

theorem verifySession_named (named : sessionId ≠ "") (store : SessionStore Custom) (now : Int) :
    verifySession store (some sessionId) now =
      match store sessionId with
      | none | some [] => (store, .error (.unauthorized "Invalid or expired session"))
      | some sessionData =>
        match sessionData.lookup "expires_at" with
        | none => (Function.update store sessionId none, .error (.unauthorized "Session expired"))
        | some (.datetime expiresAt) =>
          if expiresAt < now then (Function.update store sessionId none, .error (.unauthorized "Session expired"))
          else (store, .ok sessionData)
        | some _ => (store, .error .typeError) := by
  unfold verifySession
  split
  next missing => cases missing
  next empty => exact absurd (Option.some.inj empty) named
  next given _ same =>
    cases same
    rfl

/-- The answer for a session depends on what is stored under its id only. -/
theorem verifySession_congr {other : SessionStore Custom} (same : store sessionId = other sessionId) (now : Int) :
    (verifySession store (some sessionId) now).2 = (verifySession other (some sessionId) now).2 := by
  by_cases named : sessionId = ""
  · rw [named]
    rfl
  · rw [verifySession_named named, verifySession_named named, same]
    repeat' split
    all_goals rfl

theorem verifySession_missing (missing : store sessionId = none) (now : Int) :
    ∃ rejection, verifySession store (some sessionId) now = (store, .error rejection) := by
  by_cases named : sessionId = ""
  · rw [named]
    exact ⟨_, rfl⟩
  · rw [verifySession_named named, missing]
    exact ⟨_, rfl⟩

/-- The session of a creation is accepted up to its expiry, and removed after it. -/
theorem verifySession_stored (named : creation.sessionId ≠ "")
    (plain : "expires_at" ∉ creation.customData.map Prod.fst)
    (stored : store creation.sessionId = some (creation.data settings)) (now : Int) :
    (now ≤ creation.expiresAt settings ∧
      verifySession store (some creation.sessionId) now = (store, .ok (creation.data settings))) ∨
    (creation.expiresAt settings < now ∧ verifySession store (some creation.sessionId) now =
      (Function.update store creation.sessionId none, .error (.unauthorized "Session expired"))) := by
  have expiry : (creation.data settings).lookup "expires_at" = some (.datetime (creation.expiresAt settings)) :=
    lookup_expiresAt plain
  rw [verifySession_named named, stored]
  cases shape : creation.data settings with
  | nil =>
    rw [shape] at expiry
    cases expiry
  | cons entry rest =>
    rw [shape] at expiry
    simp only [expiry]
    by_cases past : creation.expiresAt settings < now
    · exact .inr ⟨past, if_pos past⟩
    · exact .inl ⟨Int.not_lt.mp past, if_neg past⟩

/-! ## What the store remembers -/

/-- What is stored comes from creations, and what was created is stored until it has expired. -/
structure Remembers (settings : Settings) (labels : List (Label Custom)) (world : World Custom) : Prop where
  issued : ∀ creation, .create creation ∈ labels → creation.sessionId ∈ world.issued ∧ creation.sessionId ≠ "" ∧
    "expires_at" ∉ creation.customData.map Prod.fst
  distinct : ∀ first second : Creation Custom, .create first ∈ labels → .create second ∈ labels →
    first.sessionId = second.sessionId → first = second
  created : ∀ id, world.store id = none ∨ ∃ creation, .create creation ∈ labels ∧ creation.sessionId = id
  stored : ∀ creation, .create creation ∈ labels →
    world.store creation.sessionId = some (creation.data settings) ∨
      (world.store creation.sessionId = none ∧ creation.expiresAt settings < world.clock)

theorem Remembers.initial (settings : Settings) (clock : Int) :
    Remembers settings ([] : List (Label Custom)) (.initial clock) where
  issued := fun _ member => absurd member List.not_mem_nil
  distinct := fun _ _ member => absurd member List.not_mem_nil
  created := fun _ => .inl rfl
  stored := fun _ member => absurd member List.not_mem_nil

theorem Remembers.create (remembers : Remembers settings labels before) (order : before.clock ≤ creation.created)
    (fresh : creation.sessionId ∉ before.issued) (named : creation.sessionId ≠ "")
    (plain : "expires_at" ∉ creation.customData.map Prod.fst) :
    Remembers settings (labels ++ [.create creation])
      ⟨(createSession settings before.store creation).1, creation.sessionId :: before.issued, creation.created⟩ := by
  -- No earlier creation has the id, and nothing is stored under it.
  have new : ∀ old, .create old ∈ labels → old.sessionId ≠ creation.sessionId := by
    intro old member same
    exact fresh (same ▸ (remembers.issued old member).1)
  have members (old : Creation Custom) : .create old ∈ labels ++ [.create creation] ↔
      .create old ∈ labels ∨ old = creation := by
    simp only [List.mem_append, List.mem_singleton, Label.create.injEq]
  refine ⟨?_, ?_, ?_, ?_⟩
  case refine_1 =>
    intro old member
    rcases (members old).mp member with earlier | rfl
    · obtain ⟨known, rest⟩ := remembers.issued old earlier
      exact ⟨List.mem_cons_of_mem _ known, rest⟩
    · exact ⟨List.mem_cons_self, named, plain⟩
  case refine_2 =>
    intro first second firstIn secondIn same
    rcases (members first).mp firstIn with firstEarlier | rfl
    · rcases (members second).mp secondIn with secondEarlier | rfl
      · exact remembers.distinct first second firstEarlier secondEarlier same
      · exact absurd same (new first firstEarlier)
    · rcases (members second).mp secondIn with secondEarlier | rfl
      · exact absurd same.symm (new second secondEarlier)
      · rfl
  case refine_3 =>
    intro id
    by_cases own : id = creation.sessionId
    · exact .inr ⟨creation, (members creation).mpr (.inr rfl), own.symm⟩
    · rcases remembers.created id with none | ⟨old, member, same⟩
      · exact .inl ((Function.update_of_ne own _ _).trans none)
      · exact .inr ⟨old, (members old).mpr (.inl member), same⟩
  case refine_4 =>
    intro old member
    rcases (members old).mp member with earlier | rfl
    · have kept : (createSession settings before.store creation).1 old.sessionId = before.store old.sessionId :=
        Function.update_of_ne (new old earlier) _ _
      simp only [kept]
      exact (remembers.stored old earlier).imp_right fun gone => ⟨gone.1, gone.2.trans_le order⟩
    · exact .inl (Function.update_self _ _ _)

theorem Remembers.verify (remembers : Remembers settings labels before) (order : before.clock ≤ now)
    (id : Option String) :
    Remembers settings (labels ++ [.verify id now])
      { before with store := (verifySession before.store id now).1, clock := now } := by
  have members (old : Creation Custom) : .create old ∈ labels ++ [.verify id now] ↔ .create old ∈ labels := by
    simp only [List.mem_append, List.mem_singleton, reduceCtorEq, or_false]
  refine ⟨?_, ?_, ?_, ?_⟩
  case refine_1 => exact fun old member => remembers.issued old ((members old).mp member)
  case refine_2 =>
    intro first second firstIn secondIn
    exact remembers.distinct first second ((members first).mp firstIn) ((members second).mp secondIn)
  case refine_3 =>
    intro key
    rcases remembers.created key with none | ⟨old, member, same⟩
    · refine .inl ?_
      by_cases own : id = some key
      · obtain ⟨rejection, rejected⟩ := verifySession_missing none now
        simp only [own, rejected, none]
      · simp only [verifySession_other own, none]
    · exact .inr ⟨old, (members old).mpr member, same⟩
  case refine_4 =>
    intro old member
    have earlier := (members old).mp member
    obtain ⟨-, named, plain⟩ := remembers.issued old earlier
    by_cases own : id = some old.sessionId
    · rcases remembers.stored old earlier with stored | ⟨none, past⟩
      · rcases verifySession_stored named plain stored now with ⟨-, accepted⟩ | ⟨expired, rejected⟩
        · simp only [own, accepted]
          exact .inl stored
        · simp only [own, rejected]
          exact .inr ⟨Function.update_self _ _ _, expired⟩
      · obtain ⟨rejection, rejected⟩ := verifySession_missing none now
        simp only [own, rejected]
        exact .inr ⟨none, past.trans_le order⟩
    · simp only [verifySession_other own]
      exact (remembers.stored old earlier).imp_right fun gone => ⟨gone.1, gone.2.trans_le order⟩

theorem remembers_run (ran : (machine settings).run (.initial clock) labels = some world) :
    Remembers settings labels world := by
  induction labels using List.reverseRecOn generalizing world with
  | nil =>
    cases ran
    exact .initial settings clock
  | append_singleton labels last ih =>
    obtain ⟨middle, head, stepped⟩ := Machine.run_concat.mp ran
    have remembers := ih head
    cases last with
    | create creation =>
      simp only [machine, Option.ite_none_right_eq_some, Option.some.injEq] at stepped
      obtain ⟨⟨order, later, fresh, named, plain⟩, rfl⟩ := stepped
      exact remembers.create (order.trans later) fresh named plain
    | verify id now =>
      simp only [machine, Option.ite_none_right_eq_some, Option.some.injEq] at stepped
      obtain ⟨order, rfl⟩ := stepped
      exact remembers.verify order id

theorem Remembers.accepted_iff (remembers : Remembers settings labels world) (order : world.clock ≤ now) :
    (verifySession world.store (some sessionId) now).2 = .ok data ↔
      ∃ creation, .create creation ∈ labels ∧ creation.sessionId = sessionId ∧ creation.data settings = data ∧
        now ≤ creation.expiresAt settings := by
  constructor
  · intro accepted
    rcases remembers.created sessionId with none | ⟨creation, member, rfl⟩
    · obtain ⟨rejection, rejected⟩ := verifySession_missing none now
      rw [rejected] at accepted
      cases accepted
    · obtain ⟨-, named, plain⟩ := remembers.issued creation member
      rcases remembers.stored creation member with stored | ⟨none, -⟩
      · rcases verifySession_stored named plain stored now with ⟨valid, answered⟩ | ⟨-, rejected⟩
        · rw [answered] at accepted
          exact ⟨creation, member, rfl, Except.ok.inj accepted, valid⟩
        · rw [rejected] at accepted
          cases accepted
      · obtain ⟨rejection, rejected⟩ := verifySession_missing none now
        rw [rejected] at accepted
        cases accepted
  · rintro ⟨creation, member, rfl, rfl, valid⟩
    obtain ⟨-, named, plain⟩ := remembers.issued creation member
    rcases remembers.stored creation member with stored | ⟨-, past⟩
    · rcases verifySession_stored named plain stored now with ⟨-, answered⟩ | ⟨expired, -⟩
      · rw [answered]
      · exact absurd valid (Int.not_le.mpr expired)
    · exact absurd (order.trans valid) (Int.not_le.mpr past)

/-! ## Leaving out a call of verify_session -/

structure AlikeBut (id : Option String) (first second : World Custom) : Prop where
  store : ∀ other, id ≠ some other → first.store other = second.store other
  issued : first.issued = second.issued
  clock : first.clock ≤ second.clock

theorem verify_store_congr {first second : SessionStore Custom} {key : String} (same : first key = second key)
    (id : Option String) (now : Int) : (verifySession first id now).1 key = (verifySession second id now).1 key := by
  by_cases own : id = some key
  · rw [own]
    by_cases named : key = ""
    · subst named
      exact same
    · rw [verifySession_named named, verifySession_named named, same]
      repeat' split
      all_goals first | exact same | simp only [Function.update_self]
  · rw [verifySession_other own, verifySession_other own, same]

theorem AlikeBut.step {id : Option String} {first second next : World Custom} (alike : AlikeBut id first second)
    (stepped : (machine settings).step second label = some next) :
    ∃ reached, (machine settings).step first label = some reached ∧ AlikeBut id reached next := by
  cases label with
  | create creation =>
    simp only [machine, Option.ite_none_right_eq_some, Option.some.injEq] at stepped
    obtain ⟨⟨order, later, fresh, named, plain⟩, rfl⟩ := stepped
    rw [← alike.issued] at fresh
    refine ⟨_, if_pos ⟨alike.clock.trans order, later, fresh, named, plain⟩, ?_, ?_, le_refl _⟩
    · intro other apart
      simp only [createSession, Function.update_apply, alike.store other apart]
    · simp only [alike.issued]
  | verify key now =>
    simp only [machine, Option.ite_none_right_eq_some, Option.some.injEq] at stepped
    obtain ⟨order, rfl⟩ := stepped
    refine ⟨_, if_pos (alike.clock.trans order), ?_, alike.issued, le_refl _⟩
    intro other apart
    exact verify_store_congr (alike.store other apart) key now

theorem AlikeBut.run {id : Option String} {first second final : World Custom} (alike : AlikeBut id first second)
    (ran : (machine settings).run second labels = some final) :
    ∃ reached, (machine settings).run first labels = some reached ∧ AlikeBut id reached final := by
  induction labels generalizing first second with
  | nil =>
    cases ran
    exact ⟨first, rfl, alike⟩
  | cons label labels ih =>
    obtain ⟨next, stepped, tail⟩ := Machine.run_cons.mp ran
    obtain ⟨middle, goes, still⟩ := alike.step stepped
    obtain ⟨reached, rest, ends⟩ := ih still tail
    exact ⟨reached, Machine.run_cons.mpr ⟨middle, goes, rest⟩, ends⟩

theorem alikeBut_verify (order : before.clock ≤ now) (id : Option String) :
    AlikeBut id before { before with store := (verifySession before.store id now).1, clock := now } where
  store := fun _ apart => (verifySession_other apart).symm
  issued := rfl
  clock := order

theorem clock_le_run (ran : (machine settings).run before labels = some after) : before.clock ≤ after.clock := by
  refine Machine.invariant_of_step (fun world => before.clock ≤ world.clock) le_rfl ?_ ran
  intro world label next sooner stepped
  refine sooner.trans ?_
  cases label with
  | create creation =>
    simp only [machine, Option.ite_none_right_eq_some, Option.some.injEq] at stepped
    obtain ⟨⟨order, later, -⟩, rfl⟩ := stepped
    exact order.trans later
  | verify id now =>
    simp only [machine, Option.ite_none_right_eq_some, Option.some.injEq] at stepped
    obtain ⟨order, rfl⟩ := stepped
    exact order

/-- After any run a session is accepted, with the data of its creation, exactly if
there was one and the clock is not past its expiry. A session that was created and
then rejected is never accepted again, and without a call of `verify_session` every
other session would be answered in the same way. -/
theorem session_lifetime (settings : Settings) (clock : Int) (labels : List (Label Custom)) (world : World Custom)
    (ran : (machine settings).run (.initial clock) labels = some world) :
    (∀ sessionId now data, world.clock ≤ now →
      ((verifySession world.store (some sessionId) now).2 = .ok data ↔
        ∃ creation, .create creation ∈ labels ∧ creation.sessionId = sessionId ∧ creation.data settings = data ∧
          now ≤ creation.expiresAt settings)) ∧
    (∀ earlier later creation now middle rejection, labels = earlier ++ .verify (some creation.sessionId) now :: later →
      (machine settings).run (.initial clock) earlier = some middle → .create creation ∈ earlier →
      (verifySession middle.store (some creation.sessionId) now).2 = .error rejection →
      ∀ time data, world.clock ≤ time → (verifySession world.store (some creation.sessionId) time).2 ≠ .ok data) ∧
    ∀ earlier later id now, labels = earlier ++ .verify id now :: later →
      ∃ reached, (machine settings).run (.initial clock) (earlier ++ later) = some reached ∧
        ∀ other time, id ≠ some other →
          (verifySession reached.store (some other) time).2 = (verifySession world.store (some other) time).2 := by
  have remembers := remembers_run ran
  refine ⟨fun _ _ _ order => remembers.accepted_iff order, ?_, ?_⟩
  · intro earlier later creation now middle rejection split head member rejected time data order accepted
    subst split
    obtain ⟨same, before, tail⟩ := Machine.run_append.mp ran
    cases head.symm.trans before
    obtain ⟨next, stepped, rest⟩ := Machine.run_cons.mp tail
    simp only [machine, Option.ite_none_right_eq_some, Option.some.injEq] at stepped
    obtain ⟨reached, rfl⟩ := stepped
    -- It was rejected because it had expired, and the clock has not run back since.
    have expired : creation.expiresAt settings < now := by
      by_contra valid
      have fresh := ((remembers_run head).accepted_iff reached).mpr
        ⟨creation, member, rfl, rfl, Int.not_lt.mp valid⟩
      rw [fresh] at rejected
      cases rejected
    have since : now ≤ world.clock := clock_le_run rest
    obtain ⟨other, created, sameId, -, valid⟩ := (remembers.accepted_iff order).mp accepted
    have one := remembers.distinct other creation created (List.mem_append_left _ member) sameId
    rw [one] at valid
    exact absurd ((expired.trans_le since).trans_le order) (Int.not_lt.mpr valid)
  · intro earlier later id now split
    subst split
    obtain ⟨middle, head, tail⟩ := Machine.run_append.mp ran
    obtain ⟨next, stepped, rest⟩ := Machine.run_cons.mp tail
    simp only [machine, Option.ite_none_right_eq_some, Option.some.injEq] at stepped
    obtain ⟨order, rfl⟩ := stepped
    obtain ⟨reached, goes, alike⟩ := (alikeBut_verify order id).run rest
    refine ⟨reached, Machine.run_append.mpr ⟨middle, head, goes⟩, fun other time apart => ?_⟩
    exact verifySession_congr (alike.store other apart) time

def oneHour : Creation Empty := ⟨"a", "user-42", [("role", .text "admin")], 0, 1⟩

def hourly : Settings := ⟨1, fun _ => ""⟩

theorem last_microsecond_accepted :
    ∃ world, (machine hourly).run (.initial 0) [.create oneHour] = some world ∧
      (verifySession world.store (some "a") 3600000000).2 = .ok (oneHour.data hourly) ∧
      (verifySession world.store (some "a") 3600000001).2 ≠ .ok (oneHour.data hourly) := by
  have ends : ((machine hourly).run (.initial 0) [.create oneHour]).any fun world => world.clock = 1 := by
    decide +kernel
  obtain ⟨world, ran, ends⟩ := (Option.any_eq_true _ _).mp ends
  have clock : world.clock = 1 := of_decide_eq_true ends
  have lifetime := (session_lifetime hourly 0 [.create oneHour] world ran).1 "a"
  refine ⟨world, ran, ?_, ?_⟩
  · exact (lifetime 3600000000 _ (by rw [clock]; decide)).mpr ⟨oneHour, List.mem_cons_self, rfl, rfl, by decide⟩
  · intro accepted
    obtain ⟨creation, member, -, -, valid⟩ := (lifetime 3600000001 _ (by rw [clock]; decide)).mp accepted
    cases List.mem_singleton.mp member
    exact absurd valid (by decide)

end DataPipeline.Ingestor.Sessions
