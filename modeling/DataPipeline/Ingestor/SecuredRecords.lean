import DataPipeline.Ingestor.Records
import DataPipeline.Ingestor.Roles
import DataPipeline.Ingestor.Sessions

/-! The endpoints of `ingestor/routers/records.py` that need a session, the login
that gives one out, and the endpoints on the same records that need none.

The login is the only caller of `create_session`, so sessions hold nothing but
strings and the time they expire at.
-/

set_option autoImplicit false

namespace DataPipeline.Ingestor.SecuredRecords

open Calendar Execution Roles Sessions

variable (isFinal : List Char → List Char → Bool)

def loginRole (role : String) : String := if strip role = "" then defaultRole else normalized isFinal role

/-- The arguments of `login_session`, with the id and the readings of the clock of `create_session`. -/
structure Login where
  userId : String
  role : String
  sessionId : String
  now : Int
  created : Int
  deriving DecidableEq

def Login.creation (login : Login) : Creation Empty :=
  ⟨login.sessionId, login.userId, [("role", .text (loginRole isFinal login.role))], login.now, login.created⟩

def rawRoles : Sessions.Field Empty → RawRoles
  | .text value => .text value
  | .datetime _ => .other

/-- `_extract_roles` of a session. -/
def rolesOf (data : SessionData Empty) : List String :=
  extractRoles isFinal ((data.lookup "roles").map rawRoles) ((data.lookup "role").map rawRoles)
    (data.lookup "scope" = some (.text "records:write"))

def sessionOf (verified : Except Rejection (SessionData Empty)) : Option Records.Session :=
  match verified with
  | .ok data => some (.ok (rolesOf isFinal data))
  | .error (.unauthorized detail) => some (.error detail)
  | .error .typeError => none

structure World where
  sessions : Sessions.World Empty
  records : Records.World

inductive Request where
  | read (recordId : Int)
  | archive (recordId : Int) (now updatedAt : DateTime)
  | delete (recordId : Int)

inductive Label where
  | login (login : Login)
  | secured (cookie : Option String) (now : Int) (request : Request)
  | plain (exchange : Records.Exchange)

def getRecordSecured (session : Records.Session) (records : Records.World) (recordId : Int) : Records.Response :=
  match session with
  | .error detail => .httpException 401 detail
  | .ok _ =>
    match Ingestor.getRecord records.store recordId with
    | none => Records.notFound
    | some record => .ok (.modelValidate record)

def handle (session : Records.Session) (records : Records.World) : Request → Records.World × Records.Response
  | .read recordId => (records, getRecordSecured session records recordId)
  | .archive recordId now updatedAt => Records.archiveRecordSecured session records recordId now updatedAt
  | .delete recordId => Records.deleteRecordSecured session records recordId

/-- The answer to a request; none stands for an error that is no `HTTPException`. -/
def answer (world : World) (cookie : Option String) (now : Int) (request : Request) :
    World × Option Records.Response :=
  let (store, verified) := verifySession world.sessions.store cookie now
  let sessions := { world.sessions with store, clock := now }
  match sessionOf isFinal verified with
  | none => ({ world with sessions }, none)
  | some session =>
    let (records, response) := handle session world.records request
    (⟨sessions, records⟩, some response)

/-- Requests one after another. Ids of sessions are never given out twice. -/
def machine (codec : RecordCodec) (settings : Settings) : Machine World Label where
  step
    | world, .login login =>
      ((Sessions.machine settings).step world.sessions (.create (login.creation isFinal))).map fun sessions =>
        { world with sessions }
    | world, .secured cookie now request =>
      if world.sessions.clock ≤ now then some (answer isFinal world cookie now request).1 else none
    | world, .plain exchange =>
      ((Records.machine codec).step world.records exchange).map fun records => { world with records }

/-! ## The roles of a session -/

variable {isFinal}

theorem normalized_eq_empty {role : String} (empty : normalized isFinal role = "") : strip role = "" := by
  unfold normalized Casing.lower at empty
  rw [String.ofList_eq_empty_iff] at empty
  cases shape : (strip role).toList with
  | nil => exact String.toList_eq_nil_iff.mp shape
  | cons first rest =>
    obtain ⟨c, more, letters⟩ := @lowered_cons isFinal [] first rest
    have split : Casing.lowerAfter isFinal [] (first :: rest) =
        lowered isFinal [] first rest ++ Casing.lowerAfter isFinal [first] rest := rfl
    rw [shape, split, letters] at empty
    cases empty

theorem normalized_viewer : normalized isFinal defaultRole = defaultRole := by
  have same : strip defaultRole = defaultRole := by decide
  rw [normalized, same]
  exact lower_small (by simp [defaultRole, Casing.sigma])

theorem normalized_loginRole (role : String) : normalized isFinal (loginRole isFinal role) = loginRole isFinal role := by
  unfold loginRole
  split
  · exact normalized_viewer
  · exact normalized_normalized role

theorem strip_loginRole (role : String) : strip (loginRole isFinal role) ≠ "" := by
  intro empty
  unfold loginRole at empty
  split at empty
  next => exact absurd empty (by decide)
  next solid =>
    rw [strip_normalized] at empty
    exact solid (normalized_eq_empty empty)

theorem rolesOf_login (settings : Settings) (login : Login) :
    rolesOf isFinal ((login.creation isFinal).data settings) = [loginRole isFinal login.role] := by
  have data : (login.creation isFinal).data settings =
      [("user_id", .text login.userId), ("role", .text (loginRole isFinal login.role)),
        ("created_at", .text (settings.isoformat login.created)),
        ("expires_at", .datetime ((login.creation isFinal).expiresAt settings))] := rfl
  have roles : normalizeRoles isFinal (some (.text (loginRole isFinal login.role))) =
      [loginRole isFinal login.role] := by
    rw [normalizeRoles, if_neg (strip_loginRole login.role), normalized_loginRole]
  have missing : normalizeRoles isFinal none = [] := rfl
  rw [rolesOf, data]
  simp only [List.lookup_cons, List.lookup_nil]
  simp [extractRoles, rawRoles, roles, missing]

/-! ## What a cookie is good for -/

def sessionLabels (isFinal : List Char → List Char → Bool) : Label → List (Sessions.Label Empty)
  | .login login => [.create (login.creation isFinal)]
  | .secured cookie now _ => [.verify cookie now]
  | .plain _ => []

theorem mem_sessionLabels {labels : List Label} {creation : Creation Empty} :
    .create creation ∈ labels.flatMap (sessionLabels isFinal) ↔
      ∃ login, .login login ∈ labels ∧ login.creation isFinal = creation := by
  rw [List.mem_flatMap]
  constructor
  · rintro ⟨label, member, created⟩
    cases label with
    | login login => exact ⟨login, member, (Sessions.Label.create.inj (List.mem_singleton.mp created)).symm⟩
    | secured => cases List.mem_singleton.mp created
    | plain => cases created
  · rintro ⟨login, member, rfl⟩
    exact ⟨_, member, List.mem_singleton_self _⟩

theorem answer_sessions (world : World) (cookie : Option String) (now : Int) (request : Request) :
    (answer isFinal world cookie now request).1.sessions =
      { world.sessions with store := (verifySession world.sessions.store cookie now).1, clock := now } := by
  unfold answer
  dsimp only
  split <;> rfl

variable {codec : RecordCodec} {settings : Settings} {clock : Int} {records : Records.World} {labels : List Label}
  {world : World} {cookie : Option String} {now : Int} {role : String}

/-- The sessions of a run are those of a run of logins and verifications. -/
theorem sessions_run (ran : (machine isFinal codec settings).run ⟨.initial clock, records⟩ labels = some world) :
    (Sessions.machine settings).run (.initial clock) (labels.flatMap (sessionLabels isFinal)) =
      some world.sessions := by
  refine Machine.run_project World.sessions (sessionLabels isFinal) ?_ ran
  intro before label after stepped
  cases label with
  | login login =>
    simp only [machine, Option.map_eq_some_iff] at stepped
    obtain ⟨sessions, created, rfl⟩ := stepped
    exact Machine.run_cons.mpr ⟨sessions, created, rfl⟩
  | secured cookie now request =>
    simp only [machine, Option.ite_none_right_eq_some, Option.some.injEq] at stepped
    obtain ⟨order, rfl⟩ := stepped
    rw [answer_sessions]
    exact Machine.run_cons.mpr ⟨_, if_pos order, rfl⟩
  | plain exchange =>
    simp only [machine, Option.map_eq_some_iff] at stepped
    obtain ⟨records, -, rfl⟩ := stepped
    rfl

/-- The cookie was given out by a login as `role` that has not expired. -/
def LoggedIn (isFinal : List Char → List Char → Bool) (settings : Settings) (labels : List Label)
    (cookie : Option String) (now : Int) (role : String) : Prop :=
  ∃ login, .login login ∈ labels ∧ cookie = some login.sessionId ∧ loginRole isFinal login.role = role ∧
    now ≤ login.now + settings.tokenExpiryHours * 3600 * 1000000

theorem session_of_loggedIn
    (ran : (machine isFinal codec settings).run ⟨.initial clock, records⟩ labels = some world)
    (order : world.sessions.clock ≤ now) (loggedIn : LoggedIn isFinal settings labels cookie now role) :
    sessionOf isFinal (verifySession world.sessions.store cookie now).2 = some (.ok [role]) := by
  obtain ⟨login, member, rfl, rfl, valid⟩ := loggedIn
  have accepted := ((remembers_run (sessions_run ran)).accepted_iff order).mpr
    ⟨login.creation isFinal, mem_sessionLabels.mpr ⟨login, member, rfl⟩, rfl, rfl, valid⟩
  have session : (login.creation isFinal).sessionId = login.sessionId := rfl
  rw [session] at accepted
  rw [accepted, sessionOf, rolesOf_login]

/-- The expiry of a session is a time, with which the clock can be compared. -/
theorem session_of_not_loggedIn
    (ran : (machine isFinal codec settings).run ⟨.initial clock, records⟩ labels = some world)
    (stranger : ∀ role, ¬ LoggedIn isFinal settings labels cookie now role) :
    ∃ detail, sessionOf isFinal (verifySession world.sessions.store cookie now).2 = some (.error detail) := by
  have remembers := remembers_run (sessions_run ran)
  have missing : ∀ id, world.sessions.store id = none →
      ∃ detail, sessionOf isFinal (verifySession world.sessions.store (some id) now).2 = some (.error detail) := by
    intro id none
    by_cases named : id = ""
    · exact ⟨_, by rw [named]; rfl⟩
    · exact ⟨_, by rw [verifySession_named named, none]; rfl⟩
  cases cookie with
  | none => exact ⟨_, rfl⟩
  | some sessionId =>
    rcases remembers.created sessionId with none | ⟨creation, member, rfl⟩
    · exact missing sessionId none
    · obtain ⟨login, given, rfl⟩ := mem_sessionLabels.mp member
      obtain ⟨-, named, plain⟩ := remembers.issued _ member
      rcases remembers.stored _ member with stored | ⟨none, -⟩
      · rcases verifySession_stored named plain stored now with ⟨valid, -⟩ | ⟨-, rejected⟩
        · exact absurd ⟨login, given, rfl, rfl, valid⟩ (stranger (loginRole isFinal login.role))
        · exact ⟨_, by rw [rejected]; rfl⟩
      · exact missing _ none

/-! ## What a role is good for -/

def Request.permits : Request → String → Bool
  | .read _, _ => true
  | .archive .., role => ["writer", "admin"].contains role
  | .delete _, role => ["admin"].contains role

/-- What an archive or delete does without a guard, and what a row says to a read, past the cache. -/
def Request.endpoint (records : Records.World) : Request → Records.World × Records.Response
  | .read recordId =>
    (records, ((Ingestor.getRecord records.store recordId).map fun record => .ok (.modelValidate record)).getD
      Records.notFound)
  | .archive recordId now updatedAt => Records.archiveRecord records recordId now updatedAt
  | .delete recordId => Records.deleteRecord records recordId

theorem sessionRoleGuard_one (required : List String) (role : String) :
    Records.sessionRoleGuard required (.ok [role]) =
      if required.contains role then none else some (.httpException 403 "Insufficient role permissions") := by
  simp only [Records.sessionRoleGuard, List.any_cons, List.any_nil, Bool.or_false]

theorem handle_permitted {request : Request} (permitted : request.permits role = true) :
    handle (.ok [role]) records request = request.endpoint records := by
  cases request with
  | read recordId =>
    rw [handle, getRecordSecured, Request.endpoint]
    cases Ingestor.getRecord records.store recordId <;> rfl
  | archive recordId now updatedAt =>
    rw [Request.permits] at permitted
    rw [handle, Records.archiveRecordSecured, sessionRoleGuard_one, permitted]
    rfl
  | delete recordId =>
    rw [Request.permits] at permitted
    rw [handle, Records.deleteRecordSecured, sessionRoleGuard_one, permitted]
    rfl

theorem handle_forbidden {request : Request} (forbidden : request.permits role = false) :
    handle (.ok [role]) records request = (records, .httpException 403 "Insufficient role permissions") := by
  cases request with
  | read => cases forbidden
  | archive recordId now updatedAt =>
    rw [Request.permits] at forbidden
    rw [handle, Records.archiveRecordSecured, sessionRoleGuard_one, forbidden]
    rfl
  | delete recordId =>
    rw [Request.permits] at forbidden
    rw [handle, Records.deleteRecordSecured, sessionRoleGuard_one, forbidden]
    rfl

theorem handle_error (request : Request) (detail : String) :
    handle (.error detail) records request = (records, .httpException 401 detail) := by
  cases request <;> rfl

theorem answer_of_session {session : Records.Session} (request : Request)
    (verified : sessionOf isFinal (verifySession world.sessions.store cookie now).2 = some session) :
    (answer isFinal world cookie now request).1.records = (handle session world.records request).1 ∧
      (answer isFinal world cookie now request).2 = some (handle session world.records request).2 := by
  unfold answer
  dsimp only
  rw [verified]
  exact ⟨rfl, rfl⟩

theorem endpoint_changes {request : Request} (changed : (request.endpoint records).1 ≠ records)
    (permitted : request.permits role = true) :
    role = "admin" ∨ (role = "writer" ∧ ∃ recordId now updatedAt, request = .archive recordId now updatedAt) := by
  cases request with
  | read => exact absurd rfl changed
  | archive recordId now updatedAt =>
    simp only [Request.permits, List.contains_cons, List.contains_nil, Bool.or_false, Bool.or_eq_true,
      beq_iff_eq] at permitted
    exact permitted.symm.imp_right fun writer => ⟨writer, recordId, now, updatedAt, rfl⟩
  | delete =>
    simp only [Request.permits, List.contains_cons, List.contains_nil, Bool.or_false, beq_iff_eq] at permitted
    exact .inl permitted

/-- How a secured request is answered after some requests. -/
structure Secured (isFinal : List Char → List Char → Bool) (settings : Settings) (labels : List Label)
    (world : World) (cookie : Option String) (now : Int) (request : Request) : Prop where
  permitted : ∀ role, LoggedIn isFinal settings labels cookie now role → request.permits role = true →
    (answer isFinal world cookie now request).1.records = (request.endpoint world.records).1 ∧
      (answer isFinal world cookie now request).2 = some (request.endpoint world.records).2
  forbidden : ∀ role, LoggedIn isFinal settings labels cookie now role → request.permits role = false →
    (answer isFinal world cookie now request).1.records = world.records ∧
      (answer isFinal world cookie now request).2 = some (.httpException 403 "Insufficient role permissions")
  unauthorized : (∀ role, ¬ LoggedIn isFinal settings labels cookie now role) →
    (answer isFinal world cookie now request).1.records = world.records ∧
      ∃ detail, (answer isFinal world cookie now request).2 = some (.httpException 401 detail)

theorem secured_run
    (ran : (machine isFinal codec settings).run ⟨.initial clock, records⟩ labels = some world)
    (order : world.sessions.clock ≤ now) (request : Request) :
    Secured isFinal settings labels world cookie now request where
  permitted := by
    intro role loggedIn permitted
    have answered := answer_of_session request (session_of_loggedIn ran order loggedIn)
    rwa [handle_permitted permitted] at answered
  forbidden := by
    intro role loggedIn forbidden
    have answered := answer_of_session request (session_of_loggedIn ran order loggedIn)
    rwa [handle_forbidden forbidden] at answered
  unauthorized := by
    intro stranger
    obtain ⟨detail, verified⟩ := session_of_not_loggedIn ran stranger
    have answered := answer_of_session request verified
    rw [handle_error] at answered
    exact ⟨answered.1, detail, answered.2⟩

/-- After any run of logins, secured and other requests, a secured request does
what its endpoint does if its cookie is from a login that has not expired, with a
role the request is open to. With another role the records stay and the answer is
403, and without such a login they stay and it is 401. So a secured request only
changes records for an administrator, or for a writer who archives one. -/
theorem secured_requests (codec : RecordCodec) (settings : Settings) (clock : Int) (records : Records.World)
    (labels : List Label) (world : World)
    (ran : (machine isFinal codec settings).run ⟨.initial clock, records⟩ labels = some world) :
    (∀ cookie now request, world.sessions.clock ≤ now →
      Secured isFinal settings labels world cookie now request) ∧
    (machine isFinal codec settings).Every ⟨.initial clock, records⟩ labels fun earlier before label after =>
      ∀ cookie now request, label = .secured cookie now request → after.records ≠ before.records →
        LoggedIn isFinal settings earlier cookie now "admin" ∨
          (LoggedIn isFinal settings earlier cookie now "writer" ∧
            ∃ recordId archivedAt updatedAt, request = .archive recordId archivedAt updatedAt) := by
  refine ⟨fun cookie now request order => secured_run ran order request, ?_⟩
  rintro earlier _ later before after - head stepped cookie now request rfl changed
  simp only [machine, Option.ite_none_right_eq_some, Option.some.injEq] at stepped
  obtain ⟨order, rfl⟩ := stepped
  have secured : Secured isFinal settings earlier before cookie now request := secured_run head order request
  by_cases stranger : ∀ role, ¬ LoggedIn isFinal settings earlier cookie now role
  · exact absurd (secured.unauthorized stranger).1 changed
  · push Not at stranger
    obtain ⟨role, loggedIn⟩ := stranger
    cases permits : request.permits role with
    | false => exact absurd (secured.forbidden role loggedIn permits).1 changed
    | true =>
      rw [(secured.permitted role loggedIn permits).1] at changed
      rcases endpoint_changes changed permits with rfl | ⟨rfl, archives⟩
      · exact .inl loggedIn
      · exact .inr ⟨loggedIn, archives⟩

def clerk : Login := ⟨"user-7", " WRITER ", "s1", 0, 1⟩

def office : List Label := [.login clerk, .plain ⟨.create reading freshOne, 0, 1⟩]

def noRecords : Records.World := ⟨Table.empty, Expiring.empty, 0⟩

def noCodec : RecordCodec := ⟨fun _ => none, fun _ => none⟩

theorem clerk_archives : ∃ world,
    (machine (fun _ _ => false) noCodec Sessions.hourly).run ⟨.initial 0, noRecords⟩ office = some world ∧
      (answer (fun _ _ => false) world (some "s1") 3600000000 (.archive 1 (january 10) (january 10))).2 =
        some (Records.archiveRecord world.records 1 (january 10) (january 10)).2 ∧
      (answer (fun _ _ => false) world (some "s1") 3600000000 (.delete 1)).2 =
        some (.httpException 403 "Insufficient role permissions") ∧
      ∃ detail, (answer (fun _ _ => false) world (some "s1") 3600000001 (.read 1)).2 =
        some (.httpException 401 detail) := by
  have ends : ((machine (fun _ _ => false) noCodec Sessions.hourly).run ⟨.initial 0, noRecords⟩ office).any fun world =>
      world.sessions.clock = 1 := by
    decide +kernel
  obtain ⟨world, ran, ends⟩ := (Option.any_eq_true _ _).mp ends
  have clock : world.sessions.clock = 1 := of_decide_eq_true ends
  have answers := (secured_requests noCodec Sessions.hourly 0 noRecords office world ran).1 (some "s1")
  have writer : LoggedIn (fun _ _ => false) Sessions.hourly office (some "s1") 3600000000 "writer" :=
    ⟨clerk, List.mem_cons_self, rfl, by decide +kernel, by decide⟩
  refine ⟨world, ran, ?_, ?_, ?_⟩
  · exact ((answers 3600000000 _ (by rw [clock]; decide)).permitted "writer" writer (by decide)).2
  · exact ((answers 3600000000 _ (by rw [clock]; decide)).forbidden "writer" writer (by decide)).2
  · refine ((answers 3600000001 _ (by rw [clock]; decide)).unauthorized ?_).2
    rintro role ⟨login, member, -, -, valid⟩
    rcases List.mem_cons.mp member with same | member
    · cases same
      exact absurd valid (by decide)
    · cases List.mem_singleton.mp member

end DataPipeline.Ingestor.SecuredRecords
