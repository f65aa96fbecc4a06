import DataPipeline.Ingestor.JwtAuth
import DataPipeline.Ingestor.Records
import DataPipeline.Ingestor.Roles
import DataPipeline.Library.JsonWriting

/-! The endpoint of `ingestor/routers/records_v2.py` that creates a record for a
token, and the one that gives tokens out.

Instants are numbers of microseconds. The headers of an answer are left out.
-/

set_option autoImplicit false

namespace DataPipeline.Ingestor.JwtRecords

open Encoding Execution JwtAuth Roles

/-! ## Tokens -/

/-- What `datetime.utctimetuple` and `timegm` make of an instant: whole seconds. -/
def timegm (instant : Int) : Int := instant / 1000000

structure Settings where
  jwtExpiryMinutes : Int
  appName : String

def Settings.expiresAt (settings : Settings) (now : Int) : Int := now + settings.jwtExpiryMinutes * 60 * 1000000

def createPayload (settings : Settings) (sub : String) (customClaims : Claims) (now : Int) : Claims :=
  Json.merge
    [(Text.ofString "sub", .str (Text.ofString sub)), (Text.ofString "iat", .int (timegm now)),
      (Text.ofString "exp", .int (timegm (settings.expiresAt now))),
      (Text.ofString "iss", .str (Text.ofString settings.appName))]
    customClaims

def issuePayload (settings : Settings) (userId : String) (now : Int) : Claims :=
  createPayload settings userId
    [(Text.ofString "scope", .str (Text.ofString "records:write")),
      (Text.ofString "roles", .list [.str (Text.ofString "writer")])] now

/-! ## The endpoint -/

-- How `str` writes an item of a list that is no string.
variable (isFinal : List Char → List Char → Bool) (render : Json → String)

def textOf (text : Text) : String := String.ofList (text.map Char.ofNat)

def itemText : Json → String
  | .str text => textOf text
  | item => render item

/-- What can be iterated: a list, or the keys of an object. -/
def rawRoles : Json → RawRoles
  | .str text => .text (textOf text)
  | .list items => .items (items.map (itemText render))
  | .dict entries => .items (entries.map fun entry => textOf entry.1)
  | _ => .other

/-- `_extract_roles` of claims. -/
def rolesOf (claims : Claims) : List String :=
  extractRoles isFinal ((Json.get claims "roles").map (rawRoles render))
    ((Json.get claims "role").map (rawRoles render))
    (Json.get claims "scope" = some (.str (Text.ofString "records:write")))

variable (decode : Text → ℚ → Except Fault Claims)

/-- `jwt_role_guard("writer", "admin")`: the answer to a request that is not let through. -/
def jwtRoleGuard (authorization : Option String) (now : Int) : Option Records.Response :=
  match verifyJwtToken isFinal decode authorization ((now : ℚ) / 1000000) with
  | .error (.http exception) => some (.httpException exception.statusCode exception.detail)
  | .error (.escaped _) => some .internalServerError
  | .ok claims =>
    if requireRoles (normalizedRequired isFinal ["writer", "admin"]) (rolesOf isFinal render claims) then none
    else some (.httpException 403 "Insufficient role permissions")

def createRecordJwt (records : Records.World) (authorization : Option String) (now : Int) (body : RecordRequest)
    (fresh : Fresh) : Records.World × Records.Response :=
  match jwtRoleGuard isFinal render decode authorization now with
  | some refused => (records, refused)
  | none => Records.createRecord records body fresh

/-! ## Runs -/

structure World where
  issued : List Claims
  records : Records.World
  clock : Int

inductive Label where
  | token (userId : String) (now : Int)
  | create (authorization : Option String) (now : Int) (body : RecordRequest) (fresh : Fresh)
  | plain (exchange : Records.Exchange)

/-- Nobody else has the secret: a token that is verified has the payload of one that was given out. -/
def Presentable (pyjwt : PyJwt) (issued : List Claims) (authorization : Option String) : Prop :=
  ∀ header, authorization = some header →
    ∀ jws, pyjwt.load (Text.ofString (partition header).2) = .ok jws → pyjwt.verifies jws = .ok true →
      ∃ claims ∈ issued, jws.payload = .ok claims

def presentable (pyjwt : PyJwt) (issued : List Claims) (authorization : Option String) : Bool :=
  match authorization with
  | none => true
  | some header =>
    match pyjwt.load (Text.ofString (partition header).2) with
    | .error _ => true
    | .ok jws => pyjwt.verifies jws ≠ .ok true ∨ issued.any fun claims => jws.payload = .ok claims

theorem presentable_iff {pyjwt : PyJwt} {issued : List Claims} {authorization : Option String} :
    presentable pyjwt issued authorization = true ↔ Presentable pyjwt issued authorization := by
  unfold presentable Presentable
  cases authorization with
  | none => simp
  | some header =>
    cases loaded : pyjwt.load (Text.ofString (partition header).2) with
    | error fault => simp [loaded]
    | ok jws =>
      simp [loaded]
      tauto

def machine (codec : RecordCodec) (settings : Settings) (pyjwt : PyJwt) : Machine World Label where
  step
    | world, .token userId now =>
      if world.clock ≤ now then
        some { world with issued := issuePayload settings userId now :: world.issued, clock := now }
      else none
    | world, .create authorization now body fresh =>
      if world.clock ≤ now ∧ presentable pyjwt world.issued authorization ∧
          (Records.Request.create body fresh).Possible world.records.store then
        some { world with
          records := (createRecordJwt isFinal render decode world.records authorization now body fresh).1
          clock := now }
      else none
    | world, .plain exchange =>
      ((Records.machine codec).step world.records exchange).map fun records => { world with records }

/-- How PyJWT writes the tokens that are given out, with the secret and the
algorithm of the settings: it reads them back. -/
structure Writes (pyjwt : PyJwt) (algorithm : Text) (encode : Claims → String) (settings : Settings)
    (labels : List Label) : Prop where
  signed {userId : String} {issuedAt : Int} : .token userId issuedAt ∈ labels →
    Signed pyjwt algorithm (Text.ofString (encode (issuePayload settings userId issuedAt)))
      (issuePayload settings userId issuedAt)
  int (value : Int) : pyjwt.int (.int value) = .ok value

/-! ## What a token is good for -/

variable {isFinal render decode} {codec : RecordCodec} {settings : Settings} {pyjwt : PyJwt} {algorithm : Text}
  {encode : Claims → String} {authorization : Option String} {token : Text} {claims : Claims} {userId : String}
  {issuedAt now : Int} {records : Records.World} {clock : Int} {world : World} {labels : List Label}

theorem decode_eq_ok_iff (documented : Documented pyjwt algorithm decode) {now : ℚ} :
    decode token now = .ok claims ↔
      Signed pyjwt algorithm token claims ∧ pyjwt.checks.findSome? (pyjwt.fault claims now) = none := by
  constructor
  · intro decoded
    cases loaded : pyjwt.load token with
    | error fault =>
      rw [documented.unreadable now loaded] at decoded
      cases decoded
    | ok jws =>
      by_cases named : Json.get jws.header "alg" = some (.str algorithm)
      · cases verified : pyjwt.verifies jws with
        | error fault =>
          rw [documented.unusable now loaded named verified] at decoded
          cases decoded
        | ok genuine =>
          cases genuine with
          | false =>
            rw [documented.forged now loaded named verified] at decoded
            cases decoded
          | true =>
            rw [documented.signed now loaded named verified] at decoded
            cases payload : jws.payload with
            | error fault => simp [payload] at decoded
            | ok own =>
              cases checked : pyjwt.checks.findSome? (pyjwt.fault own now) with
              | some fault => simp [payload, checked] at decoded
              | none =>
                simp only [payload, checked, Except.ok.injEq] at decoded
                subst decoded
                exact ⟨⟨jws, loaded, named, verified, payload⟩, checked⟩
      · rw [documented.notAllowed now loaded named] at decoded
        cases decoded
  · rintro ⟨⟨jws, loaded, named, verified, payload⟩, checked⟩
    rw [documented.signed now loaded named verified]
    simp only [payload, checked]

def expiry (settings : Settings) (issuedAt : Int) : Int := timegm (settings.expiresAt issuedAt) * 1000000

theorem lt_seconds_iff (now date : Int) : (now : ℚ) / 1000000 < date ↔ now < date * 1000000 := by
  rw [div_lt_iff₀ (by norm_num)]
  exact_mod_cast Iff.rfl

theorem get_issuePayload (settings : Settings) (userId : String) (issuedAt : Int) :
    Json.get (issuePayload settings userId issuedAt) "iat" = some (.int (timegm issuedAt)) ∧
    Json.get (issuePayload settings userId issuedAt) "exp" = some (.int (timegm (settings.expiresAt issuedAt))) ∧
    Json.get (issuePayload settings userId issuedAt) "sub" = some (.str (Text.ofString userId)) ∧
    Json.get (issuePayload settings userId issuedAt) "roles" = some (.list [.str (Text.ofString "writer")]) ∧
    Json.get (issuePayload settings userId issuedAt) "nbf" = none ∧
    Json.get (issuePayload settings userId issuedAt) "aud" = none ∧
    Json.get (issuePayload settings userId issuedAt) "jti" = none ∧
    Json.get (issuePayload settings userId issuedAt) "role" = none := by
  simp [issuePayload, createPayload, Json.merge, Json.assign, Json.get, Text.ofString, List.lookup_cons]

theorem issued_passes (writes : Writes pyjwt algorithm encode settings labels) (expires : .expiry ∈ pyjwt.checks)
    (order : issuedAt ≤ now) :
    pyjwt.checks.findSome? (pyjwt.fault (issuePayload settings userId issuedAt) ((now : ℚ) / 1000000)) = none ↔
      now < expiry settings issuedAt := by
  obtain ⟨iat, exp, sub, -, nbf, aud, jti, -⟩ := get_issuePayload settings userId issuedAt
  have date (date : Int) (notInteger refused : JwtError) (refuses : Int → Bool) :
      pyjwt.dateFault (some (.int date)) notInteger refused refuses =
        if refuses date then some (.jwt refused) else none := by
    simp only [PyJwt.dateFault, Option.map_some, writes.int]
  have expiryFault : pyjwt.fault (issuePayload settings userId issuedAt) ((now : ℚ) / 1000000) .expiry = none ↔
      now < expiry settings issuedAt := by
    rw [PyJwt.fault, exp, date, expiry, ← lt_seconds_iff]
    simp
  rw [List.findSome?_eq_none_iff]
  constructor
  · intro passed
    exact expiryFault.mp (passed .expiry expires)
  · intro valid check _
    cases check with
    | expiry => exact expiryFault.mpr valid
    | issuedAt =>
      have begun : timegm issuedAt * 1000000 ≤ now :=
        (Int.ediv_mul_le issuedAt (by decide)).trans order
      have timely : ¬ (now : ℚ) / 1000000 < (timegm issuedAt : ℚ) := fun early =>
        absurd ((lt_seconds_iff now _).mp early) (Int.not_lt.mpr begun)
      rw [PyJwt.fault, iat, date, if_neg (by simpa using timely)]
    | notBefore => rw [PyJwt.fault, nbf]; rfl
    | audience => rw [PyJwt.fault, aud]; rfl
    | subject => rw [PyJwt.fault, sub]; rfl
    | jwtId => rw [PyJwt.fault, jti]; rfl

theorem lower_writer : Casing.lower isFinal "writer" = "writer" := lower_small (by simp [Casing.sigma])

theorem rolesOf_issued (settings : Settings) (userId : String) (issuedAt : Int) :
    rolesOf isFinal render (issuePayload settings userId issuedAt) = ["writer"] := by
  obtain ⟨-, -, -, roles, -, -, -, role⟩ := get_issuePayload settings userId issuedAt
  have text : textOf (Text.ofString "writer") = "writer" := by decide
  have solid : strip "writer" = "writer" := by decide
  rw [rolesOf, roles, role]
  simp [extractRoles, rawRoles, itemText, text, normalizeRoles, normalized, solid, lower_writer]

/-! ## Whom the endpoint lets through -/

def Admitted (isFinal : List Char → List Char → Bool) (pyjwt : PyJwt) (algorithm : Text) (settings : Settings)
    (labels : List Label) (authorization : Option String) (now : Int) : Prop :=
  ∃ header userId issuedAt, authorization = some header ∧ header ≠ "" ∧
    Casing.lower isFinal (partition header).1 = "bearer" ∧ .token userId issuedAt ∈ labels ∧
    Signed pyjwt algorithm (Text.ofString (partition header).2) (issuePayload settings userId issuedAt) ∧
    now < expiry settings issuedAt

structure Issued (settings : Settings) (labels : List Label) (world : World) : Prop where
  issued : ∀ claims, claims ∈ world.issued ↔
    ∃ userId issuedAt, .token userId issuedAt ∈ labels ∧ issuePayload settings userId issuedAt = claims
  clock : ∀ userId issuedAt, .token userId issuedAt ∈ labels → issuedAt ≤ world.clock

theorem issued_run (ran : (machine isFinal render decode codec settings pyjwt).run ⟨[], records, clock⟩ labels =
    some world) : Issued settings labels world := by
  induction labels using List.reverseRecOn generalizing world with
  | nil =>
    cases ran
    exact ⟨fun claims => by simp, fun _ _ member => absurd member List.not_mem_nil⟩
  | append_singleton labels last ih =>
    obtain ⟨middle, head, stepped⟩ := Machine.run_concat.mp ran
    obtain ⟨issued, clock⟩ := ih head
    have old {label : Label} (other : ∀ userId issuedAt, label ≠ .token userId issuedAt) (userId : String)
        (issuedAt : Int) : .token userId issuedAt ∈ labels ++ [label] ↔ .token userId issuedAt ∈ labels := by
      rw [List.mem_append, List.mem_singleton, or_iff_left fun same => other userId issuedAt same.symm]
    cases last with
    | token userId now =>
      simp only [machine, Option.ite_none_right_eq_some, Option.some.injEq] at stepped
      obtain ⟨order, rfl⟩ := stepped
      refine ⟨fun claims => ?_, fun other issuedAt member => ?_⟩
      · rw [List.mem_cons, issued]
        constructor
        · rintro (rfl | ⟨other, issuedAt, member, same⟩)
          · exact ⟨userId, now, List.mem_append_right _ (List.mem_singleton_self _), rfl⟩
          · exact ⟨other, issuedAt, List.mem_append_left _ member, same⟩
        · rintro ⟨other, issuedAt, member, rfl⟩
          rcases List.mem_append.mp member with earlier | last
          · exact .inr ⟨other, issuedAt, earlier, rfl⟩
          · cases List.mem_singleton.mp last
            exact .inl rfl
      · rcases List.mem_append.mp member with earlier | last
        · exact (clock other issuedAt earlier).trans order
        · cases List.mem_singleton.mp last
          exact le_refl now
    | create authorization now body fresh =>
      simp only [machine, Option.ite_none_right_eq_some, Option.some.injEq] at stepped
      obtain ⟨⟨order, -⟩, rfl⟩ := stepped
      have same := @old (.create authorization now body fresh) nofun
      refine ⟨fun claims => ?_, fun userId issuedAt member => ?_⟩
      · simp only [same]
        exact issued claims
      · exact (clock userId issuedAt ((same userId issuedAt).mp member)).trans order
    | plain exchange =>
      simp only [machine, Option.map_eq_some_iff] at stepped
      obtain ⟨after, -, rfl⟩ := stepped
      have same := @old (.plain exchange) nofun
      refine ⟨fun claims => ?_, fun userId issuedAt member => ?_⟩
      · simp only [same]
        exact issued claims
      · exact clock userId issuedAt ((same userId issuedAt).mp member)

theorem verify_ok_iff {now : ℚ} : verifyJwtToken isFinal decode authorization now = .ok claims ↔
    ∃ header, authorization = some header ∧ header ≠ "" ∧
      Casing.lower isFinal (partition header).1 = "bearer" ∧
      decode (Text.ofString (partition header).2) now = .ok claims := by
  have handled (fault : Fault) : handle fault ≠ .ok claims := by
    unfold handle unauthorized
    split
    next => split_ifs <;> exact nofun
    next => exact nofun
  unfold verifyJwtToken
  split
  next => exact iff_of_false nofun fun ⟨_, given, _⟩ => by cases given
  next => exact iff_of_false nofun fun ⟨_, given, named, _⟩ => named (Option.some.inj given).symm
  next header named =>
    dsimp only
    by_cases bearer : Casing.lower isFinal (partition header).1 = "bearer"
    · rw [if_neg (not_not.mpr bearer)]
      constructor
      · intro answered
        cases decoded : decode (Text.ofString (partition header).2) now with
        | ok own =>
          rw [decoded] at answered
          cases answered
          exact ⟨header, rfl, named, bearer, decoded⟩
        | error fault =>
          rw [decoded] at answered
          exact absurd answered (handled fault)
      · rintro ⟨_, given, -, -, decoded⟩
        rw [Option.some.inj given, decoded]
    · rw [if_pos bearer]
      exact iff_of_false nofun fun ⟨_, given, _, scheme, _⟩ => bearer (Option.some.inj given ▸ scheme)

/-- What is raised is a 401 or an exception that no clause stops. -/
theorem verify_error {now : ℚ} {raised : Raised}
    (failed : verifyJwtToken isFinal decode authorization now = .error raised) :
    (∃ detail headers, raised = .http ⟨401, detail, headers⟩) ∨ ∃ fault, raised = .escaped fault := by
  have handled {fault : Fault} (answered : handle fault = .error raised) :
      (∃ detail headers, raised = .http ⟨401, detail, headers⟩) ∨ ∃ fault, raised = .escaped fault := by
    unfold handle unauthorized at answered
    split at answered
    next =>
      split_ifs at answered <;> cases answered
      · exact .inl ⟨_, _, rfl⟩
      · exact .inl ⟨_, _, rfl⟩
      · exact .inl ⟨_, _, rfl⟩
      · exact .inr ⟨_, rfl⟩
    next =>
      cases answered
      exact .inr ⟨_, rfl⟩
  unfold verifyJwtToken unauthorized at failed
  split at failed
  next => cases failed; exact .inl ⟨_, _, rfl⟩
  next => cases failed; exact .inl ⟨_, _, rfl⟩
  next header _ =>
    dsimp only at failed
    split_ifs at failed
    · cases failed
      exact .inl ⟨_, _, rfl⟩
    · cases decoded : decode (Text.ofString (partition header).2) now with
      | ok own =>
        rw [decoded] at failed
        cases failed
      | error fault =>
        rw [decoded] at failed
        exact handled failed

theorem guard_admitted (documented : Documented pyjwt algorithm decode) (writes : Writes pyjwt algorithm encode settings labels)
    (issued : Issued settings labels world) (order : world.clock ≤ now)
    (admitted : Admitted isFinal pyjwt algorithm settings labels authorization now) :
    jwtRoleGuard isFinal render decode authorization now = none := by
  obtain ⟨header, userId, issuedAt, rfl, named, bearer, member, signed, valid⟩ := admitted
  have passes := (@issued_passes settings pyjwt algorithm encode userId issuedAt now labels writes documented.expires
    ((issued.clock userId issuedAt member).trans order)).mpr valid
  have decoded := (decode_eq_ok_iff documented).mpr ⟨signed, passes⟩
  have verified : verifyJwtToken isFinal decode (some header) ((now : ℚ) / 1000000) =
      .ok (issuePayload settings userId issuedAt) :=
    verify_ok_iff.mpr ⟨header, rfl, named, bearer, decoded⟩
  have writer : requireRoles (normalizedRequired isFinal ["writer", "admin"]) ["writer"] = true := by
    simp [requireRoles, normalizedRequired, lower_writer]
  rw [jwtRoleGuard, verified]
  dsimp only
  rw [rolesOf_issued, if_pos writer]

theorem guard_refused (documented : Documented pyjwt algorithm decode) (writes : Writes pyjwt algorithm encode settings labels)
    (issued : Issued settings labels world) (order : world.clock ≤ now)
    (genuine : Presentable pyjwt world.issued authorization)
    (stranger : ¬ Admitted isFinal pyjwt algorithm settings labels authorization now) :
    ((∃ fault, verifyJwtToken isFinal decode authorization ((now : ℚ) / 1000000) = .error (.escaped fault)) ∧
        jwtRoleGuard isFinal render decode authorization now = some .internalServerError) ∨
      ∃ detail, jwtRoleGuard isFinal render decode authorization now = some (.httpException 401 detail) := by
  cases verified : verifyJwtToken isFinal decode authorization ((now : ℚ) / 1000000) with
  | error raised =>
    rw [jwtRoleGuard, verified]
    rcases verify_error verified with ⟨detail, headers, rfl⟩ | ⟨fault, rfl⟩
    · exact .inr ⟨detail, rfl⟩
    · exact .inl ⟨⟨fault, rfl⟩, rfl⟩
  | ok claims =>
    obtain ⟨header, rfl, named, bearer, decoded⟩ := verify_ok_iff.mp verified
    obtain ⟨signed, passes⟩ := (decode_eq_ok_iff documented).mp decoded
    obtain ⟨jws, loaded, alg, verifies, payload⟩ := signed
    obtain ⟨own, member, same⟩ := genuine header rfl jws loaded verifies
    obtain ⟨userId, issuedAt, given, rfl⟩ := (issued.issued own).mp member
    cases payload.symm.trans same
    have valid := (issued_passes writes documented.expires ((issued.clock userId issuedAt given).trans order)).mp passes
    exact absurd ⟨header, userId, issuedAt, rfl, named, bearer, given, ⟨jws, loaded, alg, verifies, payload⟩, valid⟩
      stranger

/-- The header that `issue_jwt_token` tells its clients to send. -/
def bearerHeader (token : String) : String := "Bearer " ++ token

theorem partition_bearerHeader (token : String) : partition (bearerHeader token) = ("Bearer", token) := by
  have letters : (bearerHeader token).toList = "Bearer".toList ++ ' ' :: token.toList := by
    simp [bearerHeader]
  have solid : ∀ c ∈ "Bearer".toList, decide (c ≠ ' ') = true := by simp
  rw [partition, letters, List.takeWhile_append_of_pos solid, List.dropWhile_append_of_pos solid]
  simp

theorem admitted_bearerHeader (writes : Writes pyjwt algorithm encode settings labels) (issued : .token userId issuedAt ∈ labels)
    (valid : now < expiry settings issuedAt) :
    Admitted isFinal pyjwt algorithm settings labels
      (some (bearerHeader (encode (issuePayload settings userId issuedAt)))) now := by
  refine ⟨_, userId, issuedAt, rfl, ?_, ?_, issued, ?_, valid⟩
  · simp [bearerHeader]
  · rw [partition_bearerHeader]
    exact (lower_eq_bearer_iff _).mpr (by simp)
  · rw [partition_bearerHeader]
    exact writes.signed issued

/-- After any run, a token that was given out can be used until it expires, and the
record is then created as without a guard. No other request that a client can send
without the secret creates a record: it is answered with a 401, or with a 500 if
PyJWT raises what no clause stops. -/
theorem jwt_requests (documented : Documented pyjwt algorithm decode) (clock : Int) (records : Records.World)
    (labels : List Label) (writes : Writes pyjwt algorithm encode settings labels) (world : World)
    (ran : (machine isFinal render decode codec settings pyjwt).run ⟨[], records, clock⟩ labels = some world)
    (now : Int) (order : world.clock ≤ now) (body : RecordRequest) (fresh : Fresh) :
    (∀ userId issuedAt, .token userId issuedAt ∈ labels → now < expiry settings issuedAt →
      createRecordJwt isFinal render decode world.records
          (some (bearerHeader (encode (issuePayload settings userId issuedAt)))) now body fresh =
        Records.createRecord world.records body fresh) ∧
    ∀ authorization, Presentable pyjwt world.issued authorization →
      (Admitted isFinal pyjwt algorithm settings labels authorization now →
        createRecordJwt isFinal render decode world.records authorization now body fresh =
          Records.createRecord world.records body fresh) ∧
      (¬ Admitted isFinal pyjwt algorithm settings labels authorization now →
        (createRecordJwt isFinal render decode world.records authorization now body fresh).1 = world.records ∧
          (((∃ fault, verifyJwtToken isFinal decode authorization ((now : ℚ) / 1000000) = .error (.escaped fault)) ∧
              (createRecordJwt isFinal render decode world.records authorization now body fresh).2 =
                .internalServerError) ∨
            ∃ detail, (createRecordJwt isFinal render decode world.records authorization now body fresh).2 =
              .httpException 401 detail)) := by
  have issued : Issued settings labels world := issued_run ran
  have admitted {authorization : Option String}
      (admitted : Admitted isFinal pyjwt algorithm settings labels authorization now) :
      createRecordJwt isFinal render decode world.records authorization now body fresh =
        Records.createRecord world.records body fresh := by
    rw [createRecordJwt, guard_admitted documented writes issued order admitted]
  refine ⟨fun userId issuedAt given valid => admitted (admitted_bearerHeader writes given valid), ?_⟩
  intro authorization genuine
  refine ⟨admitted, fun stranger => ?_⟩
  unfold createRecordJwt
  rcases guard_refused documented writes issued order genuine stranger with ⟨escaped, refused⟩ | ⟨detail, refused⟩
  · rw [refused]
    exact ⟨rfl, .inl ⟨escaped, rfl⟩⟩
  · rw [refused]
    exact ⟨rfl, .inr ⟨detail, rfl⟩⟩

/-! ## A token of an hour -/

def hourOfX : Settings := ⟨60, "x"⟩

def signingInputOfA : String := "eyJhbGciOiJIUzI1NiIsInR5cCI6IkpXVCJ9." ++
  "eyJzdWIiOiJhIiwiaWF0IjowLCJleHAiOjM2MDAsImlzcyI6IngiLCJzY29wZSI6InJlY29yZHM6d3JpdGUiLCJyb2xlcyI6WyJ3cml0ZXIiXX0"

def signatureOfA : String := "w-btLFUe-6spFktfiVJAoNvmsoNtBOZoxpnVAGKwmLc"

def tokenOfA : String := signingInputOfA ++ "." ++ signatureOfA

def jwsOfA : Jws where
  header := [(Text.ofString "alg", .str hs256), (Text.ofString "typ", .str (Text.ofString "JWT"))]
  payload := .ok (issuePayload hourOfX "a" 0)
  signingInput := Text.ofString signingInputOfA
  signature := (base64urlDecode (Text.ofString signatureOfA)).getD []

def oneSigned : PyJwt :=
  { compact with
    verifies := fun jws => .ok (jws.signingInput = jwsOfA.signingInput ∧ jws.signature = jwsOfA.signature) }

theorem load_tokenOfA : oneSigned.load (Text.ofString tokenOfA) = .ok jwsOfA := by decide +kernel

theorem writes_tokenOfA : Writes oneSigned hs256 (fun _ => tokenOfA) hourOfX [.token "a" 0] where
  signed := by
    intro userId issuedAt member
    cases List.mem_singleton.mp member
    exact ⟨jwsOfA, load_tokenOfA, by decide +kernel, by simp [oneSigned], rfl⟩
  int := fun _ => rfl

def hourMachine : Machine World Label :=
  machine (fun _ _ => false) (fun _ => "") (oneSigned.stages hs256) ⟨fun _ => none, fun _ => none⟩ hourOfX oneSigned

def issuedToA : World := ⟨[issuePayload hourOfX "a" 0], ⟨Table.empty, Expiring.empty, 0⟩, 0⟩

theorem a_creates : hourMachine.run { issuedToA with issued := [] } [.token "a" 0] = some issuedToA ∧
    createRecordJwt (fun _ _ => false) (fun _ => "") (oneSigned.stages hs256) issuedToA.records
        (some (bearerHeader tokenOfA)) 3599999999 reading freshOne =
      Records.createRecord issuedToA.records reading freshOne ∧
    (createRecordJwt (fun _ _ => false) (fun _ => "") (oneSigned.stages hs256) issuedToA.records none 3599999999
      reading freshOne).1 = issuedToA.records := by
  have documented : Documented oneSigned hs256 (oneSigned.stages hs256) := documented_stages hs256 (by decide)
  have ran : hourMachine.run { issuedToA with issued := [] } [.token "a" 0] = some issuedToA := rfl
  have requests := jwt_requests documented 0 issuedToA.records [.token "a" 0] writes_tokenOfA issuedToA ran 3599999999
    (by decide) reading freshOne
  have nobody : Presentable oneSigned issuedToA.issued none := fun _ given => by cases given
  refine ⟨ran, requests.1 "a" 0 (List.mem_singleton_self _) (by decide), ((requests.2 none nobody).2 ?_).1⟩
  rintro ⟨header, userId, issuedAt, given, -⟩
  cases given

end DataPipeline.Ingestor.JwtRecords
