import DataPipeline.Ingestor.Cache
import DataPipeline.Ingestor.Crud
import DataPipeline.Library.Execution

/-! The endpoints of `ingestor/routers/records.py` on single records, and the
answers of their read-through cache under requests one after another.

A handler is first given for ids and contents that their columns take. `serve`
adds what the driver refuses, which nothing catches, and the rendering of the
response, which comes after everything else. Counters, log lines and the event
published after a create are left out.
-/

set_option autoImplicit false

namespace DataPipeline.Ingestor.Records

open Calendar Execution

/-- The database, Redis, and the time at which the last request completed. -/
structure World where
  store : Store
  cache : RecordCache
  clock : ℚ

inductive Response where
  | ok (body : RecordResponse)
  | created (body : RecordResponse)
  | noContent
  | httpException (statusCode : Nat) (detail : String)
  | internalServerError
  deriving DecidableEq

def notFound : Response := .httpException 404 "Record not found"

def alreadyArchived : Response := .httpException 404 "Record not found or already archived"

/-- The roles of the session that the cookie names, or why there is none. -/
abbrev Session := Except String (List String)

/-- `session_role_guard`: the answer to a request that is not let through. -/
def sessionRoleGuard (requiredRoles : List String) (session : Session) : Option Response :=
  match session with
  | .error detail => some (.httpException 401 detail)
  | .ok roles =>
    if roles.any requiredRoles.contains then none
    else some (.httpException 403 "Insufficient role permissions")

def createRecord (world : World) (body : RecordRequest) (fresh : Fresh) : World × Response :=
  match Ingestor.createRecord world.store body fresh with
  | none => (world, .internalServerError)
  | some (store, record) => ({ world with store }, .created (.modelValidate record))

/-- The cache is read when the request starts and written when it is finished. -/
def getRecord (codec : RecordCodec) (world : World) (recordId : Int) (started finished : ℚ) : World × Response :=
  match Cache.getRecord codec world.cache started recordId with
  | some cachedRecord => (world, .ok cachedRecord)
  | none =>
    match Ingestor.getRecord world.store recordId with
    -- A miss is not cached, so a record that is created later is found.
    | none => (world, notFound)
    | some record =>
      let response := RecordResponse.modelValidate record
      let cache := Cache.setRecord codec world.cache finished recordId response Cache.cacheTtlRecord
      ({ world with cache }, .ok response)

def updateRecordEndpoint (world : World) (recordId : Int) (body : UpdateRecordRequest) (updatedAt : DateTime) :
    World × Response :=
  match updateRecord world.store recordId body updatedAt with
  | none => (world, .internalServerError)
  | some (store, none) => ({ world with store }, notFound)
  | some (store, some record) => ({ world with store }, .ok (.modelValidate record))

def processRecord (world : World) (recordId : Int) (now updatedAt : DateTime) : World × Response :=
  match markProcessed world.store recordId now updatedAt with
  | none => (world, .internalServerError)
  | some (store, none) => ({ world with store }, notFound)
  | some (store, some record) =>
    -- The cache is cleared even if the record was processed before.
    let cache := Cache.invalidateRecord world.cache recordId
    ({ world with store, cache }, .ok (.modelValidate record))

def archiveRecord (world : World) (recordId : Int) (now updatedAt : DateTime) : World × Response :=
  match softDeleteRecord world.store recordId now updatedAt with
  | none => (world, .internalServerError)
  | some (store, none) => ({ world with store }, alreadyArchived)
  | some (store, some record) => ({ world with store }, .ok (.modelValidate record))

def deleteRecord (world : World) (recordId : Int) : World × Response :=
  match Ingestor.deleteRecord world.store recordId with
  -- Archived records can be deleted too.
  | (store, none) => ({ world with store }, notFound)
  | (store, some _) => ({ world with store, cache := Cache.invalidateRecord world.cache recordId }, .noContent)

def archiveRecordSecured (session : Session) (world : World) (recordId : Int)
    (now updatedAt : DateTime) : World × Response :=
  match sessionRoleGuard ["writer", "admin"] session with
  | some refused => (world, refused)
  | none => archiveRecord world recordId now updatedAt

def deleteRecordSecured (session : Session) (world : World) (recordId : Int) : World × Response :=
  match sessionRoleGuard ["admin"] session with
  | some refused => (world, refused)
  | none => deleteRecord world recordId

/-! ## Requests one after another -/

inductive Request where
  | create (body : RecordRequest) (fresh : Fresh)
  | get (recordId : Int)
  | update (recordId : Int) (body : UpdateRecordRequest) (updatedAt : DateTime)
  | process (recordId : Int) (now updatedAt : DateTime)
  | archive (recordId : Int) (now updatedAt : DateTime)
  | archiveSecured (session : Session) (recordId : Int) (now updatedAt : DateTime)
  | delete (recordId : Int)
  | deleteSecured (session : Session) (recordId : Int)

structure Exchange where
  request : Request
  started : ℚ
  finished : ℚ

def handle (codec : RecordCodec) (world : World) (exchange : Exchange) : World × Response :=
  match exchange.request with
  | .create body fresh => createRecord world body fresh
  | .get recordId => getRecord codec world recordId exchange.started exchange.finished
  | .update recordId body updatedAt => updateRecordEndpoint world recordId body updatedAt
  | .process recordId now updatedAt => processRecord world recordId now updatedAt
  | .archive recordId now updatedAt => archiveRecord world recordId now updatedAt
  | .archiveSecured session recordId now updatedAt => archiveRecordSecured session world recordId now updatedAt
  | .delete recordId => deleteRecord world recordId
  | .deleteSecured session recordId => deleteRecordSecured session world recordId

/-- The driver is given an id or contents that do not fit their columns. -/
def refused (codec : RecordCodec) (world : World) (exchange : Exchange) : Bool :=
  match exchange.request with
  | .create body _ => !body.fits
  -- A hit does not come to the database.
  | .get recordId =>
    (Cache.getRecord codec world.cache exchange.started recordId).isNone && !decide (FitsInteger recordId)
  -- Of a row that is found, the new contents are sent.
  | .update recordId body _ =>
    !decide (FitsInteger recordId) || (world.store.find? recordId).any fun record => !(body.apply record).fits
  | .process recordId _ _ | .archive recordId _ _ | .delete recordId => !decide (FitsInteger recordId)
  | .archiveSecured session recordId _ _ =>
    (sessionRoleGuard ["writer", "admin"] session).isNone && !decide (FitsInteger recordId)
  | .deleteSecured session recordId =>
    (sessionRoleGuard ["admin"] session).isNone && !decide (FitsInteger recordId)

/-- `JSONResponse` encodes what the body holds. -/
def rendered : Response → Response
  | .ok body => if rendersJson body.rawData then .ok body else .internalServerError
  | .created body => if rendersJson body.rawData then .created body else .internalServerError
  | response => response

def serve (codec : RecordCodec) (world : World) (exchange : Exchange) : World × Response :=
  if refused codec world exchange then (world, .internalServerError)
  else ((handle codec world exchange).1, rendered (handle codec world exchange).2)

/-- The database gives a new row a new id. -/
def Request.Possible (store : Store) : Request → Prop
  | .create _ fresh => fresh.id ∉ store.issued
  | _ => True

instance (store : Store) (request : Request) : Decidable (request.Possible store) := by
  cases request <;> unfold Request.Possible <;> infer_instance

/-- Completed requests, no two of which overlap. -/
def machine (codec : RecordCodec) : Machine World Exchange where
  step world exchange :=
    if world.clock ≤ exchange.started ∧ exchange.started ≤ exchange.finished ∧
        exchange.request.Possible world.store then
      some { (serve codec world exchange).1 with clock := exchange.finished }
    else none

theorem machine_step {codec : RecordCodec} {before after : World} {exchange : Exchange} :
    (machine codec).step before exchange = some after ↔
      (before.clock ≤ exchange.started ∧ exchange.started ≤ exchange.finished ∧
        exchange.request.Possible before.store) ∧
      after = { (serve codec before exchange).1 with clock := exchange.finished } := by
  simp only [machine, Option.ite_none_right_eq_some, Option.some.injEq]
  exact and_congr_right fun _ => eq_comm

end DataPipeline.Ingestor.Records
