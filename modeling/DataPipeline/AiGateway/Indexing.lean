import DataPipeline.AiGateway.Embeddings
import DataPipeline.Library.JsonWriting

/-! The endpoint of `services/ai_gateway/main.py` that indexes documents, and
the part of `services/ai_gateway/vector_store.py` under it.

The client of Qdrant is a parameter. The gateway does not start without a vector
store, and documents have integers as ids and strings as texts, or are refused.
-/

set_option autoImplicit false

namespace DataPipeline.AiGateway

open Encoding

structure Point (Component : Type) where
  id : Int
  vector : Embedding Component
  payload : List (Text × Json)

/-- The calls of the client, with whether they return rather than raise, and
what a collection holds under an id. -/
structure Qdrant (State Component : Type) where
  getCollection : State → String → State × Bool
  createCollection : State → String → Nat → State × Bool
  upsert : State → String → List (Point Component) → State × Bool
  find : State → String → Int → Option (Point Component)

variable {State Component : Type}

/-- What the documentation of Qdrant says of these calls. An upsert that raises
may have written some of its points. -/
structure Qdrant.Documented (qdrant : Qdrant State Component) : Prop where
  get : ∀ state name collection id,
    qdrant.find (qdrant.getCollection state name).1 collection id = qdrant.find state collection id
  create : ∀ state name size collection id,
    qdrant.find (qdrant.createCollection state name size).1 collection id = qdrant.find state collection id
  upsert : ∀ state name points collection id, (points.map Point.id).Nodup →
    (qdrant.upsert state name points).2 = true →
    qdrant.find (qdrant.upsert state name points).1 collection id =
      if collection = name then (points.find? (·.id = id)).or (qdrant.find state collection id)
      else qdrant.find state collection id
  raised : ∀ state name points collection id,
    qdrant.find (qdrant.upsert state name points).1 collection id = qdrant.find state collection id ∨
      (collection = name ∧ ∃ point ∈ points, point.id = id ∧
        qdrant.find (qdrant.upsert state name points).1 collection id = some point)

def embeddingDimension : Nat := 384

variable (qdrant : Qdrant State Component) (encode : Text → Embedding Component)

def ensureCollection (state : State) (name : String) : State × Bool :=
  match qdrant.getCollection state name with
  | (state, true) => (state, true)
  | (state, false) => qdrant.createCollection state name embeddingDimension

structure IndexRequest where
  documents : List (List (Text × Json))
  collection : String

inductive IndexReply where
  | indexed (indexedCount : Nat) (collection : String)
  | unprocessable (field : String)
  | httpException (statusCode : Nat) (detail : String)
  deriving DecidableEq

def maxDocuments : Nat := 1000

structure Gateway (State Component : Type) where
  cache : EmbeddingCache Component
  state : State

/-- `doc["text"]` -/
def documentText (document : List (Text × Json)) : Option Text :=
  match document.lookup (Text.ofString "text") with
  | some (.str text) => some text
  | _ => none

/-- The point of a document, whose metadata may replace its text. -/
def documentPoint (document : List (Text × Json)) (embedding : Embedding Component) : Option (Point Component) :=
  match document.lookup (Text.ofString "id"), documentText document,
    (document.lookup (Text.ofString "metadata")).getD (.dict []) with
  | some (.int id), some text, .dict metadata =>
    some ⟨id, embedding, Json.merge [(Text.ofString "text", .str text)] metadata⟩
  | _, _, _ => none

def indexingFailed : IndexReply := .httpException 500 "Failed to index documents"

/-- `index`, with whether the model would raise for a text now. -/
def index (gateway : Gateway State Component) (request : IndexRequest) (raises : Text → Bool) :
    Gateway State Component × IndexReply :=
  if request.documents = [] ∨ maxDocuments < request.documents.length then (gateway, .unprocessable "documents")
  else
    match ensureCollection qdrant gateway.state request.collection with
    | (state, false) => ({ gateway with state }, indexingFailed)
    | (state, true) =>
      match request.documents.mapM documentText with
      | none => ({ gateway with state }, indexingFailed)
      | some texts =>
        match embedBatch encode gateway.cache (texts.map fun text => (text, raises text)) with
        | (cache, none) => (⟨cache, state⟩, indexingFailed)
        | (cache, some embeddings) =>
          match (request.documents.zip embeddings).mapM fun pair => documentPoint pair.1 pair.2 with
          | none => (⟨cache, state⟩, indexingFailed)
          | some points =>
            match qdrant.upsert state request.collection points with
            | (state, false) => (⟨cache, state⟩, indexingFailed)
            | (state, true) => (⟨cache, state⟩, .indexed request.documents.length request.collection)

/-! ## What indexing does -/

def pointOf (document : List (Text × Json)) : Option (Point Component) :=
  (documentText document).bind fun text => documentPoint document (encode text)

variable {qdrant encode} {gateway : Gateway State Component} {used : List Text} {request : IndexRequest}
  {points : List (Point Component)}

theorem find_ensureCollection (documented : qdrant.Documented) (state : State) (name collection : String) (id : Int) :
    qdrant.find (ensureCollection qdrant state name).1 collection id = qdrant.find state collection id := by
  have kept := documented.get state name collection id
  unfold ensureCollection
  split
  next shape => rwa [shape] at kept
  next shape =>
    rw [shape] at kept
    rw [documented.create, kept]

/-- The points of the documents are made after all of their texts are embedded. -/
theorem mapM_points {documents : List (List (Text × Json))} (built : documents.mapM (pointOf encode) = some points) :
    ∃ texts, documents.mapM documentText = some texts ∧
      ((documents.zip (texts.map encode)).mapM fun pair => documentPoint pair.1 pair.2) = some points := by
  induction documents generalizing points with
  | nil => exact ⟨[], rfl, built⟩
  | cons document documents ih =>
    simp only [List.mapM_cons, Option.bind_eq_bind, Option.pure_def, Option.bind_eq_some_iff, pointOf,
      Option.some.injEq] at built
    obtain ⟨first, ⟨text, read, point⟩, rest, built, rfl⟩ := built
    obtain ⟨texts, texts', points'⟩ := ih built
    refine ⟨text :: texts, ?_, ?_⟩
    · rw [List.mapM_cons, read, texts']
      rfl
    · rw [List.map_cons, List.zip_cons_cons, List.mapM_cons]
      dsimp only
      rw [point, points']
      rfl

def Written (qdrant : Qdrant State Component) (before after : State) (collection : String)
    (points : List (Point Component)) : Prop :=
  ∀ name id, qdrant.find after name id =
    if name = collection then (points.find? (·.id = id)).or (qdrant.find before name id)
    else qdrant.find before name id

/-- Nothing has changed but that some of the points may be in the collection. -/
def Attempted (qdrant : Qdrant State Component) (before after : State) (collection : String)
    (points : List (Point Component)) : Prop :=
  ∀ name id, qdrant.find after name id = qdrant.find before name id ∨
    (name = collection ∧ ∃ point ∈ points, point.id = id ∧ qdrant.find after name id = some point)

theorem Written.attempted {before after : State} {collection : String}
    (written : Written qdrant before after collection points) : Attempted qdrant before after collection points := by
  intro name id
  rw [written name id]
  split
  next same =>
    cases found : points.find? (·.id = id) with
    | none => exact .inl rfl
    | some point =>
      exact .inr ⟨same, point, List.mem_of_find?_eq_some found, by simpa using List.find?_some found, rfl⟩
  next => exact .inl rfl

/-- A call of the endpoint: the cache stays one of what the model computes, and
the answer is that of the documents exactly if their points have been written. -/
structure Indexing (qdrant : Qdrant State Component) (encode : Text → Embedding Component)
    (gateway : Gateway State Component) (request : IndexRequest) (points : List (Point Component))
    (after : Gateway State Component) (reply : IndexReply) : Prop where
  cache : ∃ used, Recent.Holds encode embeddingCacheSize used after.cache
  indexed : reply = .indexed request.documents.length request.collection ∧
      Written qdrant gateway.state after.state request.collection points ∨
    reply = indexingFailed ∧ Attempted qdrant gateway.state after.state request.collection points

theorem index_spec (documented : qdrant.Documented)
    (holds : ∃ used, Recent.Holds encode embeddingCacheSize used gateway.cache)
    (present : request.documents ≠ []) (few : request.documents.length ≤ maxDocuments)
    (built : request.documents.mapM (pointOf encode) = some points) (distinct : (points.map Point.id).Nodup)
    (raises : Text → Bool) :
    Indexing qdrant encode gateway request points (index qdrant encode gateway request raises).1
      (index qdrant encode gateway request raises).2 := by
  obtain ⟨used, holds⟩ := holds
  obtain ⟨texts, read, made⟩ := mapM_points built
  have admitted : ¬ (request.documents = [] ∨ maxDocuments < request.documents.length) :=
    fun refused => refused.elim present (Nat.not_lt.mpr few)
  have ensured := find_ensureCollection documented gateway.state request.collection
  unfold index
  rw [if_neg admitted, read]
  generalize ensureCollection qdrant gateway.state request.collection = created at ensured
  obtain ⟨state, available⟩ := created
  cases available with
  | false => exact ⟨⟨used, holds⟩, .inr ⟨rfl, fun name id => .inl (ensured name id)⟩⟩
  | true =>
    obtain ⟨cache, batch, held⟩ := holds.calls (texts.map fun text => (text, raises text))
    have embeddings : (texts.map fun text => (text, raises text)).map (fun attempt => encode attempt.1) =
        texts.map encode := by
      rw [List.map_map]
      rfl
    rw [embeddings] at batch
    dsimp only
    rw [embedBatch, batch]
    cases (Recent.answered embeddingCacheSize used (texts.map fun text => (text, raises text))).2 with
    | false => exact ⟨⟨_, held⟩, .inr ⟨rfl, fun name id => .inl (ensured name id)⟩⟩
    | true =>
      rw [if_pos rfl]
      dsimp only
      rw [made]
      dsimp only
      have upserted := documented.upsert state request.collection points
      have raised := documented.raised state request.collection points
      generalize qdrant.upsert state request.collection points = result at upserted raised
      obtain ⟨final, written⟩ := result
      cases written with
      | false =>
        refine ⟨⟨_, held⟩, .inr ⟨rfl, fun name id => ?_⟩⟩
        rw [← ensured name id]
        exact raised name id
      | true =>
        refine ⟨⟨_, held⟩, .inl ⟨rfl, fun name id => ?_⟩⟩
        rw [← ensured name id]
        exact upserted name id distinct rfl

end DataPipeline.AiGateway
