import DataPipeline.Library.Json
import DataPipeline.Library.Recent

/-! The embeddings of `services/ai_gateway/embeddings.py`, which are computed
once for a text as long as it is in use, and the endpoints that return them.

What the model computes for a text is a parameter. Each request says for each
of its texts whether the model would raise now; loading it is part of that.
-/

set_option autoImplicit false

namespace DataPipeline.AiGateway

open Encoding

/-- The `maxsize` of the cache of `_embed_cached`. -/
def embeddingCacheSize : Nat := 1000

variable {Component : Type}

abbrev Embedding (Component : Type) := List Component

abbrev EmbeddingCache (Component : Type) := Recent.Cache Text (Embedding Component)

variable (encode : Text → Embedding Component)

/-- `embed_text`, with whether the model would raise; none if it does. -/
def embedText (cache : EmbeddingCache Component) (text : Text) (raises : Bool) :
    EmbeddingCache Component × Option (Embedding Component) :=
  Recent.call embeddingCacheSize encode cache text raises

def embedBatch (cache : EmbeddingCache Component) (texts : List (Text × Bool)) :
    EmbeddingCache Component × Option (List (Embedding Component)) :=
  Recent.calls embeddingCacheSize encode cache texts

/-! ## Endpoints -/

inductive EmbedRequest where
  | one (text : Text) (raises : Bool)
  | batch (texts : List (Text × Bool))
  deriving DecidableEq

inductive EmbedReply (Component : Type) where
  | embedding (embedding : Embedding Component) (dimension : Nat)
  | embeddings (embeddings : List (Embedding Component)) (count : Nat)
  | unprocessable (field : String)
  | httpException (statusCode : Nat) (detail : String)
  deriving DecidableEq

def maxBatchTexts : Nat := 100

/-- `embed` and `embed_batch_endpoint` with the checks of their requests. -/
def EmbedRequest.answer (cache : EmbeddingCache Component) :
    EmbedRequest → EmbeddingCache Component × EmbedReply Component
  | .one text raises =>
    if text = [] then (cache, .unprocessable "text")
    else
      match embedText encode cache text raises with
      | (cache, some embedding) => (cache, .embedding embedding embedding.length)
      | (cache, none) => (cache, .httpException 500 "Failed to embed text")
  | .batch texts =>
    if texts = [] ∨ maxBatchTexts < texts.length then (cache, .unprocessable "texts")
    else
      match embedBatch encode cache texts with
      | (cache, some embeddings) => (cache, .embeddings embeddings embeddings.length)
      | (cache, none) => (cache, .httpException 500 "Failed to embed batch")

/-- The cache after requests one after another: no request is interrupted, since
none of them waits for anything. -/
def cacheAfter (requests : List EmbedRequest) : EmbeddingCache Component :=
  requests.foldl (fun cache request => (request.answer encode cache).1) []

/-! ## The same without a cache -/

def EmbedRequest.texts : EmbedRequest → List (Text × Bool)
  | .one text raises => if text = [] then [] else [(text, raises)]
  | .batch texts => if texts = [] ∨ maxBatchTexts < texts.length then [] else texts

def embeddedAfter (requests : List EmbedRequest) : List Text :=
  requests.foldl (fun used request => (Recent.answered embeddingCacheSize used request.texts).1) []

/-- What a request is answered if each text is given to the model, which does
not raise for the texts that have been in use lately. -/
def EmbedRequest.computed (used : List Text) : EmbedRequest → EmbedReply Component
  | .one text raises =>
    if text = [] then .unprocessable "text"
    else if (Recent.answered embeddingCacheSize used [(text, raises)]).2 then
      .embedding (encode text) (encode text).length
    else .httpException 500 "Failed to embed text"
  | .batch texts =>
    if texts = [] ∨ maxBatchTexts < texts.length then .unprocessable "texts"
    else if (Recent.answered embeddingCacheSize used texts).2 then
      .embeddings (texts.map fun text => encode text.1) texts.length
    else .httpException 500 "Failed to embed batch"

variable {encode} {cache : EmbeddingCache Component} {used : List Text}

theorem answer_holds (holds : Recent.Holds encode embeddingCacheSize used cache) (request : EmbedRequest) :
    ∃ next, request.answer encode cache = (next, request.computed encode used) ∧
      Recent.Holds encode embeddingCacheSize (Recent.answered embeddingCacheSize used request.texts).1 next := by
  cases request with
  | one text raises =>
    rw [EmbedRequest.answer, EmbedRequest.computed, EmbedRequest.texts]
    by_cases empty : text = []
    · rw [if_pos empty, if_pos empty, if_pos empty]
      exact ⟨cache, rfl, holds⟩
    · rw [if_neg empty, if_neg empty, if_neg empty, embedText]
      by_cases fails : raises = true ∧ text ∉ (Recent.order used).take embeddingCacheSize
      · rw [holds.call_of_fails fails, Recent.answered_of_fails [] fails]
        exact ⟨cache, rfl, holds⟩
      · obtain ⟨next, called, held⟩ := holds.call_of_works fails
        rw [called, Recent.answered_of_works [] fails]
        exact ⟨next, rfl, held⟩
  | batch texts =>
    rw [EmbedRequest.answer, EmbedRequest.computed, EmbedRequest.texts]
    by_cases refused : texts = [] ∨ maxBatchTexts < texts.length
    · rw [if_pos refused, if_pos refused, if_pos refused]
      exact ⟨cache, rfl, holds⟩
    · rw [if_neg refused, if_neg refused, if_neg refused, embedBatch]
      obtain ⟨next, called, held⟩ := holds.calls texts
      rw [called]
      refine ⟨next, ?_, held⟩
      cases (Recent.answered embeddingCacheSize used texts).2 with
      | false => rfl
      | true => simp

theorem cacheAfter_concat (requests : List EmbedRequest) (last : EmbedRequest) :
    cacheAfter encode (requests ++ [last]) = (last.answer encode (cacheAfter encode requests)).1 :=
  List.foldl_concat ..

theorem embeddedAfter_concat (requests : List EmbedRequest) (last : EmbedRequest) :
    embeddedAfter (requests ++ [last]) =
      (Recent.answered embeddingCacheSize (embeddedAfter requests) last.texts).1 :=
  List.foldl_concat ..

theorem cacheAfter_holds (encode : Text → Embedding Component) (requests : List EmbedRequest) :
    Recent.Holds encode embeddingCacheSize (embeddedAfter requests) (cacheAfter encode requests) := by
  induction requests using List.reverseRecOn with
  | nil => exact .nil encode embeddingCacheSize
  | append_singleton requests last ih =>
    obtain ⟨next, answered, held⟩ := answer_holds ih last
    rw [cacheAfter_concat, embeddedAfter_concat, answered]
    exact held

/-- After any requests, a request is answered as if every text were given to the
model, save that the model does not raise for one of the thousand texts that were
embedded last. No more than a thousand are held. -/
theorem embeddings_cached (encode : Text → Embedding Component) (requests : List EmbedRequest)
    (request : EmbedRequest) :
    (request.answer encode (cacheAfter encode requests)).2 = request.computed encode (embeddedAfter requests) ∧
      (cacheAfter encode requests).length ≤ embeddingCacheSize := by
  have holds := cacheAfter_holds encode requests
  obtain ⟨next, answered, -⟩ := answer_holds holds request
  rw [answered]
  exact ⟨rfl, holds.length_le⟩

/-- The model fails from the second request on: the first text is still answered. -/
example : (EmbedRequest.batch [([1], true)]).computed (fun text => text) (embeddedAfter [.one [1] false]) =
    .embeddings [[1]] 1 := by
  decide

end DataPipeline.AiGateway
