import FilteredSearch.Decode.Record

/-!
# Search responses

What a search engine answers: how its shards fared, the documents found, and the results of the
aggregations by name, each left as a document until a metric reads it.
-/

namespace FilteredSearch

/-- How the shards of a search engine fared. -/
structure Shards where
  total : UInt64 := 0
  successful : UInt64 := 0
  failed : UInt64 := 0
deriving DecidableEq

/-- A document that was found, with a source of the type `α`. -/
structure Hit (α : Type) where
  index : String
  type : String
  id : String
  source : α

/-- The documents found: how many there are, and one page of them. -/
structure Hits (α : Type) where
  total : UInt64 := 0
  hits : List (Hit α) := []

/-- The answer of a search engine. -/
structure SearchResponse (α : Type) where
  shards : Shards := {}
  hits : Hits α := {}
  aggregations : List (String × Json) := []

/-- The result of the aggregation with a name. -/
def SearchResponse.aggregation? {α : Type} (response : SearchResponse α) (name : String) :
    Option Json :=
  Keyed.find? name response.aggregations

/-- The codec of shards. -/
def Shards.codec : Codec Shards :=
  Record.codec
    (Shards.mk
      <$> .field "total" .unsigned (·.total)
      <*> .field "successful" .unsigned (·.successful)
      <*> .field "failed" .unsigned (·.failed))
    "Shards"

/-- The codec of a document found, given one of its source. -/
def Hit.codec {α : Type} (source : Codec α) : Codec (Hit α) :=
  Record.codec
    (Hit.mk
      <$> .field "_index" .string (·.index)
      <*> .field "_type" .string (·.type) (.default "")
      <*> .field "_id" .string (·.id)
      <*> .field "_source" source (·.source))
    "Hit"

/-- The codec of documents found, given one of their sources. -/
def Hits.codec {α : Type} (source : Codec α) : Codec (Hits α) :=
  Record.codec
    (Hits.mk
      <$> .field "total" .unsigned (·.total)
      <*> .field "hits" (.list (Hit.codec source)) (·.hits) (.default []))
    "Hits"

/-- The codec of responses, given one of the sources. -/
def SearchResponse.codec {α : Type} (source : Codec α) : Codec (SearchResponse α) :=
  Record.codec
    (SearchResponse.mk
      <$> .field "_shards" Shards.codec (·.shards) (.default {})
      <*> .field "hits" (Hits.codec source) (·.hits) (.default {})
      <*> .field "aggregations" .members (·.aggregations) (.default []))
    "SearchResponse"

end FilteredSearch
