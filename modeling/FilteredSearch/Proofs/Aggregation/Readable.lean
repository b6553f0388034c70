import FilteredSearch.Proofs.Aggregation.ReadBack
import FilteredSearch.Proofs.Decode.Forms

/-!
# Readable results

A metric reads a result exactly when the result has the form of the record for its shape, and any
other result is an error.  In a result with a single value the value is an optional field, so an
object that has none, such as the result of a bucket, is read as the result over an empty bucket.
-/

namespace FilteredSearch

open Json

namespace ResultShape

/-- The field of a double that may be missing or null. -/
def optionalNumber (name : String) : Field := ⟨name, false, IsNullOr IsNumber⟩

/-- The fields of the results of a shape, as a search engine reports them. -/
def fields : ResultShape → List Field
  | .single => [optionalNumber "value"]
  | .stats =>
    [⟨"count", true, IsUnsigned⟩, optionalNumber "min", optionalNumber "max",
      optionalNumber "avg", ⟨"sum", true, IsNumber⟩]
  | .extended =>
    [⟨"count", true, IsUnsigned⟩, optionalNumber "min", optionalNumber "max",
      optionalNumber "avg", ⟨"sum", true, IsNumber⟩, optionalNumber "sum_of_squares",
      optionalNumber "variance", optionalNumber "std_deviation",
      ⟨"std_deviation_bounds", false,
        IsNullOr (IsRecord [optionalNumber "upper", optionalNumber "lower"])⟩]

theorem optionalDouble_accepts {σ : Type} {name : String} {get : σ → Option Float} :
  (optionalDouble name get).Accepts [optionalNumber name]
  := Record.accepts_field Codec.double_accepts.nullable rfl

theorem count_accepts {σ : Type} {get : σ → UInt64} :
  (Record.field "count" .unsigned get).Accepts [⟨"count", true, IsUnsigned⟩]
  := Record.accepts_field Codec.unsigned_accepts rfl

theorem sum_accepts {σ : Type} {get : σ → Float} :
  (Record.field "sum" .double get).Accepts [⟨"sum", true, IsNumber⟩]
  := Record.accepts_field Codec.double_accepts rfl

theorem single_accepts :
  SingleValueMetric.codec.Accepts (IsRecord (fields .single))
  := (optionalDouble_accepts.map _).codec _

theorem stats_accepts :
  StatsResult.codec.Accepts (IsRecord (fields .stats))
  := (((((count_accepts.map _).seq optionalDouble_accepts).seq optionalDouble_accepts).seq
    optionalDouble_accepts).seq sum_accepts).codec _

theorem bounds_accepts :
  ExtendedStatsResult.DeviationBounds.codec.Accepts
    (IsRecord [optionalNumber "upper", optionalNumber "lower"])
  := ((optionalDouble_accepts.map _).seq optionalDouble_accepts).codec _

theorem extended_accepts :
  ExtendedStatsResult.engineCodec.Accepts (IsRecord (fields .extended))
  := (((((((((count_accepts.map _).seq optionalDouble_accepts).seq optionalDouble_accepts).seq
    optionalDouble_accepts).seq sum_accepts).seq optionalDouble_accepts).seq
    optionalDouble_accepts).seq optionalDouble_accepts).seq
    (Record.accepts_field bounds_accepts.nullable rfl)).codec _

/-- The results of a shape are read from the records with its fields. -/
theorem exists_read_eq_ok_iff (shape : ResultShape) {document : Json}
    (hcanonical : document.IsCanonical) :
  (∃ result, shape.read document = .ok result) ↔ IsRecord shape.fields document
  := by
  cases shape with
  | single => exact single_accepts document hcanonical
  | stats => exact stats_accepts document hcanonical
  | extended => exact extended_accepts document hcanonical

end ResultShape

namespace Metric

variable {α : Type} {metric : Metric} {response : SearchResponse α} {document : Json}

theorem isCanonical_of_leads {names : List String} {target : Json} (h : document.Leads names target)
    (hcanonical : document.IsCanonical) :
  target.IsCanonical
  := by
  induction h with
  | here => exact hcanonical
  | member hvalue _ ih => exact ih (isCanonical_of_find? hcanonical.2 hvalue)

/-- A metric reads the result that its path leads to exactly when the result is a record with the
fields of its shape, and any other result there is an error.  So an object that is read has every
required field, in its form. -/
theorem read_iff_isRecord (hcanonical : (Json.object response.aggregations).IsCanonical)
    (hfind : metric.find? response = some document) :
  ((∃ result, metric.read response = .ok result) ↔ IsRecord metric.kind.shape.fields document)
    ∧ (¬IsRecord metric.kind.shape.fields document →
      ∃ reason, metric.read response = .error (.unreadableResult reason))
    ∧ ∀ members result, document = .object members → metric.read response = .ok result →
      ∀ field ∈ metric.kind.shape.fields, field.required = true →
        ∃ value, Keyed.find? field.name members = some value ∧ field.form value
  := by
  have hdocument : document.IsCanonical := by
    have hpath : metric.path ≠ [] := by
      intro hpath
      simp [find?, hpath] at hfind
    rw [find?_eq hpath] at hfind
    exact isCanonical_of_leads (leads_of_follow? hfind) hcanonical
  have hread : metric.read response = metric.kind.shape.parse document := by
    rw [read, hfind]
  have hiff : (∃ result, metric.read response = .ok result)
      ↔ IsRecord metric.kind.shape.fields document := by
    rw [← ResultShape.exists_read_eq_ok_iff metric.kind.shape hdocument, hread,
      ResultShape.parse]
    cases metric.kind.shape.read document <;> simp [Except.mapError]
  refine ⟨hiff, ?_, ?_⟩
  · intro hform
    rw [← ResultShape.exists_read_eq_ok_iff metric.kind.shape hdocument] at hform
    rw [hread, ResultShape.parse]
    cases hresult : metric.kind.shape.read document with
    | ok result => exact absurd ⟨result, hresult⟩ hform
    | error error => exact ⟨error.message, rfl⟩
  · rintro members result rfl hresult field hfield hrequired
    obtain ⟨hfields⟩ | _ := hiff.mp ⟨result, hresult⟩
    exact (hfields field hfield).exists_of_required hrequired

/-- A response in which a document stands as the result of the aggregation `age`. -/
def withAge (document : Json) : SearchResponse Json := { aggregations := [("age", document)] }

/-- The result of a bucket that is no metric. -/
def bucket : Json := .object [("doc_count", .ofUInt64 2)]

/-- The result of `stats` over an empty bucket. -/
def emptyStats : Json := .object [("count", .ofUInt64 0), ("sum", .ofUInt64 0)]

theorem read_iff_isRecord_stats :
  let metric : Metric := ⟨["age"], .stats⟩
  (∃ result, metric.read (withAge emptyStats) = .ok result)
    ∧ ∃ reason, metric.read (withAge bucket) = .error (.unreadableResult reason)
  := by
  intro metric
  have hempty : (Json.object (withAge emptyStats).aggregations).IsCanonical := by
    refine ⟨List.pairwise_singleton _ _, ⟨?_, trivial, trivial, trivial⟩, trivial⟩
    simp only [Keyed.Ascending]
    decide
  have hbucket : (Json.object (withAge bucket).aggregations).IsCanonical :=
    ⟨List.pairwise_singleton _ _, ⟨List.pairwise_singleton _ _, trivial, trivial⟩, trivial⟩
  obtain ⟨hread, -⟩ := @read_iff_isRecord Json metric _ emptyStats hempty rfl
  obtain ⟨-, hunreadable, -⟩ := @read_iff_isRecord Json metric _ bucket hbucket rfl
  constructor
  · apply hread.mpr
    apply IsRecord.object
    simp [metric, MetricKind.shape, ResultShape.fields, ResultShape.optionalNumber,
      Field.StandsIn, Keyed.find?, Json.ofUInt64, Number.ofUInt64, IsUnsigned, IsNumber]
  · apply hunreadable
    rintro ⟨hfields⟩
    obtain ⟨_, hfound, -⟩ := (hfields _ List.mem_cons_self).exists_of_required rfl
    cases hfound

/-- A metric with a single value reads a bucket, and an array of a null, as the result over an empty
bucket, although neither has a value. -/
theorem read_eq_none_of_noValue :
  let metric : Metric := ⟨["age"], .max⟩
  (metric.find? (withAge bucket) = some bucket ∧ bucket.member? "value" = none
      ∧ metric.read (withAge bucket) = .ok ⟨none⟩)
    ∧ metric.read (withAge (.array [.null])) = .ok ⟨none⟩
  := ⟨⟨rfl, rfl, rfl⟩, rfl⟩

end Metric

end FilteredSearch
