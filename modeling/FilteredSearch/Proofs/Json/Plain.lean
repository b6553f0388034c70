import FilteredSearch.Proofs.Json.Record

/-!
# Plain documents

A plain document is canonical and its numbers are integers.
-/

namespace FilteredSearch

namespace Json

/-- The names of every object in the document ascend, and every number in it is an integer. -/
inductive IsPlain : Json → Prop
  | null : IsPlain .null
  | bool (value : Bool) : IsPlain (.bool value)
  | integer (value : Int) (fits : Number.Fits value) : IsPlain (.number (.integer value fits))
  | string (value : String) : IsPlain (.string value)
  | array {items : List Json} (hitems : ∀ item ∈ items, IsPlain item) : IsPlain (.array items)
  | object {members : List (String × Json)} (hascending : Keyed.Ascending members)
    (hvalues : ∀ member ∈ members, IsPlain member.2) : IsPlain (.object members)

variable {document : Json} {documents : List Json}

/-- The object without members is plain. -/
theorem IsPlain.empty :
  IsPlain (.object [])
  := .object List.Pairwise.nil (by simp)

theorem IsPlain.singleton (name : String) (h : document.IsPlain) :
  (Json.singleton name document).IsPlain
  := by
  apply IsPlain.object (List.pairwise_singleton _ _)
  rintro member hmember
  rw [List.mem_singleton.mp hmember]
  apply h

theorem IsPlain.ofMembers {members : List (String × Json)}
    (h : ∀ member ∈ members, member.2.IsPlain) :
  (Json.ofMembers members).IsPlain
  := by
  apply IsPlain.object (Keyed.ascending_ofList members)
  intro member hmember
  apply h member (Keyed.mem_of_mem_ofList hmember)

/-- The document is plain, if it is there. -/
def PlainIfAny (document? : Option Json) : Prop :=
  ∀ document, document? = some document → document.IsPlain

theorem IsPlain.plainIfAny (h : document.IsPlain) :
  PlainIfAny (some document)
  := by
  rintro _ ⟨⟩
  apply h

/-- What stands for a part is plain when it is plain for every part that is there. -/
theorem plainIfAny_of_rel {α : Type} {part : Option α} {document? : Option Json}
    {rel : α → Json → Prop} (h : Option.Rel rel part document?)
    (hplain : ∀ present, part = some present → ∀ document, rel present document →
      document.IsPlain) :
  PlainIfAny document?
  := by
  rintro document rfl
  cases h with
  | @some present _ hdocument => apply hplain present rfl document hdocument

theorem IsPlain.record {entries : List (String × Option Json)}
    (hnames : (entries.map Prod.fst).Pairwise (· < ·)) (h : ∀ entry ∈ entries, PlainIfAny entry.2) :
  (Json.record entries).IsPlain
  := by
  apply IsPlain.object (ascending_presentMembers hnames)
  rintro ⟨name, document⟩ hmember
  apply h (name, some document) (mem_presentMembers.mp hmember) document rfl

theorem plainIfAny_objectIfAny {members : List (String × Json)}
    (hascending : Keyed.Ascending members) (h : ∀ member ∈ members, member.2.IsPlain) :
  PlainIfAny (objectIfAny members)
  := by
  intro document hdocument
  rw [objectIfAny] at hdocument
  split_ifs at hdocument
  obtain rfl := Option.some.inj hdocument
  apply IsPlain.object hascending h

theorem IsPlain.ofInt64 (value : Int64) :
  (Json.ofInt64 value).IsPlain
  := .integer ..

theorem IsPlain.ofUInt64 (value : UInt64) :
  (Json.ofUInt64 value).IsPlain
  := .integer ..

/-- The only document of a list, or else the object without members, is plain. -/
theorem IsPlain.headD (h : ∀ document ∈ documents, document.IsPlain) :
  (documents.headD (.object [])).IsPlain
  := by
  cases documents with
  | nil => exact .empty
  | cons document _ => exact h document List.mem_cons_self

end Json

end FilteredSearch
