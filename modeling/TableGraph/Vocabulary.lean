import TableGraph.Standard

/-!
# Vocabularies

A `Vocabulary` binds a label to a namespace, and may say where its terms are described. A
`VocabularyList` keeps vocabularies in the order in which they were added, and a label that is bound
stays bound to the first: `add?` refuses another vocabulary of that label.
-/

namespace TableGraph

/-- Where the terms of a vocabulary are described. -/
inductive LocationType
  | nowhere
  | url
  | file
  deriving DecidableEq, Repr

namespace LocationType

def name : LocationType → String
  | .nowhere => "NONE"
  | .url => "URL"
  | .file => "FILE"

/-- The location type of a name in either case. A name that is not known means nowhere. -/
def ofName (s : String) : LocationType :=
  match s.map Char.toUpper with
  | "URL" => .url
  | "FILE" => .file
  | _ => .nowhere

end LocationType

/-- A label bound to a namespace. -/
structure Vocabulary where
  label : String
  ns : String
  location : String := ""
  locationType : LocationType := .nowhere
  deriving DecidableEq, Repr

/-- Vocabularies in the order in which they were added. -/
structure VocabularyList where
  entries : List Vocabulary
  deriving DecidableEq, Repr

namespace VocabularyList

def empty : VocabularyList := ⟨[]⟩

def find? (list : VocabularyList) (label : String) : Option Vocabulary :=
  list.entries.find? fun v => v.label == label

def namespace? (list : VocabularyList) (label : String) : Option String :=
  (list.find? label).map (·.ns)

def contains (list : VocabularyList) (label : String) : Bool :=
  (list.find? label).isSome

/-- Append a vocabulary, unless its label is bound already. -/
def add? (list : VocabularyList) (v : Vocabulary) : Option VocabularyList :=
  if list.contains v.label then none else some ⟨list.entries ++ [v]⟩

theorem entries_add? {list longer : VocabularyList} {v : Vocabulary}
    (h : list.add? v = some longer) : longer.entries = list.entries ++ [v] := by
  unfold add? at h
  split at h
  · simp at h
  · exact (Option.some.inj h) ▸ rfl

/-- Append a vocabulary; a list that binds its label already stays as it is. -/
def add (list : VocabularyList) (v : Vocabulary) : VocabularyList :=
  (list.add? v).getD list

/-- Take out the vocabulary of a label, if it is bound. -/
def remove? (list : VocabularyList) (label : String) : Option VocabularyList :=
  if list.contains label then some ⟨list.entries.eraseP fun v => v.label == label⟩ else none

/-- The list that adding vocabularies one after the other leaves. -/
def ofList (vocabularies : List Vocabulary) : VocabularyList :=
  vocabularies.foldl add empty

def labels (list : VocabularyList) : List String :=
  list.entries.map (·.label)

/-- The vocabularies that are there where none are declared. -/
def predefined : VocabularyList :=
  ofList
    [ { label := "rdf", ns := Standard.rdf },
      { label := "rdfs", ns := "http://www.w3.org/2000/01/rdf-schema#" },
      { label := "owl", ns := "http://www.w3.org/2002/07/owl#" },
      { label := "xsd", ns := Standard.xsd },
      { label := "vcard", ns := "http://www.w3.org/2006/vcard/ns#" },
      { label := "foaf", ns := "http://xmlns.com/foaf/0.1/" } ]

theorem contains_iff_mem_labels {list : VocabularyList} {label : String} :
    list.contains label ↔ label ∈ list.labels := by
  simp [contains, find?, labels, List.find?_isSome]

theorem nodup_labels_add {list : VocabularyList} (h : list.labels.Nodup) (v : Vocabulary) :
    (list.add v).labels.Nodup := by
  unfold add add?
  split
  · exact h
  · rename_i hv
    rw [contains_iff_mem_labels] at hv
    rw [Option.getD_some, labels, List.map_append]
    exact List.nodup_append.2 ⟨h, by simp, fun a ha b hb hab => by
      obtain rfl : b = v.label := List.mem_singleton.1 hb
      exact hv (hab ▸ ha)⟩

theorem nodup_labels_ofList (vocabularies : List Vocabulary) : (ofList vocabularies).labels.Nodup := by
  suffices h : ∀ list : VocabularyList, list.labels.Nodup →
      (vocabularies.foldl add list).labels.Nodup from h empty (by simp [labels, empty])
  induction vocabularies with
  | nil => exact fun _ h => h
  | cons v rest ih => exact fun list h => ih _ (nodup_labels_add h v)

def hasNamespace (list : VocabularyList) (ns : String) : Bool :=
  list.entries.any fun v => v.ns == ns

/-- The labels and namespaces that are announced with a graph. The empty label comes first and means
the base, unless it is bound or the base has a label of its own. -/
def prefixMap (list : VocabularyList) (base : String) : List (String × String) :=
  let declared := list.entries.map fun v => (v.label, v.ns)
  if !list.hasNamespace base && !base.isEmpty && !list.contains "" then ("", base) :: declared
  else declared

end VocabularyList

end TableGraph
