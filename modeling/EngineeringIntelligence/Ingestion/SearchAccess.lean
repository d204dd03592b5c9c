import EngineeringIntelligence.CompanyBrain.WorldModel
import EngineeringIntelligence.Framework.OData
import EngineeringIntelligence.Ingestion.Index

namespace EngineeringIntelligence.Ingestion

open EngineeringIntelligence.CompanyBrain
open EngineeringIntelligence.Framework

/-! The access rule, as four places of the program state it: the scan of the in-memory index,
the filters that the Azure index and the hybrid retriever send to the search service, and the
evidence model. -/

/-- `_odata_escape`. -/
def odataEscape (value : String) : String := ODataFilter.escape value

/-- The `acl_filter` that `AzureSearchIndex.search` builds. -/
def AzureSearchIndex.aclFilter (groups : List String) (users : Option (List String)) : String :=
  let users := users.getD []
  let clauses :=
    (if groups = [] then [] else [" or ".intercalate (groups.map fun g =>
      "acl_groups/any(x: x eq '" ++ odataEscape g ++ "')")]) ++
    (if users = [] then [] else [" or ".intercalate (users.map fun u =>
      "acl_users/any(x: x eq '" ++ odataEscape u ++ "')")])
  if clauses = [] then "false"
  else " or ".intercalate (clauses.map fun clause => "(" ++ clause ++ ")")

/-- `AzureHybridRetriever.acl_filter`. -/
def AzureHybridRetriever.aclFilter (groups : List String) (users : Option (List String)) : String :=
  let users := users.getD []
  let clauses :=
    (groups.map fun g => "acl_groups/any(g: g eq '" ++ odataEscape g ++ "')") ++
    (users.map fun u => "acl_users/any(u: u eq '" ++ odataEscape u ++ "')")
  if clauses = [] then "false"
  else " or ".intercalate (clauses.map fun c => "(" ++ c ++ ")")

/-- The collections of an index row that a filter may range over. -/
def IndexDocument.collection (d : IndexDocument) (field : String) : List String :=
  if field = "acl_groups" then d.aclGroups else if field = "acl_users" then d.aclUsers else []

def aclFields : List String := ["acl_groups", "acl_users"]

/-- An expression over the two access lists. -/
def Readable (f : ODataFilter) : Prop := f.WellFormed ∧ ∀ p ∈ f.comparisons, p.1 ∈ aclFields

/-- What the search service does with a filter over the access lists: it takes it for what it
means. -/
def ReadsFilters (accepts : String → IndexDocument → Prop) : Prop :=
  ∀ f : ODataFilter, Readable f → ∀ d : IndexDocument, accepts f.text d ↔ f.Holds d.collection

/-- The rule itself: some group matches or some user matches. -/
def ACL.Visible (acl : ACL) (groups users : List String) : Prop :=
  (∃ g ∈ acl.groups, g ∈ groups) ∨ ∃ u ∈ acl.users, u ∈ users

/-- One comparison for each value. -/
def eachOf (field var : String) (values : List String) : List ODataFilter :=
  values.map fun value => .anyEq field var value

theorem eachOf_text (field var : String) (values : List String) :
    (eachOf field var values).map ODataFilter.text = values.map fun value =>
      field ++ "/any(" ++ var ++ ": " ++ var ++ " eq '" ++ ODataFilter.escape value ++ "')" := by
  simp [eachOf, ODataFilter.text]

theorem mem_eachOf {field var : String} {values : List String} {f : ODataFilter} :
    f ∈ eachOf field var values ↔ ∃ value ∈ values, .anyEq field var value = f := by
  simp [eachOf]

def AzureSearchIndex.filterTree (groups users : List String) : ODataFilter :=
  .disjunction (
    (if groups = [] then [] else [.paren (.disjunction (eachOf "acl_groups" "x" groups))]) ++
    (if users = [] then [] else [.paren (.disjunction (eachOf "acl_users" "x" users))]))

def AzureHybridRetriever.filterTree (groups users : List String) : ODataFilter :=
  .disjunction ((eachOf "acl_groups" "g" groups ++ eachOf "acl_users" "u" users).map .paren)

theorem disjunction_text_ne {fs : List ODataFilter} (h : fs ≠ []) :
    (ODataFilter.disjunction fs).text = " or ".intercalate (fs.map ODataFilter.text) := by
  cases fs with
  | nil => exact absurd rfl h
  | cons f fs => exact ODataFilter.disjunction_text f fs

theorem AzureSearchIndex.filterTree_text (groups : List String) (users : Option (List String)) :
    (filterTree groups (users.getD [])).text = aclFilter groups users := by
  have hclause : ∀ field values, values ≠ [] →
      (ODataFilter.disjunction (eachOf field "x" values)).text = " or ".intercalate
        (values.map fun v => field ++ "/any(x: x eq '" ++ ODataFilter.escape v ++ "')") := by
    intro field values hne
    rw [disjunction_text_ne (by simpa [eachOf] using hne), eachOf_text]
    simp [String.append_assoc]
  unfold filterTree aclFilter
  by_cases hg : groups = [] <;> by_cases hu : users.getD [] = [] <;>
    simp [hg, hu, ODataFilter.text, hclause, odataEscape, ODataFilter.disjunction]

theorem AzureHybridRetriever.filterTree_text (groups : List String)
    (users : Option (List String)) :
    (filterTree groups (users.getD [])).text = aclFilter groups users := by
  have hclauses : ((eachOf "acl_groups" "g" groups ++
      eachOf "acl_users" "u" (users.getD [])).map .paren).map ODataFilter.text =
      ((groups.map fun g => "acl_groups/any(g: g eq '" ++ odataEscape g ++ "')") ++
        ((users.getD []).map fun u => "acl_users/any(u: u eq '" ++ odataEscape u ++ "')")).map
          fun c => "(" ++ c ++ ")" := by
    have htext : ∀ field var (values : List String),
        ((eachOf field var values).map .paren).map ODataFilter.text =
          (values.map fun v => field ++ "/any(" ++ var ++ ": " ++ var ++ " eq '" ++
            ODataFilter.escape v ++ "')").map fun c => "(" ++ c ++ ")" := by
      intro field var values
      rw [← eachOf_text, List.map_map, List.map_map]
      rfl
    rw [List.map_append, List.map_append, htext, htext, List.map_append]
    rfl
  unfold filterTree aclFilter
  by_cases hnone : groups = [] ∧ users.getD [] = []
  · obtain ⟨hg, hu⟩ := hnone
    simp [hg, hu, eachOf, ODataFilter.disjunction, ODataFilter.text]
  · have hsome : (eachOf "acl_groups" "g" groups ++
        eachOf "acl_users" "u" (users.getD [])).map ODataFilter.paren ≠ [] := by
      simpa [eachOf] using hnone
    have hfilled : ¬ ((groups.map fun g => "acl_groups/any(g: g eq '" ++ odataEscape g ++ "')") ++
        ((users.getD []).map fun u => "acl_users/any(u: u eq '" ++ odataEscape u ++ "')") = []) := by
      simpa using hnone
    rw [disjunction_text_ne hsome, hclauses]
    simp only [if_neg hfilled]

theorem mem_disjunction_comparisons {fs : List ODataFilter} {p : String × String} :
    p ∈ (ODataFilter.disjunction fs).comparisons ↔ ∃ f ∈ fs, p ∈ f.comparisons := by
  induction fs with
  | nil => simp [ODataFilter.disjunction, ODataFilter.comparisons]
  | cons f fs ih =>
    cases fs with
    | nil => simp [ODataFilter.disjunction]
    | cons g fs =>
      rw [ODataFilter.disjunction, ODataFilter.comparisons, List.mem_append, ih]
      simp only [List.exists_mem_cons_iff]

theorem readable_disjunction {fs : List ODataFilter} (h : ∀ f ∈ fs, Readable f) :
    Readable (.disjunction fs) := by
  refine ⟨ODataFilter.disjunction_wellFormed fun f hf => (h f hf).1, ?_⟩
  intro p hp
  obtain ⟨f, hf, hpf⟩ := mem_disjunction_comparisons.mp hp
  exact (h f hf).2 p hpf

theorem readable_eachOf {field var : String} (hfield : field ∈ aclFields)
    (hname : ODataFilter.isName field) (hvar : ODataFilter.isVariable var) (values : List String) :
    ∀ f ∈ eachOf field var values, Readable f := by
  intro f hf
  obtain ⟨value, -, rfl⟩ := mem_eachOf.mp hf
  refine ⟨⟨hname, hvar⟩, ?_⟩
  intro p hp
  rw [List.mem_singleton.mp hp]
  exact hfield

theorem AzureSearchIndex.filterTree_readable (groups users : List String) :
    Readable (filterTree groups users) := by
  apply readable_disjunction
  intro f hf
  rcases List.mem_append.mp hf with h | h
  · split at h
    · simp at h
    · rw [List.mem_singleton.mp h]
      exact readable_disjunction (readable_eachOf (by decide) (by decide) (by decide) groups)
  · split at h
    · simp at h
    · rw [List.mem_singleton.mp h]
      exact readable_disjunction (readable_eachOf (by decide) (by decide) (by decide) users)

theorem AzureHybridRetriever.filterTree_readable (groups users : List String) :
    Readable (filterTree groups users) := by
  apply readable_disjunction
  intro f hf
  obtain ⟨inner, hinner, rfl⟩ := List.mem_map.mp hf
  rcases List.mem_append.mp hinner with h | h
  · exact readable_eachOf (by decide) (by decide) (by decide) groups inner h
  · exact readable_eachOf (by decide) (by decide) (by decide) users inner h

theorem eachOf_holds (d : IndexDocument) (field var : String) (values : List String) :
    (∃ f ∈ eachOf field var values, f.Holds d.collection) ↔
      ∃ value ∈ values, value ∈ d.collection field := by
  simp [eachOf, ODataFilter.Holds]

theorem AzureSearchIndex.filterTree_holds (groups users : List String) (c : Chunk) :
    (filterTree groups users).Holds c.asIndexDocument.collection ↔ c.acl.Visible groups users := by
  have hclause : ∀ field values,
      (∃ f ∈ (if values = [] then []
        else [ODataFilter.paren (.disjunction (eachOf field "x" values))]),
          f.Holds c.asIndexDocument.collection) ↔
        ∃ value ∈ values, value ∈ c.asIndexDocument.collection field := by
    intro field values
    rw [← eachOf_holds c.asIndexDocument field "x"]
    by_cases h : values = []
    · simp [h, eachOf]
    · rw [if_neg h]
      simp only [List.mem_singleton, exists_eq_left, ODataFilter.Holds,
        ODataFilter.disjunction_holds]
  rw [filterTree, ODataFilter.disjunction_holds]
  simp only [List.mem_append, or_and_right, exists_or, hclause, ACL.Visible]
  simp [IndexDocument.collection, Chunk.asIndexDocument, and_comm]

theorem AzureHybridRetriever.filterTree_holds (groups users : List String) (c : Chunk) :
    (filterTree groups users).Holds c.asIndexDocument.collection ↔ c.acl.Visible groups users := by
  have hparen : ∀ fs : List ODataFilter,
      (∃ f ∈ fs.map ODataFilter.paren, f.Holds c.asIndexDocument.collection) ↔
        ∃ f ∈ fs, f.Holds c.asIndexDocument.collection := by
    intro fs
    simp [ODataFilter.Holds]
  rw [filterTree, ODataFilter.disjunction_holds, hparen]
  simp only [List.mem_append, or_and_right, exists_or, eachOf_holds, ACL.Visible]
  simp [IndexDocument.collection, Chunk.asIndexDocument, and_comm]

section
variable {accepts : String → IndexDocument → Prop} (haccepts : ReadsFilters accepts)
include haccepts

theorem AzureSearchIndex.accepts_iff (groups : List String) (users : Option (List String))
    (c : Chunk) :
    accepts (aclFilter groups users) c.asIndexDocument ↔
      c.acl.Visible groups (users.getD []) := by
  rw [← filterTree_text, haccepts _ (filterTree_readable groups _), filterTree_holds]

theorem AzureHybridRetriever.accepts_iff (groups : List String) (users : Option (List String))
    (c : Chunk) :
    accepts (aclFilter groups users) c.asIndexDocument ↔
      c.acl.Visible groups (users.getD []) := by
  rw [← filterTree_text, haccepts _ (filterTree_readable groups _), filterTree_holds]

end

/-- Two access lists with the same members. -/
def SameMembers (xs ys : List String) : Prop := ∀ x, x ∈ xs ↔ x ∈ ys

theorem visibleTo_iff {v : BrainEvidence} {p : BrainPrincipal} {acl : ACL}
    {groups users : List String} (hvg : SameMembers v.aclGroups acl.groups)
    (hvu : SameMembers v.aclUsers acl.users) (hpg : SameMembers p.groups groups)
    (hpu : SameMembers p.users users) :
    v.visibleTo p = true ↔ acl.Visible groups users := by
  simp [BrainEvidence.visibleTo, ACL.Visible, hvg _, hvu _, hpg _, hpu _]

/-- Where the in-memory scan and the rule decide alike: the chunk has an access list, and if it
lists groups and users both, a match in one is a match in the other. -/
def ACL.OneSided (acl : ACL) (groups users : List String) : Prop :=
  ¬ (acl.groups = [] ∧ acl.users = []) ∧
    (acl.groups ≠ [] → acl.users ≠ [] →
      ((∃ g ∈ acl.groups, g ∈ groups) ↔ ∃ u ∈ acl.users, u ∈ users))

instance (acl : ACL) (groups users : List String) : Decidable (acl.OneSided groups users) :=
  inferInstanceAs (Decidable (¬ (_ ∧ _) ∧ _))

theorem InMemoryIndex.admits_iff (groups users : List String) (c : Chunk) :
    admits groups users c = true ↔
      (c.acl.groups = [] ∨ ∃ g ∈ c.acl.groups, g ∈ groups) ∧
        (c.acl.users = [] ∨ ∃ u ∈ c.acl.users, u ∈ users) := by
  simp [admits, and_comm]

theorem InMemoryIndex.admits_eq_visible_iff (groups users : List String) (c : Chunk) :
    (admits groups users c = true ↔ c.acl.Visible groups users) ↔ c.acl.OneSided groups users := by
  have hnoGroup : c.acl.groups = [] → ¬ ∃ g ∈ c.acl.groups, g ∈ groups := by
    intro h
    simp [h]
  have hnoUser : c.acl.users = [] → ¬ ∃ u ∈ c.acl.users, u ∈ users := by
    intro h
    simp [h]
  rw [admits_iff, ACL.Visible, ACL.OneSided]
  generalize (∃ g ∈ c.acl.groups, g ∈ groups) = groupMatch at *
  generalize (∃ u ∈ c.acl.users, u ∈ users) = userMatch at *
  by_cases hg : c.acl.groups = [] <;> by_cases hu : c.acl.users = [] <;> grind

/-- The two filters and the evidence model state one rule. The in-memory scan agrees with them
on a chunk exactly where that rule and its own do. -/
theorem search_paths_agree_iff {accepts : String → IndexDocument → Prop}
    (haccepts : ReadsFilters accepts) (lower : String → String) {index : InMemoryIndex}
    {c : Chunk} (hc : c ∈ index.chunks) (groups : List String) (users : Option (List String)) :
    (accepts (AzureSearchIndex.aclFilter groups users) c.asIndexDocument ↔
      accepts (AzureHybridRetriever.aclFilter groups users) c.asIndexDocument) ∧
    (∀ (v : BrainEvidence) (p : BrainPrincipal), SameMembers v.aclGroups c.acl.groups →
      SameMembers v.aclUsers c.acl.users → SameMembers p.groups groups →
      SameMembers p.users (users.getD []) →
      (accepts (AzureSearchIndex.aclFilter groups users) c.asIndexDocument ↔
        v.visibleTo p = true)) ∧
    (accepts (AzureSearchIndex.aclFilter groups users) c.asIndexDocument ↔
      c.acl.Visible groups (users.getD [])) ∧
    ((index.Exposes lower groups users c ↔
        accepts (AzureSearchIndex.aclFilter groups users) c.asIndexDocument) ↔
      c.acl.OneSided groups (users.getD [])) := by
  have hazure := AzureSearchIndex.accepts_iff haccepts groups users c
  have hhybrid := AzureHybridRetriever.accepts_iff haccepts groups users c
  refine ⟨hazure.trans hhybrid.symm, ?_, hazure, ?_⟩
  · intro v p hvg hvu hpg hpu
    rw [hazure, visibleTo_iff hvg hvu hpg hpu]
  · rw [InMemoryIndex.exposes_iff lower hc, hazure]
    exact InMemoryIndex.admits_eq_visible_iff groups (users.getD []) c

/-- The reader of the filter language, on an index row. -/
def filterReader (filter : String) (d : IndexDocument) : Prop :=
  ODataFilter.Accepts filter d.collection

theorem filterReader_reads : ReadsFilters filterReader :=
  fun _ h d => ODataFilter.accepts_text h.1 d.collection

/-- A chunk with the given access list. -/
def guardedChunk (acl : ACL) : Chunk where
  id := "1"
  documentId := "git:acme/app:main:README.md"
  source := ⟨"git", "acme/app", "main", "c0ffee", "README.md"⟩
  content := "How to roll back"
  ordinal := 0
  symbol := none
  language := none
  owner := none
  service := none
  acl := acl
  embedding := []
  contentHash := none

def indexOf (c : Chunk) : InMemoryIndex := InMemoryIndex.empty.replaceDocument c.documentId [c]

theorem mem_indexOf (c : Chunk) : c ∈ (indexOf c).chunks := by
  simp [indexOf, InMemoryIndex.replaceDocument, InMemoryIndex.empty, InMemoryIndex.chunks,
    Table.put, Table.empty]

theorem search_paths_agree_on_group :
    ((indexOf (guardedChunk ⟨["sre"], []⟩)).Exposes asciiLower ["sre"] none
        (guardedChunk ⟨["sre"], []⟩) ↔
      filterReader (AzureSearchIndex.aclFilter ["sre"] none)
        (guardedChunk ⟨["sre"], []⟩).asIndexDocument) :=
  (search_paths_agree_iff filterReader_reads asciiLower (mem_indexOf _) ["sre"] none).2.2.2.mpr
    (by decide)

/-- A chunk without access list: the scan shows it to everyone, the filter to nobody. -/
theorem unlisted_chunk_exposed :
    (indexOf (guardedChunk ⟨[], []⟩)).Exposes asciiLower ["sre"] none (guardedChunk ⟨[], []⟩) ∧
      ¬ filterReader (AzureSearchIndex.aclFilter ["sre"] none)
        (guardedChunk ⟨[], []⟩).asIndexDocument := by
  constructor
  · rw [InMemoryIndex.exposes_iff asciiLower (mem_indexOf _)]
    decide
  · rw [AzureSearchIndex.accepts_iff filterReader_reads]
    simp [ACL.Visible, guardedChunk]

end EngineeringIntelligence.Ingestion
