import EngineeringIntelligence.Framework.ODataLexer
import EngineeringIntelligence.Ingestion.SearchAccess

namespace EngineeringIntelligence.Ingestion

open EngineeringIntelligence.Framework

/-! No name of a group or of a user changes what the access filters ask: their expression is
fixed by how many groups and users there are, and the names are what its literals hold. -/

/-- `_acl_filter` of the retrieval backend, which knows groups only. -/
def RagBackend.aclFilter (groups : List String) : String :=
  if groups = [] then "false"
  else " or ".intercalate
    ((groups.map fun g => odataEscape g).map fun g => "acl_groups/any(g: g eq '" ++ g ++ "')")

def RagBackend.filterTree (groups : List String) : ODataFilter :=
  .disjunction (eachOf "acl_groups" "g" groups)

theorem RagBackend.filterTree_text (groups : List String) :
    (filterTree groups).text = aclFilter groups := by
  by_cases h : groups = []
  · simp [filterTree, aclFilter, h, eachOf, ODataFilter.disjunction, ODataFilter.text]
  · rw [filterTree, disjunction_text_ne (by simpa [eachOf] using h), eachOf_text, aclFilter, if_neg h,
      List.map_map]
    rfl

theorem RagBackend.filterTree_readable (groups : List String) : Readable (filterTree groups) :=
  readable_disjunction (readable_eachOf (by decide) (by decide) (by decide) groups)

theorem Readable.fieldsNamed {f : ODataFilter} (h : Readable f) : f.FieldsNamed := by
  intro p hp
  have hfield := h.2 p hp
  simp only [aclFields, List.mem_cons, List.not_mem_nil, or_false] at hfield
  rcases hfield with hf | hf <;> rw [hf] <;> decide

theorem nested_eachOf {field var : String} {values : List String} :
    ∀ f ∈ eachOf field var values, f.Nested ∧ f.isOr = false := by
  intro f hf
  obtain ⟨value, -, rfl⟩ := mem_eachOf.mp hf
  exact ⟨trivial, rfl⟩

theorem shape_eachOf (field var : String) (values : List String) :
    (eachOf field var values).map ODataFilter.shape =
      eachOf field var (List.replicate values.length "") := by
  induction values with
  | nil => rfl
  | cons value values ih =>
    rw [List.length_cons, List.replicate_succ]
    exact congrArg (ODataFilter.anyEq field var "" :: ·) ih

theorem literals_eachOf (field var : String) (values : List String) :
    ((eachOf field var values).flatMap ODataFilter.comparisons).map Prod.snd = values := by
  induction values with
  | nil => rfl
  | cons value values ih => exact congrArg (value :: ·) ih

/-- An expression that is read back from its text, that has a given structure, and whose
literals hold given values. -/
structure Spells (f structured : ODataFilter) (literals : List String) : Prop where
  readable : Readable f
  nested : f.Nested
  shape : f.shape = structured
  literals : f.comparisons.map Prod.snd = literals

theorem AzureSearchIndex.filterTree_spells (groups users : List String) :
    Spells (filterTree groups users)
      (filterTree (List.replicate groups.length "") (List.replicate users.length ""))
      (groups ++ users) where
  readable := filterTree_readable groups users
  nested := by
    apply ODataFilter.nested_disjunction
    intro f hf
    rcases List.mem_append.mp hf with h | h <;> split at h
    · simp at h
    · rw [List.mem_singleton.mp h]
      exact ⟨ODataFilter.nested_disjunction nested_eachOf, rfl⟩
    · simp at h
    · rw [List.mem_singleton.mp h]
      exact ⟨ODataFilter.nested_disjunction nested_eachOf, rfl⟩
  shape := by
    have hclause : ∀ field (values : List String),
        (if values = [] then []
          else [ODataFilter.paren (.disjunction (eachOf field "x" values))]).map ODataFilter.shape =
        if List.replicate values.length "" = [] then []
        else [.paren (.disjunction (eachOf field "x" (List.replicate values.length "")))] := by
      intro field values
      by_cases h : values = []
      · simp [h]
      · simp [h, ODataFilter.shape, ODataFilter.shape_disjunction, shape_eachOf]
    rw [filterTree, ODataFilter.shape_disjunction, List.map_append, hclause, hclause]
    rfl
  literals := by
    have hclause : ∀ field (values : List String),
        ((if values = [] then []
          else [ODataFilter.paren (.disjunction (eachOf field "x" values))]).flatMap
            ODataFilter.comparisons).map Prod.snd = values := by
      intro field values
      by_cases h : values = []
      · simp [h]
      · rw [if_neg h, List.flatMap_singleton, ODataFilter.comparisons,
          ODataFilter.comparisons_disjunction, literals_eachOf]
    rw [filterTree, ODataFilter.comparisons_disjunction, List.flatMap_append, List.map_append,
      hclause, hclause]

theorem AzureHybridRetriever.filterTree_spells (groups users : List String) :
    Spells (filterTree groups users)
      (filterTree (List.replicate groups.length "") (List.replicate users.length ""))
      (groups ++ users) where
  readable := filterTree_readable groups users
  nested := by
    apply ODataFilter.nested_disjunction
    intro f hf
    obtain ⟨inner, hinner, rfl⟩ := List.mem_map.mp hf
    have hterm : inner.Nested ∧ inner.isOr = false := by
      rcases List.mem_append.mp hinner with h | h
      · exact nested_eachOf inner h
      · exact nested_eachOf inner h
    exact ⟨hterm.1, rfl⟩
  shape := by
    have hparen : ∀ fs : List ODataFilter,
        (fs.map ODataFilter.paren).map ODataFilter.shape = (fs.map ODataFilter.shape).map .paren := by
      intro fs
      simp [ODataFilter.shape]
    rw [filterTree, ODataFilter.shape_disjunction, hparen, List.map_append, shape_eachOf,
      shape_eachOf]
    rfl
  literals := by
    have hparen : ∀ fs : List ODataFilter, (fs.map ODataFilter.paren).flatMap
        ODataFilter.comparisons = fs.flatMap ODataFilter.comparisons := by
      intro fs
      rw [List.flatMap_map]
      rfl
    rw [filterTree, ODataFilter.comparisons_disjunction, hparen, List.flatMap_append,
      List.map_append, literals_eachOf, literals_eachOf]

theorem RagBackend.filterTree_spells (groups : List String) :
    Spells (filterTree groups) (filterTree (List.replicate groups.length "")) groups where
  readable := filterTree_readable groups
  nested := ODataFilter.nested_disjunction nested_eachOf
  shape := by rw [filterTree, ODataFilter.shape_disjunction, shape_eachOf]; rfl
  literals := by rw [filterTree, ODataFilter.comparisons_disjunction, literals_eachOf]

/-- What a reader of a filter finds: tokens that are a given list but for what the literals
hold, the given values in the literals, and an expression of a given structure. -/
def ReadsAs (filter : String) (structured : ODataFilter) (literals : List String) : Prop :=
  (∃ tokens, ODataFilter.lex filter = some tokens ∧
    tokens.map ODataToken.shape = structured.tokens ∧
    tokens.filterMap ODataToken.literal? = literals) ∧
  ∃ f, ODataFilter.parse filter = some f ∧ f.shape = structured ∧
    f.comparisons.map Prod.snd = literals

theorem Spells.readsAs {f structured : ODataFilter} {literals : List String}
    (h : Spells f structured literals) : ReadsAs f.text structured literals := by
  have hnamed := h.readable.fieldsNamed
  refine ⟨⟨f.tokens, ODataFilter.lex_text h.readable.1 hnamed, ?_, ?_⟩, f, ?_, h.shape, h.literals⟩
  · rw [← ODataFilter.tokens_shape, h.shape]
  · rw [ODataFilter.literals_tokens, h.literals]
  · exact ODataFilter.parse_text h.readable.1 hnamed h.nested

/-- The filter that `retrieve` sends: the access filter, and the repository where one is asked
for. -/
def AzureHybridRetriever.sentFilter (groups : List String) (users : Option (List String))
    (repository : Option String) : String :=
  " and ".intercalate (("(" ++ aclFilter groups users ++ ")") ::
    match repository with
    | none => []
    | some r => if r = "" then [] else ["repository eq '" ++ odataEscape r ++ "'"])

/-- The access filter stays in its parentheses and the repository in its literal. -/
theorem AzureHybridRetriever.lex_sentFilter (groups : List String) (users : Option (List String))
    (repository : String) (hne : repository ≠ "") :
    ODataFilter.lex (sentFilter groups users (some repository)) =
      some ((ODataFilter.paren (filterTree groups (users.getD []))).tokens ++
        [.word "and", .word "repository", .word "eq", .text repository]) := by
  have hreadable := filterTree_readable groups (users.getD [])
  have hbreak : ∀ cs, ODataFilter.Breaks (' ' :: cs) := fun cs =>
    ODataFilter.breaks_cons (by decide) (by decide)
  have hsent : (sentFilter groups users (some repository)).toList =
      (ODataFilter.paren (filterTree groups (users.getD []))).text.toList ++
        ' ' :: ("and".toList ++ ' ' :: ("repository".toList ++ ' ' :: ("eq".toList ++ ' ' :: '\'' ::
          ((ODataFilter.escape repository).toList ++ '\'' :: [])))) := by
    rw [ODataFilter.text, filterTree_text]
    simp [sentFilter, hne, odataEscape, String.intercalate_cons_cons,
      String.intercalate_singleton]
  have hacl : ∀ rest, ODataFilter.Breaks rest → _ := fun rest =>
    ODataFilter.lexFrom_text (f := .paren (filterTree groups (users.getD []))) hreadable.1
      hreadable.fieldsNamed
  rw [ODataFilter.lex, hsent, hacl _ (hbreak _), ODataFilter.lexFrom_blank,
    ODataFilter.lexFrom_word (by decide) (by decide) (hbreak _), ODataFilter.lexFrom_blank,
    ODataFilter.lexFrom_word (by decide) (by decide) (hbreak _), ODataFilter.lexFrom_blank,
    ODataFilter.lexFrom_word (by decide) (by decide) (hbreak _), ODataFilter.lexFrom_blank,
    ODataFilter.lexFrom_literal repository ODataFilter.breaks_nil]
  simp [ODataFilter.lexFrom, ODataFilter.Lexing.finish]

theorem quoted_repository_lexed :
    ODataFilter.lex (AzureHybridRetriever.sentFilter ["on-call"] none (some "acme/o'hare")) =
      some ((ODataFilter.paren (AzureHybridRetriever.filterTree ["on-call"] [])).tokens ++
        [.word "and", .word "repository", .word "eq", .text "acme/o'hare"]) :=
  AzureHybridRetriever.lex_sentFilter ["on-call"] none "acme/o'hare" (by decide)

/-- A filter that no row passes. -/
def MatchesNothing (filter : String) : Prop :=
  ∃ f, ODataFilter.parse filter = some f ∧ ∀ collection, ¬ f.Holds collection

theorem matchesNothing_false : MatchesNothing "false" := ⟨.never, rfl, fun _ h => h⟩

/-- Whatever the groups and users are called, a filter of the search adapters is a fixed boolean
structure, given by how many of each there are, whose literals are the groups and then the
users; without any of them it matches nothing. -/
theorem identities_stay_in_literals :
    (∃ structured : ℕ → ℕ → ODataFilter, ∀ (groups : List String) (users : Option (List String)),
      ReadsAs (AzureSearchIndex.aclFilter groups users)
        (structured groups.length (users.getD []).length) (groups ++ users.getD [])) ∧
    (∃ structured : ℕ → ℕ → ODataFilter, ∀ (groups : List String) (users : Option (List String)),
      ReadsAs (AzureHybridRetriever.aclFilter groups users)
        (structured groups.length (users.getD []).length) (groups ++ users.getD [])) ∧
    (∃ structured : ℕ → ODataFilter, ∀ groups : List String,
      ReadsAs (RagBackend.aclFilter groups) (structured groups.length) groups) ∧
    (∀ users : Option (List String), users.getD [] = [] →
      MatchesNothing (AzureSearchIndex.aclFilter [] users) ∧
      MatchesNothing (AzureHybridRetriever.aclFilter [] users)) ∧
    MatchesNothing (RagBackend.aclFilter []) := by
  refine ⟨⟨fun m n => AzureSearchIndex.filterTree (List.replicate m "") (List.replicate n ""),
      fun groups users => ?_⟩,
    ⟨fun m n => AzureHybridRetriever.filterTree (List.replicate m "") (List.replicate n ""),
      fun groups users => ?_⟩,
    ⟨fun m => RagBackend.filterTree (List.replicate m ""), fun groups => ?_⟩, ?_, ?_⟩
  · rw [← AzureSearchIndex.filterTree_text]
    exact (AzureSearchIndex.filterTree_spells groups _).readsAs
  · rw [← AzureHybridRetriever.filterTree_text]
    exact (AzureHybridRetriever.filterTree_spells groups _).readsAs
  · rw [← RagBackend.filterTree_text]
    exact (RagBackend.filterTree_spells groups).readsAs
  · intro users husers
    constructor
    · rw [AzureSearchIndex.aclFilter, husers]
      exact matchesNothing_false
    · rw [AzureHybridRetriever.aclFilter, husers]
      exact matchesNothing_false
  · exact matchesNothing_false

end EngineeringIntelligence.Ingestion
