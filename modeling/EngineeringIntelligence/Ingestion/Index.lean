import EngineeringIntelligence.Framework.Table
import EngineeringIntelligence.Framework.Text
import EngineeringIntelligence.Ingestion.Models
import Mathlib.Data.Rat.Defs

namespace EngineeringIntelligence.Ingestion

open EngineeringIntelligence.Framework

structure Chunk where
  id : String
  documentId : String
  source : SourceIdentity
  content : String
  ordinal : Nat
  symbol : Option String
  language : Option String
  owner : Option String
  service : Option String
  acl : ACL
  embedding : List ℚ
  contentHash : Option String
  deriving DecidableEq

/-- A row of the search index. -/
structure IndexDocument where
  id : String
  documentId : String
  provider : String
  repository : String
  branch : String
  commitSha : String
  path : String
  source : String
  content : String
  ordinal : Nat
  symbol : Option String
  language : Option String
  owner : Option String
  service : Option String
  aclGroups : List String
  aclUsers : List String
  embedding : List ℚ
  contentHash : Option String
  deriving DecidableEq

def Chunk.asIndexDocument (c : Chunk) : IndexDocument where
  id := c.id
  documentId := c.documentId
  provider := c.source.provider
  repository := c.source.repository
  branch := c.source.branch
  commitSha := c.source.commitSha
  path := c.source.path
  source := c.source.citation
  content := c.content
  ordinal := c.ordinal
  symbol := c.symbol
  language := c.language
  owner := c.owner
  service := c.service
  aclGroups := c.acl.groups
  aclUsers := c.acl.users
  embedding := c.embedding
  contentHash := c.contentHash

theorem Chunk.asIndexDocument_injective : Function.Injective Chunk.asIndexDocument := by
  intro a b h
  obtain ⟨_, _, ⟨_, _, _, _, _⟩, _, _, _, _, _, _, ⟨_, _⟩, _, _⟩ := a
  obtain ⟨_, _, ⟨_, _, _, _, _⟩, _, _, _, _, _, _, ⟨_, _⟩, _, _⟩ := b
  simp only [asIndexDocument, IndexDocument.mk.injEq] at h
  simp [h]

/-- The document an entry of the index is stored under. -/
def storedUnder (entry : String × List Chunk) : String := entry.1

structure InMemoryIndex where
  documents : Table storedUnder

namespace InMemoryIndex

def empty : InMemoryIndex := ⟨Table.empty⟩

def replaceDocument (index : InMemoryIndex) (documentId : String) (chunks : List Chunk) :
    InMemoryIndex :=
  ⟨index.documents.put (documentId, chunks)⟩

def deleteDocument (index : InMemoryIndex) (documentId : String) : InMemoryIndex :=
  ⟨index.documents.select fun entry => storedUnder entry ≠ documentId⟩

/-- What the index holds of a document. -/
def document (index : InMemoryIndex) (documentId : String) : Option (List Chunk) :=
  (index.documents.get documentId).map (·.2)

def hasDocument (index : InMemoryIndex) (documentId : String) : Bool :=
  (index.document documentId).isSome

@[simp] theorem document_empty (documentId : String) : empty.document documentId = none := rfl

theorem document_replaceDocument (index : InMemoryIndex) (documentId : String)
    (chunks : List Chunk) (other : String) :
    (index.replaceDocument documentId chunks).document other =
      if other = documentId then some chunks else index.document other := by
  unfold document replaceDocument
  rw [Table.get_put]
  by_cases h : other = documentId <;> simp [h, storedUnder]

theorem document_deleteDocument (index : InMemoryIndex) (documentId other : String) :
    (index.deleteDocument documentId).document other =
      if other = documentId then none else index.document other := by
  unfold document deleteDocument
  rw [Table.get_select_ne]
  by_cases h : other = documentId <;> simp [h]

/-- The chunks of the index, in the order a search goes through them. -/
def chunks (index : InMemoryIndex) : List Chunk := index.documents.rows.flatMap (·.2)

section
variable (lower : String → String)

/-- The text test of a search. -/
def mentions (query : String) (c : Chunk) : Bool :=
  hasInfix (lower c.content) (lower query) ||
    (words (lower query)).any fun token => hasInfix (lower c.content) token

/-- The access test of a search: a list of groups or users that is empty asks for nothing. -/
def admits (groups users : List String) (c : Chunk) : Bool :=
  (c.acl.groups = [] || groups.any (· ∈ c.acl.groups)) &&
    (c.acl.users = [] || users.any (· ∈ c.acl.users))

/-- `InMemoryIndex.search`; `lower` is `str.lower`. -/
def search (index : InMemoryIndex) (query : String) (groups : List String)
    (users : Option (List String)) : List IndexDocument :=
  (index.chunks.filter fun c => admits groups (users.getD []) c && mentions lower query c).map
    (·.asIndexDocument)

/-- A search returns a chunk of the index when the principal is admitted and the text matches. -/
theorem mem_search {index : InMemoryIndex} {c : Chunk} (hc : c ∈ index.chunks) (query : String)
    (groups : List String) (users : Option (List String)) :
    c.asIndexDocument ∈ index.search lower query groups users ↔
      admits groups (users.getD []) c = true ∧ mentions lower query c = true := by
  unfold search
  rw [List.mem_map_of_injective Chunk.asIndexDocument_injective, List.mem_filter]
  simp [hc]

/-- Some query returns the chunk. -/
def Exposes (index : InMemoryIndex) (groups : List String) (users : Option (List String))
    (c : Chunk) : Prop :=
  ∃ query, c.asIndexDocument ∈ index.search lower query groups users

/-- The text is no obstacle: a chunk mentions its own content. -/
theorem exposes_iff {index : InMemoryIndex} {c : Chunk} (hc : c ∈ index.chunks)
    (groups : List String) (users : Option (List String)) :
    index.Exposes lower groups users c ↔ admits groups (users.getD []) c = true := by
  constructor
  · intro h
    obtain ⟨query, hmem⟩ := h
    exact ((mem_search lower hc query groups users).mp hmem).1
  · intro hadmits
    have hmentions : mentions lower c.content c = true := by simp [mentions, hasInfix_of_starts]
    exact ⟨c.content, (mem_search lower hc c.content groups users).mpr ⟨hadmits, hmentions⟩⟩

end

end InMemoryIndex

end EngineeringIntelligence.Ingestion
