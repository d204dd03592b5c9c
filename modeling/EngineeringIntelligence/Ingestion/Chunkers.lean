import EngineeringIntelligence.Framework.Fallible
import EngineeringIntelligence.Ingestion.Index

namespace EngineeringIntelligence.Ingestion

open EngineeringIntelligence.Framework

/-! `chunk_change`: a file's text becomes the chunks of its document. -/

/-- A statement at the top of a module, as `ast.parse` gives it. -/
inductive StatementKind where
  | functionDef | asyncFunctionDef | classDef | other
  deriving DecidableEq, Repr

structure Statement where
  kind : StatementKind
  name : String
  lineno : Nat
  endLineno : Option Nat

def Statement.isDefinition (s : Statement) : Bool := s.kind ≠ .other

/-- What `ast.parse` raises. -/
inductive ParseError where
  | syntaxError
  | other (message : String)
  deriving DecidableEq, Repr

/-- What the chunkers use: SHA-256 in hexadecimal, and Python's own parser. -/
structure ChunkLibrary where
  sha256 : String → String
  parse : String → Except ParseError (List Statement)

variable (l : ChunkLibrary)

/-- `_chunk_id`. -/
def chunkId (change : FileChange) (ordinal : Nat) (symbol : Option String) (content : String) : String :=
  l.sha256 ("|".intercalate [change.source.documentId, change.source.commitSha, toString ordinal,
    symbol.getD "", l.sha256 content])

def FileChange.chunk (change : FileChange) (ordinal : Nat) (symbol language : Option String) (content : String) :
    Chunk where
  id := chunkId l change ordinal symbol content
  documentId := change.source.documentId
  source := change.source
  content
  ordinal
  symbol
  language
  owner := change.owner
  service := change.service
  acl := change.acl
  embedding := []
  contentHash := none

/-- Put blocks together up to `maxChars` characters; `buf` is the part that is being filled. -/
def packBlocks (maxChars : Nat) : List String → List String → Nat → List String
  | buf, [], _ => if buf = [] then [] else ["\n\n".intercalate buf]
  | buf, block :: blocks, size =>
    if buf ≠ [] ∧ size + block.length + 2 > maxChars then
      "\n\n".intercalate buf :: packBlocks maxChars [block] blocks (block.length + 2)
    else packBlocks maxChars (buf ++ [block]) blocks (size + block.length + 2)

/-- The texts of `TextChunker`. -/
def textParts (maxChars : Nat) (content : String) : List String :=
  packBlocks maxChars [] (((splitBlocks (strip content)).map strip).filter (· ≠ "")) 0

def defaultTextChars : Nat := 1800

/-- `TextChunker.chunk`. -/
def textChunks (maxChars : Nat) (change : FileChange) : List Chunk :=
  if strip (change.content.getD "") = "" then []
  else (textParts maxChars (change.content.getD "")).mapIdx fun ordinal text =>
    change.chunk l ordinal none change.language text

/-- The lines of a definition. -/
def Statement.text (s : Statement) (lines : List String) : String :=
  let start := s.lineno - 1
  strip ("\n".intercalate ((lines.drop start).take (s.endLineno.getD s.lineno - start)))

/-- `PythonASTChunker.chunk`. -/
def pythonChunks (change : FileChange) : Except ParseError (List Chunk) := do
  let content := change.content.getD ""
  let body ← l.parse content
  let nodes := body.filter (·.isDefinition)
  if nodes = [] then return textChunks l defaultTextChars change
  else return (nodes.mapIdx fun ordinal node => (ordinal, node)).filterMap fun (ordinal, node) =>
    let text := node.text (splitLines content)
    if text = "" then none else some (change.chunk l ordinal (some node.name) (some "python") text)

/-- A file that is read as Python. -/
def FileChange.isPython (change : FileChange) : Bool :=
  ["py", "python"].contains (asciiLower (change.language.getD "")) || endsWithAny change.source.path [".py"]

/-- `chunk_change`. -/
def chunkChange (change : FileChange) : Except ParseError (List Chunk) :=
  if change.isPython then
    match pythonChunks l change with
    | .error .syntaxError => .ok (textChunks l defaultTextChars change)
    | result => result
  else .ok (textChunks l defaultTextChars change)

/-! ### What a chunk carries of its change -/

/-- Chunks of the change's document, with its source and access list. -/
def Carries (change : FileChange) (chunks : List Chunk) : Prop :=
  ∀ c ∈ chunks, c.documentId = change.source.documentId ∧ c.source = change.source ∧ c.acl = change.acl

theorem carries_textChunks (maxChars : Nat) (change : FileChange) :
    Carries change (textChunks l maxChars change) := by
  intro c hc
  unfold textChunks at hc
  split at hc
  · simp at hc
  · rw [List.mem_mapIdx] at hc
    obtain ⟨i, hi, rfl⟩ := hc
    exact ⟨rfl, rfl, rfl⟩

theorem carries_pythonChunks {change : FileChange} {chunks : List Chunk}
    (h : pythonChunks l change = .ok chunks) : Carries change chunks := by
  obtain ⟨body, -, hbody⟩ := bind_eq_ok_iff.mp h
  simp only at hbody
  split at hbody
  · obtain rfl := Except.ok.inj hbody
    exact carries_textChunks l defaultTextChars change
  · obtain rfl := Except.ok.inj hbody
    intro c hc
    obtain ⟨⟨ordinal, node⟩, -, hnode⟩ := List.mem_filterMap.mp hc
    simp only at hnode
    split at hnode
    · cases hnode
    · cases hnode
      exact ⟨rfl, rfl, rfl⟩

theorem carries_chunkChange {change : FileChange} {chunks : List Chunk}
    (h : chunkChange l change = .ok chunks) : Carries change chunks := by
  unfold chunkChange at h
  split at h
  · split at h
    · obtain rfl := Except.ok.inj h
      exact carries_textChunks l defaultTextChars change
    · exact carries_pythonChunks l h
  · obtain rfl := Except.ok.inj h
    exact carries_textChunks l defaultTextChars change

end EngineeringIntelligence.Ingestion
