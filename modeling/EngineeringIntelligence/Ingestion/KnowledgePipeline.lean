import EngineeringIntelligence.Framework.Run
import EngineeringIntelligence.Framework.Text
import EngineeringIntelligence.Ingestion.Models

namespace EngineeringIntelligence.Ingestion

open EngineeringIntelligence.Framework

structure KnowledgeChunk where
  id : String
  documentId : String
  content : String
  ordinal : Nat
  title : String
  provider : String
  sourceType : String
  revision : String
  updatedAt : String
  sourceUrl : Option String
  owner : Option String
  service : Option String
  aclGroups : List String
  aclUsers : List String
  contentHash : String
  deriving DecidableEq

/-- A knowledge document with its `updated_at` as `isoformat` writes it, offset included. -/
structure DatedDocument extends KnowledgeDocument where
  updatedAtText : String

def DatedDocument.documentId (d : DatedDocument) : String := d.identity.documentId

/-! `InMemoryKnowledgeIndex`: two dictionaries. -/

def revisionOf (entry : String × String) : String := entry.1

def chunksOf (entry : String × List KnowledgeChunk) : String := entry.1

structure InMemoryKnowledgeIndex where
  revisions : Table revisionOf
  chunks : Table chunksOf

namespace InMemoryKnowledgeIndex

def empty : InMemoryKnowledgeIndex := ⟨Table.empty, Table.empty⟩

def currentRevision (index : InMemoryKnowledgeIndex) (documentId : String) : Option String :=
  (index.revisions.get documentId).map (·.2)

def currentChunks (index : InMemoryKnowledgeIndex) (documentId : String) :
    Option (List KnowledgeChunk) :=
  (index.chunks.get documentId).map (·.2)

def replaceDocument (index : InMemoryKnowledgeIndex) (documentId revision : String)
    (chunks : List KnowledgeChunk) : InMemoryKnowledgeIndex where
  revisions := index.revisions.put (documentId, revision)
  chunks := index.chunks.put (documentId, chunks)

def deleteDocument (index : InMemoryKnowledgeIndex) (documentId : String) :
    InMemoryKnowledgeIndex where
  revisions := index.revisions.select fun entry => revisionOf entry ≠ documentId
  chunks := index.chunks.select fun entry => chunksOf entry ≠ documentId

variable (index : InMemoryKnowledgeIndex) (documentId revision : String)
  (chunks : List KnowledgeChunk) (other : String)

theorem currentRevision_replaceDocument :
    (index.replaceDocument documentId revision chunks).currentRevision other =
      if other = documentId then some revision else index.currentRevision other := by
  unfold currentRevision replaceDocument
  rw [Table.get_put]
  by_cases h : other = documentId <;> simp [h, revisionOf]

theorem currentChunks_replaceDocument :
    (index.replaceDocument documentId revision chunks).currentChunks other =
      if other = documentId then some chunks else index.currentChunks other := by
  unfold currentChunks replaceDocument
  rw [Table.get_put]
  by_cases h : other = documentId <;> simp [h, chunksOf]

theorem currentRevision_deleteDocument :
    (index.deleteDocument documentId).currentRevision other =
      if other = documentId then none else index.currentRevision other := by
  unfold currentRevision deleteDocument
  rw [Table.get_select_ne]
  by_cases h : other = documentId <;> simp [h]

theorem currentChunks_deleteDocument :
    (index.deleteDocument documentId).currentChunks other =
      if other = documentId then none else index.currentChunks other := by
  unfold currentChunks deleteDocument
  rw [Table.get_select_ne]
  by_cases h : other = documentId <;> simp [h]

end InMemoryKnowledgeIndex

/-! `chunk_document`. -/

/-- `(?=#{1,6}\s)` -/
def startsHeading (cs : List Char) : Bool :=
  let marks := (cs.takeWhile (· = '#')).length
  1 ≤ marks && marks ≤ 6 && ((cs.drop marks).head?.map isPythonSpace).getD false

/-- `re.split(r"\n(?=#{1,6}\s)|\n{2,}", body)`: `piece` is what has been read since the last cut,
and `eating` says that the cut is a run of newlines that may go on. -/
def splitSections : Bool → List Char → List Char → List (List Char)
  | _, piece, [] => [piece]
  | eating, piece, c :: cs =>
    if c = '\n' then
      if eating then splitSections true piece cs
      else if startsHeading cs then piece :: splitSections false [] cs
      else if cs.head? = some '\n' then piece :: splitSections true [] cs
      else splitSections false (piece ++ [c]) cs
    else splitSections false (piece ++ [c]) cs

/-- `section[start:start + max_chars].strip()` for each start. -/
def slices (maxChars : Nat) (text : String) : List String :=
  (List.range ((text.length + maxChars - 1) / maxChars)).map fun i =>
    strip (String.ofList ((text.toList.drop (i * maxChars)).take maxChars))

/-- The texts of a document's chunks. -/
def bodyPieces (maxChars : Nat) (body : String) : List String :=
  let sections := ((splitSections false [] body.toList).map fun s => strip (String.ofList s)).filter
    (· ≠ "")
  let pieces := (if sections = [] then [body] else sections).flatMap fun s =>
    if s.length ≤ maxChars then [s] else slices maxChars s
  pieces.filter (· ≠ "")

section
variable (sha256 : String → String)

/-- The chunk of one piece of a document. -/
def DatedDocument.chunk (d : DatedDocument) (piece : String) (ordinal : Nat) : KnowledgeChunk where
  id := d.documentId ++ ":" ++ d.revision ++ ":" ++ toString ordinal
  documentId := d.documentId
  content := piece
  ordinal := ordinal
  title := d.title
  provider := d.identity.provider
  sourceType := d.identity.sourceType.value
  revision := d.revision
  updatedAt := d.updatedAtText
  sourceUrl := d.sourceUrl
  owner := d.owner
  service := d.service
  aclGroups := d.acl.groups
  aclUsers := d.acl.users
  contentHash := sha256 d.body

def chunkDocument (d : DatedDocument) (maxChars : Nat) : List KnowledgeChunk :=
  (bodyPieces maxChars d.body).mapIdx fun ordinal piece => d.chunk sha256 piece ordinal

/-- `max_chars`, where `process` does not say. -/
def defaultMaxChars : Nat := 1400

structure KnowledgeCall where
  changeType : ChangeType
  document : DatedDocument
  eventId : Option String

inductive KnowledgeAnswer where
  | deleted (documentId : String)
  | duplicate (documentId : String)
  | indexed (documentId revision : String) (chunks : Nat)
  deriving DecidableEq

/-- The pipeline's two sides: the index, and the brain's memory where it has a projector. -/
structure KnowledgePipeline (μ : Type) where
  index : InMemoryKnowledgeIndex
  brainMemory : Option μ

variable {μ : Type} (projectKnowledgeChange : μ → KnowledgeCall → μ)

/-- `KnowledgePipeline.process`, where the projection does not raise. -/
def KnowledgePipeline.process (p : KnowledgePipeline μ) (call : KnowledgeCall) :
    KnowledgePipeline μ × KnowledgeAnswer :=
  let document := call.document
  let documentId := document.documentId
  let projected := p.brainMemory.map (projectKnowledgeChange · call)
  match call.changeType with
  | .delete => (⟨p.index.deleteDocument documentId, projected⟩, .deleted documentId)
  | .upsert =>
    if p.index.currentRevision documentId = some document.revision then
      (⟨p.index, projected⟩, .duplicate documentId)
    else
      let chunks := chunkDocument sha256 document defaultMaxChars
      (⟨p.index.replaceDocument documentId document.revision chunks, projected⟩,
        .indexed documentId document.revision chunks.length)

/-! What the calls alone say of the index: the document that was last written under an
identifier. An upsert of the revision that is there already does not count. -/

def noteCall (current : String → Option DatedDocument) (call : KnowledgeCall) :
    String → Option DatedDocument := fun id =>
  if call.document.documentId = id then
    match call.changeType with
    | .delete => none
    | .upsert =>
      if (current id).map (·.revision) = some call.document.revision then current id
      else some call.document
  else current id

def lastIndexed (calls : List KnowledgeCall) : String → Option DatedDocument :=
  calls.foldl noteCall fun _ => none

/-- The index holds these documents. -/
structure Holding (index : InMemoryKnowledgeIndex) (current : String → Option DatedDocument) :
    Prop where
  named : ∀ id d, current id = some d → d.documentId = id
  revision : ∀ id, index.currentRevision id = (current id).map (·.revision)
  chunks : ∀ id, index.currentChunks id =
    (current id).map fun d => chunkDocument sha256 d defaultMaxChars

theorem holding_empty : Holding sha256 InMemoryKnowledgeIndex.empty fun _ => none where
  named := by simp
  revision := fun _ => rfl
  chunks := fun _ => rfl

variable {sha256} in
theorem Holding.process {p : KnowledgePipeline μ} {current : String → Option DatedDocument}
    (h : Holding sha256 p.index current) (call : KnowledgeCall) :
    Holding sha256 (p.process sha256 projectKnowledgeChange call).1.index (noteCall current call) := by
  have hrevision := h.revision call.document.documentId
  unfold KnowledgePipeline.process
  cases hkind : call.changeType with
  | delete =>
    have hnote : ∀ id, noteCall current call id =
        if id = call.document.documentId then none else current id := by
      intro id
      by_cases hid : call.document.documentId = id
      · simp [noteCall, hkind, hid]
      · simp [noteCall, hid, Ne.symm hid]
    refine ⟨?_, ?_, ?_⟩
    · intro id d hd
      rw [hnote] at hd
      split at hd
      · simp at hd
      · exact h.named id d hd
    · intro id
      rw [InMemoryKnowledgeIndex.currentRevision_deleteDocument, hnote, h.revision]
      split <;> rfl
    · intro id
      rw [InMemoryKnowledgeIndex.currentChunks_deleteDocument, hnote, h.chunks]
      split <;> rfl
  | upsert =>
    by_cases hsame : p.index.currentRevision call.document.documentId = some call.document.revision
    · have hnote : noteCall current call = current := by
        funext id
        by_cases hid : call.document.documentId = id
        · subst hid
          rw [hrevision] at hsame
          simp [noteCall, hkind, hsame]
        · simp [noteCall, hid]
      rw [hnote]
      simp only [if_pos hsame]
      exact h
    · have hnote : ∀ id, noteCall current call id =
          if id = call.document.documentId then some call.document else current id := by
        intro id
        by_cases hid : id = call.document.documentId
        · subst hid
          rw [hrevision] at hsame
          simp only [noteCall, if_true, hkind, if_neg hsame]
        · simp [noteCall, hid, Ne.symm hid]
      simp only [if_neg hsame]
      refine ⟨?_, ?_, ?_⟩
      · intro id d hd
        rw [hnote] at hd
        split at hd
        · next hid =>
          rw [← Option.some.inj hd, hid]
        · exact h.named id d hd
      · intro id
        rw [InMemoryKnowledgeIndex.currentRevision_replaceDocument, hnote, h.revision]
        split <;> rfl
      · intro id
        rw [InMemoryKnowledgeIndex.currentChunks_replaceDocument, hnote, h.chunks]
        split <;> rfl

/-- In every run, the index holds what the calls say. -/
theorem holding_run (memory : Option μ) (calls : List KnowledgeCall) :
    Holding sha256 (runState (KnowledgePipeline.process sha256 projectKnowledgeChange)
      ⟨InMemoryKnowledgeIndex.empty, memory⟩ calls).index (lastIndexed calls) := by
  have hrun : ∀ (p : KnowledgePipeline μ) current, Holding sha256 p.index current →
      Holding sha256 (runState (KnowledgePipeline.process sha256 projectKnowledgeChange) p
        calls).index (calls.foldl noteCall current) := by
    induction calls with
    | nil => exact fun _ _ h => h
    | cons call calls ih =>
      exact fun p current h => ih _ _ (h.process projectKnowledgeChange call)
  exact hrun _ _ (holding_empty sha256)

/-- Two versions of a document that make the same chunks: the texts are the same, and unless
there are none, so is everything a chunk carries, the access list included. -/
structure SameMaterial (d d' : DatedDocument) : Prop where
  pieces : bodyPieces defaultMaxChars d.body = bodyPieces defaultMaxChars d'.body
  carried : bodyPieces defaultMaxChars d.body ≠ [] →
    d.title = d'.title ∧ d.identity.provider = d'.identity.provider ∧
      d.identity.sourceType.value = d'.identity.sourceType.value ∧
      d.updatedAtText = d'.updatedAtText ∧ d.sourceUrl = d'.sourceUrl ∧ d.owner = d'.owner ∧
      d.service = d'.service ∧ d.acl.groups = d'.acl.groups ∧ d.acl.users = d'.acl.users ∧
      sha256 d.body = sha256 d'.body

theorem chunkDocument_content (d : DatedDocument) (maxChars : Nat) :
    (chunkDocument sha256 d maxChars).map (·.content) = bodyPieces maxChars d.body := by
  apply List.ext_getElem?
  intro i
  cases h : (bodyPieces maxChars d.body)[i]? <;>
    simp [chunkDocument, h, DatedDocument.chunk]

theorem chunkDocument_eq_iff {d d' : DatedDocument} (hid : d.documentId = d'.documentId)
    (hrevision : d.revision = d'.revision) :
    chunkDocument sha256 d defaultMaxChars = chunkDocument sha256 d' defaultMaxChars ↔
      SameMaterial sha256 d d' := by
  constructor
  · intro h
    have hpieces : bodyPieces defaultMaxChars d.body = bodyPieces defaultMaxChars d'.body := by
      rw [← chunkDocument_content sha256 d, h, chunkDocument_content]
    refine ⟨hpieces, ?_⟩
    intro hne
    obtain ⟨piece, rest, hcons⟩ := List.exists_cons_of_ne_nil hne
    have hhead : d.chunk sha256 piece 0 = d'.chunk sha256 piece 0 := by
      rw [chunkDocument, chunkDocument, ← hpieces, hcons, List.mapIdx_cons, List.mapIdx_cons] at h
      exact (List.cons.inj h).1
    simp only [DatedDocument.chunk, KnowledgeChunk.mk.injEq] at hhead
    obtain ⟨-, -, -, -, htitle, hprovider, htype, -, hupdated, hrest⟩ := hhead
    exact ⟨htitle, hprovider, htype, hupdated, hrest⟩
  · intro h
    have hchunk : bodyPieces defaultMaxChars d.body ≠ [] → ∀ piece ordinal,
        d.chunk sha256 piece ordinal = d'.chunk sha256 piece ordinal := by
      intro hne piece ordinal
      obtain ⟨h1, h2, h3, h4, h5, h6, h7, h8, h9, h10⟩ := h.carried hne
      simp only [DatedDocument.chunk, h1, h2, h3, h4, h5, h6, h7, h8, h9, h10, hid, hrevision]
    unfold chunkDocument
    rw [← h.pieces]
    by_cases hne : bodyPieces defaultMaxChars d.body = []
    · simp only [hne, List.mapIdx_nil]
    · simp only [hchunk hne]

/-- After an upsert the index holds exactly the document's chunks, with its access list, unless
the revision it carries is the indexed one and something else has changed. -/
theorem upsert_indexed_iff (memory : Option μ) (calls : List KnowledgeCall) (d : DatedDocument)
    (eventId : Option String) :
    (runState (KnowledgePipeline.process sha256 projectKnowledgeChange)
        ⟨InMemoryKnowledgeIndex.empty, memory⟩
        (calls ++ [⟨.upsert, d, eventId⟩])).index.currentChunks d.documentId =
        some (chunkDocument sha256 d defaultMaxChars) ↔
      ∀ indexed, lastIndexed calls d.documentId = some indexed → indexed.revision = d.revision →
        SameMaterial sha256 indexed d := by
  have hbefore := holding_run sha256 projectKnowledgeChange memory calls
  have hafter := (holding_run sha256 projectKnowledgeChange memory
    (calls ++ [⟨.upsert, d, eventId⟩])).chunks d.documentId
  have hnote : lastIndexed (calls ++ [⟨.upsert, d, eventId⟩]) d.documentId =
      if (lastIndexed calls d.documentId).map (·.revision) = some d.revision then
        lastIndexed calls d.documentId
      else some d := by
    simp [lastIndexed, List.foldl_append, noteCall]
  rw [hafter, hnote]
  cases hlast : lastIndexed calls d.documentId with
  | none => simp
  | some indexed =>
    have hid : indexed.documentId = d.documentId := hbefore.named _ _ hlast
    by_cases hrevision : indexed.revision = d.revision
    · rw [if_pos (by simp [hrevision]), Option.map_some, Option.some_inj,
        chunkDocument_eq_iff sha256 hid hrevision]
      constructor
      · intro h other hother _
        rw [← Option.some.inj hother]
        exact h
      · intro h
        exact h indexed rfl hrevision
    · rw [if_neg (by simp [hrevision]), Option.map_some]
      refine iff_of_true rfl ?_
      intro other hother hsame
      rw [← Option.some.inj hother] at hsame
      exact absurd hsame hrevision

end

/-- One revision of a page, readable by some groups. -/
def runbookFor (groups : List String) : DatedDocument where
  identity := ⟨"confluence", .runbook, "auth-runbook"⟩
  title := "Auth Runbook"
  body := "Verify the SLO"
  revision := "10"
  updatedAt := ⟨⟨2026, 8, 22, 0, 0, 0, 0, by decide, midnight_clock⟩, true⟩
  sourceUrl := none
  owner := none
  service := none
  acl := ⟨groups, []⟩
  metadata := Table.empty
  updatedAtText := "2026-08-22T00:00:00+00:00"

/-- Tightening the access list of an indexed revision changes nothing: the chunk stays readable
by the group the last upsert left out. -/
theorem tightened_acl_not_indexed :
    ((runState (KnowledgePipeline.process id fun (memory : Unit) _ => memory)
        ⟨InMemoryKnowledgeIndex.empty, none⟩
        [⟨.upsert, runbookFor ["everyone"], none⟩, ⟨.upsert, runbookFor ["sre"], none⟩]).index.currentChunks
        (runbookFor ["sre"]).documentId).map (·.map (·.aclGroups)) = some [["everyone"]] ∧
      (chunkDocument id (runbookFor ["sre"]) defaultMaxChars).map (·.aclGroups) = [["sre"]] := by
  decide

end EngineeringIntelligence.Ingestion
