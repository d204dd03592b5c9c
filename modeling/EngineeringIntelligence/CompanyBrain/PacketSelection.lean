import EngineeringIntelligence.CompanyBrain.DecisionContext
import EngineeringIntelligence.Framework.DropUntil
import Mathlib.Data.Finset.Card
import Mathlib.Data.PNat.Basic

namespace EngineeringIntelligence.CompanyBrain

open EngineeringIntelligence.Framework

/-! `context_packet_from_decision_context`: what a packet takes over from a decision context, and how it is
made to fit. -/

def ContextPacketSection.value : ContextPacketSection → String
  | relationships => "relationships"
  | evidence => "evidence"
  | limitations => "limitations"
  | conflicts => "conflicts"

def ContextPacketOmissionReason.value : ContextPacketOmissionReason → String
  | relationshipLimit => "relationship_limit"
  | evidenceLimit => "evidence_limit"
  | itemLimit => "item_limit"
  | byteLimit => "byte_limit"

def FactFreshness.value : FactFreshness → String
  | fresh => "fresh"
  | stale => "stale"
  | unknown => "unknown"

/-- `_omission_key_parts`. -/
def omissionOrder (key : ContextPacketSection × ContextPacketOmissionReason) : List String :=
  [key.1.value, key.2.value]

/-- `_omission_key`. -/
def ContextPacketOmission.key (omission : ContextPacketOmission) :
    ContextPacketSection × ContextPacketOmissionReason := (omission.packetSection, omission.reason)

/-! ### Counts of omissions -/

/-- A row of `omissions`, a dictionary from section and reason to a count. -/
abbrev CountedOmission := (ContextPacketSection × ContextPacketOmissionReason) × ℕ+

abbrev OmissionCounts := Table (Prod.fst : CountedOmission → ContextPacketSection × ContextPacketOmissionReason)

/-- `_record_omission`. -/
def OmissionCounts.record (counts : OmissionCounts) (packetSection : ContextPacketSection)
    (reason : ContextPacketOmissionReason) (count : ℕ+) : OmissionCounts :=
  counts.put ((packetSection, reason),
    match counts.get (packetSection, reason) with
    | some row => row.2 + count
    | none => count)

/-- `_omissions`. -/
def OmissionCounts.omissions (counts : OmissionCounts) : List ContextPacketOmission :=
  (sortedBy (fun row => omissionOrder row.1) counts.rows).map fun row => ⟨row.1.1, row.1.2, row.2, row.2.pos⟩

/-! ### The payload -/

/-- `_add_evidence_reference`. -/
def addEvidenceReference (references : Table EvidenceReference.evidenceId) (reference : EvidenceReference) :
    Except ContextPacketError (Table EvidenceReference.evidenceId) :=
  match references.get reference.evidenceId with
  | some prior =>
    if prior = reference then .ok references
    else .error ⟨"context packet has conflicting representations of one evidence reference"⟩
  | none => .ok (references.put reference)

/-- `_packet_evidence`. -/
def packetEvidence (relationships : List DecisionContextRelationship) (extras : List EvidenceReference) :
    Except ContextPacketError (List EvidenceReference) := do
  let references ← (relationships.flatMap (·.evidence) ++ extras).foldlM addEvidenceReference Table.empty
  return sortedBy (·.evidenceId) references.rows

section
variable (floatRepr : ℚ → String) (sha256 : String → String)

/-- `_relationship_payload`. -/
def DecisionContextRelationship.payload (r : DecisionContextRelationship) : Json :=
  .obj [("source_id", .str r.sourceId), ("source_label", .str r.sourceLabel),
    ("relationship", .str r.relationship.value), ("target_id", .str r.targetId),
    ("target_label", .str r.targetLabel), ("confidence", .float (floatRepr r.confidence)),
    ("freshness", .str r.freshness.value), ("evidence_ids", .arr (r.evidence.map fun e => .str e.evidenceId))]

/-- `_evidence_payload`. -/
def EvidenceReference.payload (e : EvidenceReference) : Json :=
  .obj [("evidence_id", .str e.evidenceId), ("source_kind", .str e.sourceKind), ("locator", .str e.locator),
    ("revision", .str e.revision)]

def ContextPacketOmission.payload (o : ContextPacketOmission) : Json :=
  .obj [("section", .str o.packetSection.value), ("reason", .str o.reason.value), ("count", .int o.count)]

def ContextPacketBudget.payload (b : ContextPacketBudget) : Json :=
  .obj [("maximum_relationships", .int b.maximumRelationships), ("maximum_evidence", .int b.maximumEvidence),
    ("maximum_limitations", .int b.maximumLimitations), ("maximum_conflicts", .int b.maximumConflicts),
    ("maximum_rendered_bytes", .int b.maximumRenderedBytes)]

/-- `_payload`. -/
def packetPayload (contextVersion : String) (qualified : Bool) (confidence : ℚ)
    (relationships : List DecisionContextRelationship) (evidence : List EvidenceReference)
    (limitations conflictIds : List String) (omissions : List ContextPacketOmission)
    (budget : ContextPacketBudget) : Json :=
  .obj [("context_version", .str contextVersion), ("qualified", .bool qualified),
    ("confidence", .float (floatRepr confidence)),
    ("relationships", .arr (relationships.map (·.payload floatRepr))),
    ("evidence", .arr (evidence.map (·.payload))), ("limitations", .arr (limitations.map .str)),
    ("conflict_ids", .arr (conflictIds.map .str)), ("omissions", .arr (omissions.map (·.payload))),
    ("budget", budget.payload)]

/-- `canonical_json`. -/
def ContextPacket.canonicalJson (p : ContextPacket) : String :=
  (packetPayload floatRepr p.contextVersion p.qualified p.confidence p.relationships p.evidence p.limitations
    p.conflictIds p.omissions p.budget).dumpsUnicode

/-- `rendered_bytes` of a packet. -/
def ContextPacket.renderedBytes (p : ContextPacket) : Nat := (p.canonicalJson floatRepr).utf8ByteSize

/-- The check that a packet fails. -/
def ContextPacket.problem (p : ContextPacket) : Option String :=
  (invalid (required 240 p.contextVersion) "context packet context_version").or
    (if ¬ (0 ≤ p.confidence ∧ p.confidence ≤ 1) then some "context packet confidence is invalid"
    else if p.budget.maximumRelationships < p.relationships.length then
      some "context packet relationships exceed the configured budget"
    else if p.budget.maximumEvidence < p.evidence.length then
      some "context packet evidence exceed the configured budget"
    else if p.budget.maximumLimitations < p.limitations.length then
      some "context packet limitations exceed the configured budget"
    else if p.budget.maximumConflicts < p.conflictIds.length then
      some "context packet conflicts exceed the configured budget"
    else if p.relationships ≠ sortedBy (·.key.order) p.relationships then
      some "context packet relationships must be sorted"
    else if ¬ (p.relationships.map (·.key)).Nodup then some "context packet relationships must be unique"
    else if p.evidence ≠ sortedBy (·.evidenceId) p.evidence then some "context packet evidence must be sorted"
    else if ¬ (p.evidence.map (·.evidenceId)).Nodup then some "context packet evidence must be unique"
    else (sortedUniqueTexts p.limitations "context packet limitations" 500).or
      ((sortedUniqueTexts p.conflictIds "context packet conflict_ids" 240).or
        (if p.omissions ≠ sortedBy (fun o => omissionOrder o.key) p.omissions then
          some "context packet omissions must be sorted"
        else if ¬ (p.omissions.map (·.key)).Nodup then some "context packet omissions must be unique"
        else if ¬ ∀ r ∈ p.relationships, ∀ e ∈ r.evidence, e.evidenceId ∈ p.evidence.map (·.evidenceId) then
          some "context packet must retain every evidence reference for an included relationship"
        else if p.budget.maximumRenderedBytes < p.renderedBytes floatRepr then
          some "context packet exceeds maximum_rendered_bytes"
        else none)))

/-- `ContextPacket(…)`: the packet with its digest, where its checks pass. -/
def ContextPacket.make (contextVersion : String) (qualified : Bool) (confidence : ℚ)
    (relationships : List DecisionContextRelationship) (evidence : List EvidenceReference)
    (limitations conflictIds : List String) (omissions : List ContextPacketOmission)
    (budget : ContextPacketBudget) : Except ContextPacketError ContextPacket :=
  let p : ContextPacket := ⟨contextVersion, qualified, confidence, relationships, evidence, limitations,
    conflictIds, omissions, budget, ""⟩
  match p.problem floatRepr with
  | some message => .error ⟨message⟩
  | none => .ok { p with digest := "sha256:" ++ sha256 (p.canonicalJson floatRepr) }

/-! ### The selection -/

def DecisionContextRelationship.evidenceIds (r : DecisionContextRelationship) : Finset String :=
  (r.evidence.map (·.evidenceId)).toFinset

/-- The first pass: relationships with all of their evidence. -/
structure Admission where
  relationships : List DecisionContextRelationship
  evidenceIds : Finset String
  omissions : OmissionCounts

def Admission.take (budget : ContextPacketBudget) (a : Admission) (r : DecisionContextRelationship) : Admission :=
  if budget.maximumRelationships ≤ a.relationships.length then
    { a with omissions := a.omissions.record .relationships .relationshipLimit 1 }
  else if budget.maximumEvidence < (a.evidenceIds ∪ r.evidenceIds).card then
    { a with omissions := a.omissions.record .relationships .evidenceLimit 1 }
  else
    { a with
      relationships := a.relationships ++ [r]
      evidenceIds := a.evidenceIds ∪ r.evidenceIds }

def admission (budget : ContextPacketBudget) (relationships : List DecisionContextRelationship) : Admission :=
  relationships.foldl (Admission.take budget) ⟨[], ∅, Table.empty⟩

/-- The second pass: evidence that no admitted relationship cites, as far as there is room. -/
def addExtra (budget : ContextPacketBudget) (evidenceIds : Finset String)
    (s : List EvidenceReference × OmissionCounts) (reference : EvidenceReference) :
    List EvidenceReference × OmissionCounts :=
  if reference.evidenceId ∈ evidenceIds then s
  else if budget.maximumEvidence ≤ evidenceIds.card + s.1.length then
    (s.1, s.2.record .evidence .evidenceLimit 1)
  else (s.1 ++ [reference], s.2)

/-- The first of the texts, with the others counted. -/
def takeTexts (packetSection : ContextPacketSection) (maximum : Nat) (texts : List String)
    (omissions : OmissionCounts) : List String × OmissionCounts :=
  let selected := texts.take maximum
  if h : selected.length < texts.length then
    (selected, omissions.record packetSection .itemLimit ⟨texts.length - selected.length, Nat.sub_pos_of_lt h⟩)
  else (selected, omissions)

/-- What is selected, with the counts of what is left out. -/
structure Selection where
  relationships : List DecisionContextRelationship
  extras : List EvidenceReference
  limitations : List String
  conflicts : List String
  omissions : OmissionCounts

/-- The selection before the loop. -/
def selection (context : DecisionContext) (budget : ContextPacketBudget) : Selection :=
  let admitted := admission budget context.relationships
  let (extras, counts) := context.evidence.references.foldl (addExtra budget admitted.evidenceIds)
    ([], admitted.omissions)
  let (limitations, counts) := takeTexts .limitations budget.maximumLimitations context.limitations counts
  let (conflicts, counts) := takeTexts .conflicts budget.maximumConflicts context.conflictIds counts
  ⟨admitted.relationships, extras, limitations, conflicts, counts⟩

namespace Selection

/-- What a round of the loop gives up: an extra reference, else a limitation, a conflict or a
relationship. -/
def pop (s : Selection) : Option Selection :=
  if s.extras ≠ [] then
    some { s with extras := s.extras.dropLast, omissions := s.omissions.record .evidence .byteLimit 1 }
  else if s.limitations ≠ [] then
    some { s with
      limitations := s.limitations.dropLast
      omissions := s.omissions.record .limitations .byteLimit 1 }
  else if s.conflicts ≠ [] then
    some { s with conflicts := s.conflicts.dropLast, omissions := s.omissions.record .conflicts .byteLimit 1 }
  else if s.relationships ≠ [] then
    some { s with
      relationships := s.relationships.dropLast
      omissions := s.omissions.record .relationships .byteLimit 1 }
  else none

def size (s : Selection) : Nat :=
  s.extras.length + s.limitations.length + s.conflicts.length + s.relationships.length

variable (context : DecisionContext) (budget : ContextPacketBudget)

/-- `_rendered_bytes`. -/
def renderedBytes (s : Selection) : Except ContextPacketError Nat := do
  let evidence ← packetEvidence s.relationships s.extras
  return (packetPayload floatRepr context.contextVersion context.qualified context.confidence s.relationships
    evidence s.limitations s.conflicts s.omissions.omissions budget).dumpsUnicode.utf8ByteSize

/-- `_packet`. -/
def packet (s : Selection) : Except ContextPacketError ContextPacket := do
  let evidence ← packetEvidence s.relationships s.extras
  ContextPacket.make floatRepr sha256 context.contextVersion context.qualified context.confidence
    s.relationships evidence s.limitations s.conflicts s.omissions.omissions budget

/-- The test of the loop. -/
def fits (s : Selection) : Except ContextPacketError Bool := do
  let bytes ← s.renderedBytes floatRepr context budget
  return decide (bytes ≤ budget.maximumRenderedBytes)

/-- The four fallbacks: each takes one item away. -/
def popper : Dropper Selection where
  drop := pop
  size := size
  smaller := by
    intro s s' h
    unfold pop at h
    split_ifs at h with hextras hlimitations hconflicts hrelationships
    all_goals
      obtain rfl := Option.some.inj h
      simp only [size, List.length_dropLast]
    · have := List.length_pos_iff.mpr hextras
      omega
    · have := List.length_pos_iff.mpr hlimitations
      omega
    · have := List.length_pos_iff.mpr hconflicts
      omega
    · have := List.length_pos_iff.mpr hrelationships
      omega

end Selection

def contextPacketFromDecisionContext (context : DecisionContext) (budget : ContextPacketBudget) :
    Except ContextPacketError ContextPacket := do
  match ← dropUntil (Selection.fits floatRepr context budget) Selection.popper (selection context budget) with
  | some s => s.packet floatRepr sha256 context budget
  | none => .error ⟨"context packet budget cannot encode mandatory context fields"⟩

end

end EngineeringIntelligence.CompanyBrain
