import EngineeringIntelligence.CompanyBrain.Presentation
import EngineeringIntelligence.Framework.JsonReader
import EngineeringIntelligence.Framework.PyJson
import EngineeringIntelligence.PrGuardian.CompanyContext

namespace EngineeringIntelligence.PrGuardian.Company

open CompanyBrain Framework

/-! Decision contexts of one version, and what the version does not cover. -/

/-! ### What is shown of a context -/

/-- What a reference says of a piece of evidence. -/
structure Pointer where
  evidenceId : String
  sourceKind : String
  citation : String
  revision : String
  deriving DecidableEq

def pointerOf (e : EvidenceQualification) : Pointer := ⟨e.evidenceId, e.sourceKind, e.citation, e.revision⟩

def pointer (r : EvidenceReference) : Pointer := ⟨r.evidenceId, r.sourceKind, r.locator, r.revision⟩

/-- What a relationship claim shows beyond the version: the labels of its ends and its evidence. -/
structure Shown where
  sourceLabel : String
  targetLabel : String
  evidence : List Pointer
  deriving DecidableEq

/-- What is shown of a relationship, when it is usable, free of conflicts, between entities of the context
and has fresh evidence. -/
def shownOf (entities : EntityDict) (item : RelationshipQualification) : Option Shown :=
  if item.usable = false ∨ item.conflicts ≠ [] ∨ item.relationship.kind = .hasEvidence then none
  else
    match Table.get entities item.relationship.sourceId, Table.get entities item.relationship.targetId with
    | some source, some target =>
      if item.evidence.filter (·.freshness = .fresh) = [] then none
      else some ⟨source.label, target.label,
        sortedBy (·.evidenceId) ((item.evidence.filter (·.freshness = .fresh)).map pointerOf)⟩
    | _, _ => none

/-- Contexts with the same labels, evidence and revisions in what is shown of them. -/
def ShownAlike (c c' : QualifiedWorldModelContext) : Prop :=
  c.relationships.map (shownOf (contextEntities c)) = c'.relationships.map (shownOf (contextEntities c')) ∧
    c.evidence.map (·.revision) = c'.evidence.map (·.revision)

def shown (r : DecisionContextRelationship) : Shown :=
  ⟨r.sourceLabel, r.targetLabel, r.evidence.map pointer⟩

theorem pointer_injective : Function.Injective pointer := by
  rintro ⟨id, kind, locator, revision, authorized, hvalid⟩ ⟨id', kind', locator', revision', authorized', hvalid'⟩ h
  have hauthorized : ∀ {a b c d : String} {authorized : Bool}, referenceProblem a b c d authorized = none →
      authorized = true := by
    intro a b c d authorized h
    unfold referenceProblem at h
    simp only [Option.or_eq_none_iff] at h
    exact Bool.not_eq_false _ ▸ fun hfalse => by simp [hfalse] at h
  obtain ⟨rfl, rfl, rfl, rfl⟩ := Pointer.mk.inj h
  obtain rfl := (hauthorized hvalid).trans (hauthorized hvalid').symm
  rfl

theorem reference_ok {e : EvidenceQualification} {r : EvidenceReference} (h : e.reference = .ok r) :
    pointer r = pointerOf e := by
  unfold EvidenceQualification.reference EvidenceReference.make at h
  split at h
  · cases h
  · obtain rfl := Except.ok.inj h
    rfl

theorem references_pointers {items : List EvidenceQualification} {references : List EvidenceReference}
    (h : items.mapM (·.reference) = .ok references) : references.map pointer = items.map pointerOf := by
  have hall := mapM_eq_ok.mp h
  clear h
  induction hall with
  | nil => rfl
  | cons hhead _ ih => rw [List.map_cons, List.map_cons, reference_ok hhead, ih]

/-- A claim is made of a relationship just when something is shown of it. -/
theorem relationshipFromQualification_ok {entities : EntityDict} {item : RelationshipQualification}
    {claim : Option DecisionContextRelationship} (h : relationshipFromQualification entities item = .ok claim) :
    shownOf entities item = claim.map shown ∧ ∀ r ∈ claim,
      r.key = item.key ∧ r.confidence = item.confidence ∧ r.freshness = item.freshness := by
  unfold relationshipFromQualification at h
  unfold shownOf
  by_cases hnot : item.usable = false ∨ item.conflicts ≠ [] ∨ item.relationship.kind = .hasEvidence
  · rw [if_pos hnot] at h ⊢
    obtain rfl := Except.ok.inj h
    exact ⟨rfl, fun r hr => nomatch hr⟩
  rw [if_neg hnot] at h ⊢
  cases hsource : Table.get entities item.relationship.sourceId with
  | none =>
    rw [hsource] at h
    obtain rfl := Except.ok.inj h
    exact ⟨rfl, fun r hr => nomatch hr⟩
  | some source =>
    cases htarget : Table.get entities item.relationship.targetId with
    | none =>
      rw [hsource, htarget] at h
      obtain rfl := Except.ok.inj h
      exact ⟨rfl, fun r hr => nomatch hr⟩
    | some target =>
      rw [hsource, htarget] at h
      obtain ⟨references, hreferences, h⟩ := bind_eq_ok_iff.mp h
      have hpointers := references_pointers hreferences
      by_cases hnone : references = []
      · rw [if_pos hnone] at h
        obtain rfl := Except.ok.inj h
        rw [hnone, List.map_nil, eq_comm, List.map_eq_nil_iff] at hpointers
        exact ⟨if_pos hpointers, fun r hr => nomatch hr⟩
      · rw [if_neg hnone] at h
        obtain ⟨made, hmade, h⟩ := bind_eq_ok_iff.mp h
        obtain rfl := Except.ok.inj h
        have hfresh : item.evidence.filter (·.freshness = .fresh) ≠ [] := by
          intro hnil
          rw [hnil] at hpointers
          exact hnone (List.map_eq_nil_iff.mp hpointers)
        have hsorted : (sortedBy (·.evidenceId) references).map pointer =
            sortedBy (·.evidenceId) (references.map pointer) :=
          List.map_insertionSort _ _ _ _ fun _ _ _ _ => Iff.rfl
        unfold DecisionContextRelationship.make at hmade
        split at hmade
        · cases hmade
        · obtain rfl := Except.ok.inj hmade
          refine ⟨(if_neg hfresh).trans ?_, fun r hr => by obtain rfl := Option.some.inj hr; exact ⟨rfl, rfl, rfl⟩⟩
          rw [← hpointers, ← hsorted]
          rfl

/-- Claims that show the same of one relationship are the same. -/
theorem claim_ext {r r' : DecisionContextRelationship} (hkey : r.key = r'.key)
    (hconfidence : r.confidence = r'.confidence) (hfreshness : r.freshness = r'.freshness)
    (hshown : shown r = shown r') : r = r' := by
  obtain ⟨hsource, hkind, htarget⟩ := EdgeKey.mk.inj hkey
  obtain ⟨hsourceLabel, htargetLabel, hevidence⟩ := Shown.mk.inj hshown
  have hreferences := List.map_injective_iff.mpr pointer_injective hevidence
  cases r
  cases r'
  simp_all

/-! ### What the version covers -/

section
variable {floatRepr : ℚ → String} {sha256 : String → String} {model : WorldModel}
  {c c' : QualifiedWorldModelContext}

/-- What is hashed of a relationship. -/
def hashed (item : RelationshipQualification) : EdgeKey × ℚ × FactFreshness × Bool :=
  (item.key, item.confidence, item.freshness, item.usable)

/-- The confidences of a context. -/
def confidences (c : QualifiedWorldModelContext) : List ℚ := c.confidence :: c.relationships.map (·.confidence)

/-- Contexts that agree in what is hashed of them and shown in a decision context. -/
structure HashedAlike (c c' : QualifiedWorldModelContext) : Prop where
  changedServices : c.changedServices = c'.changedServices
  confidence : c.confidence = c'.confidence
  relationships : c.relationships.map hashed = c'.relationships.map hashed
  evidence : c.evidence.map (fun e => (e.evidenceId, e.sourceKind, e.citation)) =
    c'.evidence.map fun e => (e.evidenceId, e.sourceKind, e.citation)
  conflicts : c.conflicts.map (·.conflictId) = c'.conflicts.map (·.conflictId)
  limitations : c.limitations = c'.limitations

theorem printed_payload (hprint : ∀ q, Json.FloatText (floatRepr q)) (c : QualifiedWorldModelContext) :
    Json.Printed (versionPayload floatRepr c) := by
  have hitems : ∀ js : List Json, Json.PrintedItems js ↔ ∀ j ∈ js, Json.Printed j := by
    intro js
    induction js with
    | nil => simp [Json.PrintedItems]
    | cons j js ih => simp [Json.PrintedItems, ih]
  simp [versionPayload, Json.Printed, Json.PrintedFields, hitems, hprint]

theorem freshness_injective : Function.Injective FactFreshness.value := by
  intro a b h
  cases a <;> cases b <;> first | rfl | exact absurd h (by decide)

theorem mapped_inj {α β : Type} {f g : α → Json} {k : α → β} {xs ys : List α}
    (h : (Json.arr (xs.map f)).sortKeys = (Json.arr (ys.map g)).sortKeys)
    (hk : ∀ x ∈ xs, ∀ y ∈ ys, (f x).sortKeys = (g y).sortKeys → k x = k y) : xs.map k = ys.map k := by
  simp only [Json.sortKeys, Json.sortKeysItems_eq_map, List.map_map, Json.arr.injEq] at h
  induction xs generalizing ys with
  | nil =>
    cases ys with
    | nil => rfl
    | cons y ys => cases h
  | cons x xs ih =>
    cases ys with
    | nil => cases h
    | cons y ys =>
      obtain ⟨hhead, htail⟩ := List.cons.inj h
      rw [List.map_cons, List.map_cons, hk x (List.mem_cons_self ..) y (List.mem_cons_self ..) hhead,
        ih (fun a ha b hb => hk a (List.mem_cons_of_mem _ ha) b (List.mem_cons_of_mem _ hb)) htail]

/-- Without a collision between what is hashed, contexts of one version agree in what it covers. -/
theorem hashedAlike_of_version (hprint : ∀ q, Json.FloatText (floatRepr q))
    (hrepr : ∀ p ∈ confidences c, ∀ q ∈ confidences c', floatRepr p = floatRepr q → p = q)
    (hsha : sha256 (versionPayload floatRepr c).dumps = sha256 (versionPayload floatRepr c').dumps →
      (versionPayload floatRepr c).dumps = (versionPayload floatRepr c').dumps)
    (h : contextVersion floatRepr sha256 c = contextVersion floatRepr sha256 c') : HashedAlike c c' := by
  have hdumps := hsha ((String.append_right_inj _).mp h)
  have hsort := Json.dumps_injective (printed_payload hprint c) (printed_payload hprint c') hdumps
  have hget := Json.get_eq_of_sortKeys_eq (by simp) (by simp) hsort
  have hfloat : ∀ p ∈ confidences c, ∀ q ∈ confidences c', (Json.float (floatRepr p)).sortKeys =
      (Json.float (floatRepr q)).sortKeys → p = q := fun p hp q hq hpq => hrepr p hp q hq (Json.float.inj hpq)
  refine ⟨Json.texts_inj (hget "changed_services"), ?_, mapped_inj (hget "relationships") fun x hx y hy hxy => ?_,
    mapped_inj (hget "evidence") fun x _ y _ hxy => ?_, ?_, Json.texts_inj (hget "limitations")⟩
  · exact hfloat _ (List.mem_cons_self ..) _ (List.mem_cons_self ..) (hget "confidence")
  · have hfields := Json.get_eq_of_sortKeys_eq (by simp) (by simp) hxy
    have hconfidence : x.confidence = y.confidence :=
      hfloat _ (List.mem_cons_of_mem _ (List.mem_map_of_mem hx)) _ (List.mem_cons_of_mem _ (List.mem_map_of_mem hy))
        (hfields "confidence")
    have hkind := RelationshipKind.value_injective (Json.str_inj (hfields "kind"))
    have hsource := Json.str_inj (hfields "source")
    have htarget := Json.str_inj (hfields "target")
    have hfreshness := freshness_injective (Json.str_inj (hfields "freshness"))
    have husable := Json.bool_inj (hfields "usable")
    simp only [hashed, RelationshipQualification.key, BrainRelationship.key, hsource, hkind, htarget, hconfidence,
      hfreshness, husable]
  · have hfields := Json.get_eq_of_sortKeys_eq (by simp) (by simp) hxy
    rw [Json.str_inj (hfields "id"), Json.str_inj (hfields "source_kind"), Json.str_inj (hfields "citation")]
  · have hconflicts := hget "conflicts"
    exact mapped_inj hconflicts fun x _ y _ hxy => Json.str_inj hxy

/-! ### Decision contexts of one version -/

theorem eq_map_of_mapM {ε α β : Type} {f : α → Except ε β} {g : α → β} {xs : List α} {ys : List β}
    (h : xs.mapM f = .ok ys) (hg : ∀ x ∈ xs, f x = .ok (g x)) : ys = xs.map g := by
  have hpairs := mapM_eq_ok.mp h
  clear h
  induction hpairs with
  | nil => rfl
  | cons hy _ ih =>
    rw [List.map_cons, ← ih fun x hx => hg x (List.mem_cons_of_mem _ hx),
      Except.ok.inj (hy.symm.trans (hg _ (List.mem_cons_self ..)))]

/-- The claim that is made of a relationship. -/
def claimOf (entities : EntityDict) (item : RelationshipQualification) : Option DecisionContextRelationship :=
  (relationshipFromQualification entities item).toOption.join

/-- What a decision context is made from. -/
theorem worldDecisionContext_eq_ok {d : DecisionContext} (h : worldDecisionContext floatRepr sha256 c model = .ok d) :
    (∀ item ∈ c.relationships, relationshipFromQualification (contextEntities c) item =
      .ok (claimOf (contextEntities c) item)) ∧
    d.relationships = sortedBy (·.key.order) (c.relationships.filterMap (claimOf (contextEntities c))) ∧
    evidenceBundle c (sortedSet (statedLimitations c model)) = .ok d.evidence ∧
    d.contextVersion = contextVersion floatRepr sha256 c ∧ d.qualified = contextQualified c model ∧
    d.confidence = c.confidence ∧ d.limitations = sortedSet (statedLimitations c model) ∧
    d.conflictIds = sortedBy id (c.conflicts.map (·.conflictId)) := by
  unfold worldDecisionContext decisionContextFromWorldModel at h
  obtain ⟨claims, hclaims, h⟩ := bind_eq_ok_iff.mp h
  obtain ⟨evidence, hevidence, h⟩ := bind_eq_ok_iff.mp h
  have hall : ∀ item ∈ c.relationships, relationshipFromQualification (contextEntities c) item =
      .ok (claimOf (contextEntities c) item) := by
    intro item hitem
    obtain ⟨claim, hclaim⟩ := isOk_iff.mp (mapM_isOk_iff.mp (isOk_iff.mpr ⟨claims, hclaims⟩) item hitem)
    have hsame : relationshipFromQualification (contextEntities c) item = .ok claim := hclaim
    rw [claimOf, hsame]
    rfl
  have hlist : claims.filterMap id = c.relationships.filterMap (claimOf (contextEntities c)) := by
    rw [eq_map_of_mapM hclaims hall, List.filterMap_map]
    rfl
  unfold DecisionContext.make at h
  split at h
  · cases h
  · obtain rfl := Except.ok.inj h
    exact ⟨hall, congrArg (sortedBy _) hlist, hevidence, rfl, rfl, rfl, rfl, rfl⟩

/-- What a bundle has of some evidence. -/
theorem evidenceBundle_eq_ok {limitations : List String} {bundle : EvidenceBundle}
    (h : evidenceBundle c limitations = .ok bundle) : ∃ references,
      c.evidence.mapM (·.reference) = .ok references ∧ bundle.references = sortedBy (·.evidenceId) references := by
  unfold evidenceBundle at h
  obtain ⟨references, hreferences, h⟩ := bind_eq_ok_iff.mp h
  refine ⟨references, hreferences, ?_⟩
  unfold EvidenceBundle.make at h
  split at h
  · split at h
    · cases h
    · obtain rfl := Except.ok.inj h
      rfl
  · next hnone =>
    rw [not_not] at hnone
    split at h
    · cases h
    · obtain rfl := Except.ok.inj h
      rw [hnone]
      rfl

theorem hashed_qualified (h : HashedAlike c c') : contextQualified c model = contextQualified c' model := by
  have hevidence : (c.evidence = []) = (c'.evidence = []) := by
    rw [← List.map_eq_nil_iff, h.evidence, List.map_eq_nil_iff]
  have hconflicts : (c.conflicts = []) = (c'.conflicts = []) := by
    rw [← List.map_eq_nil_iff, h.conflicts, List.map_eq_nil_iff]
  simp only [contextQualified, h.changedServices, h.confidence, h.limitations, ne_eq, hevidence, hconflicts]

theorem hashed_limitations (h : HashedAlike c c') : statedLimitations c model = statedLimitations c' model := by
  simp only [statedLimitations, hashed_qualified h, h.limitations]

/-- Relationships in the same place have the same key. -/
theorem hashed_getElem (h : HashedAlike c c') {i : Nat} (hi : i < c.relationships.length)
    (hi' : i < c'.relationships.length) : hashed c.relationships[i] = hashed c'.relationships[i] := by
  have hget := congrArg (·[i]?) h.relationships
  simpa [hi, hi'] using hget

theorem eq_of_perm_of_map_eq {α κ : Type} {f : α → κ} {xs ys : List α} (hperm : xs.Perm ys)
    (hmap : xs.map f = ys.map f) (hnodup : (xs.map f).Nodup) : xs = ys := by
  refine List.ext_getElem hperm.length_eq fun i hi hi' => ?_
  have hmem : xs[i] ∈ ys := hperm.subset (List.getElem_mem hi)
  have hkey : f xs[i] = f ys[i] := by
    have hget := congrArg (·[i]?) hmap
    simpa [hi, hi'] using hget
  exact List.inj_on_of_nodup_map (hmap ▸ hnodup) hmem (List.getElem_mem hi') hkey

theorem eq_of_map_shown {o o' : Option DecisionContextRelationship} {item item' : RelationshipQualification}
    (h : hashed item = hashed item')
    (ho : ∀ r ∈ o, r.key = item.key ∧ r.confidence = item.confidence ∧ r.freshness = item.freshness)
    (ho' : ∀ r ∈ o', r.key = item'.key ∧ r.confidence = item'.confidence ∧ r.freshness = item'.freshness)
    (hshown : o.map shown = o'.map shown) : o = o' := by
  obtain ⟨hkey, hrest⟩ := Prod.mk.inj h
  obtain ⟨hconfidence, hlast⟩ := Prod.mk.inj hrest
  have hfreshness := (Prod.mk.inj hlast).1
  cases o with
  | none =>
    cases o' with
    | none => rfl
    | some r' => cases hshown
  | some r =>
    cases o' with
    | none => cases hshown
    | some r' =>
      obtain ⟨rkey, rconfidence, rfreshness⟩ := ho r rfl
      obtain ⟨rkey', rconfidence', rfreshness'⟩ := ho' r' rfl
      refine congrArg some (claim_ext ?_ ?_ ?_ (Option.some.inj hshown))
      · rw [rkey, rkey', hkey]
      · rw [rconfidence, rconfidence', hconfidence]
      · rw [rfreshness, rfreshness', hfreshness]

/-- A claim is made of the one relationship that has its key. -/
theorem claim_carried {entities entities' : EntityDict} {items items' : List RelationshipQualification}
    (hunique : (items'.map RelationshipQualification.key).Nodup)
    (hkeys : ∀ item ∈ items', ∀ r ∈ claimOf entities' item, r.key = item.key)
    (hsub : ∀ r, r ∈ items.filterMap (claimOf entities) → r ∈ items'.filterMap (claimOf entities'))
    {item item' : RelationshipQualification} (hitem : item ∈ items) (hitem' : item' ∈ items')
    (hkey : item.key = item'.key) {r : DecisionContextRelationship} (hr : claimOf entities item = some r)
    (hrkey : r.key = item.key) : claimOf entities' item' = some r := by
  obtain ⟨other, hother, hclaim⟩ := List.mem_filterMap.mp (hsub r (List.mem_filterMap.mpr ⟨item, hitem, hr⟩))
  have hsame : other.key = item'.key := by rw [← hkeys other hother r hclaim, hrkey, hkey]
  rwa [← List.inj_on_of_nodup_map hunique hother hitem' hsame]

/-- Of one version, contexts the model returns have one decision context just when they show alike. -/
theorem decisionContext_eq_iff {d d' : DecisionContext} (hsound : Sound c) (hsound' : Sound c')
    (halike : HashedAlike c c') (hversion : contextVersion floatRepr sha256 c = contextVersion floatRepr sha256 c')
    (hd : worldDecisionContext floatRepr sha256 c model = .ok d)
    (hd' : worldDecisionContext floatRepr sha256 c' model = .ok d') : d = d' ↔ ShownAlike c c' := by
  obtain ⟨hall, hrelationships, hbundle, hv, hq, hconf, hlim, hids⟩ := worldDecisionContext_eq_ok hd
  obtain ⟨hall', hrelationships', hbundle', hv', hq', hconf', hlim', hids'⟩ := worldDecisionContext_eq_ok hd'
  have hlength : c.relationships.length = c'.relationships.length := by
    simpa using congrArg List.length halike.relationships
  obtain ⟨references, hreferences, hsorted⟩ := evidenceBundle_eq_ok hbundle
  obtain ⟨references', hreferences', hsorted'⟩ := evidenceBundle_eq_ok hbundle'
  have hclaims := fun item hitem => relationshipFromQualification_ok (hall item hitem)
  have hclaims' := fun item hitem => relationshipFromQualification_ok (hall' item hitem)
  constructor
  · rintro rfl
    constructor
    · refine List.ext_getElem (by simp [hlength]) fun i hi hi' => ?_
      rw [List.length_map] at hi hi'
      have hmem := List.getElem_mem hi
      have hmem' := List.getElem_mem hi'
      have hkey : c.relationships[i].key = c'.relationships[i].key := congrArg Prod.fst (hashed_getElem halike hi hi')
      have hsame : ∀ r, r ∈ c.relationships.filterMap (claimOf (contextEntities c)) ↔
          r ∈ c'.relationships.filterMap (claimOf (contextEntities c')) := fun r => by
        rw [← mem_sortedBy (f := (·.key.order)), ← hrelationships, hrelationships', mem_sortedBy]
      rw [List.getElem_map, List.getElem_map, (hclaims _ hmem).1, (hclaims' _ hmem').1]
      refine congrArg (Option.map shown) (Option.ext fun r => ⟨fun hr => ?_, fun hr => ?_⟩)
      · exact claim_carried hsound'.keys (fun item hitem r hr => ((hclaims' item hitem).2 r hr).1)
          (fun r => (hsame r).mp) hmem hmem' hkey hr ((hclaims _ hmem).2 r hr).1
      · exact claim_carried hsound.keys (fun item hitem r hr => ((hclaims item hitem).2 r hr).1)
          (fun r => (hsame r).mpr) hmem' hmem hkey.symm hr ((hclaims' _ hmem').2 r hr).1
    · have hperm : references.Perm references' :=
        ((perm_sortedBy _ references).symm.trans (.of_eq (hsorted.symm.trans hsorted'))).trans
          (perm_sortedBy _ references')
      have hpointers := hperm.map pointer
      rw [references_pointers hreferences, references_pointers hreferences'] at hpointers
      have heq : c.evidence.map pointerOf = c'.evidence.map pointerOf := by
        refine eq_of_perm_of_map_eq (f := (·.evidenceId)) hpointers ?_ ?_
        · have hfirst := congrArg (List.map Prod.fst) halike.evidence
          simpa [pointerOf, Function.comp_def] using hfirst
        · simpa [pointerOf, Function.comp_def] using hsound.ids
      have hrevisions := congrArg (List.map (·.revision)) heq
      simpa [pointerOf, Function.comp_def] using hrevisions
  · rintro ⟨hshown, hrevisions⟩
    have hclaimsEq : c.relationships.map (claimOf (contextEntities c)) =
        c'.relationships.map (claimOf (contextEntities c')) := by
      refine List.ext_getElem (by simp [hlength]) fun i hi hi' => ?_
      rw [List.length_map] at hi hi'
      have hmem := List.getElem_mem hi
      have hmem' := List.getElem_mem hi'
      have hget := congrArg (·[i]?) hshown
      simp only [List.getElem?_map, List.getElem?_eq_getElem hi, List.getElem?_eq_getElem hi', Option.map_some,
        Option.some.injEq, (hclaims _ hmem).1, (hclaims' _ hmem').1] at hget
      rw [List.getElem_map, List.getElem_map]
      exact eq_of_map_shown (hashed_getElem halike hi hi') (hclaims _ hmem).2 (hclaims' _ hmem').2 hget
    have hreferencesEq : references = references' := by
      refine List.map_injective_iff.mpr pointer_injective ?_
      rw [references_pointers hreferences, references_pointers hreferences']
      refine List.ext_getElem (by simpa using congrArg List.length hrevisions) fun i hi hi' => ?_
      rw [List.length_map] at hi hi'
      have hcited := congrArg (·[i]?) halike.evidence
      have hrevision := congrArg (·[i]?) hrevisions
      simp only [List.getElem?_map, List.getElem?_eq_getElem hi, List.getElem?_eq_getElem hi', Option.map_some,
        Option.some.injEq, Prod.mk.injEq] at hcited hrevision
      rw [List.getElem_map, List.getElem_map, pointerOf, pointerOf, hcited.1, hcited.2.1, hcited.2.2, hrevision]
    have hlimitations : statedLimitations c model = statedLimitations c' model := hashed_limitations halike
    have hevidence : d.evidence = d'.evidence := by
      unfold evidenceBundle at hbundle hbundle'
      rw [hreferences, ok_bind] at hbundle
      rw [hreferences', ← hreferencesEq, ← hlimitations, ok_bind] at hbundle'
      exact Except.ok.inj (hbundle.symm.trans hbundle')
    have hrelationshipsEq : d.relationships = d'.relationships := by
      have hfilter := congrArg (List.filterMap id) hclaimsEq
      rw [List.filterMap_map, List.filterMap_map] at hfilter
      rw [hrelationships, hrelationships']
      exact congrArg (sortedBy _) hfilter
    rw [hversion, ← hv'] at hv
    rw [hashed_qualified halike, ← hq'] at hq
    rw [halike.confidence, ← hconf'] at hconf
    rw [hlimitations, ← hlim'] at hlim
    rw [halike.conflicts, ← hids'] at hids
    cases d
    cases d'
    subst hv hq hconf hlim hids hevidence hrelationshipsEq
    rfl

end

/-- Contexts of one version have one decision context just when what is shown of them, beyond what the version
covers, is alike. -/
theorem version_is_faithful_iff (floatRepr : ℚ → String) (sha256 : String → String) (model : WorldModel)
    (query query' : ChangeQuery) (s s' : Store) (c c' : QualifiedWorldModelContext) (d d' : DecisionContext)
    (hc : model.contextForChange query s = .ok c) (hc' : model.contextForChange query' s' = .ok c')
    (hprint : ∀ q, Json.FloatText (floatRepr q))
    (hrepr : ∀ p ∈ confidences c, ∀ q ∈ confidences c', floatRepr p = floatRepr q → p = q)
    (hsha : sha256 (versionPayload floatRepr c).dumps = sha256 (versionPayload floatRepr c').dumps →
      (versionPayload floatRepr c).dumps = (versionPayload floatRepr c').dumps)
    (hd : worldDecisionContext floatRepr sha256 c model = .ok d)
    (hd' : worldDecisionContext floatRepr sha256 c' model = .ok d')
    (hversion : contextVersion floatRepr sha256 c = contextVersion floatRepr sha256 c') :
    d = d' ↔ ShownAlike c c' :=
  decisionContext_eq_iff (sound_of_ok hc) (sound_of_ok hc') (hashedAlike_of_version hprint hrepr hsha hversion)
    hversion hd hd'

deriving instance DecidableEq for QualifiedWorldModelContext

namespace Relabelled

open CompanyBrain.Sample (acmeModel paymentsChange terms)

/-- The same store once the service has another label. -/
def relabelled : List StoreOp :=
  Sample.member ++ [.putEntity "acme" ⟨"service:payments", .service, "Payments API", [], by decide +kernel⟩ terms 6]

def answer (ops : List StoreOp) : Except WorldModelError QualifiedWorldModelContext :=
  acmeModel.contextForChange paymentsChange (runState Store.step Store.empty ops)

/-- `repr` of the one confidence. -/
def floatRepr (_ : ℚ) : String := "0.98"

/-- SHA-256 of the one text that is hashed. -/
def sha256 (_ : String) : String := "9cd1f03c70ed5b9f6b6c49fab9edc26812f2309106dd6fe35e11a672aaa4c77d"

/-- The labels that a decision context shows. -/
def labels (ops : List StoreOp) : Option (List String) :=
  (answer ops).toOption.bind fun c =>
    (worldDecisionContext floatRepr sha256 c acmeModel).toOption.map (·.relationships.map (·.sourceLabel))

theorem labels_member : labels Sample.member = some ["payments"] := by decide +kernel

theorem of_labels {ops : List StoreOp} {texts : List String} (h : labels ops = some texts) : ∃ c d,
    answer ops = .ok c ∧ worldDecisionContext floatRepr sha256 c acmeModel = .ok d ∧
      d.relationships.map (·.sourceLabel) = texts := by
  obtain ⟨c, hc, h⟩ := Option.bind_eq_some_iff.mp h
  obtain ⟨d, hd, h⟩ := Option.map_eq_some_iff.mp h
  exact ⟨c, d, toOption_eq_some.mp hc, toOption_eq_some.mp hd, h⟩

theorem floatRepr_text (q : ℚ) : Json.FloatText (floatRepr q) := by
  rw [floatRepr]
  decide

/-- But for its entities the context is the same. -/
theorem same_but_entities : ((answer relabelled).toOption.map fun c => { c with entities := [] }) =
    (answer Sample.member).toOption.map fun c => { c with entities := [] } := by
  decide +kernel

end Relabelled

theorem one_context_is_faithful : ∃ c d, Relabelled.answer Sample.member = .ok c ∧
    worldDecisionContext Relabelled.floatRepr Relabelled.sha256 c Sample.acmeModel = .ok d ∧
      (d = d ↔ ShownAlike c c) := by
  obtain ⟨c, d, hc, hd, -⟩ := Relabelled.of_labels Relabelled.labels_member
  have hconfidences : (Relabelled.answer Sample.member).toOption.map (fun c => (confidences c).dedup.length) =
      some 1 := by
    decide +kernel
  have hone : ∀ p ∈ confidences c, ∀ q ∈ confidences c, p = q := by
    rw [toOption_eq_some.mpr hc, Option.map_some, Option.some.injEq, List.length_eq_one_iff] at hconfidences
    obtain ⟨r, hr⟩ := hconfidences
    have hall : ∀ p ∈ confidences c, p = r := fun p hp =>
      List.mem_singleton.mp (hr ▸ List.mem_dedup.mpr hp)
    exact fun p hp q hq => (hall p hp).trans (hall q hq).symm
  exact ⟨c, d, hc, hd, version_is_faithful_iff _ _ _ _ _ _ _ c c d d hc hc Relabelled.floatRepr_text
    (fun p hp q hq _ => hone p hp q hq) (fun _ => rfl) hd hd rfl⟩

/-- A service that is given another label keeps the version and changes the decision context. -/
theorem relabelled_keeps_version :
    ¬∀ (s s' : Store) (c c' : QualifiedWorldModelContext) (d d' : DecisionContext),
      Sample.acmeModel.contextForChange Sample.paymentsChange s = .ok c →
      Sample.acmeModel.contextForChange Sample.paymentsChange s' = .ok c' →
      worldDecisionContext Relabelled.floatRepr Relabelled.sha256 c Sample.acmeModel = .ok d →
      worldDecisionContext Relabelled.floatRepr Relabelled.sha256 c' Sample.acmeModel = .ok d' →
      (∀ sha256, contextVersion Relabelled.floatRepr sha256 c = contextVersion Relabelled.floatRepr sha256 c') →
        d = d' := by
  intro h
  have hlabels : Relabelled.labels Relabelled.relabelled = some ["Payments API"] := by decide +kernel
  obtain ⟨c, d, hc, hd, hold⟩ := Relabelled.of_labels Relabelled.labels_member
  obtain ⟨c', d', hc', hd', hnew⟩ := Relabelled.of_labels hlabels
  have hsame := Relabelled.same_but_entities
  rw [toOption_eq_some.mpr hc, toOption_eq_some.mpr hc', Option.map_some, Option.map_some, Option.some.injEq]
    at hsame
  have hblind : ∀ c, versionPayload Relabelled.floatRepr { c with entities := [] } =
      versionPayload Relabelled.floatRepr c := fun _ => rfl
  have hversion : ∀ sha256, contextVersion Relabelled.floatRepr sha256 c =
      contextVersion Relabelled.floatRepr sha256 c' := by
    intro sha256
    unfold contextVersion
    rw [← hblind c, ← hblind c', hsame]
  rw [h _ _ c c' d d' hc hc' hd hd' hversion, hnew] at hold
  exact absurd hold (by decide)

end EngineeringIntelligence.PrGuardian.Company
