import EngineeringIntelligence.CompanyBrain.Description
import EngineeringIntelligence.CompanyBrain.Integrity
import EngineeringIntelligence.Framework.UtcOrder

namespace EngineeringIntelligence.CompanyBrain

open EngineeringIntelligence.Framework EngineeringIntelligence.Ingestion

/-! Which source records the projections refuse for the length of a text. -/

/-- The limits that entities and evidence set on what a fact gives them. -/
def Fact.WithinLimits : Fact → Prop
  | .entity entityId _ label _ => required 500 entityId = true ∧ required 300 label = true
  | .evidence _ citation revision aclGroups aclUsers =>
    required 500 citation = true ∧ required 200 revision = true ∧
      ∀ x ∈ aclGroups ++ aclUsers, required 200 x = true
  | .edge .. => True

def WithinLimits (evidenceId : String) (facts : List Fact) : Prop :=
  required 500 evidenceId = true ∧ ∀ f ∈ facts, f.WithinLimits

instance : DecidablePred Fact.WithinLimits
  | .entity .. => inferInstanceAs (Decidable (_ ∧ _))
  | .evidence .. => inferInstanceAs (Decidable (_ ∧ _ ∧ _))
  | .edge .. => inferInstanceAs (Decidable True)

instance (evidenceId : String) (facts : List Fact) : Decidable (WithinLimits evidenceId facts) :=
  inferInstanceAs (Decidable (_ ∧ _))

/-- What the model itself asks of a fact. -/
def Fact.Fits (ev : String) : Fact → Prop
  | .entity entityId _ label attributes => entityProblem entityId label attributes = none
  | .evidence sourceKind citation revision aclGroups aclUsers =>
    evidenceProblem ev sourceKind citation revision aclGroups aclUsers = none ∧ citation.toList.length ≤ 300
  | .edge sourceId targetId _ =>
    required 500 sourceId = true ∧ required 500 targetId = true ∧ required 200 ev = true

/-- Edges come after what they link and cite. -/
def Grounded (ev : String) : List String → List Fact → Prop
  | _, [] => True
  | known, .entity entityId _ _ _ :: rest => entityId ≠ ev ∧ Grounded ev (entityId :: known) rest
  | known, .evidence _ _ _ _ _ :: rest => Grounded ev (ev :: known) rest
  | known, .edge sourceId targetId _ :: rest =>
    (ev ∈ known ∧ sourceId ∈ known ∧ targetId ∈ known ∧ sourceId ≠ targetId) ∧ Grounded ev known rest

/-- The model has the entities, and the evidence if it is one of them. -/
def Knows (ev : String) (b : CompanyBrain) (known : List String) : Prop :=
  (∀ id ∈ known, (b.entities.get id).isSome = true) ∧ (ev ∈ known → (b.evidence.get ev).isSome = true)

section
variable {ev : String} {b b' : CompanyBrain} {known : List String}

theorem BrainEvidence.make_isOk {evidenceId sourceKind citation revision : String}
    {aclGroups aclUsers : List String} :
    (BrainEvidence.make evidenceId sourceKind citation revision aclGroups aclUsers).isOk = true ↔
      evidenceProblem evidenceId sourceKind citation revision aclGroups aclUsers = none := by
  unfold BrainEvidence.make
  split
  · next message h => exact iff_of_false nofun (by rw [h]; nofun)
  · next h => exact iff_of_true rfl h

theorem BrainEvidence.make_citation {evidenceId sourceKind citation revision : String}
    {aclGroups aclUsers : List String} {v : BrainEvidence}
    (h : BrainEvidence.make evidenceId sourceKind citation revision aclGroups aclUsers = .ok v) :
    v.citation = citation := by
  unfold BrainEvidence.make at h
  split at h
  · cases h
  · cases h
    rfl

theorem recordEvidence_isOk {v : BrainEvidence} :
    (b.recordEvidence v).2.isOk = true ↔ v.citation.toList.length ≤ 300 := by
  rw [← evidenceEntity_isOk]
  unfold CompanyBrain.recordEvidence
  dsimp only
  split
  · next h => rw [h]; exact Iff.rfl
  · next h => rw [h]; exact iff_of_true rfl rfl

theorem stateFact_isOk {f : Fact} {rest : List Fact} (hknown : Knows ev b known)
    (hgrounded : Grounded ev known (f :: rest)) : (stateFact ev b f).isOk = true ↔ f.Fits ev := by
  cases f with
  | entity entityId kind label attributes =>
    rw [Fact.Fits, ← @BrainEntity.make_isOk entityId label kind attributes, stateFact]
    cases BrainEntity.make entityId kind label attributes <;> rfl
  | evidence sourceKind citation revision aclGroups aclUsers =>
    rw [Fact.Fits, ← BrainEvidence.make_isOk, stateFact]
    cases hmake : BrainEvidence.make ev sourceKind citation revision aclGroups aclUsers with
    | error x => exact iff_of_false Bool.false_ne_true fun h => absurd h.1 Bool.false_ne_true
    | ok v =>
      rw [← BrainEvidence.make_citation hmake, ← recordEvidence_isOk (b := b)]
      dsimp only
      split
      · next h => rw [h]; exact iff_of_false Bool.false_ne_true fun h => absurd h.2 Bool.false_ne_true
      · next h => rw [h]; exact iff_of_true rfl ⟨rfl, rfl⟩
  | edge sourceId targetId kind =>
    obtain ⟨⟨hev, hsource, htarget, hne⟩, -⟩ := hgrounded
    rw [Fact.Fits, stateFact]
    constructor
    · intro hok
      cases hrelate : b.relate sourceId targetId kind [ev] with
      | error x => rw [hrelate] at hok; cases hok
      | ok p =>
        obtain ⟨hs, ht, -, h200⟩ := relate_texts hrelate
        exact ⟨hs, ht, h200⟩
    · rintro ⟨hs, ht, h200⟩
      obtain ⟨b', r, hrelate⟩ := relate_present kind (hknown.1 _ hsource) (hknown.1 _ htarget)
        (hknown.2 hev) hs ht hne h200
      rw [hrelate]
      rfl

theorem Knows.put (h : Knows ev b known) {e : BrainEntity} (hne : e.entityId ≠ ev) :
    Knows ev (b.upsertEntity e) (e.entityId :: known) := by
  refine ⟨fun id hid => ?_, fun hev => ?_⟩
  · show ((b.entities.put e).get id).isSome = true
    rw [Table.get_put]
    split
    · rfl
    · next hother => exact h.1 id ((List.mem_cons.mp hid).resolve_left hother)
  · exact h.2 ((List.mem_cons.mp hev).resolve_left hne.symm)

/-- A fact that is stated leaves the rest grounded in what the model then knows. -/
theorem stateFact_knows {f : Fact} {rest : List Fact} (hknown : Knows ev b known)
    (hgrounded : Grounded ev known (f :: rest)) (h : stateFact ev b f = .ok b') :
    ∃ known', Knows ev b' known' ∧ Grounded ev known' rest := by
  obtain ⟨entityId, _, _, _, e, rfl, hmake, rfl⟩ | ⟨_, _, _, _, _, v, e, rfl, hmake, hentity, rfl⟩ |
    ⟨_, _, _, r, rfl, hrelate⟩ := stateFact_cases h
  · obtain rfl := (BrainEntity.make_eq_ok hmake).1
    exact ⟨_, hknown.put hgrounded.1, hgrounded.2⟩
  · have hid := BrainEvidence.make_eq_ok hmake
    have hid' := (BrainEntity.make_eq_ok hentity).1.trans hid
    refine ⟨ev :: known, ⟨fun id hin => ?_, fun _ => ?_⟩, hgrounded⟩
    · show ((b.entities.put e).get id).isSome = true
      rw [Table.get_put, hid']
      split
      · rfl
      · next hother => exact hknown.1 id ((List.mem_cons.mp hin).resolve_left hother)
    · show ((b.evidence.put v).get ev).isSome = true
      rw [← hid, Table.get_put_self]
      rfl
  · obtain ⟨-, -, -, -, rfl⟩ := relate_ok_iff.mp hrelate
    exact ⟨known, hknown, hgrounded.2⟩

/-- Grounded facts can be stated when each fits. -/
theorem stateAll_isOk {facts : List Fact} (hknown : Knows ev b known) (hgrounded : Grounded ev known facts) :
    (stateAll ev b facts).isOk = true ↔ ∀ f ∈ facts, f.Fits ev := by
  induction facts generalizing b known with
  | nil => exact iff_of_true rfl nofun
  | cons f facts ih =>
    rw [List.forall_mem_cons, ← stateFact_isOk hknown hgrounded]
    show (stateFact ev b f >>= fun mid => stateAll ev mid facts).isOk = true ↔ _
    cases hfirst : stateFact ev b f with
    | error x => exact iff_of_false nofun fun h => nomatch h.1
    | ok mid =>
      obtain ⟨known', hknown', hrest⟩ := stateFact_knows hknown hgrounded hfirst
      exact (ih hknown' hrest).trans (and_iff_right rfl).symm

end

/-! ### Texts -/

/-- A part of a line of text is a line of text. -/
theorem required_of_infix {m : Nat} {part whole : String} (h : required m whole = true) (hpart : part ≠ "")
    (hin : part.toList <:+: whole.toList) : required m part = true := by
  simp only [required, Bool.and_eq_true, decide_eq_true_eq, Bool.not_eq_true', List.contains_eq_mem,
    decide_eq_false_iff_not] at h ⊢
  exact ⟨⟨hpart, hin.length_le.trans h.1.2⟩, fun hnewline => h.2 (hin.subset hnewline)⟩

theorem required_iff {m n : Nat} {value : String} (h : required n value = true) :
    required m value = true ↔ value.toList.length ≤ m := by
  simp only [required, Bool.and_eq_true, decide_eq_true_eq] at h ⊢
  tauto

theorem mem_attributes {values : List (String × Option String)} {p : String × String} :
    p ∈ attributes values ↔ ∃ o, (p.1, o) ∈ values ∧ truthy o = some p.2 := by
  rw [attributes, mem_sortedBy, List.mem_filterMap]
  constructor
  · rintro ⟨⟨key, o⟩, hmem, hp⟩
    obtain ⟨v, hv, rfl⟩ := Option.map_eq_some_iff.mp hp
    exact ⟨o, hmem, hv⟩
  · rintro ⟨o, hmem, hv⟩
    exact ⟨(p.1, o), hmem, by rw [hv]; rfl⟩

theorem attributes_keys (values : List (String × Option String)) :
    ((values.filterMap fun p => (truthy p.2).map fun v => (p.1, v)).map (·.1)).Sublist (values.map (·.1)) := by
  induction values with
  | nil => exact List.Sublist.refl _
  | cons p values ih =>
    rw [List.filterMap_cons]
    cases truthy p.2 with
    | none => exact ih.cons _
    | some v => exact ih.cons_cons _

/-- Attributes under different short keys are refused only for a value. -/
theorem attributes_valid (keys : List String) {values : List (String × Option String)}
    (hmap : values.map (·.1) = keys) (hnodup : keys.Nodup) (hkeys : ∀ key ∈ keys, required 100 key = true) :
    normalizedAttributes (attributes values) = none ↔
      ∀ p ∈ values, ∀ v, truthy p.2 = some v → required 500 v = true := by
  have hsorted : attributes values = sortedBy pairOrder (attributes values) := (sortedBy_sortedBy _ _).symm
  have hdistinct : ((attributes values).map (·.1)).Nodup :=
    ((perm_sortedBy _ _).map _).nodup_iff.mpr ((hmap ▸ hnodup).sublist (attributes_keys values))
  rw [normalizedAttributes, if_neg (by rw [not_or, not_not, not_not]; exact ⟨hsorted, hdistinct⟩),
    List.findSome?_eq_none_iff]
  simp only [Option.or_eq_none_iff, invalid_eq_none, mem_attributes]
  constructor
  · exact fun hall p hmem v hv => (hall (p.1, v) ⟨p.2, hmem, hv⟩).2
  · rintro hall p ⟨o, hmem, hv⟩
    exact ⟨hkeys p.1 (hmap ▸ List.mem_map_of_mem hmem), hall (p.1, o) hmem p.2 hv⟩

theorem entityProblem_none_iff {entityId label : String} {attributes : List (String × String)} :
    entityProblem entityId label attributes = none ↔ required 500 entityId = true ∧
      required 300 label = true ∧ normalizedAttributes attributes = none := by
  rw [entityProblem, Option.or_eq_none_iff, Option.or_eq_none_iff, invalid_eq_none, invalid_eq_none]

/-- Evidence within the limits is refused only for its source kind. -/
theorem evidenceProblem_none_iff {ev sourceKind citation revision : String} {groups users : List String}
    (hev : required 500 ev = true)
    (h : (Fact.evidence sourceKind citation revision (sortedSet groups) (sortedSet users)).WithinLimits) :
    evidenceProblem ev sourceKind citation revision (sortedSet groups) (sortedSet users) = none ↔
      required 100 sourceKind = true := by
  obtain ⟨hcitation, hrevision, hacl⟩ := h
  have hgroups : normalizedStrings (sortedSet groups) "evidence acl_groups" = none :=
    normalizedStrings_eq_none.mpr ⟨pairwise_sortedSet groups, fun v hv => hacl v (List.mem_append_left _ hv)⟩
  have husers : normalizedStrings (sortedSet users) "evidence acl_users" = none :=
    normalizedStrings_eq_none.mpr ⟨pairwise_sortedSet users, fun v hv => hacl v (List.mem_append_right _ hv)⟩
  simp only [evidenceProblem, Option.or_eq_none_iff, invalid_eq_none, hev, hcitation, hrevision, hgroups, husers,
    true_and, and_true]

/-- The ends of a grounded edge are entities stated before it. -/
theorem Grounded.ends {ev : String} {known : List String} {facts : List Fact} (h : Grounded ev known facts)
    {sourceId targetId : String} {kind : RelationshipKind} (hedge : .edge sourceId targetId kind ∈ facts)
    {id : String} (hid : id = sourceId ∨ id = targetId) :
    id ∈ known ∨ id = ev ∨ ∃ kind label attributes, .entity id kind label attributes ∈ facts := by
  induction facts generalizing known with
  | nil => cases hedge
  | cons f facts ih =>
    cases f with
    | entity entityId kind' label attributes =>
      obtain hin | heq | ⟨k, l, a, hin⟩ := ih h.2 ((List.mem_cons.mp hedge).resolve_left nofun)
      · obtain rfl | hin := List.mem_cons.mp hin
        · exact .inr (.inr ⟨_, _, _, List.mem_cons_self⟩)
        · exact .inl hin
      · exact .inr (.inl heq)
      · exact .inr (.inr ⟨k, l, a, List.mem_cons_of_mem _ hin⟩)
    | evidence _ _ _ _ _ =>
      obtain hin | heq | ⟨k, l, a, hin⟩ := ih h ((List.mem_cons.mp hedge).resolve_left nofun)
      · obtain rfl | hin := List.mem_cons.mp hin
        · exact .inr (.inl rfl)
        · exact .inl hin
      · exact .inr (.inl heq)
      · exact .inr (.inr ⟨k, l, a, List.mem_cons_of_mem _ hin⟩)
    | edge s t k =>
      obtain hhere | hlater := List.mem_cons.mp hedge
      · cases hhere
        obtain rfl | rfl := hid
        · exact .inl h.1.2.1
        · exact .inl h.1.2.2.1
      · obtain hin | heq | ⟨k, l, a, hin⟩ := ih h.2 hlater
        · exact .inl hin
        · exact .inr (.inl heq)
        · exact .inr (.inr ⟨k, l, a, List.mem_cons_of_mem _ hin⟩)

theorem edge_fits {ev : String} {facts : List Fact} (hlimits : WithinLimits ev facts)
    (hgrounded : Grounded ev [] facts) {sourceId targetId : String} {kind : RelationshipKind}
    (hedge : .edge sourceId targetId kind ∈ facts) :
    (Fact.edge sourceId targetId kind).Fits ev ↔ ev.toList.length ≤ 200 := by
  have hends : ∀ id, id = sourceId ∨ id = targetId → required 500 id = true := by
    intro id hid
    obtain hin | rfl | ⟨kind, label, attributes, hin⟩ := hgrounded.ends hedge hid
    · cases hin
    · exact hlimits.1
    · exact (hlimits.2 _ hin).1
  rw [Fact.Fits, required_iff hlimits.1]
  exact ⟨fun h => h.2.2, fun h => ⟨hends _ (.inl rfl), hends _ (.inr rfl), h⟩⟩

/-! ### File changes -/

theorem ne_of_kinds {kind kind' : EntityKind} {a c : String} (h : HasKind kind a) (h' : HasKind kind' c)
    (hne : kind ≠ kind') : a ≠ c := by
  rintro rfl
  exact hne (hasKind_unique h h')

/-- The evidence id can be cited and the language is a line of text. -/
def FileFits (c : FileChange) : Prop :=
  (fileEvidenceId c).toList.length ≤ 200 ∧ ∀ language, truthy c.language = some language →
    required 500 language = true

theorem fileFacts_grounded (c : FileChange) : Grounded (fileEvidenceId c) [] (fileFacts c) := by
  have hrepo := hasKind_repository c.source.provider c.source.repository
  have hchange := hasKind_change c
  have hev := hasKind_fileEvidence c
  have hrepoChange := ne_of_kinds hrepo hchange (by decide)
  have hrepoEvidence := ne_of_kinds hrepo hev (by decide)
  have hchangeEvidence := ne_of_kinds hchange hev (by decide)
  unfold fileFacts
  cases truthy c.service with
  | none => simp [Grounded, hrepoChange, hrepoEvidence, hchangeEvidence]
  | some service =>
    have hservice := hasKind_service service
    have hserviceRepo := ne_of_kinds hservice hrepo (by decide)
    have hserviceChange := ne_of_kinds hservice hchange (by decide)
    have hserviceEvidence := ne_of_kinds hservice hev (by decide)
    cases truthy c.owner with
    | none =>
      simp [Grounded, hrepoChange, hrepoEvidence, hchangeEvidence, hserviceRepo, hserviceChange, hserviceEvidence]
    | some owner =>
      have hownerService := ne_of_kinds (hasKind_owner owner) hservice (by decide)
      have hownerEvidence := ne_of_kinds (hasKind_owner owner) hev (by decide)
      simp [Grounded, hrepoChange, hrepoEvidence, hchangeEvidence, hserviceRepo, hserviceChange, hserviceEvidence,
        hownerService, hownerEvidence]

theorem truthy_some {value v : String} (h : truthy (some value) = some v) : v = value ∧ value ≠ "" := by
  obtain ⟨hsome, hne⟩ := Option.filter_eq_some_iff.mp h
  cases hsome
  exact ⟨rfl, of_decide_eq_true hne⟩

/-- The texts a file's identifiers are put together from. -/
theorem changeEntityId_parts (c : FileChange) {part : String}
    (h : part ∈ [c.source.provider, c.source.repository, c.source.branch, c.source.path]) :
    part.toList <:+: (changeEntityId c).toList := by
  simp only [List.mem_cons, List.not_mem_nil, or_false] at h
  unfold changeEntityId
  simp only [String.toList_append]
  obtain rfl | rfl | rfl | rfl := h
  · refine ⟨"change:".toList, ":".toList ++ (c.source.repository.toList ++ (":".toList ++ (c.source.branch.toList ++
      (":".toList ++ (c.source.commitSha.toList ++ (":".toList ++ c.source.path.toList)))))), ?_⟩
    simp only [List.append_assoc]
  · refine ⟨"change:".toList ++ c.source.provider.toList ++ ":".toList, ":".toList ++ (c.source.branch.toList ++
      (":".toList ++ (c.source.commitSha.toList ++ (":".toList ++ c.source.path.toList)))), ?_⟩
    simp only [List.append_assoc]
  · refine ⟨"change:".toList ++ c.source.provider.toList ++ ":".toList ++ c.source.repository.toList ++ ":".toList,
      ":".toList ++ (c.source.commitSha.toList ++ (":".toList ++ c.source.path.toList)), ?_⟩
    simp only [List.append_assoc]
  · exact List.IsSuffix.isInfix (List.suffix_append _ _)

/-- The attributes of the change entity. -/
def changeAttributes (c : FileChange) : List (String × Option String) :=
  [("branch", some c.source.branch), ("commit_sha", some c.source.commitSha), ("path", some c.source.path),
    ("change_type", some c.changeType.value), ("language", c.language)]

/-- The attributes a file change states. -/
theorem fileFacts_attributes {c : FileChange} {entityId label : String} {kind : EntityKind}
    {values : List (String × String)} (h : .entity entityId kind label values ∈ fileFacts c) :
    values = attributes [("provider", some c.source.provider), ("branch", some c.source.branch)] ∨
      values = attributes (changeAttributes c) ∨
      values = attributes [("repository", some c.source.repository)] ∨ values = [] := by
  unfold fileFacts at h
  unfold changeAttributes
  cases hservice : truthy c.service with
  | none =>
    simp only [hservice, List.append_nil, List.mem_cons, Fact.entity.injEq, reduceCtorEq, or_false,
      List.not_mem_nil] at h
    tauto
  | some service =>
    cases howner : truthy c.owner <;>
      simp only [hservice, howner, List.append_nil, List.mem_append, List.mem_cons, Fact.entity.injEq, reduceCtorEq,
        or_false, List.not_mem_nil] at h <;>
      tauto

theorem fileFacts_evidence {c : FileChange} {sourceKind citation revision : String} {groups users : List String}
    (h : .evidence sourceKind citation revision groups users ∈ fileFacts c) :
    sourceKind = "repository-change" ∧ citation = c.source.citation ∧ groups = sortedSet c.acl.groups ∧
      users = sortedSet c.acl.users := by
  unfold fileFacts at h
  cases hservice : truthy c.service with
  | none =>
    simp only [hservice, List.append_nil, List.mem_cons, Fact.evidence.injEq, reduceCtorEq, false_or, or_false,
      List.not_mem_nil] at h
    tauto
  | some service =>
    cases howner : truthy c.owner <;>
      simp only [hservice, howner, List.append_nil, List.mem_append, List.mem_cons, Fact.evidence.injEq, reduceCtorEq,
        false_or, or_false, List.not_mem_nil] at h <;>
      tauto

/-- The citation of a file is no longer than its evidence id. -/
theorem citation_length (c : FileChange) : c.source.citation.toList.length ≤ (fileEvidenceId c).toList.length := by
  have hat : "@".toList.length = ":".toList.length := by decide
  unfold SourceIdentity.citation fileEvidenceId
  simp only [String.toList_append, List.length_append, hat]
  omega

/-- Within the limits, every fact of a file fits when its evidence can be cited and its language is a line. -/
theorem fileFacts_fit {c : FileChange} (h : WithinLimits (fileEvidenceId c) (fileFacts c)) :
    (∀ f ∈ fileFacts c, f.Fits (fileEvidenceId c)) ↔ FileFits c := by
  have hchange : .entity (changeEntityId c) .change
      (c.source.repository ++ "@" ++ c.source.commitSha ++ ":" ++ c.source.path)
      (attributes (changeAttributes c)) ∈ fileFacts c := List.mem_append_left _ (by simp [changeAttributes])
  have hedge : .edge (repositoryId c.source.provider c.source.repository) (changeEntityId c) .changedBy ∈
      fileFacts c := List.mem_append_left _ (by simp)
  have hrecord : .evidence "repository-change" c.source.citation c.source.commitSha (sortedSet c.acl.groups)
      (sortedSet c.acl.users) ∈ fileFacts c := List.mem_append_left _ (by simp)
  have hgrounded := fileFacts_grounded c
  have hattributes : normalizedAttributes (attributes (changeAttributes c)) = none ↔
      ∀ p ∈ changeAttributes c, ∀ v, truthy p.2 = some v → required 500 v = true :=
    attributes_valid ["branch", "commit_sha", "path", "change_type", "language"] rfl (by decide)
      (by decide)
  have hparts : ∀ part ∈ [c.source.provider, c.source.repository, c.source.branch, c.source.path], part ≠ "" →
      required 500 part = true := fun part hpart hne =>
    required_of_infix (h.2 _ hchange).1 hne (changeEntityId_parts c hpart)
  constructor
  · intro hall
    refine ⟨(edge_fits h hgrounded hedge).mp (hall _ hedge), fun language hlanguage => ?_⟩
    have hvalid := (entityProblem_none_iff.mp (hall _ hchange)).2.2
    exact hattributes.mp hvalid ("language", c.language) (by simp [changeAttributes]) language hlanguage
  · rintro ⟨h200, hlanguage⟩ f hf
    have hlimits := h.2 f hf
    cases f with
    | entity entityId kind label values =>
      refine entityProblem_none_iff.mpr ⟨hlimits.1, hlimits.2, ?_⟩
      obtain rfl | rfl | rfl | rfl := fileFacts_attributes hf
      · refine (attributes_valid ["provider", "branch"] rfl (by decide) (by decide)).mpr
          fun p hp v hv => ?_
        simp only [List.mem_cons, List.not_mem_nil, or_false] at hp
        obtain rfl | rfl := hp
        · obtain ⟨rfl, hne⟩ := truthy_some hv
          exact hparts _ (by simp) hne
        · obtain ⟨rfl, hne⟩ := truthy_some hv
          exact hparts _ (by simp) hne
      · refine hattributes.mpr fun p hp v hv => ?_
        simp only [changeAttributes, List.mem_cons, List.not_mem_nil, or_false] at hp
        obtain rfl | rfl | rfl | rfl | rfl := hp
        · obtain ⟨rfl, hne⟩ := truthy_some hv
          exact hparts _ (by simp) hne
        · obtain ⟨rfl, -⟩ := truthy_some hv
          exact required_mono (by decide) (h.2 _ hrecord).2.1
        · obtain ⟨rfl, hne⟩ := truthy_some hv
          exact hparts _ (by simp) hne
        · obtain ⟨rfl, -⟩ := truthy_some hv
          cases c.changeType <;> decide
        · exact hlanguage v hv
      · refine (attributes_valid ["repository"] rfl (by decide) (by decide)).mpr fun p hp v hv => ?_
        obtain rfl := List.mem_singleton.mp hp
        obtain ⟨rfl, hne⟩ := truthy_some hv
        exact hparts _ (by simp) hne
      · decide
    | evidence sourceKind citation revision groups users =>
      obtain ⟨rfl, rfl, rfl, rfl⟩ := fileFacts_evidence hf
      refine ⟨(evidenceProblem_none_iff h.1 hlimits).mpr (by decide), ?_⟩
      exact (citation_length c).trans (h200.trans (by decide))
    | edge sourceId targetId kind => exact (edge_fits h hgrounded hf).mpr h200

theorem knows_empty (ev : String) : Knows ev CompanyBrain.empty [] :=
  ⟨fun _ hid => (nomatch hid), fun hev => (nomatch hev)⟩

/-- A file within the limits is projected exactly when it is a deletion or fits. -/
theorem projectFile_isOk {c : FileChange} (h : WithinLimits (fileEvidenceId c) (fileFacts c)) :
    (projectFile c CompanyBrain.empty).isOk = true ↔ c.changeType = .delete ∨ FileFits c := by
  unfold projectFile
  cases hchange : c.changeType with
  | delete => exact iff_of_true rfl (.inl rfl)
  | upsert =>
    rw [← fileFacts_fit h, ← stateAll_isOk (knows_empty _) (fileFacts_grounded c), or_iff_right nofun]
    dsimp only
    cases stateAll (fileEvidenceId c) CompanyBrain.empty (fileFacts c) <;> rfl

/-! ### Knowledge documents -/

/-- The update time names a timezone, the evidence id can be cited, the source URL can be a label, and an
incident names other entities than itself. -/
structure KnowledgeFits (d : KnowledgeDocument) : Prop where
  aware : d.updatedAt.aware = true
  cited : (knowledgeEvidenceId d).toList.length ≤ 200
  url : ∀ url, truthy d.sourceUrl = some url → url.toList.length ≤ 300
  others : ∀ p ∈ declaredEdges d, p.2.1 ≠ artifactId d

theorem knowledgeFacts_grounded (d : KnowledgeDocument) : Grounded (knowledgeEvidenceId d) [] (knowledgeFacts d) := by
  obtain ⟨hne, hneService, hneOwner⟩ := entityKind_ne d.identity.sourceType
  have hartifact := hasKind_artifact d
  have hev := hasKind_knowledgeEvidence d
  have hartifactEvidence := ne_of_kinds hartifact hev hne
  unfold knowledgeFacts
  have hserviceEvidence : ∀ service, serviceId service ≠ knowledgeEvidenceId d := fun service =>
    ne_of_kinds (hasKind_service service) hev (by decide)
  have hserviceArtifact : ∀ service, serviceId service ≠ artifactId d := fun service =>
    ne_of_kinds (hasKind_service service) hartifact hneService.symm
  have hownerEvidence : ∀ owner, ownerId owner ≠ knowledgeEvidenceId d := fun owner =>
    ne_of_kinds (hasKind_owner owner) hev (by decide)
  have hownerArtifact : ∀ owner, ownerId owner ≠ artifactId d := fun owner =>
    ne_of_kinds (hasKind_owner owner) hartifact hneOwner.symm
  cases truthy d.service <;> cases truthy d.owner <;> by_cases hadr : d.identity.sourceType = .adr <;>
    simp [Grounded, hadr, hartifactEvidence, hserviceEvidence, hserviceArtifact, hownerEvidence, hownerArtifact]

/-- A printed time is a short line of text. -/
theorem required_isoformat (t : UtcTime) : required 500 t.isoformat = true := by
  have hdigits : ∀ width n, '\n' ∉ paddedDigits width n := by
    intro width n hmem
    obtain ⟨d, hd⟩ := mem_paddedDigits hmem
    revert d
    decide
  have hline : '\n' ∉ t.isoformat.toList := by
    rw [UtcTime.toList_isoformat]
    unfold UtcTime.fractionChars
    split <;> simp [hdigits, zoneChars]
  have hlength : t.isoformat.toList.length ≤ 500 := by
    rw [UtcTime.toList_isoformat]
    unfold UtcTime.fractionChars
    split <;> simp [length_paddedDigits, zoneChars]
  simp only [required, Bool.and_eq_true, decide_eq_true_eq, Bool.not_eq_true', List.contains_eq_mem,
    decide_eq_false_iff_not]
  exact ⟨⟨t.isoformat_ne_empty, hlength⟩, hline⟩

/-- The attributes of the artifact. -/
def artifactAttributes (d : KnowledgeDocument) : List (String × Option String) :=
  [("provider", some d.identity.provider), ("source_type", some d.identity.sourceType.value),
    ("revision", some d.revision), ("source_updated_at", some d.updatedAt.utc.isoformat)]

theorem knowledgeFacts_attributes {d : KnowledgeDocument} {entityId label : String} {kind : EntityKind}
    {values : List (String × String)} (h : .entity entityId kind label values ∈ knowledgeFacts d) :
    values = attributes (artifactAttributes d) ∨ values = [] := by
  unfold knowledgeFacts at h
  unfold artifactAttributes
  cases hservice : truthy d.service <;> cases howner : truthy d.owner <;>
    by_cases hadr : d.identity.sourceType = .adr <;>
    simp only [hservice, howner, hadr, if_true, if_false, List.append_nil, List.mem_append, List.mem_cons,
      Fact.entity.injEq, reduceCtorEq, or_false, List.not_mem_nil] at h ⊢ <;>
    tauto

theorem knowledgeFacts_evidence {d : KnowledgeDocument} {sourceKind citation revision : String}
    {groups users : List String} (h : .evidence sourceKind citation revision groups users ∈ knowledgeFacts d) :
    sourceKind = d.identity.sourceType.value ∧
      citation = (truthy d.sourceUrl).getD d.identity.documentId ∧ groups = sortedSet d.acl.groups ∧
      users = sortedSet d.acl.users := by
  unfold knowledgeFacts at h
  cases hservice : truthy d.service <;> cases howner : truthy d.owner <;>
    by_cases hadr : d.identity.sourceType = .adr <;>
    simp only [hservice, howner, hadr, if_true, if_false, List.append_nil, List.mem_append, List.mem_cons,
      Fact.evidence.injEq, reduceCtorEq, or_false, false_or, List.not_mem_nil] at h ⊢ <;>
    tauto

theorem documentId_length (d : KnowledgeDocument) :
    d.identity.documentId.toList.length ≤ (knowledgeEvidenceId d).toList.length := by
  simp only [knowledgeEvidenceId, String.toList_append, List.length_append]
  omega

theorem artifactId_provider (d : KnowledgeDocument) : d.identity.provider.toList <:+: (artifactId d).toList := by
  simp only [artifactId, String.toList_append]
  refine ⟨(entityKind d.identity.sourceType).value.toList ++ ":".toList,
    ":".toList ++ d.identity.sourceId.toList, ?_⟩
  simp only [List.append_assoc]

/-- Within the limits, every fact of a document fits when its evidence can be cited and its URL be a label. -/
theorem knowledgeFacts_fit {d : KnowledgeDocument} (h : WithinLimits (knowledgeEvidenceId d) (knowledgeFacts d)) :
    (∀ f ∈ knowledgeFacts d, f.Fits (knowledgeEvidenceId d)) ↔ (knowledgeEvidenceId d).toList.length ≤ 200 ∧
      ∀ url, truthy d.sourceUrl = some url → url.toList.length ≤ 300 := by
  have hartifact : .entity (artifactId d) (entityKind d.identity.sourceType) d.title
      (attributes (artifactAttributes d)) ∈ knowledgeFacts d :=
    List.mem_append_left _ (List.mem_append_left _ (by simp [artifactAttributes]))
  have hedge : .edge (artifactId d) (knowledgeEvidenceId d) .hasEvidence ∈ knowledgeFacts d :=
    List.mem_append_left _ (List.mem_append_left _ (by simp))
  have hrecord : .evidence d.identity.sourceType.value ((truthy d.sourceUrl).getD d.identity.documentId) d.revision
      (sortedSet d.acl.groups) (sortedSet d.acl.users) ∈ knowledgeFacts d :=
    List.mem_append_left _ (List.mem_append_left _ (by simp))
  have hgrounded := knowledgeFacts_grounded d
  have hkind : required 100 d.identity.sourceType.value = true := by
    cases d.identity.sourceType <;> decide
  constructor
  · intro hall
    refine ⟨(edge_fits h hgrounded hedge).mp (hall _ hedge), fun url hurl => ?_⟩
    have hcitation := (hall _ hrecord).2
    rwa [hurl] at hcitation
  · rintro ⟨h200, hurl⟩ f hf
    have hlimits := h.2 f hf
    cases f with
    | entity entityId kind label values =>
      refine entityProblem_none_iff.mpr ⟨hlimits.1, hlimits.2, ?_⟩
      obtain rfl | rfl := knowledgeFacts_attributes hf
      · refine (attributes_valid ["provider", "source_type", "revision", "source_updated_at"] rfl
          (by decide) (by decide)).mpr fun p hp v hv => ?_
        simp only [artifactAttributes, List.mem_cons, List.not_mem_nil, or_false] at hp
        obtain rfl | rfl | rfl | rfl := hp
        · obtain ⟨rfl, hne⟩ := truthy_some hv
          exact required_of_infix (h.2 _ hartifact).1 hne (artifactId_provider d)
        · obtain ⟨rfl, -⟩ := truthy_some hv
          exact required_mono (by decide) hkind
        · obtain ⟨rfl, -⟩ := truthy_some hv
          exact required_mono (by decide) (h.2 _ hrecord).2.1
        · obtain ⟨rfl, -⟩ := truthy_some hv
          exact required_isoformat d.updatedAt.utc
      · decide
    | evidence sourceKind citation revision groups users =>
      obtain ⟨rfl, rfl, rfl, rfl⟩ := knowledgeFacts_evidence hf
      refine ⟨(evidenceProblem_none_iff h.1 hlimits).mpr hkind, ?_⟩
      cases hsource : truthy d.sourceUrl with
      | none => exact (documentId_length d).trans (h200.trans (by decide))
      | some url => exact hurl url hsource
    | edge sourceId targetId kind => exact (edge_fits h hgrounded hf).mpr h200

/-- A declared relationship links an artifact with the entity it names. -/
def LinksTo (artifact : String) (p : String × String × Fact) : Prop :=
  ∃ kind, p.2.2 = .edge p.2.1 artifact kind ∨ p.2.2 = .edge artifact p.2.1 kind

theorem declaredEdges_link (d : KnowledgeDocument) : ∀ p ∈ declaredEdges d, LinksTo (artifactId d) p := by
  intro p hp
  unfold declaredEdges at hp
  split at hp
  · simp only [List.mem_append, Option.mem_toList, Option.map_eq_some_iff] at hp
    obtain ⟨cause, -, rfl⟩ | ⟨resolution, -, rfl⟩ := hp
    · exact ⟨.caused, .inl rfl⟩
    · exact ⟨.resolvedBy, .inr rfl⟩
  · cases hp

theorem required_of_entity {b : CompanyBrain} {id : String} (h : (b.entities.get id).isSome = true) :
    required 500 id = true := by
  obtain ⟨e, he⟩ := Option.isSome_iff_exists.mp h
  rw [← Table.key_of_get he]
  exact (entityProblem_none_iff.mp e.valid).1

/-- What relationships can be linked with: the artifact, and evidence that can be cited. -/
structure LinkReady (ev artifact : String) (b : CompanyBrain) : Prop where
  artifact : (b.entities.get artifact).isSome = true
  evidence : (b.evidence.get ev).isSome = true
  cited : required 200 ev = true

/-- Linking a known entity with an artifact fails when it is the artifact. -/
theorem stateFact_link {ev artifact : String} {b : CompanyBrain} (hb : LinkReady ev artifact b)
    {p : String × String × Fact} (hp : LinksTo artifact p) (hnamed : (b.entities.get p.2.1).isSome = true) :
    (stateFact ev b p.2.2).isOk = true ↔ p.2.1 ≠ artifact := by
  have hs := required_of_entity hnamed
  have ht := required_of_entity hb.artifact
  obtain ⟨kind, heq | heq⟩ := hp
  · rw [heq, stateFact]
    constructor
    · intro hok
      cases hrelate : b.relate p.2.1 artifact kind [ev] with
      | error x => rw [hrelate] at hok; cases hok
      | ok q => exact (relate_texts hrelate).2.2.1
    · intro hne
      obtain ⟨b', r, hrelate⟩ := relate_present kind hnamed hb.artifact hb.evidence hs ht hne hb.cited
      rw [hrelate]
      rfl
  · rw [heq, stateFact]
    constructor
    · intro hok
      cases hrelate : b.relate artifact p.2.1 kind [ev] with
      | error x => rw [hrelate] at hok; cases hok
      | ok q => exact (relate_texts hrelate).2.2.1.symm
    · intro hne
      obtain ⟨b', r, hrelate⟩ := relate_present kind hb.artifact hnamed hb.evidence ht hs hne.symm hb.cited
      rw [hrelate]
      rfl

theorem projectDeclared_isOk {ev artifact : String} {b : CompanyBrain} (hb : LinkReady ev artifact b)
    {declared : List (String × String × Fact)} (hdeclared : ∀ p ∈ declared, LinksTo artifact p) :
    (projectDeclared ev declared b).isOk = true ↔ ∀ p ∈ declared, p.2.1 ≠ artifact := by
  induction declared generalizing b with
  | nil => exact iff_of_true rfl fun p hp => absurd hp List.not_mem_nil
  | cons p rest ih =>
    obtain ⟨label, named, edge⟩ := p
    obtain ⟨hp, hrest⟩ := List.forall_mem_cons.mp hdeclared
    rw [List.forall_mem_cons, projectDeclared]
    split
    · next hnamed =>
      rw [← stateFact_link hb hp hnamed]
      cases hfirst : stateFact ev b edge with
      | error x => exact iff_of_false Bool.false_ne_true fun h => absurd h.1 Bool.false_ne_true
      | ok mid =>
        obtain ⟨k, hk⟩ : ∃ k, edge.edgeKey? = some k := by
          obtain ⟨kind, heq | heq⟩ := hp
          · exact ⟨⟨named, kind, artifact⟩, congrArg Fact.edgeKey? heq⟩
          · exact ⟨⟨artifact, kind, named⟩, congrArg Fact.edgeKey? heq⟩
        obtain ⟨hentities, hevidence⟩ := stateFact_edge hk hfirst
        have hmid : LinkReady ev artifact mid :=
          ⟨by rw [hentities]; exact hb.artifact, by rw [hevidence]; exact hb.evidence, hb.cited⟩
        exact (ih hmid hrest).trans (and_iff_right rfl).symm
    · next hnone =>
      have hne : named ≠ artifact := fun heq => hnone (heq ▸ hb.artifact)
      rw [and_iff_right hne, ← ih hb hrest]
      cases projectDeclared ev rest b <;> rfl

/-- A document within the limits is projected exactly when it fits. -/
theorem projectKnowledge_isOk {d : KnowledgeDocument}
    (h : WithinLimits (knowledgeEvidenceId d) (knowledgeFacts d)) :
    (projectKnowledge d CompanyBrain.empty).isOk = true ↔ KnowledgeFits d := by
  have hfacts := (stateAll_isOk (knows_empty _) (knowledgeFacts_grounded d)).trans (knowledgeFacts_fit h)
  have hsound := Upsert.sound_document d
  unfold projectKnowledge
  split
  · next hnaive => exact iff_of_false nofun fun hfits => by rw [hfits.aware] at hnaive; cases hnaive
  · next haware =>
    rw [Bool.not_eq_false] at haware
    cases hall : stateAll (knowledgeEvidenceId d) CompanyBrain.empty (knowledgeFacts d) with
    | error x =>
      rw [hall] at hfacts
      exact iff_of_false nofun fun hfits => nomatch hfacts.mpr ⟨hfits.cited, hfits.url⟩
    | ok b =>
      rw [hall] at hfacts
      obtain ⟨h200, hurl⟩ := hfacts.mp rfl
      have hartifact : .entity (artifactId d) (entityKind d.identity.sourceType) d.title
          (attributes (artifactAttributes d)) ∈ knowledgeFacts d :=
        List.mem_append_left _ (List.mem_append_left _ (by simp [artifactAttributes]))
      have hnodup : ((knowledgeFacts d).filterMap Fact.entityId?).Nodup := hsound.ids ▸ hsound.nodup
      obtain ⟨e, -, he⟩ := stated_entity hall hartifact hnodup
        (ne_of_kinds (hasKind_artifact d) (hasKind_knowledgeEvidence d) (entityKind_ne d.identity.sourceType).1)
      obtain ⟨_, _, _, _, _, hrecord⟩ := hsound.records
      have hev : ∀ f ∈ knowledgeFacts d, f.entityId? ≠ some (knowledgeEvidenceId d) :=
        hsound.not_stated fun hmem => hsound.ne_evidence hmem rfl
      obtain ⟨v, -, -, hv, -⟩ := stated_evidence hall hrecord hsound.once hev
      have hready : LinkReady (knowledgeEvidenceId d) (artifactId d) b :=
        ⟨by rw [he]; rfl, by rw [hv]; rfl, (required_iff h.1).mpr h200⟩
      have hdeclared := projectDeclared_isOk hready (declaredEdges_link d)
      dsimp only
      cases hproject : projectDeclared (knowledgeEvidenceId d) (declaredEdges d) b with
      | error x =>
        rw [hproject] at hdeclared
        exact iff_of_false nofun fun hfits => nomatch hdeclared.mpr hfits.others
      | ok result =>
        rw [hproject] at hdeclared
        exact iff_of_true rfl ⟨haware, h200, hurl, hdeclared.mp rfl⟩

/-! ### Recording evidence -/

/-- A call that raises leaves the model as it was when it can label the entity, or has the pointer already. -/
theorem recordEvidence_unchanged_iff (b : CompanyBrain) (v : BrainEvidence) :
    ((b.recordEvidence v).2.isOk = false → (b.recordEvidence v).1 = b) ↔
      v.citation.toList.length ≤ 300 ∨ b.evidence.get v.evidenceId = some v := by
  by_cases hok : (b.recordEvidence v).2.isOk = true
  · exact iff_of_true (fun hfail => by rw [hok] at hfail; cases hfail) (.inl (recordEvidence_isOk.mp hok))
  · have hlong : ¬ v.citation.toList.length ≤ 300 := fun hshort => hok (recordEvidence_isOk.mpr hshort)
    have hafter : (b.recordEvidence v).1 = { b with evidence := b.evidence.put v } := by
      unfold CompanyBrain.recordEvidence at hok ⊢
      dsimp only at hok ⊢
      split
      · rfl
      · next h => rw [h] at hok; exact absurd rfl hok
    rw [Bool.not_eq_true] at hok
    rw [hafter, or_iff_right hlong]
    constructor
    · intro hsame
      have hget := congrArg (fun m : CompanyBrain => m.evidence.get v.evidenceId) (hsame hok)
      rw [← hget]
      exact Table.get_put_self b.evidence v
    · intro hget _
      rw [Table.put_eq_self hget]

/-- Source records within the limits of their texts are projected into an empty model when they fit; and
recording evidence leaves nothing behind when its citation can be a label or it is there already. -/
theorem projection_within_limits_iff (c : FileChange) (d : KnowledgeDocument) :
    (WithinLimits (fileEvidenceId c) (fileFacts c) →
      ((projectFile c CompanyBrain.empty).isOk = true ↔ c.changeType = .delete ∨ FileFits c)) ∧
    (WithinLimits (knowledgeEvidenceId d) (knowledgeFacts d) →
      ((projectKnowledge d CompanyBrain.empty).isOk = true ↔ KnowledgeFits d)) ∧
    ∀ (b : CompanyBrain) (v : BrainEvidence),
      ((b.recordEvidence v).2.isOk = false → (b.recordEvidence v).1 = b) ↔
        v.citation.toList.length ≤ 300 ∨ b.evidence.get v.evidenceId = some v :=
  ⟨projectFile_isOk, projectKnowledge_isOk, recordEvidence_unchanged_iff⟩

/-- A new file at some path. -/
def addedFile (path : String) : FileChange :=
  ⟨⟨"github", "acme/shop", "main", "0a1b2c", path⟩, .upsert, none, some "python", some "payments", some "checkout",
    ⟨["payments"], []⟩⟩

/-- An incident of some source URL. -/
def reportedIncident (url : String) : KnowledgeDocument :=
  ⟨⟨"jira", .incident, "INC-7"⟩, "Checkout outage", "", "3",
    ⟨⟨2026, 3, 1, 9, 30, 0, 0, by decide, by decide⟩, true⟩, some url, none, none, ⟨["sre"], []⟩, Table.empty⟩

theorem short_records_projected :
    (projectFile (addedFile "src/cart.py") CompanyBrain.empty).isOk = true ∧
      (projectKnowledge (reportedIncident "https://jira/INC-7") CompanyBrain.empty).isOk = true := by
  obtain ⟨hfile, hdocument, -⟩ :=
    projection_within_limits_iff (addedFile "src/cart.py") (reportedIncident "https://jira/INC-7")
  constructor
  · refine (hfile (by decide)).mpr (.inr ⟨by decide, ?_⟩)
    intro language hlanguage
    have hpython : truthy (addedFile "src/cart.py").language = some "python" := by decide
    obtain rfl := Option.some.inj (hpython.symm.trans hlanguage)
    decide
  · refine (hdocument (by decide)).mpr ⟨rfl, by decide, ?_, ?_⟩
    · intro url hurl
      have hlink : truthy (reportedIncident "https://jira/INC-7").sourceUrl = some "https://jira/INC-7" := by
        decide
      obtain rfl := Option.some.inj (hlink.symm.trans hurl)
      decide
    · decide

theorem required_append {m n : Nat} {front back : String} (hfront : required m front = true)
    (hlength : back.toList.length ≤ n) (hline : '\n' ∉ back.toList) : required (m + n) (front ++ back) = true := by
  simp only [required, Bool.and_eq_true, decide_eq_true_eq, Bool.not_eq_true', List.contains_eq_mem,
    decide_eq_false_iff_not, String.toList_append, List.length_append, List.mem_append, not_or] at hfront ⊢
  obtain ⟨⟨hne, hfrontLength⟩, hfrontLine⟩ := hfront
  refine ⟨⟨fun hempty => hne ?_, by omega⟩, hfrontLine, hline⟩
  have hlist := congrArg String.toList hempty
  rw [String.toList_append, String.toList_eq_nil_iff.mpr rfl] at hlist
  exact String.toList_eq_nil_iff.mp (List.append_eq_nil_iff.mp hlist).1

theorem recordEvidence_evidence (b : CompanyBrain) (v : BrainEvidence) :
    (b.recordEvidence v).1.evidence = b.evidence.put v := by
  unfold CompanyBrain.recordEvidence
  dsimp only
  split <;> rfl

def longText (n : Nat) : String := String.ofList (List.replicate n 'a')

theorem longText_length (n : Nat) : (longText n).toList.length = n := by simp [longText]

theorem longText_line (n : Nat) : '\n' ∉ (longText n).toList := by
  simp [longText, List.mem_replicate]

/-- A file of a path so long that its evidence cannot be cited. -/
def deepFile : FileChange :=
  ⟨⟨"github", "acme/shop", "main", "0a1b2c", longText 200⟩, .upsert, none, none, none, none, ⟨[], []⟩⟩

theorem deepFile_within : WithinLimits (fileEvidenceId deepFile) (fileFacts deepFile) := by
  have hpath : ∀ {m : Nat} {front : String}, required m front = true →
      required (m + 200) (front ++ longText 200) = true := fun hfront =>
    required_append hfront (longText_length 200).le (longText_line 200)
  refine ⟨hpath (m := 300) (by decide), ?_⟩
  have hservice : truthy deepFile.service = none := rfl
  simp only [fileFacts, hservice, List.append_nil, List.forall_mem_cons]
  refine ⟨⟨by decide, by decide⟩, ⟨hpath (m := 300) (by decide),
    hpath (m := 100) (by decide)⟩, ⟨hpath (m := 300) (by decide), by decide,
    by decide⟩, trivial, trivial, trivial, ?_⟩
  intro f hf
  cases hf

/-- A pointer with a citation that cannot be a label. -/
def longPointer : BrainEvidence where
  evidenceId := "evidence:e"
  sourceKind := "github"
  citation := "r@" ++ longText 299
  revision := "a"
  aclGroups := []
  aclUsers := []
  valid := by
    have hcitation : required (100 + 299) ("r@" ++ longText 299) = true :=
      required_append (by decide +kernel) (longText_length 299).le (longText_line 299)
    have hacl : ∀ label, normalizedStrings [] label = none := fun label => rfl
    rw [evidenceProblem, Option.or_eq_none_iff, Option.or_eq_none_iff, Option.or_eq_none_iff, Option.or_eq_none_iff,
      Option.or_eq_none_iff, hacl, hacl, invalid_eq_none, invalid_eq_none, invalid_eq_none, invalid_eq_none]
    exact ⟨by decide +kernel, by decide +kernel, required_mono (by decide) hcitation, by decide +kernel, rfl, rfl⟩

/-- A file of a long path is refused within the limits, and refused evidence stays recorded. -/
theorem long_texts_refused :
    (WithinLimits (fileEvidenceId deepFile) (fileFacts deepFile) ∧
      (projectFile deepFile CompanyBrain.empty).isOk = false) ∧
    (CompanyBrain.empty.recordEvidence longPointer).2.isOk = false ∧
      (CompanyBrain.empty.recordEvidence longPointer).1 ≠ CompanyBrain.empty := by
  refine ⟨⟨deepFile_within, ?_⟩, ?_, fun hsame => ?_⟩
  · rw [Bool.eq_false_iff, ne_eq, projectFile_isOk deepFile_within, not_or]
    refine ⟨nofun, fun hfits => ?_⟩
    have hid : fileEvidenceId deepFile = "evidence:" ++ "github" ++ ":" ++ "acme/shop" ++ ":" ++ "main" ++ ":" ++
      "0a1b2c" ++ ":" ++ longText 200 := rfl
    have hlead : 0 < ("evidence:" ++ "github" ++ ":" ++ "acme/shop" ++ ":" ++ "main" ++ ":" ++ "0a1b2c" ++
      ":").toList.length := by decide
    have hlength := hfits.1
    rw [hid, String.toList_append, List.length_append, longText_length] at hlength
    omega
  · have hcitation : longPointer.citation = "r@" ++ longText 299 := rfl
    have hlead : ("r@" : String).toList.length = 2 := by decide
    rw [Bool.eq_false_iff, ne_eq, recordEvidence_isOk, hcitation, String.toList_append, List.length_append,
      longText_length, hlead]
    omega
  · have hevidence := congrArg CompanyBrain.evidence hsame
    rw [recordEvidence_evidence] at hevidence
    have hget := Table.get_put_self CompanyBrain.empty.evidence longPointer
    rw [hevidence] at hget
    cases hget

end EngineeringIntelligence.CompanyBrain
