import EngineeringIntelligence.Feedback.PromotionPayload
import EngineeringIntelligence.Framework.JsonTrip
import EngineeringIntelligence.PrGuardian.Conclusion
import EngineeringIntelligence.PrGuardian.ShadowNormal

namespace EngineeringIntelligence.Feedback

open EngineeringIntelligence.Framework EngineeringIntelligence.CompanyBrain
open EngineeringIntelligence.PrGuardian (exactKeys equalsSchemaVersion equalsText)

/-! A promotion packet through JSON: its fields are checked once by the constructors and once more by
the parser, whose bound on the identities is the smaller one. -/

variable (casefold : String → String)

theorem RetainedEvidencePurpose.ofValue_value (purpose : RetainedEvidencePurpose) :
    RetainedEvidencePurpose.ofValue purpose.value = some purpose := by
  cases purpose <;> decide

theorem RetainedEvidencePurpose.isLine_value (purpose : RetainedEvidencePurpose) :
    isLine 80 purpose.value = true := by
  cases purpose <;> decide

theorem basisOfValue_basisValue (basis : EvidenceBasis) : basisOfValue (basisValue basis) = some basis := by
  cases basis <;> decide

theorem isLine_basisValue (basis : EvidenceBasis) : isLine 40 (basisValue basis) = true := by
  cases basis <;> decide

variable {casefold}

@[simp] theorem digest_str_eq_ok {s t label : String} :
    digest (.str s) label = .ok t ↔ (isLine 80 s = true ∧ isDigest s = true) ∧ s = t := by
  simp only [digest, text, bind_eq_ok_iff, lineOf_str_eq_ok, ite_else_error_eq_ok_iff, Except.ok.injEq]
  constructor
  · rintro ⟨_, ⟨hline, rfl⟩, hdigest, rfl⟩
    exact ⟨⟨hline, hdigest⟩, rfl⟩
  · rintro ⟨⟨hline, hdigest⟩, rfl⟩
    exact ⟨s, ⟨hline, rfl⟩, hdigest, rfl⟩

theorem nonPlaceholderText_line {s t label : String} {maximum : Nat}
    (h : nonPlaceholderText casefold (.str s) label maximum = .ok t) : isLine maximum s = true := by
  obtain ⟨_, htext, -⟩ := bind_eq_ok_iff.mp h
  exact (lineOf_str_eq_ok.mp htext).1

theorem identifier_line {s t label : String} (h : identifier casefold (.str s) label = .ok t) :
    isLine 240 s = true := by
  obtain ⟨_, htext, -⟩ := bind_eq_ok_iff.mp h
  exact nonPlaceholderText_line htext

/-- What the constructor's check leaves to the parser's. -/
structure EvidenceFields.Checked (f : EvidenceFields) : Prop where
  evidenceId : isLine 240 f.evidenceId = true
  sourceSystem : isLine 160 f.sourceSystem = true
  locator : isLine 500 f.locator = true
  contentDigest : isLine 80 f.contentDigest = true ∧ isDigest f.contentDigest = true
  retentionDays : 90 ≤ f.retentionDays
  accessControlRef : isLine 500 f.accessControlRef = true
  immutabilityControlRef : isLine 500 f.immutabilityControlRef = true
  producedBy : isLine 240 f.producedBy = true
  independentlyVerifiedBy : ∀ verifier ∈ f.independentlyVerifiedBy, isLine 240 verifier = true

theorem EvidenceFields.checked {f : EvidenceFields} (h : f.postInit casefold = .ok ()) : f.Checked := by
  obtain ⟨_, hid, h⟩ := bind_eq_ok_iff.mp h
  obtain ⟨_, hsource, h⟩ := bind_eq_ok_iff.mp h
  obtain ⟨_, hlocator, h⟩ := bind_eq_ok_iff.mp h
  obtain ⟨_, hdigest, h⟩ := bind_eq_ok_iff.mp h
  obtain ⟨_, hdays, h⟩ := bind_eq_ok_iff.mp h
  obtain ⟨_, haccess, h⟩ := bind_eq_ok_iff.mp h
  obtain ⟨_, himmutable, h⟩ := bind_eq_ok_iff.mp h
  obtain ⟨_, hproduced, h⟩ := bind_eq_ok_iff.mp h
  obtain ⟨_, hverified, -⟩ := bind_eq_ok_iff.mp h
  refine ⟨identifier_line hid, nonPlaceholderText_line hsource, nonPlaceholderText_line hlocator,
    (digest_str_eq_ok.mp hdigest).1, ensure_eq_ok.mp hdays, nonPlaceholderText_line haccess,
    nonPlaceholderText_line himmutable, identifier_line hproduced, ?_⟩
  intro verifier hverifier
  rw [EvidenceFields.checkVerifier, Option.mem_def.mp hverifier] at hverified
  obtain ⟨_, hname, -⟩ := bind_eq_ok_iff.mp hverified
  exact identifier_line hname

theorem RetainedEvidenceReference.make_eq_ok {f : EvidenceFields} {e : RetainedEvidenceReference casefold} :
    RetainedEvidenceReference.make casefold f = .ok e ↔ e.toEvidenceFields = f := by
  rw [make, construct_eq_ok]
  constructor
  · rintro ⟨h, rfl⟩
    rfl
  · rintro rfl
    exact ⟨e.valid, rfl⟩

/-- The names the parser takes. -/
def EvidenceFields.ShortNames (f : EvidenceFields) : Prop :=
  f.producedBy.toList.length ≤ 200 ∧ ∀ verifier ∈ f.independentlyVerifiedBy, verifier.toList.length ≤ 200

theorem text_str_eq_ok {s t label : String} {maximum : Nat} :
    text (.str s) label maximum = .ok t ↔ isLine maximum s = true ∧ s = t := lineOf_str_eq_ok

theorem text_of_isLine {s label : String} {maximum : Nat} (h : isLine maximum s = true) :
    text (.str s) label maximum = .ok s := lineOf_str_eq_ok.mpr ⟨h, rfl⟩

theorem nonNegativeInt_of_le {n : Int} {label : String} (h : 0 ≤ n) :
    nonNegativeInt (.int n) label = .ok n := by
  rw [nonNegativeInt, if_pos h]

theorem digest_of_checked {s label : String} (h : isLine 80 s = true ∧ isDigest s = true) :
    digest (.str s) label = .ok s := digest_str_eq_ok.mpr ⟨h, rfl⟩

theorem verifiedBy_eq_ok {o r : Option String} (h : ∀ verifier ∈ o, isLine 240 verifier = true) :
    verifiedBy (Json.optStr o) = .ok r ↔ (∀ verifier ∈ o, verifier.toList.length ≤ 200) ∧ r = o := by
  cases o with
  | none => simp [verifiedBy, Json.optStr, eq_comm]
  | some verifier =>
    simp only [verifiedBy, Json.optStr, bind_eq_ok_iff, text_str_eq_ok, isLine_iff (h verifier rfl),
      Except.ok.injEq]
    constructor
    · rintro ⟨_, ⟨hshort, rfl⟩, rfl⟩
      exact ⟨fun v hv => by rwa [← Option.mem_some_iff.mp hv], rfl⟩
    · rintro ⟨hshort, rfl⟩
      exact ⟨verifier, ⟨hshort verifier rfl, rfl⟩, rfl⟩

/-- Each field of an evidence's payload under its key. -/
theorem EvidenceFields.toPayload_eq (f : EvidenceFields) : ∃ raw, f.toPayload = .obj raw ∧
    raw.map Prod.fst = evidenceRequiredFields ++
      (f.independentlyVerifiedBy.map fun _ => "independently_verified_by").toList ∧
    Json.get raw "evidence_id" = .str f.evidenceId ∧ Json.get raw "purpose" = .str f.purpose.value ∧
    Json.get raw "basis" = .str (basisValue f.basis) ∧
    Json.get raw "source_system" = .str f.sourceSystem ∧ Json.get raw "locator" = .str f.locator ∧
    Json.get raw "content_digest" = .str f.contentDigest ∧
    Json.get raw "retention_days" = .int f.retentionDays ∧
    Json.get raw "access_control_ref" = .str f.accessControlRef ∧
    Json.get raw "immutability_control_ref" = .str f.immutabilityControlRef ∧
    Json.get raw "produced_by" = .str f.producedBy ∧
    Json.get raw "independently_verified_by" = Json.optStr f.independentlyVerifiedBy := by
  refine ⟨_, rfl, ?_⟩
  cases f.independentlyVerifiedBy <;>
    simp [Json.get, List.lookup, evidenceRequiredFields, Json.optStr]

theorem retainedEvidenceReference_toPayload {e r : RetainedEvidenceReference casefold} :
    retainedEvidenceReference casefold e.toPayload = .ok r ↔ e.ShortNames ∧ r = e := by
  have h := EvidenceFields.checked e.valid
  obtain ⟨raw, hraw, hkeys, hid, hpurpose, hbasis, hsource, hlocator, hdigest, hdays, haccess, himmutable,
    hproduced, hverified⟩ := e.toPayload_eq
  have hfields : (∀ f ∈ raw, f.1 ∈ evidenceFields) ∧
      ∀ k ∈ evidenceRequiredFields, k ∈ raw.map Prod.fst := by
    rw [hkeys]
    refine ⟨fun f hf => ?_, fun k hk => List.mem_append_left _ hk⟩
    have hmem : f.1 ∈ raw.map Prod.fst := List.mem_map_of_mem hf
    rw [hkeys, List.mem_append] at hmem
    rcases hmem with hmem | hmem
    · exact List.mem_append_left _ hmem
    · obtain ⟨-, -, hname⟩ := Option.map_eq_some_iff.mp (Option.mem_toList.mp hmem)
      rw [← hname]
      exact List.mem_append_right _ (List.mem_singleton_self _)
  have hall : ensure ((∀ f ∈ raw, f.1 ∈ evidenceFields) ∧
      ∀ k ∈ evidenceRequiredFields, k ∈ raw.map Prod.fst)
      "retained evidence has unexpected or missing fields" = .ok () := ensure_eq_ok.mpr hfields
  rw [hraw, retainedEvidenceReference]
  simp only [mapping, ok_bind, hall, hid, hpurpose, hbasis, hsource, hlocator, hdigest, hdays, haccess,
    himmutable, hproduced, hverified, text_of_isLine (RetainedEvidencePurpose.isLine_value _),
    text_of_isLine (isLine_basisValue _), RetainedEvidencePurpose.ofValue_value,
    basisOfValue_basisValue, enumOf, text_of_isLine h.evidenceId, text_of_isLine h.sourceSystem,
    text_of_isLine h.locator, digest_of_checked h.contentDigest,
    nonNegativeInt_of_le ((by decide : (0 : Int) ≤ 90).trans h.retentionDays),
    text_of_isLine h.accessControlRef, text_of_isLine h.immutabilityControlRef]
  constructor
  · intro hr
    obtain ⟨_, hname, hr⟩ := bind_eq_ok_iff.mp hr
    obtain ⟨hshort, rfl⟩ := text_str_eq_ok.mp hname
    obtain ⟨_, hnames, hr⟩ := bind_eq_ok_iff.mp hr
    obtain ⟨hshorts, rfl⟩ := (verifiedBy_eq_ok h.independentlyVerifiedBy).mp hnames
    refine ⟨⟨(isLine_iff h.producedBy).mp hshort, hshorts⟩, ?_⟩
    cases r
    cases RetainedEvidenceReference.make_eq_ok.mp hr
    rfl
  · rintro ⟨⟨hshort, hshorts⟩, rfl⟩
    rw [text_of_isLine ((isLine_iff h.producedBy).mpr hshort), ok_bind,
      (verifiedBy_eq_ok h.independentlyVerifiedBy).mpr ⟨hshorts, rfl⟩, ok_bind]
    exact RetainedEvidenceReference.make_eq_ok.mpr rfl

/-! ### The feedback summary -/

/-- The range of `_ratio`. -/
def PyNumber.InRange (v : PyNumber) (minimum : ℚ) : Prop :=
  ∃ q, v.value = .finite q ∧ 0 ≤ q ∧ q ≤ 1 ∧ minimum ≤ q

theorem ratio_asJson_eq_ok {v r : PyNumber} {label shown : String} {minimum : ℚ} :
    ratio v.asJson label minimum shown = .ok r ↔ v.InRange minimum ∧ v.toFloat = r := by
  cases v with
  | int n =>
    simp only [PyNumber.asJson, ratio, PyNumber.value, ite_error_eq_ok_iff, ite_else_error_eq_ok_iff,
      Except.ok.injEq, PyNumber.InRange, PyFloat.finite.injEq, exists_eq_left', and_iff_right_iff_imp]
    rintro ⟨⟨hle, hone, -⟩, -⟩
    have h0 : 0 ≤ n := by exact_mod_cast hle
    have h1 : n ≤ 1 := by exact_mod_cast hone
    have hbig : 1 < floatOverflow := by decide +kernel
    omega
  | float t =>
    simp only [PyNumber.asJson, ratio, PyNumber.value, PyNumber.InRange]
    cases PyFloat.ofRepr t with
    | finite q => simp [ite_else_error_eq_ok_iff]
    | posInf | negInf | nan => simp

theorem PyNumber.value_toFloat {v : PyNumber} {minimum : ℚ} (h : v.InRange minimum) :
    v.toFloat.value = v.value := by
  cases v with
  | float t => rfl
  | int n =>
    obtain ⟨q, hq, hle, hone, -⟩ := h
    obtain rfl := PyFloat.finite.inj hq
    have h0 : 0 ≤ n := by exact_mod_cast hle
    have h1 : n ≤ 1 := by exact_mod_cast hone
    obtain rfl | rfl : n = 0 ∨ n = 1 := by omega
    · decide
    · decide

theorem PyNumber.InRange.toFloat {v : PyNumber} {minimum : ℚ} (h : v.InRange minimum) :
    v.toFloat.InRange minimum := by
  obtain ⟨q, hq, hrest⟩ := h
  exact ⟨q, (PyNumber.value_toFloat ⟨q, hq, hrest⟩).trans hq, hrest⟩

theorem PyNumber.toFloat_toFloat (v : PyNumber) : v.toFloat.toFloat = v.toFloat := by
  cases v <;> rfl

theorem reportRatio_asJson {v : PyNumber} {label : String} {minimum : ℚ} (h : v.InRange minimum) :
    reportRatio v.asJson label = .ok v.toFloat := by
  have hzero : v.InRange 0 := by
    obtain ⟨q, hq, hle, hone, -⟩ := h
    exact ⟨q, hq, hle, hone, hle⟩
  have hratio : ratio v.asJson label 0 "0.00" = .ok v.toFloat := ratio_asJson_eq_ok.mpr ⟨hzero, rfl⟩
  cases v <;> exact hratio

structure FeedbackFields.Checked (f : FeedbackFields) : Prop where
  reportEvidenceId : isLine 240 f.reportEvidenceId = true
  outcomeExportEvidenceId : isLine 240 f.outcomeExportEvidenceId = true
  reportDigest : isLine 80 f.reportDigest = true ∧ isDigest f.reportDigest = true
  outcomeExportDigest : isLine 80 f.outcomeExportDigest = true ∧ isDigest f.outcomeExportDigest = true
  joinedObservations : 30 ≤ f.joinedObservations
  reviewerClassifications : 30 ≤ f.reviewerClassifications
  confirmedRisks : 5 ≤ f.confirmedRisks
  simulatedBlockPrecision : f.simulatedBlockPrecision.InRange (1 / 2)
  simulatedBlockRecall : f.simulatedBlockRecall.InRange (4 / 5)
  reportDecision : f.reportDecision = "advisory-candidate"
  blockingAuthorized : f.blockingAuthorized = false

theorem FeedbackFields.checked {f : FeedbackFields} (h : f.postInit casefold = .ok ()) : f.Checked := by
  obtain ⟨_, hreport, h⟩ := bind_eq_ok_iff.mp h
  obtain ⟨_, hexport, h⟩ := bind_eq_ok_iff.mp h
  obtain ⟨_, hreportDigest, h⟩ := bind_eq_ok_iff.mp h
  obtain ⟨_, hexportDigest, h⟩ := bind_eq_ok_iff.mp h
  obtain ⟨_, hjoined, h⟩ := bind_eq_ok_iff.mp h
  obtain ⟨_, hreviewers, h⟩ := bind_eq_ok_iff.mp h
  obtain ⟨_, hrisks, h⟩ := bind_eq_ok_iff.mp h
  obtain ⟨_, -, h⟩ := bind_eq_ok_iff.mp h
  obtain ⟨_, hprecision, h⟩ := bind_eq_ok_iff.mp h
  obtain ⟨_, hrecall, h⟩ := bind_eq_ok_iff.mp h
  obtain ⟨_, hdecision, hblocking⟩ := bind_eq_ok_iff.mp h
  exact ⟨identifier_line hreport, identifier_line hexport, (digest_str_eq_ok.mp hreportDigest).1,
    (digest_str_eq_ok.mp hexportDigest).1, ensure_eq_ok.mp hjoined, ensure_eq_ok.mp hreviewers,
    ensure_eq_ok.mp hrisks, (ratio_asJson_eq_ok.mp hprecision).1, (ratio_asJson_eq_ok.mp hrecall).1,
    ensure_eq_ok.mp hdecision, ensure_eq_ok.mp hblocking⟩

/-- The summary with its ratios as floats. -/
def FeedbackFields.toFloats (f : FeedbackFields) : FeedbackFields :=
  { f with simulatedBlockPrecision := f.simulatedBlockPrecision.toFloat
           simulatedBlockRecall := f.simulatedBlockRecall.toFloat }

theorem FeedbackFields.postInit_toFloats {f : FeedbackFields} (h : f.postInit casefold = .ok ()) :
    f.toFloats.postInit casefold = .ok () := by
  have hchecked := checked h
  have hprecision (v : PyNumber) {label shown : String} {m : ℚ} (hv : v.InRange m) :
      ratio v.toFloat.asJson label m shown = ratio v.asJson label m shown := by
    rw [ratio_asJson_eq_ok.mpr ⟨hv, rfl⟩, ratio_asJson_eq_ok.mpr ⟨hv.toFloat, v.toFloat_toFloat⟩]
  rw [← h]
  simp only [postInit, toFloats, hprecision _ hchecked.simulatedBlockPrecision,
    hprecision _ hchecked.simulatedBlockRecall]
  rfl

/-- `==` of the two dataclasses. -/
def FeedbackFields.Same (f g : FeedbackFields) : Prop :=
  { f with simulatedBlockPrecision := g.simulatedBlockPrecision
           simulatedBlockRecall := g.simulatedBlockRecall } = g ∧
    f.simulatedBlockPrecision.value = g.simulatedBlockPrecision.value ∧
    f.simulatedBlockRecall.value = g.simulatedBlockRecall.value

theorem FeedbackLoopSummary.make_eq_ok {f : FeedbackFields} {r : FeedbackLoopSummary casefold} :
    FeedbackLoopSummary.make casefold f = .ok r ↔ r.toFeedbackFields = f := by
  rw [make, construct_eq_ok]
  constructor
  · rintro ⟨h, rfl⟩
    rfl
  · rintro rfl
    exact ⟨r.valid, rfl⟩

theorem advisoryCandidate_self : advisoryCandidate (.str "advisory-candidate") = .ok "advisory-candidate" := by
  simp [advisoryCandidate, constantText, equalsText]

/-- The summary that comes back. -/
theorem feedbackSummary_toPayload (f : FeedbackLoopSummary casefold) :
    ∃ r, feedbackSummary casefold f.toPayload = .ok r ∧ r.Same f.toFeedbackFields := by
  have h := FeedbackFields.checked f.valid
  refine ⟨⟨f.toFloats, FeedbackFields.postInit_toFloats f.valid⟩, ?_, rfl,
    PyNumber.value_toFloat h.simulatedBlockPrecision, PyNumber.value_toFloat h.simulatedBlockRecall⟩
  have hjoined := (by decide : (0 : Int) ≤ 30).trans h.joinedObservations
  have hreviewers := (by decide : (0 : Int) ≤ 30).trans h.reviewerClassifications
  have hrisks := (by decide : (0 : Int) ≤ 5).trans h.confirmedRisks
  rw [feedbackSummary, FeedbackFields.toPayload]
  simp only [mapping, ok_bind]
  rw [PrGuardian.exactKeys_of_keys (by rfl)]
  simp only [ok_bind, Json.get, List.lookup]
  simp [text_of_isLine h.reportEvidenceId, text_of_isLine h.outcomeExportEvidenceId,
    digest_of_checked h.reportDigest, digest_of_checked h.outcomeExportDigest,
    nonNegativeInt_of_le hjoined, nonNegativeInt_of_le hreviewers, nonNegativeInt_of_le hrisks,
    reportRatio_asJson h.simulatedBlockPrecision, reportRatio_asJson h.simulatedBlockRecall,
    h.reportDecision, advisoryCandidate_self, h.blockingAuthorized, isFalse,
    FeedbackLoopSummary.make_eq_ok, FeedbackFields.toFloats]

/-! ### The whole packet -/

theorem RequiredReviewRole.ofValue_value (role : RequiredReviewRole) :
    RequiredReviewRole.ofValue role.value = some role := by
  cases role <;> decide

theorem RequiredReviewRole.isLine_value (role : RequiredReviewRole) : isLine 80 role.value = true := by
  cases role <;> decide

theorem reviewRoles_toPayload (roles : List RequiredReviewRole) :
    reviewRoles (.arr (roles.map fun role => .str role.value)) = .ok roles := by
  rw [reviewRoles, mapM_eq_ok, List.forall₂_map_left_iff, List.forall₂_same]
  intro role hrole
  rw [reviewRole, text_of_isLine role.isLine_value, ok_bind, role.ofValue_value, enumOf]

theorem retainedEvidence_toPayload {evidence r : List (RetainedEvidenceReference casefold)}
    (h : retainedEvidenceByPurpose casefold evidence = .ok ()) :
    retainedEvidence casefold (.arr (evidence.map (·.toPayload))) = .ok r ↔
      (∀ e ∈ evidence, e.ShortNames) ∧ r = evidence := by
  have hmapM {rs : List (RetainedEvidenceReference casefold)} :
      (evidence.map (·.toPayload)).mapM (retainedEvidenceReference casefold) = .ok rs ↔
        (∀ e ∈ evidence, e.ShortNames) ∧ rs = evidence := by
    rw [mapM_eq_ok, List.forall₂_map_left_iff]
    simp only [retainedEvidenceReference_toPayload]
    clear h
    induction evidence generalizing rs with
    | nil => simp
    | cons e es ih =>
      cases rs with
      | nil => simp
      | cons r rs =>
        rw [List.forall₂_cons, ih, List.forall_mem_cons, List.cons.injEq]
        tauto
  have hne : evidence ≠ [] := by
    rintro rfl
    obtain ⟨_, -, h⟩ := bind_eq_ok_iff.mp h
    obtain ⟨_, hpurposes, -⟩ := bind_eq_ok_iff.mp h
    exact absurd ((ensure_eq_ok.mp hpurposes).2 .shadowReport (by decide)) (by simp)
  obtain ⟨e, es, rfl⟩ := List.exists_cons_of_ne_nil hne
  rw [List.map_cons, retainedEvidence,
    ← List.map_cons (f := fun e : RetainedEvidenceReference casefold => e.toPayload), bind_eq_ok_iff]
  simp only [hmapM]
  constructor
  · rintro ⟨_, ⟨hshort, rfl⟩, hr⟩
    rw [h, ok_bind] at hr
    exact ⟨hshort, (Except.ok.inj hr).symm⟩
  · rintro ⟨hshort, rfl⟩
    refine ⟨_, ⟨hshort, rfl⟩, ?_⟩
    rw [h, ok_bind]

structure PacketFields.Checked (f : PacketFields casefold) : Prop where
  pilotId : isLine 80 f.pilotId = true
  repository : isLine 200 f.repository = true
  policyVersion : isLine 120 f.policyVersion = true
  pilotManifestDigest : isLine 80 f.pilotManifestDigest = true ∧ isDigest f.pilotManifestDigest = true
  runtimeConfigurationDigest : isLine 80 f.runtimeConfigurationDigest = true ∧
    isDigest f.runtimeConfigurationDigest = true
  preparedOn : isLine 10 f.preparedOn = true
  reviewExpiresOn : isLine 10 f.reviewExpiresOn = true
  retainedEvidence : retainedEvidenceByPurpose casefold f.retainedEvidence = .ok ()
  schemaVersion : f.schemaVersion = 1
  runtimeMode : f.runtimeMode = "shadow"
  reviewState : f.reviewState = "human-review-required"

theorem isoDate_line {s label : String} {day : Nat} (h : isoDate (.str s) label = .ok day) :
    isLine 10 s = true := by
  obtain ⟨_, htext, -⟩ := bind_eq_ok_iff.mp h
  exact (text_str_eq_ok.mp htext).1

theorem PacketFields.checked {f : PacketFields casefold} (h : f.postInit casefold = .ok ()) :
    f.Checked := by
  obtain ⟨_, hpilot, h⟩ := bind_eq_ok_iff.mp h
  obtain ⟨_, -, h⟩ := bind_eq_ok_iff.mp h
  obtain ⟨_, hrepository, h⟩ := bind_eq_ok_iff.mp h
  obtain ⟨_, -, h⟩ := bind_eq_ok_iff.mp h
  obtain ⟨_, hpolicy, h⟩ := bind_eq_ok_iff.mp h
  obtain ⟨_, hmanifest, h⟩ := bind_eq_ok_iff.mp h
  obtain ⟨_, hruntime, h⟩ := bind_eq_ok_iff.mp h
  obtain ⟨_, hprepared, h⟩ := bind_eq_ok_iff.mp h
  obtain ⟨_, hexpires, h⟩ := bind_eq_ok_iff.mp h
  obtain ⟨_, -, h⟩ := bind_eq_ok_iff.mp h
  obtain ⟨_, hevidence, h⟩ := bind_eq_ok_iff.mp h
  obtain ⟨_, -, h⟩ := bind_eq_ok_iff.mp h
  obtain ⟨_, hschema, h⟩ := bind_eq_ok_iff.mp h
  obtain ⟨_, hmode, h⟩ := bind_eq_ok_iff.mp h
  obtain ⟨_, hstate, -⟩ := bind_eq_ok_iff.mp h
  exact ⟨nonPlaceholderText_line hpilot, nonPlaceholderText_line hrepository,
    nonPlaceholderText_line hpolicy, (digest_str_eq_ok.mp hmanifest).1, (digest_str_eq_ok.mp hruntime).1,
    isoDate_line hprepared, isoDate_line hexpires, hevidence, ensure_eq_ok.mp hschema,
    ensure_eq_ok.mp hmode, ensure_eq_ok.mp hstate⟩

theorem AdvisoryPromotionReviewPacket.make_eq_ok {f : PacketFields casefold}
    {r : AdvisoryPromotionReviewPacket casefold} :
    AdvisoryPromotionReviewPacket.make casefold f = .ok r ↔ r.toPacketFields = f := by
  rw [make, construct_eq_ok]
  constructor
  · rintro ⟨h, rfl⟩
    rfl
  · rintro rfl
    exact ⟨r.valid, rfl⟩

/-- `==` of two packets. -/
def PacketFields.Same (f g : PacketFields casefold) : Prop :=
  { f with feedback := g.feedback } = g ∧ f.feedback.Same g.feedback.toFeedbackFields

theorem Same.postInit {f : PacketFields casefold} {feedback : FeedbackLoopSummary casefold}
    (h : feedback.Same f.feedback.toFeedbackFields) :
    PacketFields.postInit casefold { f with feedback } = f.postInit casefold := by
  have hreport := congrArg FeedbackFields.reportEvidenceId h.1
  have hexport := congrArg FeedbackFields.outcomeExportEvidenceId h.1
  have hreportDigest := congrArg FeedbackFields.reportDigest h.1
  have hexportDigest := congrArg FeedbackFields.outcomeExportDigest h.1
  simp only at hreport hexport hreportDigest hexportDigest
  simp only [PacketFields.postInit, PacketFields.checkNamed, hreport, hexport, hreportDigest, hexportDigest]

theorem shadowMode_self : shadowMode (.str "shadow") = .ok "shadow" := by
  simp [shadowMode, constantText, equalsText]

theorem reviewRequired_self :
    reviewRequired (.str "human-review-required") = .ok "human-review-required" := by
  simp [reviewRequired, constantText, equalsText]

/-- The parser on what was never written as text. -/
theorem parse_toPayload {p : AdvisoryPromotionReviewPacket casefold} {day : Nat}
    (hday : p.isCurrentOn casefold day = true) :
    (∃ r, parseAdvisoryPromotionReviewPacket casefold p.toPayload day = .ok r ∧
      r.Same p.toPacketFields) ↔ ∀ e ∈ p.retainedEvidence, e.ShortNames := by
  have h := PacketFields.checked p.valid
  obtain ⟨feedback, hfeedback, hsame⟩ := feedbackSummary_toPayload p.feedback
  have hschema : ensure (equalsSchemaVersion (.int 1) = true) "schema_version must be 1" = .ok () := rfl
  have hkind : ensure (equalsText "pr-guardian-advisory-review-packet"
      (.str "pr-guardian-advisory-review-packet") = true) "kind is invalid" = .ok () :=
    ensure_eq_ok.mpr (PrGuardian.equalsText_iff.mpr rfl)
  have hparse : parseAdvisoryPromotionReviewPacket casefold p.toPayload day = (do
      let retainedEvidence ← retainedEvidence casefold (.arr (p.retainedEvidence.map (·.toPayload)))
      let packet ← AdvisoryPromotionReviewPacket.make casefold
        { p.toPacketFields with feedback, retainedEvidence }
      ensure (packet.isCurrentOn casefold day) "review packet has expired and must be regenerated"
      .ok packet) := by
    rw [parseAdvisoryPromotionReviewPacket, PacketFields.toPayload]
    simp only [mapping, ok_bind]
    rw [PrGuardian.exactKeys_of_keys (by rfl)]
    simp only [ok_bind, Json.get, List.lookup, h.schemaVersion]
    simp [hschema, hkind, text_of_isLine h.pilotId, text_of_isLine h.repository, text_of_isLine h.policyVersion,
      digest_of_checked h.pilotManifestDigest, digest_of_checked h.runtimeConfigurationDigest,
      text_of_isLine h.preparedOn, text_of_isLine h.reviewExpiresOn, hfeedback,
      reviewRoles_toPayload, h.runtimeMode, shadowMode_self, h.reviewState, reviewRequired_self]
  rw [hparse]
  have hback := (Same.postInit hsame).trans p.valid
  constructor
  · rintro ⟨r, hr, -⟩
    obtain ⟨_, hevidence, -⟩ := bind_eq_ok_iff.mp hr
    exact ((retainedEvidence_toPayload h.retainedEvidence).mp hevidence).1
  · intro hshort
    rw [(retainedEvidence_toPayload h.retainedEvidence).mpr ⟨hshort, rfl⟩, ok_bind,
      (AdvisoryPromotionReviewPacket.make_eq_ok
        (r := ⟨{ p.toPacketFields with feedback }, hback⟩)).mpr rfl, ok_bind]
    have hcurrent : ensure (AdvisoryPromotionReviewPacket.isCurrentOn casefold
        ⟨{ p.toPacketFields with feedback }, hback⟩ day = true)
        "review packet has expired and must be regenerated" = .ok () := ensure_eq_ok.mpr hday
    refine ⟨⟨{ p.toPacketFields with feedback }, hback⟩, ?_, rfl, hsame⟩
    rw [hcurrent, ok_bind]

/-! ### Through JSON -/

theorem PyNumber.convertible {v : PyNumber} {minimum : ℚ} (h : v.InRange minimum) :
    Json.Convertible v.asJson := by
  cases v with
  | float t => trivial
  | int n =>
    obtain ⟨q, hq, hle, hone, -⟩ := h
    obtain rfl := PyFloat.finite.inj hq
    have h0 : 0 ≤ n := by exact_mod_cast hle
    have h1 : n ≤ 1 := by exact_mod_cast hone
    have hdigits : 1 < 10 ^ Json.maxIntDigits := Nat.one_lt_pow (by decide) (by decide)
    change n.natAbs < 10 ^ Json.maxIntDigits
    omega

/-- No count has more digits than `str` writes. -/
def PacketFields.ShortCounts (f : PacketFields casefold) : Prop :=
  (∀ e ∈ f.retainedEvidence, e.retentionDays.natAbs < 10 ^ Json.maxIntDigits) ∧
    f.feedback.joinedObservations.natAbs < 10 ^ Json.maxIntDigits ∧
    f.feedback.reviewerClassifications.natAbs < 10 ^ Json.maxIntDigits ∧
    f.feedback.confirmedRisks.natAbs < 10 ^ Json.maxIntDigits

theorem EvidenceFields.convertible_toPayload {f : EvidenceFields} :
    Json.Convertible f.toPayload ↔ f.retentionDays.natAbs < 10 ^ Json.maxIntDigits := by
  rw [toPayload, Json.Convertible, Json.convertibleFields_append]
  cases f.independentlyVerifiedBy <;> simp [Json.ConvertibleFields, Json.Convertible]

theorem FeedbackFields.convertible_toPayload {f : FeedbackFields} (h : f.Checked) :
    Json.Convertible f.toPayload ↔ f.joinedObservations.natAbs < 10 ^ Json.maxIntDigits ∧
      f.reviewerClassifications.natAbs < 10 ^ Json.maxIntDigits ∧
      f.confirmedRisks.natAbs < 10 ^ Json.maxIntDigits := by
  simp [toPayload, Json.Convertible, Json.ConvertibleFields, PyNumber.convertible h.simulatedBlockPrecision,
    PyNumber.convertible h.simulatedBlockRecall]

theorem convertible_toPayload (p : AdvisoryPromotionReviewPacket casefold) :
    Json.Convertible p.toPayload ↔ p.ShortCounts := by
  have hone : 1 < 10 ^ Json.maxIntDigits := Nat.one_lt_pow (by decide) (by decide)
  simp only [PacketFields.toPayload, Json.Convertible, Json.ConvertibleFields,
    (PacketFields.checked p.valid).schemaVersion, FeedbackFields.convertible_toPayload
      (FeedbackFields.checked p.feedback.valid), Json.convertibleItems_iff, List.forall_mem_map,
    EvidenceFields.convertible_toPayload, PacketFields.ShortCounts]
  simp [hone, and_comm]

variable (floatRepr : String → String)

theorem EvidenceFields.held_toPayload (f : EvidenceFields) : Json.Held floatRepr f.toPayload := by
  rw [toPayload, Json.Held]
  cases f.independentlyVerifiedBy <;> simp [Json.HeldFields, Json.Held]

theorem held_toPayload {p : AdvisoryPromotionReviewPacket casefold}
    (hprecision : Json.Held floatRepr p.feedback.simulatedBlockPrecision.asJson)
    (hrecall : Json.Held floatRepr p.feedback.simulatedBlockRecall.asJson) :
    Json.Held floatRepr p.toPayload := by
  simp [PacketFields.toPayload, FeedbackFields.toPayload, Json.Held, Json.HeldFields,
    Json.heldItems_iff, EvidenceFields.held_toPayload, hprecision, hrecall]

/-- A current packet comes back from its JSON exactly when every identity on its evidence keeps the
parser's bound, which is less than the constructor's, and every count can be written. -/
theorem packet_comes_back_iff {p : AdvisoryPromotionReviewPacket casefold} {day : Nat}
    (hday : p.isCurrentOn casefold day = true)
    (hprecision : Json.Held floatRepr p.feedback.simulatedBlockPrecision.asJson)
    (hrecall : Json.Held floatRepr p.feedback.simulatedBlockRecall.asJson) :
    Json.RoundTrips floatRepr (fun payload => parseAdvisoryPromotionReviewPacket casefold payload day)
        (fun r => r.Same p.toPacketFields) p.toPayload ↔
      (∀ e ∈ p.retainedEvidence, e.ShortNames) ∧ p.ShortCounts := by
  rw [Json.roundTrips_iff floatRepr _ (held_toPayload floatRepr hprecision hrecall), convertible_toPayload,
    parse_toPayload hday, and_comm]

/-! ### One packet for each length of a name -/

/-- A name of lower-case letters, which `casefold` leaves alone, as it does the other texts below. -/
def nameOf (n : Nat) : String := String.ofList (List.replicate n 'a')

def sampleDigest : String :=
  String.ofList ('s' :: 'h' :: 'a' :: '2' :: '5' :: '6' :: ':' :: List.replicate 64 'a')

def sampleEvidence (evidenceId : String) (purpose : RetainedEvidencePurpose) (basis : EvidenceBasis)
    (n : Nat) : EvidenceFields :=
  ⟨evidenceId, purpose, basis, "vault", "vault/7", sampleDigest, 90, "acl", "worm", nameOf n, some "auditor"⟩

theorem isLine_nameOf {n maximum : Nat} (hpos : 0 < n) (hle : n ≤ maximum) :
    isLine maximum (nameOf n) = true := by
  refine isLine_ofList ⟨'a', List.mem_replicate.mpr ⟨hpos.ne', rfl⟩, by decide⟩ ?_ ?_
  · rw [List.length_replicate]
    exact hle
  · intro h
    cases (List.mem_replicate.mp h).2

theorem namedIdentity_nameOf {n : Nat} {label : String} (hpos : 0 < n) (hle : n ≤ 240) :
    namedIdentity id (.str (nameOf n)) label = .ok (nameOf n) := by
  have hplaceholder : ¬ ∃ part ∈ placeholderParts, part.toList <:+: (id (nameOf n)).toList := by
    rintro ⟨part, hpart, hwithin⟩
    have hall : placeholderParts.all (fun part => part.toList.any (· ≠ 'a')) = true := by decide
    obtain ⟨c, hc, hne⟩ := List.any_eq_true.mp (List.all_eq_true.mp hall part hpart)
    rw [id, nameOf, String.toList_ofList] at hwithin
    exact of_decide_eq_true hne (List.mem_replicate.mp (hwithin.subset hc)).2
  have hidentifier : matchesIdentifier (nameOf n) = true := by
    obtain ⟨m, rfl⟩ := Nat.exists_eq_add_one.mpr hpos
    rw [matchesIdentifier, nameOf, String.toList_ofList, List.replicate_succ]
    simp
    omega
  rw [namedIdentity, identifier, nonPlaceholderText, text_of_isLine (isLine_nameOf hpos hle), ok_bind,
    if_neg hplaceholder, ok_bind, if_pos hidentifier]

theorem sampleDigest_checked : isLine 80 sampleDigest = true ∧ isDigest sampleDigest = true := by
  have hlist : sampleDigest.toList =
      's' :: 'h' :: 'a' :: '2' :: '5' :: '6' :: ':' :: List.replicate 64 'a' := String.toList_ofList
  constructor
  · refine isLine_ofList ⟨'a', ?_, ?_⟩ ?_ ?_
    · simp
    · decide
    · simp
    · simp
  · rw [isDigest, hlist]
    simp only [List.drop_succ_cons, List.drop_zero, List.length_cons, List.length_replicate]
    simp

theorem sampleEvidence_valid {evidenceId : String} {purpose : RetainedEvidencePurpose}
    {basis : EvidenceBasis} {n : Nat} (hid : identifier id (.str evidenceId) "evidence_id" = .ok evidenceId)
    (hpurpose : (sampleEvidence evidenceId purpose basis n).checkPurpose = .ok ())
    (hpos : 0 < n) (hle : n ≤ 240) : (sampleEvidence evidenceId purpose basis n).postInit id = .ok () := by
  have hsource : nonPlaceholderText id (.str "vault") "source_system" 160 = .ok "vault" := by decide
  have hlocator : nonPlaceholderText id (.str "vault/7") "locator" 500 = .ok "vault/7" := by decide
  have haccess : nonPlaceholderText id (.str "acl") "access_control_ref" 500 = .ok "acl" := by decide
  have hworm : nonPlaceholderText id (.str "worm") "immutability_control_ref" 500 = .ok "worm" := by
    decide
  have hauditor : namedIdentity id (.str "auditor") "independently_verified_by" = .ok "auditor" := by
    decide
  have hexternal : ¬ ∃ part ∈ ["github actions", "github-actions", "/actions/runs/"],
      part.toList <:+: (id ("vault" ++ " " ++ "vault/7")).toList := by decide
  refine bind_eq_ok_iff.mpr ⟨_, hid, ?_⟩
  refine bind_eq_ok_iff.mpr ⟨_, hsource, ?_⟩
  refine bind_eq_ok_iff.mpr ⟨_, hlocator, ?_⟩
  refine bind_eq_ok_iff.mpr ⟨_, digest_of_checked sampleDigest_checked, ?_⟩
  refine bind_eq_ok_iff.mpr ⟨(), ensure_eq_ok.mpr le_rfl, ?_⟩
  refine bind_eq_ok_iff.mpr ⟨_, haccess, ?_⟩
  refine bind_eq_ok_iff.mpr ⟨_, hworm, ?_⟩
  refine bind_eq_ok_iff.mpr ⟨_, namedIdentity_nameOf hpos hle, ?_⟩
  refine bind_eq_ok_iff.mpr ⟨(), bind_eq_ok_iff.mpr ⟨_, hauditor, rfl⟩, ?_⟩
  exact bind_eq_ok_iff.mpr ⟨(), ensure_eq_ok.mpr hexternal, hpurpose⟩

/-- Evidence of a purpose; the number of its name tells it from the others. -/
def sampleReference (evidenceId : String) (purpose : RetainedEvidencePurpose) (basis : EvidenceBasis) (n : Nat)
    (hid : identifier id (.str evidenceId) "evidence_id" = .ok evidenceId)
    (hpurpose : (sampleEvidence evidenceId purpose basis n).checkPurpose = .ok ())
    (hpos : 0 < n) (hle : n ≤ 240) : RetainedEvidenceReference id :=
  ⟨sampleEvidence evidenceId purpose basis n, sampleEvidence_valid hid hpurpose hpos hle⟩

def sampleFeedback : FeedbackFields :=
  ⟨"e2", "e1", sampleDigest, sampleDigest, 40, 30, 5, .float "1.0", .int 1, "advisory-candidate", false⟩

theorem sampleFeedback_valid : sampleFeedback.postInit id = .ok () := by
  have hreport : identifier id (.str "e2") "feedback.report_evidence_id" = .ok "e2" := by decide
  have hexport : identifier id (.str "e1") "feedback.outcome_export_evidence_id" = .ok "e1" := by
    decide
  have hprecision : ratio (PyNumber.float "1.0").asJson "feedback.simulated_block_precision" (1 / 2) "0.50" =
      .ok (.float "1.0") := ratio_asJson_eq_ok.mpr ⟨⟨1, by decide, by norm_num⟩, rfl⟩
  have hrecall : ratio (PyNumber.int 1).asJson "feedback.simulated_block_recall" (4 / 5) "0.80" =
      .ok (PyNumber.int 1).toFloat := ratio_asJson_eq_ok.mpr ⟨⟨1, rfl, by norm_num⟩, rfl⟩
  rw [FeedbackFields.postInit]
  simp only [sampleFeedback]
  rw [hreport, hexport, digest_of_checked sampleDigest_checked, digest_of_checked sampleDigest_checked,
    hprecision, hrecall]
  rfl

theorem checkPurpose_correlation (n : Nat) :
    (sampleEvidence "e5" .independentPostMergeCorrelation .measured n).checkPurpose = .ok () := by
  have hother : some "auditor" ≠ some (nameOf n) := by
    intro h
    have hu : 'u' ∈ (nameOf n).toList := by
      rw [← Option.some.inj h]
      decide
    rw [nameOf, String.toList_ofList] at hu
    cases (List.mem_replicate.mp hu).2
  refine bind_eq_ok_iff.mpr ⟨(), rfl, ?_⟩
  exact bind_eq_ok_iff.mpr ⟨(), rfl, ensure_eq_ok.mpr hother⟩

def sampleEvidences (n : Nat) (hpos : 0 < n) (hle : n ≤ 240) : List (RetainedEvidenceReference id) :=
  [sampleReference "e1" .shadowOutcomeExport .measured n (by decide +kernel) rfl hpos hle,
    sampleReference "e2" .shadowReport .derived n (by decide +kernel) rfl hpos hle,
    sampleReference "e3" .citationQualityReview .measured n (by decide +kernel) rfl hpos hle,
    sampleReference "e4" .performanceAndCostReport .measured n (by decide +kernel) rfl hpos hle,
    sampleReference "e5" .independentPostMergeCorrelation .measured n (by decide +kernel)
      (checkPurpose_correlation n) hpos hle]

def sampleFields (n : Nat) (hpos : 0 < n) (hle : n ≤ 240) : PacketFields id :=
  ⟨"pr-guardian-abc", "acme/app", "policy-1", sampleDigest, sampleDigest, "2026-01-05", "2026-02-05",
    ⟨sampleFeedback, sampleFeedback_valid⟩, sampleEvidences n hpos hle, RequiredReviewRole.required, 1,
    "shadow", "human-review-required"⟩

theorem sampleEvidences_byPurpose {n : Nat} (hpos : 0 < n) (hle : n ≤ 240) :
    retainedEvidenceByPurpose id (sampleEvidences n hpos hle) = .ok () := by
  have hids : (sampleEvidences n hpos hle).map (·.evidenceId) = ["e1", "e2", "e3", "e4", "e5"] := rfl
  have hpurposes : (sampleEvidences n hpos hle).map (·.purpose) = RetainedEvidencePurpose.all := rfl
  have hsorted : (sampleEvidences n hpos hle).Pairwise fun a b => a.evidenceId ≤ b.evidenceId := by
    rw [← List.pairwise_map (f := fun e : RetainedEvidenceReference id => e.evidenceId) (R := (· ≤ ·)), hids]
    decide
  refine bind_eq_ok_iff.mpr ⟨(), ensure_eq_ok.mpr (sortedBy_of_pairwise hsorted).symm, ?_⟩
  refine bind_eq_ok_iff.mpr ⟨(), ensure_eq_ok.mpr ?_, ensure_eq_ok.mpr ?_⟩
  · rw [hpurposes]
    decide
  · rw [hids]
    decide

theorem sampleFields_valid {n : Nat} (hpos : 0 < n) (hle : n ≤ 240) :
    (sampleFields n hpos hle).postInit id = .ok () := by
  have hpilot : nonPlaceholderText id (.str "pr-guardian-abc") "pilot_id" 80 = .ok "pr-guardian-abc" := by
    decide
  have hrepository : nonPlaceholderText id (.str "acme/app") "repository" 200 = .ok "acme/app" := by
    decide
  have hpolicy : nonPlaceholderText id (.str "policy-1") "policy_version" 120 = .ok "policy-1" := by
    decide
  have hprepared : isoDate (.str "2026-01-05") "prepared_on" = .ok 739621 := by decide
  have hexpires : isoDate (.str "2026-02-05") "review_expires_on" = .ok 739652 := by decide
  have hnamed (purpose : RetainedEvidencePurpose) (key : RetainedEvidenceReference id → String)
      (named message : String)
      (h : ∀ e ∈ sampleEvidences n hpos hle, e.purpose = purpose → key e = named) :
      (sampleFields n hpos hle).checkNamed id purpose key named message = .ok () := ensure_eq_ok.mpr h
  refine bind_eq_ok_iff.mpr ⟨_, hpilot, ?_⟩
  refine bind_eq_ok_iff.mpr ⟨(), ensure_eq_ok.mpr (by decide), ?_⟩
  refine bind_eq_ok_iff.mpr ⟨_, hrepository, ?_⟩
  refine bind_eq_ok_iff.mpr ⟨(), ensure_eq_ok.mpr (by decide), ?_⟩
  refine bind_eq_ok_iff.mpr ⟨_, hpolicy, ?_⟩
  refine bind_eq_ok_iff.mpr ⟨_, digest_of_checked sampleDigest_checked, ?_⟩
  refine bind_eq_ok_iff.mpr ⟨_, digest_of_checked sampleDigest_checked, ?_⟩
  refine bind_eq_ok_iff.mpr ⟨_, hprepared, ?_⟩
  refine bind_eq_ok_iff.mpr ⟨_, hexpires, ?_⟩
  refine bind_eq_ok_iff.mpr ⟨(), ensure_eq_ok.mpr (by decide), ?_⟩
  refine bind_eq_ok_iff.mpr ⟨(), sampleEvidences_byPurpose hpos hle, ?_⟩
  refine bind_eq_ok_iff.mpr ⟨(), ensure_eq_ok.mpr rfl, ?_⟩
  refine bind_eq_ok_iff.mpr ⟨(), ensure_eq_ok.mpr rfl, ?_⟩
  refine bind_eq_ok_iff.mpr ⟨(), ensure_eq_ok.mpr rfl, ?_⟩
  refine bind_eq_ok_iff.mpr ⟨(), ensure_eq_ok.mpr rfl, ?_⟩
  refine bind_eq_ok_iff.mpr ⟨(), hnamed _ _ _ _ ?_, ?_⟩
  · simp [sampleEvidences, sampleReference, sampleEvidence, sampleFields, sampleFeedback]
  refine bind_eq_ok_iff.mpr ⟨(), hnamed _ _ _ _ ?_, ?_⟩
  · simp [sampleEvidences, sampleReference, sampleEvidence, sampleFields, sampleFeedback]
  refine bind_eq_ok_iff.mpr ⟨(), hnamed _ _ _ _ ?_, hnamed _ _ _ _ ?_⟩
  · simp [sampleEvidences, sampleReference, sampleEvidence, sampleFields, sampleFeedback]
  · simp [sampleEvidences, sampleReference, sampleEvidence, sampleFields, sampleFeedback]

/-- The packet whose evidence all comes from a name of some length. -/
def samplePacket (n : Nat) (hpos : 0 < n) (hle : n ≤ 240) : AdvisoryPromotionReviewPacket id :=
  ⟨sampleFields n hpos hle, sampleFields_valid hpos hle⟩

theorem samplePacket_current {n : Nat} (hpos : 0 < n) (hle : n ≤ 240) :
    (samplePacket n hpos hle).isCurrentOn id 739640 = true := by
  have hday : isoDay "2026-02-05" = some 739652 := by decide
  rw [AdvisoryPromotionReviewPacket.isCurrentOn]
  simp only [samplePacket, sampleFields, hday]
  decide

theorem held_one : Json.Held id (PyNumber.float "1.0").asJson := by
  intro rest hrest
  have htext : "1.0".toList = ['1', '.', '0'] := by decide
  have hzero : ∀ c ∈ ['0'], c.isDigit = true := by simp
  have hdigits := Json.takeWhile_digits hzero hrest
  rw [List.singleton_append] at hdigits
  have hfraction : Json.readFraction ('.' :: '0' :: rest) = (['.', '0'], rest) := by
    simp [Json.readFraction, hdigits]
  have hinteger : Json.readInteger ('1' :: '.' :: '0' :: rest) = (['1'], '.' :: '0' :: rest) := by
    simp [Json.readInteger]
  have hname : Json.names.find? (fun name => name.1.isPrefixOf ('1' :: '.' :: '0' :: rest)) = none := rfl
  rw [htext, List.cons_append, List.cons_append, List.singleton_append, Json.readAtom, hname]
  simp [Json.readNumber, hinteger, hfraction, Json.readExponent_closed hrest]

theorem shortNames_iff {n : Nat} (hpos : 0 < n) (hle : n ≤ 240) :
    (∀ e ∈ (samplePacket n hpos hle).retainedEvidence, e.ShortNames) ↔ n ≤ 200 := by
  simp [samplePacket, sampleFields, sampleEvidences, sampleReference, sampleEvidence,
    EvidenceFields.ShortNames, nameOf]

/-- Names of 201 letters, which the constructors take and the parser does not. -/
theorem long_name_refused : ¬ ∀ (p : AdvisoryPromotionReviewPacket id) (day : Nat),
    p.isCurrentOn id day = true → Json.Held id p.feedback.simulatedBlockPrecision.asJson →
      Json.Held id p.feedback.simulatedBlockRecall.asJson →
      Json.RoundTrips id (fun payload => parseAdvisoryPromotionReviewPacket id payload day)
        (fun r => r.Same p.toPacketFields) p.toPayload := by
  intro h
  have hpos : 0 < 201 := by decide
  have hle : 201 ≤ 240 := by decide
  have hone : Json.Held id (samplePacket 201 hpos hle).feedback.simulatedBlockRecall.asJson := trivial
  have hback := h (samplePacket 201 hpos hle) 739640 (samplePacket_current hpos hle) held_one hone
  rw [Json.roundTrips_iff id _ (held_toPayload id held_one hone),
    parse_toPayload (samplePacket_current hpos hle), shortNames_iff] at hback
  exact absurd hback.2 (by decide)

theorem short_name_back : Json.RoundTrips id
    (fun payload => parseAdvisoryPromotionReviewPacket id payload 739640)
    (fun r => r.Same (sampleFields 200 (by decide) (by decide)))
    (samplePacket 200 (by decide) (by decide)).toPayload := by
  have hpos : 0 < 200 := by decide
  have hle : 200 ≤ 240 := by decide
  have hone : Json.Held id (samplePacket 200 hpos hle).feedback.simulatedBlockRecall.asJson := trivial
  refine (packet_comes_back_iff id (samplePacket_current hpos hle) held_one hone).mpr
    ⟨(shortNames_iff hpos hle).mpr le_rfl, ?_⟩
  have hdigits : 100 < 10 ^ Json.maxIntDigits :=
    lt_of_lt_of_le (by decide : 100 < 10 ^ 3) (Nat.pow_le_pow_right (by decide) (by decide))
  simp [PacketFields.ShortCounts, samplePacket, sampleFields, sampleEvidences, sampleReference,
    sampleEvidence, sampleFeedback]
  omega

end EngineeringIntelligence.Feedback
