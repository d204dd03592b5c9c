import EngineeringIntelligence.Framework.JsonReader
import EngineeringIntelligence.Remediation.Certification

namespace EngineeringIntelligence.Remediation

open EngineeringIntelligence.Framework
open Json (texts_inj str_inj int_inj optStr_inj printed_texts)

/-! What the two hashes of a certification are taken of: a runbook definition comes as the `Runbook`
itself or as JSON, and both have one plain form. -/

/-- A value that reaches `_plain`, as far as `_plain` tells values apart. The keys of a mapping are
known by their `str`, and so is a value of any other type. -/
inductive PyObject where
  | none
  | bool (b : Bool)
  | int (n : Int)
  | float (repr : String)
  | str (s : String)
  | list (items : List PyObject)
  | tuple (items : List PyObject)
  | mapping (entries : List (String × PyObject))
  | dataclass (fields : List (String × PyObject))
  | other (str : String)

namespace PyObject

mutual

/-- `_plain`. -/
def plain : PyObject → Json
  | none => .null
  | bool b => .bool b
  | int n => .int n
  | float r => .float r
  | str s => .str s
  | list items => .arr (plainItems items)
  | tuple items => .arr (plainItems items)
  | mapping entries => .obj (plainFields entries)
  | dataclass fields => .obj (plainFields fields)
  | other s => .str s

def plainItems : List PyObject → List Json
  | [] => []
  | v :: vs => v.plain :: plainItems vs

def plainFields : List (String × PyObject) → List (String × Json)
  | [] => []
  | (k, v) :: fs => (k, v.plain) :: plainFields fs

end

mutual

/-- JSON data as `json.loads` hands it on. -/
def decoded : Json → PyObject
  | .null => none
  | .bool b => bool b
  | .int n => int n
  | .float r => float r
  | .str s => str s
  | .arr js => list (decodedItems js)
  | .obj fs => mapping (decodedFields fs)

def decodedItems : List Json → List PyObject
  | [] => []
  | j :: js => decoded j :: decodedItems js

def decodedFields : List (String × Json) → List (String × PyObject)
  | [] => []
  | (k, j) :: fs => (k, decoded j) :: decodedFields fs

end

mutual

theorem plain_decoded : ∀ j : Json, (decoded j).plain = j
  | .null | .bool _ | .int _ | .float _ | .str _ => rfl
  | .arr js => congrArg Json.arr (plainItems_decoded js)
  | .obj fs => congrArg Json.obj (plainFields_decoded fs)

theorem plainItems_decoded : ∀ js : List Json, plainItems (decodedItems js) = js
  | [] => rfl
  | j :: js => by rw [decodedItems, plainItems, plain_decoded j, plainItems_decoded js]

theorem plainFields_decoded : ∀ fs : List (String × Json), plainFields (decodedFields fs) = fs
  | [] => rfl
  | (k, j) :: fs => by rw [decodedFields, plainFields, plain_decoded j, plainFields_decoded fs]

end

theorem plainItems_str (texts : List String) : plainItems (texts.map str) = texts.map Json.str := by
  induction texts with
  | nil => rfl
  | cons s texts ih => rw [List.map_cons, plainItems, ih]; rfl

def optStr : Option String → PyObject
  | Option.none => none
  | some s => str s

end PyObject

/-- The dataclass; an `IntEnum` is an `int`. -/
def Runbook.object (r : Runbook) : PyObject :=
  .dataclass [("id", .str r.id), ("description", .str r.description),
    ("environments", .tuple (r.environments.map .str)), ("max_blast_radius", .int r.maxBlastRadius),
    ("reversible", .bool r.reversible), ("required_level", .int r.requiredLevel.value),
    ("verify_signal", .str r.verifySignal), ("rollback_id", .optStr r.rollbackId),
    ("failure_class", .str r.failureClass), ("preconditions", .tuple (r.preconditions.map .str)),
    ("postconditions", .tuple (r.postconditions.map .str)),
    ("idempotency_scope", .str r.idempotencyScope)]

theorem Runbook.plain_object (r : Runbook) : r.object.plain = r.plain := by
  simp only [object, PyObject.plain, PyObject.plainFields, PyObject.plainItems_str, Runbook.plain]
  cases r.rollbackId <;> rfl

/-- `str` of an integer raises a `ValueError` past this many digits, and so does `json.dumps`. -/
def writable (n : Int) : Bool := (Nat.toDigits 10 n.natAbs).length ≤ Json.maxIntDigits

mutual

/-- Data that `json.dumps` writes. -/
def dumpable : Json → Bool
  | .int n => writable n
  | .arr js => dumpableItems js
  | .obj fs => dumpableFields fs
  | _ => true

def dumpableItems : List Json → Bool
  | [] => true
  | j :: js => dumpable j && dumpableItems js

def dumpableFields : List (String × Json) → Bool
  | [] => true
  | (_, j) :: fs => dumpable j && dumpableFields fs

end

/-- `_canonical`; `none` is the `ValueError`. -/
def canonicalText (payload : Json) : Option String := if dumpable payload then some payload.dumps else none

section
variable (sha256 : String → String)

/-- `material_inputs_hash`. -/
def CertificationScope.materialInputsHash (s : CertificationScope) (runbookDefinition : PyObject)
    (policyBundleVersion verificationSignal : String) (dependencies : List String) : Option String :=
  (canonicalText (.obj [("scope", s.canonical), ("runbook_definition", runbookDefinition.plain),
    ("policy_bundle_version", .str policyBundleVersion),
    ("verification_signal", .str verificationSignal),
    ("dependencies", .arr ((dependencies.insertionSort (· ≤ ·)).map .str))])).map sha256

end

theorem dumpableItems_eq_all (js : List Json) : dumpableItems js = js.all dumpable := by
  induction js with
  | nil => rfl
  | cons j js ih => rw [dumpableItems, ih, List.all_cons]

theorem dumpableFields_eq_all (fs : List (String × Json)) :
    dumpableFields fs = fs.all fun f => dumpable f.2 := by
  induction fs with
  | nil => rfl
  | cons f fs ih => rw [dumpableFields, ih, List.all_cons]

mutual

theorem dumpable_sortKeys : ∀ j : Json, dumpable j.sortKeys = dumpable j
  | .null | .bool _ | .int _ | .float _ | .str _ => rfl
  | .arr js => dumpableItems_sortKeys js
  | .obj fs => by
    have hperm := (Json.sortKeysFields fs).perm_insertionSort (fun a b => a.1 ≤ b.1)
    rw [Json.sortKeys, dumpable, dumpable, dumpableFields_eq_all, hperm.all_eq, ← dumpableFields_eq_all,
      dumpableFields_sortKeys fs]

theorem dumpableItems_sortKeys : ∀ js : List Json, dumpableItems (Json.sortKeysItems js) = dumpableItems js
  | [] => rfl
  | j :: js => by
    rw [Json.sortKeysItems, dumpableItems, dumpableItems, dumpable_sortKeys j, dumpableItems_sortKeys js]

theorem dumpableFields_sortKeys : ∀ fs : List (String × Json),
    dumpableFields (Json.sortKeysFields fs) = dumpableFields fs
  | [] => rfl
  | (k, j) :: fs => by
    rw [Json.sortKeysFields, dumpableFields, dumpableFields, dumpable_sortKeys j,
      dumpableFields_sortKeys fs]

end

/-- The canonical text does not show in what order the keys came. -/
theorem canonicalText_eq_of_sortKeys {a b : Json} (h : a.sortKeys = b.sortKeys) :
    canonicalText a = canonicalText b := by
  rw [canonicalText, canonicalText, ← dumpable_sortKeys a, h, dumpable_sortKeys b,
    Json.dumps_eq_of_sortKeys h]

/-! ### What the plain forms tell apart -/

theorem value_inj {a b : AutonomyLevel} (h : a.value = b.value) : a = b := by
  cases a <;> cases b <;> first | rfl | cases h

/-- The hashes see every field of a scope. -/
theorem CertificationScope.canonical_inj {s t : CertificationScope}
    (h : s.canonical.sortKeys = t.canonical.sortKeys) : s = t := by
  have hget := Json.get_eq_of_sortKeys_eq (by simp) (by simp) h
  have hservice : s.service = t.service := str_inj (hget "service")
  have henvironment : s.environment = t.environment := str_inj (hget "environment")
  have hrunbook : s.runbookId = t.runbookId := str_inj (hget "runbook_id")
  have hbudget : s.blastRadiusBudget = t.blastRadiusBudget := int_inj (hget "blast_radius_budget")
  cases s
  cases t
  simp_all

/-- And every field of a runbook. -/
theorem Runbook.plain_inj {r r' : Runbook} (h : r.plain.sortKeys = r'.plain.sortKeys) : r = r' := by
  have hget := Json.get_eq_of_sortKeys_eq (by simp) (by simp) h
  have hid : r.id = r'.id := str_inj (hget "id")
  have hdescription : r.description = r'.description := str_inj (hget "description")
  have henvironments : r.environments = r'.environments := texts_inj (hget "environments")
  have hradius : r.maxBlastRadius = r'.maxBlastRadius := int_inj (hget "max_blast_radius")
  have hreversible : r.reversible = r'.reversible := Json.bool.inj (hget "reversible")
  have hlevel : r.requiredLevel = r'.requiredLevel := value_inj (int_inj (hget "required_level"))
  have hsignal : r.verifySignal = r'.verifySignal := str_inj (hget "verify_signal")
  have hrollback : r.rollbackId = r'.rollbackId := optStr_inj (hget "rollback_id")
  have hclass : r.failureClass = r'.failureClass := str_inj (hget "failure_class")
  have hpre : r.preconditions = r'.preconditions := texts_inj (hget "preconditions")
  have hpost : r.postconditions = r'.postconditions := texts_inj (hget "postconditions")
  have hidempotency : r.idempotencyScope = r'.idempotencyScope := str_inj (hget "idempotency_scope")
  cases r
  cases r'
  simp_all

theorem CertificationScope.printed_canonical (s : CertificationScope) : s.canonical.Printed :=
  ⟨trivial, trivial, trivial, trivial, trivial⟩

theorem Runbook.printed_plain (r : Runbook) : r.plain.Printed := by
  have hrollback : (Json.optStr r.rollbackId).Printed := by
    cases r.rollbackId <;> trivial
  exact ⟨trivial, trivial, printed_texts _, trivial, trivial, trivial, trivial, hrollback, trivial,
    printed_texts _, printed_texts _, trivial, trivial⟩

/-- Everything that the inputs hash is taken of. -/
def materialInputs (scope : CertificationScope) (runbook : Runbook) (policyBundleVersion : String) : Json :=
  .obj [("scope", scope.canonical), ("runbook_definition", runbook.plain),
    ("policy_bundle_version", .str policyBundleVersion),
    ("verification_signal", .str runbook.verifySignal),
    ("dependencies", .arr ((runbook.preconditions.insertionSort (· ≤ ·)).map .str))]

theorem materialInputs_inj {scope scope' : CertificationScope} {r r' : Runbook} {bundle bundle' : String}
    (h : (materialInputs scope r bundle).dumps = (materialInputs scope' r' bundle').dumps) :
    scope = scope' ∧ r = r' ∧ bundle = bundle' := by
  have hprinted : ∀ (scope : CertificationScope) (r : Runbook) bundle,
      (materialInputs scope r bundle).Printed := fun scope r bundle =>
    ⟨scope.printed_canonical, r.printed_plain, trivial, trivial, printed_texts _, trivial⟩
  have hsorted := Json.dumps_injective (hprinted scope r bundle) (hprinted scope' r' bundle') h
  have hget := Json.get_eq_of_sortKeys_eq (by simp) (by simp) hsorted
  exact ⟨CertificationScope.canonical_inj (hget "scope"), Runbook.plain_inj (hget "runbook_definition"),
    str_inj (hget "policy_bundle_version")⟩

/-! ### The two forms of a definition -/

section
variable (floatRepr : String → String)

theorem Runbook.readable_plain {r : Runbook} (h : dumpable r.plain = true) :
    Json.Readable floatRepr r.plain := by
  have hradius : (Nat.toDigits 10 r.maxBlastRadius.natAbs).length ≤ Json.maxIntDigits := by
    simp only [plain, dumpable, dumpableFields, Bool.and_eq_true] at h
    exact of_decide_eq_true h.2.2.2.1
  have hlevel : Json.Readable floatRepr (.int r.requiredLevel.value) := by
    cases r.requiredLevel <;> exact Json.readable_int floatRepr (by decide)
  exact ⟨by simp, trivial, trivial, Json.readable_texts floatRepr _, hradius, trivial, hlevel,
    trivial, Json.readable_optStr floatRepr _, trivial, Json.readable_texts floatRepr _,
    Json.readable_texts floatRepr _, trivial, trivial⟩

variable (sha256 : String → String)

theorem materialInputsHash_object (scope : CertificationScope) (r : Runbook) (bundle : String) :
    scope.materialInputsHash sha256 r.object bundle r.verifySignal r.preconditions =
      if dumpable (materialInputs scope r bundle) then some (materialInputsHashFor sha256 scope r bundle)
      else none := by
  rw [CertificationScope.materialInputsHash, Runbook.plain_object]
  change (canonicalText (materialInputs scope r bundle)).map sha256 = _
  rw [canonicalText]
  split <;> rfl

/-- A definition that was written as JSON and read again gives the hash of the runbook. -/
theorem materialInputsHash_decoded (scope : CertificationScope) {r : Runbook} (bundle : String) {d : Json}
    (h : d.sortKeys = r.plain.sortKeys) :
    scope.materialInputsHash sha256 (.decoded d) bundle r.verifySignal r.preconditions =
      scope.materialInputsHash sha256 r.object bundle r.verifySignal r.preconditions := by
  rw [CertificationScope.materialInputsHash, CertificationScope.materialInputsHash, PyObject.plain_decoded,
    Runbook.plain_object]
  apply congrArg (Option.map sha256)
  apply canonicalText_eq_of_sortKeys
  simp only [Json.sortKeys, Json.sortKeysFields, h]

/-- Where a runbook has no JSON text it has no hash either. -/
theorem materialInputsHash_none (scope : CertificationScope) {r : Runbook} (bundle : String)
    (h : dumpable r.plain = false) :
    scope.materialInputsHash sha256 r.object bundle r.verifySignal r.preconditions = none := by
  rw [materialInputsHash_object, if_neg]
  simp [materialInputs, dumpable, dumpableFields, h]

variable {sha256}

theorem materialInputsHashFor_inj (hsha : Function.Injective sha256) {scope scope' : CertificationScope}
    {r r' : Runbook} {bundle bundle' : String}
    (h : materialInputsHashFor sha256 scope r bundle = materialInputsHashFor sha256 scope' r' bundle') :
    (scope, r, bundle) = (scope', r', bundle') := by
  obtain ⟨rfl, rfl, rfl⟩ := materialInputs_inj (hsha h)
  rfl

theorem certificationRefusal_isSome {record : L4CertificationRecord} {scopeHash inputsHash : String}
    (h : record.inputsHash ≠ inputsHash) (now : Int) :
    (certificationRefusal (some record) scopeHash inputsHash now).isSome = true := by
  rw [certificationRefusal]
  cases parseInstant record.expiresOn with
  | none => rfl
  | some expires =>
    dsimp only
    split_ifs <;> rfl

/-- The inputs hash does not tell a runbook from its JSON, and tells any two scopes, runbooks and
bundles apart; so a certificate of one of them is refused for every other. -/
theorem certificate_covers_one_definition (hsha : Function.Injective sha256) :
    (∀ (scope : CertificationScope) (r : Runbook) (bundle : String),
      if dumpable r.plain then
        ∀ text, Json.IsDump r.plain text → ∃ d, Json.loads floatRepr text = .ok d ∧
          scope.materialInputsHash sha256 (.decoded d) bundle r.verifySignal r.preconditions =
            scope.materialInputsHash sha256 r.object bundle r.verifySignal r.preconditions
      else scope.materialInputsHash sha256 r.object bundle r.verifySignal r.preconditions = none) ∧
    ∀ (scope scope' : CertificationScope) (r r' : Runbook) (bundle bundle' : String),
      (scope, r, bundle) ≠ (scope', r', bundle') →
      materialInputsHashFor sha256 scope r bundle ≠ materialInputsHashFor sha256 scope' r' bundle' ∧
      ∀ (expiresOn : String) (now : Int),
        (certificationRefusal
          (some ⟨scope.scopeHash sha256, materialInputsHashFor sha256 scope r bundle, expiresOn⟩)
          (scope'.scopeHash sha256) (materialInputsHashFor sha256 scope' r' bundle') now).isSome = true := by
  constructor
  · intro scope r bundle
    split
    · next hdumpable =>
      intro text htext
      obtain ⟨d, hloads, hsorted⟩ := Json.loads_isDump floatRepr (r.readable_plain floatRepr hdumpable) htext
      exact ⟨d, hloads, materialInputsHash_decoded sha256 scope bundle hsorted⟩
    · next hdumpable =>
      exact materialInputsHash_none sha256 scope bundle (Bool.eq_false_iff.mpr hdumpable)
  · intro scope scope' r r' bundle bundle' hne
    have hhash : materialInputsHashFor sha256 scope r bundle ≠
        materialInputsHashFor sha256 scope' r' bundle' := fun h => hne (materialInputsHashFor_inj hsha h)
    exact ⟨hhash, fun expiresOn now => certificationRefusal_isSome hhash now⟩

end

/-- A new policy bundle makes a certificate stale. -/
theorem other_bundle_refused :
    (certificationRefusal
      (some ⟨(⟨"payments", "prod", "aks.rollout.undo", 3⟩ : CertificationScope).scopeHash id,
        materialInputsHashFor id ⟨"payments", "prod", "aks.rollout.undo", 3⟩
          ⟨"aks.rollout.undo", "Undo", ["prod"], 10, true, .approveAndExecute, "replicas", none, "generic",
            ["deployment.exists"], ["replicas"], "durable-workflow"⟩ "bundle-1",
        "2027-01-01T00:00:00+00:00"⟩)
      ((⟨"payments", "prod", "aks.rollout.undo", 3⟩ : CertificationScope).scopeHash id)
      (materialInputsHashFor id ⟨"payments", "prod", "aks.rollout.undo", 3⟩
        ⟨"aks.rollout.undo", "Undo", ["prod"], 10, true, .approveAndExecute, "replicas", none, "generic",
          ["deployment.exists"], ["replicas"], "durable-workflow"⟩ "bundle-2") 0).isSome = true :=
  ((certificate_covers_one_definition id Function.injective_id).2 _ _ _ _ "bundle-1" "bundle-2"
    (by decide)).2 _ 0

end EngineeringIntelligence.Remediation
