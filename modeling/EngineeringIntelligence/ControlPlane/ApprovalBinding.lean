import EngineeringIntelligence.Framework.Joined
import EngineeringIntelligence.ControlPlane.WorkflowLaw

namespace EngineeringIntelligence.ControlPlane

open EngineeringIntelligence.Framework

/-- `int(now or time.time())`: a zero `now` counts as missing. -/
def currentTime (now : Option Int) (clock : Int) : Int := (now.filter (· ≠ 0)).getD clock

/-- The instants at which an approval issued at `issuedAt` may be used: from the allowed
clock skew before to the largest age after. -/
def InWindow (issuedAt current : Int) : Prop := issuedAt - 30 ≤ current ∧ current ≤ issuedAt + 900

/-- A text that the separator of the signed payload does not occur in. -/
def SeparatorFree (text : String) : Prop := '|' ∉ text.toList

theorem signed_fields (a : Approval) :
    a.signed.toList = joinFields '|'
      [a.workflowId.toList, a.approver.toList, a.planHash.toList, (toString a.issuedAt).toList] := by
  simp [Approval.signed, joinFields]

theorem numeral_separatorFree (n : Int) : SeparatorFree (toString n) := by
  intro hbar
  rcases numeral_chars hbar with hdigit | hdash
  · revert hdigit
    decide
  · revert hdash
    decide

/-- The time stands after the last separator, whatever the other fields hold. -/
theorem signed_issuedAt {a b : Approval} (h : a.signed = b.signed) : a.issuedAt = b.issuedAt := by
  have hlast : ∀ x : Approval, ∃ rest, x.signed.toList.reverse =
      (toString x.issuedAt).toList.reverse ++ '|' :: rest := by
    intro x
    exact ⟨(x.workflowId ++ "|" ++ x.approver ++ "|" ++ x.planHash).toList.reverse,
      by simp [Approval.signed]⟩
  have hfree : ∀ x : Approval, '|' ∉ (toString x.issuedAt).toList.reverse := by
    intro x hbar
    exact numeral_separatorFree x.issuedAt (List.mem_reverse.mp hbar)
  obtain ⟨rest, ha⟩ := hlast a
  obtain ⟨rest', hb⟩ := hlast b
  rw [h, hb] at ha
  have hnumerals := (field_inj (hfree b) (hfree a) ha).1
  exact (numeral_injective (String.toList_inj.mp (List.reverse_inj.mp hnumerals))).symm

theorem signed_injective {a b : Approval} (hw : SeparatorFree a.workflowId)
    (ha : SeparatorFree a.approver) (hp : SeparatorFree a.planHash) (h : a.signed = b.signed) :
    a.workflowId = b.workflowId ∧ a.approver = b.approver ∧ a.planHash = b.planHash ∧
      a.issuedAt = b.issuedAt := by
  have hlist := congrArg String.toList h
  rw [signed_fields, signed_fields] at hlist
  have hclean : ∀ field ∈ [a.workflowId.toList, a.approver.toList, a.planHash.toList,
      (toString a.issuedAt).toList], '|' ∉ field := by
    simp only [List.forall_mem_cons, List.not_mem_nil, false_imp_iff, implies_true, and_true]
    exact ⟨hw, ha, hp, numeral_separatorFree a.issuedAt⟩
  have hfields := joinFields_inj (by simp) hclean hlist
  simp only [List.cons.injEq, String.toList_inj, and_true] at hfields
  obtain ⟨hw', ha', hp', ht⟩ := hfields
  exact ⟨hw', ha', hp', numeral_injective ht⟩

/-- A separator inside a field lets the signed text be read as another approval of the same
moment. -/
theorem signed_ambiguous {a : Approval}
    (h : ¬ (SeparatorFree a.workflowId ∧ SeparatorFree a.approver ∧ SeparatorFree a.planHash)) :
    ∃ b : Approval, b.signed = a.signed ∧ b.issuedAt = a.issuedAt ∧
      ¬ (b.workflowId = a.workflowId ∧ b.approver = a.approver ∧ b.planHash = a.planHash) := by
  have hpart : ∀ (x y : List Char) (text : String), text.toList = x ++ '|' :: y →
      String.ofList x ≠ text ∧ String.ofList y ≠ text := by
    intro x y text htext
    constructor
    all_goals
      intro he
      have hlen := congrArg List.length (htext.symm.trans (congrArg String.toList he.symm))
      simp at hlen
      try omega
  rw [not_and_or, not_and_or] at h
  simp only [SeparatorFree, not_not] at h
  rcases h with h | h | h
  · obtain ⟨x, y, htext⟩ := List.append_of_mem h
    refine ⟨{ a with workflowId := String.ofList x
                     approver := String.ofList y ++ "|" ++ a.approver }, ?_, rfl, ?_⟩
    · apply String.toList_inj.mp
      simp [Approval.signed, htext]
    · intro hsame
      exact (hpart x y _ htext).1 hsame.1
  · obtain ⟨x, y, htext⟩ := List.append_of_mem h
    refine ⟨{ a with workflowId := a.workflowId ++ "|" ++ String.ofList x
                     approver := String.ofList y }, ?_, rfl, ?_⟩
    · apply String.toList_inj.mp
      simp [Approval.signed, htext]
    · intro hsame
      exact (hpart x y _ htext).2 hsame.2.1
  · obtain ⟨x, y, htext⟩ := List.append_of_mem h
    refine ⟨{ a with approver := a.approver ++ "|" ++ String.ofList x
                     planHash := String.ofList y }, ?_, rfl, ?_⟩
    · apply String.toList_inj.mp
      simp [Approval.signed, htext]
    · intro hsame
      exact (hpart x y _ htext).2 hsame.2.2

section
variable {hmac : String → String → String}

/-- Whether the signature issued for one tuple verifies for another, at a verification that
was given the time `now` on a clock that reads `clock`. -/
def verifiesFor (hmac : String → String → String) (secret : String) (issued claimed : Approval)
    (now : Option Int) (clock : Int) : Except ControlError Bool :=
  let signature := (issueApproval hmac issued.workflowId issued.approver issued.planHash secret
    issued.issuedAt).signature
  verifyApproval hmac { claimed with signature := signature } claimed.workflowId claimed.planHash
    secret (currentTime now clock)

/-- Two approvals of the same tuple. -/
def SameTuple (a b : Approval) : Prop :=
  a.workflowId = b.workflowId ∧ a.approver = b.approver ∧ a.planHash = b.planHash ∧
    a.issuedAt = b.issuedAt

theorem verifiesFor_iff (hinj : ∀ secret, Function.Injective (hmac secret))
    (hascii : ∀ secret payload, (hmac secret payload).toList.all (fun c => c.toNat < 128) = true)
    {secret : String} {issued claimed : Approval} {now : Option Int} {clock : Int} :
    verifiesFor hmac secret issued claimed now clock = .ok true ↔
      claimed.signed = issued.signed ∧ InWindow claimed.issuedAt (currentTime now clock) := by
  unfold verifiesFor InWindow
  rw [verifyApproval_eq_true]
  constructor
  · intro h
    obtain ⟨-, hwindow, hsigned, -⟩ := h
    dsimp only at hwindow
    exact ⟨hinj secret hsigned, by omega, by omega⟩
  · intro h
    obtain ⟨hsigned, hearly, hlate⟩ := h
    refine ⟨⟨rfl, rfl⟩, ⟨by dsimp only; omega, by dsimp only; omega⟩, ?_, hascii _ _⟩
    exact congrArg (hmac secret) hsigned

end

/-- HMAC-SHA-256 on what `restartApproval` signs, and some injective digest elsewhere. -/
def spelledHmac (secret : String) : String → String :=
  if secret = "s3cret" then
    digestAt restartApproval.signed
      "213e4be30ddb2f5fcf6d393387588d12cf27a2c83da77609d569e5378cd83454"
  else spell

theorem spelledHmac_injective (secret : String) : Function.Injective (spelledHmac secret) := by
  unfold spelledHmac
  split
  · exact digestAt_injective (by decide)
  · exact spell_injective

theorem spelledHmac_ascii (secret payload : String) :
    (spelledHmac secret payload).toList.all (fun c => c.toNat < 128) = true := by
  have hspell : (spell payload).toList.all (fun c => c.toNat < 128) = true := by
    apply List.all_eq_true.mpr
    intro c hc
    exact decide_eq_true (spell_ascii hc)
  unfold spelledHmac
  split
  · unfold digestAt
    split
    · decide
    · exact hspell
  · exact hspell

/-- An approval of one workflow by one approver. -/
def paddedApproval : Approval :=
  { restartApproval with workflowId := "remediation:INC-7|ops", approver := "sre-oncall" }

/-- The same signed text, read as another workflow and another approver. -/
def shiftedApproval : Approval :=
  { restartApproval with workflowId := "remediation:INC-7", approver := "ops|sre-oncall" }

end EngineeringIntelligence.ControlPlane
