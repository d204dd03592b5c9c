import EngineeringIntelligence.Framework.JsonLimits
import EngineeringIntelligence.PrGuardian.PublisherTarget

namespace EngineeringIntelligence.PrGuardian

open EngineeringIntelligence.Framework

/-! From the bytes of the evaluation artifact to the check: which of them the publisher answers. -/

/-- What the workspace holds where the artifact should be. -/
inductive Artifact where
  | missing
  /-- `read_text` raises an `OSError`. -/
  | unreadable (error : String)
  | content (bytes : ByteArray)

section
variable (lone : Nat → Char) (floatRepr : String → String) (depth : Nat)

/-- How `trusted_observation` finds it; `depth` is the number of containers inside each other at
which the decoder reaches the recursion limit. The newlines that reading a text file translates are
blanks to the decoder either way. -/
def Artifact.file : Artifact → ArtifactFile
  | missing => .missing
  | unreadable e => .unreadable e
  | content bytes =>
    match String.fromUTF8? bytes with
    | none => .undecodable "UnicodeDecodeError"
    | some text =>
      match Json.decode lone floatRepr depth text with
      | .ok value => .json value
      | .error (.beyond (.container _)) => .undecodable "RecursionError"
      | .error (.beyond (.atom _)) => .undecodable "ValueError"
      | .error (.error _) => .invalidJson "JSONDecodeError"

/-- The bytes are UTF-8, and up to the end of the text or its first error of syntax no integer has
too many digits and no container is nested too deeply. -/
def Artifact.WithinLimits : Artifact → Prop
  | missing | unreadable _ => True
  | content bytes => ∃ text, String.fromUTF8? bytes = some text ∧
      ∀ mark ∈ Json.marks lone floatRepr text, mark.within depth = true

/-- The bytes are within the limits where reading them ends in none of the errors that neither
`OSError` nor `JSONDecodeError` covers. -/
theorem Artifact.withinLimits_iff (a : Artifact) :
    a.WithinLimits lone floatRepr depth ↔ ∀ e, a.file lone floatRepr depth ≠ .undecodable e := by
  cases a with
  | missing => simp [WithinLimits, Artifact.file]
  | unreadable e => simp [WithinLimits, Artifact.file]
  | content bytes =>
    rw [WithinLimits, Artifact.file]
    cases String.fromUTF8? bytes with
    | none => simp
    | some text =>
      have hbeyond := @Json.decode_beyond_iff lone floatRepr depth text
      have hmarks : (∀ mark ∈ Json.marks lone floatRepr text, mark.within depth = true) ↔
          ¬ ∃ mark, Json.decode lone floatRepr depth text = .error (.beyond mark) := by
        rw [hbeyond]
        simp only [not_exists, not_and, Bool.not_eq_false]
      simp only [Option.some.injEq, exists_eq_left', hmarks]
      cases Json.decode lone floatRepr depth text with
      | ok value => simp
      | error stop =>
        cases stop with
        | error x => simp
        | beyond mark => cases mark <;> simp

end

/-- The promise: the artifact gives an observation that is valid and is of this repository and commit,
or it is refused with a reason; so a run that has a trigger and a configuration publishes a check. -/
def AnswersArtifact (file : ArtifactFile) : Prop :=
  (∀ path repository headSha,
    (∃ o, trustedObservation file path repository headSha = .ok o ∧ validateObservation o.asDict = .ok o ∧
      o.subject.repository = repository ∧ o.subject.headSha = lower headSha) ∨
    ∃ reason, trustedObservation file path repository headSha = .error (.untrusted reason)) ∧
  ∀ environ event configFile today trigger config,
    publisherTrigger environ ⟨event, configFile, file, today⟩ = .ok trigger →
    loadEffectiveConfig configFile trigger.1 today = .ok config →
      ∃ check, Publication.check check ∈ (publisherMain environ ⟨event, configFile, file, today⟩).published

/-- Reading ends in another exception exactly on an artifact that was not decoded. -/
theorem trustedObservation_other_iff {file : ArtifactFile} {path repository headSha e : String} :
    trustedObservation file path repository headSha = .error (.other e) ↔ file = .undecodable e := by
  cases file with
  | missing | unreadable x | invalidJson x => simp [trustedObservation]
  | undecodable x => simp [trustedObservation]
  | json value =>
    cases value with
    | obj raw =>
      simp only [trustedObservation, reduceCtorEq, iff_false]
      cases validateObservation raw with
      | error x => simp
      | ok o =>
        dsimp only
        split_ifs <;> simp
    | null | bool b | int n | float r | str s | arr items => simp [trustedObservation]

theorem trusted_or_refused {file : ArtifactFile} (hfile : ∀ e, file ≠ .undecodable e)
    (path repository headSha : String) :
    (∃ o, trustedObservation file path repository headSha = .ok o ∧ validateObservation o.asDict = .ok o ∧
      o.subject.repository = repository ∧ o.subject.headSha = lower headSha) ∨
    ∃ reason, trustedObservation file path repository headSha = .error (.untrusted reason) := by
  cases htrusted : trustedObservation file path repository headSha with
  | ok o =>
    obtain ⟨raw, -, hvalid, hrepository, hsha⟩ := trustedObservation_eq_ok_iff.mp htrusted
    exact .inl ⟨o, rfl, validateObservation_asDict hvalid, hrepository, hsha⟩
  | error x =>
    cases x with
    | untrusted reason => exact .inr ⟨reason, rfl⟩
    | other e => exact absurd (trustedObservation_other_iff.mp htrusted) (hfile e)

/-- A run that reads the artifact publishes a check, unless the exception ends it. -/
theorem published_check {environ : Environ} {job : PublisherJob}
    {trigger : String × String × List (String × Json)} {config : RepositoryConfig × Option String}
    (htrigger : publisherTrigger environ job = .ok trigger)
    (hload : loadEffectiveConfig job.configFile trigger.1 job.today = .ok config)
    (hfile : ∀ e, job.artifact ≠ .undecodable e) :
    ∃ check, Publication.check check ∈ (publisherMain environ job).published := by
  obtain ⟨repository, headSha, run⟩ := trigger
  obtain ⟨config, configError⟩ := config
  have hpublished := published_of_trigger htrigger hload
  cases htrusted : trustedObservation job.artifact (resultPath environ) repository headSha with
  | ok o =>
    rw [htrusted] at hpublished
    obtain ⟨check, -, -, hpublished⟩ := hpublished
    rw [hpublished]
    exact ⟨check, List.mem_cons_self⟩
  | error x =>
    cases x with
    | untrusted reason =>
      rw [htrusted] at hpublished
      rw [hpublished]
      unfold publishUntrustedEvaluation
      exact ⟨_, List.mem_cons_self⟩
    | other e => exact absurd (trustedObservation_other_iff.mp htrusted) (hfile e)

/-- The publisher answers an artifact exactly where its bytes are within the limits of the decoder. -/
theorem answers_artifact_iff (lone : Nat → Char) (floatRepr : String → String) (depth : Nat) (a : Artifact) :
    AnswersArtifact (a.file lone floatRepr depth) ↔ a.WithinLimits lone floatRepr depth := by
  rw [Artifact.withinLimits_iff]
  constructor
  · rintro ⟨hanswer, -⟩ e he
    have hother : trustedObservation (a.file lone floatRepr depth) "" "" "" = .error (.other e) :=
      trustedObservation_other_iff.mpr he
    rcases hanswer "" "" "" with ⟨o, ho, -⟩ | ⟨reason, hreason⟩
    · rw [hother] at ho
      cases ho
    · rw [hother] at hreason
      cases hreason
  · intro hfile
    exact ⟨trusted_or_refused hfile, fun environ event configFile today trigger config htrigger hload =>
      published_check htrigger hload hfile⟩

/-- A run whose artifact was not decoded publishes nothing. -/
theorem undecodable_silences {environ : Environ} {job : PublisherJob} {e : String}
    (hfile : job.artifact = .undecodable e) : (publisherMain environ job).published = [] := by
  unfold publisherMain
  cases publisherTrigger environ job with
  | error x => rfl
  | ok trigger =>
    obtain ⟨repository, headSha, run⟩ := trigger
    dsimp only
    cases loadEffectiveConfig job.configFile repository job.today with
    | error x => rfl
    | ok config =>
      rw [hfile]
      rfl

/-- A single byte that is no UTF-8 is not answered, and takes the check of every run with it. -/
theorem stray_byte_unanswered :
    ¬ AnswersArtifact ((Artifact.content ⟨#[0xff]⟩).file (fun _ => '?') id 1000) ∧
      ∀ environ event configFile today, (publisherMain environ ⟨event, configFile,
        (Artifact.content ⟨#[0xff]⟩).file (fun _ => '?') id 1000, today⟩).published = [] := by
  have hfile : (Artifact.content ⟨#[0xff]⟩).file (fun _ => '?') id 1000 =
      .undecodable "UnicodeDecodeError" := rfl
  rw [hfile]
  constructor
  · rintro ⟨hanswer, -⟩
    rcases hanswer "" "" "" with ⟨o, ho, -⟩ | ⟨reason, hreason⟩
    · cases ho
    · cases hreason
  · intro environ event configFile today
    exact undecodable_silences rfl

end EngineeringIntelligence.PrGuardian
