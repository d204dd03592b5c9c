import EngineeringIntelligence.Framework.Joined
import EngineeringIntelligence.Framework.Sorted
import EngineeringIntelligence.Ingestion.Models
import Mathlib.Data.String.Basic

namespace EngineeringIntelligence.Ingestion.Checkout

open EngineeringIntelligence.Framework

/-! Event ids of a checkout: what two files have in common when their ids are one. -/

/-- A file of a checkout, as `_event_id` takes it. -/
structure CheckoutFile where
  repository : String
  branch : String
  relativePath : String
  content : String
  acl : ACL

namespace CheckoutFile

/-- The readers, as they are listed for the digest. -/
def readers (f : CheckoutFile) : List String := sortedBy id f.acl.groups ++ sortedBy id f.acl.users

def fields (f : CheckoutFile) : List String :=
  [f.repository, f.branch, f.relativePath, f.content] ++ f.readers

def address (f : CheckoutFile) : String := f.repository ++ ":" ++ f.branch ++ ":" ++ f.relativePath

end CheckoutFile

/-- `_event_id`. -/
def eventId (sha256 : String → String) (f : CheckoutFile) : String :=
  "checkout:" ++ f.address ++ ":" ++ sha256 ("|".intercalate f.fields)

/-- One file, with one content and the same readers. -/
structure SameFile (f g : CheckoutFile) : Prop where
  repository : f.repository = g.repository
  branch : f.branch = g.branch
  relativePath : f.relativePath = g.relativePath
  content : f.content = g.content
  groups : f.acl.groups.Perm g.acl.groups
  users : f.acl.users.Perm g.acl.users

/-- The fields, cut at every bar inside them. -/
def pieces (f : CheckoutFile) : List (List Char) :=
  f.fields.flatMap fun field => field.toList.splitOn '|'

/-- Different files whose fields are cut into the same pieces: a bar inside of a field of one is a
border of two fields of the other, or a group of one is a user of the other. -/
def Regrouped (f g : CheckoutFile) : Prop :=
  ¬ SameFile f g ∧ f.address = g.address ∧ pieces f = pieces g

/-- No field has a bar. -/
def Plain (f : CheckoutFile) : Prop := ∀ field ∈ f.fields, '|' ∉ field.toList

variable {f g : CheckoutFile}

theorem joined_fields (f : CheckoutFile) :
    ("|".intercalate f.fields).toList = ['|'].intercalate (f.fields.map String.toList) := by
  rw [String.toList_intercalate]
  rfl

theorem pieces_eq (f : CheckoutFile) : pieces f = (f.fields.map String.toList).flatMap (List.splitOn '|') := by
  rw [pieces, List.flatMap_map]

section
variable {sha256 : String → String}

/-- Two files have one id exactly if their addresses are one text and their fields have the same pieces. -/
theorem eventId_eq_iff (hsha : Function.Injective sha256) (hhex : ∀ text, ':' ∉ (sha256 text).toList) :
    eventId sha256 f = eventId sha256 g ↔ f.address = g.address ∧ pieces f = pieces g := by
  have hne : ∀ f : CheckoutFile, f.fields.map String.toList ≠ [] := fun f => by simp [CheckoutFile.fields]
  have hjoined : "|".intercalate f.fields = "|".intercalate g.fields ↔ pieces f = pieces g := by
    rw [← String.toList_inj, joined_fields, joined_fields, pieces_eq, pieces_eq]
    exact joined_eq_iff (hne f) (hne g)
  have htext : ∀ f : CheckoutFile, (eventId sha256 f).toList =
      "checkout:".toList ++ (f.address.toList ++ ':' :: (sha256 ("|".intercalate f.fields)).toList) := by
    intro f
    simp [eventId]
  rw [← hjoined, ← String.toList_inj, htext, htext, List.append_cancel_left_eq]
  constructor
  · intro h
    obtain ⟨haddress, hdigest⟩ := last_field_inj (hhex _) (hhex _) h
    exact ⟨String.toList_inj.mp haddress, hsha (String.toList_inj.mp hdigest)⟩
  · rintro ⟨haddress, hfields⟩
    rw [haddress, hfields]

end

/-! ### Fields without a bar -/

theorem plain_pieces (h : Plain f) : pieces f = f.fields.map String.toList := by
  have hfield : ∀ field ∈ f.fields, field.toList.splitOn '|' = [field.toList] :=
    fun field hfield => List.splitOn_eq_singleton (h field hfield)
  rw [pieces, List.flatMap_congr hfield, List.map_eq_flatMap]

/-- Lists of readers that follow each other alike are the same once there are as many groups. -/
theorem readers_perm (h : f.readers = g.readers) (hlength : f.acl.groups.length = g.acl.groups.length) :
    f.acl.groups.Perm g.acl.groups ∧ f.acl.users.Perm g.acl.users := by
  have hsorted : (sortedBy id f.acl.groups).length = (sortedBy id g.acl.groups).length := by
    rw [(perm_sortedBy id _).length_eq, (perm_sortedBy id _).length_eq, hlength]
  obtain ⟨hgroups, husers⟩ := List.append_inj h hsorted
  have perm : ∀ {xs ys : List String}, sortedBy id xs = sortedBy id ys → xs.Perm ys := by
    intro xs ys heq
    exact (perm_sortedBy id xs).symm.trans (heq ▸ perm_sortedBy id ys)
  exact ⟨perm hgroups, perm husers⟩

theorem plain_regrouped_iff (hf : Plain f) (hg : Plain g) : Regrouped f g ↔
    f.repository = g.repository ∧ f.branch = g.branch ∧ f.relativePath = g.relativePath ∧
      f.content = g.content ∧ f.readers = g.readers ∧ f.acl.groups.length ≠ g.acl.groups.length := by
  have hpieces : pieces f = pieces g ↔ f.fields = g.fields := by
    rw [plain_pieces hf, plain_pieces hg]
    exact (List.map_injective_iff.mpr fun _ _ => String.toList_inj.mp).eq_iff
  have hfields : f.fields = g.fields ↔ f.repository = g.repository ∧ f.branch = g.branch ∧
      f.relativePath = g.relativePath ∧ f.content = g.content ∧ f.readers = g.readers := by
    simp [CheckoutFile.fields]
  rw [Regrouped, hpieces, hfields]
  constructor
  · rintro ⟨hdiffer, -, hrepository, hbranch, hpath, hcontent, hreaders⟩
    refine ⟨hrepository, hbranch, hpath, hcontent, hreaders, fun hlength => hdiffer ?_⟩
    obtain ⟨hgroups, husers⟩ := readers_perm hreaders hlength
    exact ⟨hrepository, hbranch, hpath, hcontent, hgroups, husers⟩
  · rintro ⟨hrepository, hbranch, hpath, hcontent, hreaders, hlength⟩
    refine ⟨fun hsame => hlength hsame.groups.length_eq, ?_, hrepository, hbranch, hpath, hcontent, hreaders⟩
    rw [CheckoutFile.address, CheckoutFile.address, hrepository, hbranch, hpath]

/-- The ids of two files tell them apart exactly if the files are not one regrouped as the other. Of
files without a bar that is a different number of groups among the same readers in the same order. -/
theorem ids_tell_apart_iff {sha256 : String → String} (hsha : Function.Injective sha256)
    (hhex : ∀ text, ':' ∉ (sha256 text).toList) (f g : CheckoutFile) :
    ((eventId sha256 f = eventId sha256 g → SameFile f g) ↔ ¬ Regrouped f g) ∧
    (Plain f → Plain g → (Regrouped f g ↔
      f.repository = g.repository ∧ f.branch = g.branch ∧ f.relativePath = g.relativePath ∧
        f.content = g.content ∧ f.readers = g.readers ∧ f.acl.groups.length ≠ g.acl.groups.length)) := by
  refine ⟨?_, plain_regrouped_iff⟩
  rw [eventId_eq_iff hsha hhex, Regrouped]
  tauto

/-- A file that one group may read. -/
def groupFile : CheckoutFile := ⟨"payments", "main", "app.py", "x = 1", ⟨["oncall"], []⟩⟩

/-- The same file, with the identity moved to the users. -/
def userFile : CheckoutFile := { groupFile with acl := ⟨[], ["oncall"]⟩ }

theorem edited_tells_apart :
    Function.Injective spell ∧ (∀ text, ':' ∉ (spell text).toList) ∧
      (eventId spell groupFile = eventId spell { groupFile with content := "x = 2" } →
        SameFile groupFile { groupFile with content := "x = 2" }) := by
  have hhex : ∀ text, ':' ∉ (spell text).toList := by
    intro text hmem
    simp only [spell, String.toList_ofList, List.mem_cons, List.mem_flatMap, List.mem_append,
      List.mem_replicate, List.mem_nil_iff, or_false] at hmem
    rcases hmem with h | ⟨d, -, ⟨-, h⟩ | h⟩
    · exact absurd h (by decide)
    · exact absurd h (by decide)
    · exact absurd h (by decide)
  refine ⟨spell_injective, hhex, (ids_tell_apart_iff spell_injective hhex _ _).1.mpr ?_⟩
  rintro ⟨-, -, hpieces⟩
  exact absurd hpieces (by decide)

/-- An identity that is moved from the groups to the users keeps the id, whatever the digest. -/
theorem moved_reader_keeps_id :
    (∀ sha256, eventId sha256 groupFile = eventId sha256 userFile) ∧ ¬ SameFile groupFile userFile := by
  refine ⟨fun _ => rfl, fun h => ?_⟩
  exact absurd h.groups.length_eq (by decide)

end EngineeringIntelligence.Ingestion.Checkout
