import EngineeringIntelligence.Framework.Blocks
import EngineeringIntelligence.Ingestion.Chunkers
import EngineeringIntelligence.Ingestion.KnowledgePipeline

namespace EngineeringIntelligence.Ingestion

open EngineeringIntelligence.Framework

/-! What the chunks of a text and of a document hold of it. -/

/-! ### `TextChunker` -/

/-- The size that the loop counts for the part it is filling. -/
def countedSize (buf : List String) : Nat := (buf.map fun block => block.length + 2).sum

theorem length_intercalate {buf : List String} (h : buf ≠ []) :
    ("\n\n".intercalate buf).length + 2 = countedSize buf := by
  induction buf with
  | nil => exact absurd rfl h
  | cons block buf ih =>
    cases buf with
    | nil => simp [countedSize]
    | cons next buf =>
      have hnext := ih (List.cons_ne_nil next buf)
      rw [String.intercalate_cons_cons, String.length_append, String.length_append,
        show countedSize (block :: next :: buf) = block.length + 2 + countedSize (next :: buf) from rfl, ← hnext,
        show "\n\n".length = 2 from rfl]
      omega

theorem countedSize_append (buf : List String) (block : String) :
    countedSize (buf ++ [block]) = countedSize buf + block.length + 2 := by
  simp only [countedSize, List.map_append, List.sum_append, List.map_cons, List.map_nil, List.sum_singleton]
  omega

/-- A part of several blocks fits. -/
def Fits (maxChars : Nat) (buf : List String) : Prop := 2 ≤ buf.length → countedSize buf ≤ maxChars

/-- Every part is some of the blocks, joined; the parts together are the blocks in their order. -/
theorem packBlocks_parts {maxChars : Nat} {buf : List String} (hfits : Fits maxChars buf) (blocks : List String) :
    ∃ groups : List (List String), packBlocks maxChars buf blocks (countedSize buf) =
        groups.map ("\n\n".intercalate ·) ∧
      groups.flatten = buf ++ blocks ∧ ∀ group ∈ groups, group ≠ [] ∧ Fits maxChars group := by
  induction blocks generalizing buf with
  | nil =>
    by_cases hnil : buf = []
    · exact ⟨[], by rw [packBlocks, if_pos hnil, List.map_nil], by simp [hnil], by simp⟩
    · refine ⟨[buf], by rw [packBlocks, if_neg hnil, List.map_singleton], by simp, ?_⟩
      simpa using ⟨hnil, hfits⟩
  | cons block blocks ih =>
    rw [packBlocks]
    split
    · next hfull =>
      have hone : Fits maxChars [block] := fun h => absurd h (by simp)
      obtain ⟨groups, hparts, hflat, hgroups⟩ := ih hone
      refine ⟨buf :: groups, ?_, by rw [List.flatten_cons, hflat]; rfl,
        List.forall_mem_cons.mpr ⟨⟨hfull.1, hfits⟩, hgroups⟩⟩
      rw [List.map_cons, ← hparts]
      simp [countedSize]
    · next hroom =>
      have hgrown : Fits maxChars (buf ++ [block]) := by
        intro htwo
        have hsome : buf ≠ [] := by
          rintro rfl
          simp at htwo
        rw [countedSize_append]
        by_contra hover
        exact hroom ⟨hsome, by omega⟩
      obtain ⟨groups, hparts, hflat, hgroups⟩ := ih hgrown
      refine ⟨groups, ?_, by rw [hflat, List.append_assoc]; rfl, hgroups⟩
      rw [← hparts, countedSize_append]

theorem textParts_groups (maxChars : Nat) (content : String) :
    ∃ groups : List (List String), textParts maxChars content = groups.map ("\n\n".intercalate ·) ∧
      groups.flatten = nonBlankBlocks content ∧
      ∀ group ∈ groups, group ≠ [] ∧ Fits maxChars group ∧ nonBlankBlocks ("\n\n".intercalate group) = group := by
  have hempty : Fits maxChars [] := fun h => absurd h (by simp)
  obtain ⟨groups, hparts, hflat, hgroups⟩ := packBlocks_parts hempty (nonBlankBlocks (strip content))
  rw [List.nil_append, nonBlankBlocks_strip] at hflat
  refine ⟨groups, hparts, hflat, ?_⟩
  intro group hgroup
  refine ⟨(hgroups group hgroup).1, (hgroups group hgroup).2, nonBlankBlocks_intercalate ?_⟩
  intro block hblock
  have hmem : block ∈ nonBlankBlocks content := by
    rw [← hflat]
    exact List.mem_flatten.mpr ⟨group, hgroup, hblock⟩
  exact solid_of_mem_nonBlankBlocks hmem

/-- The parts hold the text's blocks. -/
theorem flatMap_textParts (maxChars : Nat) (content : String) :
    (textParts maxChars content).flatMap nonBlankBlocks = nonBlankBlocks content := by
  obtain ⟨groups, hparts, hflat, hgroups⟩ := textParts_groups maxChars content
  rw [hparts, List.flatMap_map, ← hflat, List.flatten_eq_flatMap]
  exact List.flatMap_congr fun group hgroup => (hgroups group hgroup).2.2

theorem length_of_mem_textParts {maxChars : Nat} {content text : String} (h : text ∈ textParts maxChars content)
    (htwo : 2 ≤ (nonBlankBlocks text).length) : text.length ≤ maxChars := by
  obtain ⟨groups, hparts, -, hgroups⟩ := textParts_groups maxChars content
  rw [hparts] at h
  obtain ⟨group, hgroup, rfl⟩ := List.mem_map.mp h
  obtain ⟨hne, hfits, hblocks⟩ := hgroups group hgroup
  rw [hblocks] at htwo
  have hlength := length_intercalate hne
  have hsize := hfits htwo
  omega

theorem map_content_textChunks (l : ChunkLibrary) (maxChars : Nat) (change : FileChange) :
    (textChunks l maxChars change).map (·.content) = textParts maxChars (change.content.getD "") := by
  unfold textChunks
  split
  · next hblank =>
    rw [textParts, hblank]
    rfl
  · apply List.ext_getElem?
    intro i
    cases h : (textParts maxChars (change.content.getD ""))[i]? <;> simp [h, FileChange.chunk]

/-! ### `chunk_document` -/

/-- Cutting a body into sections loses newlines only. -/
theorem filter_splitSections (eating : Bool) (piece cs : List Char) :
    (splitSections eating piece cs).flatten.filter (!isPythonSpace ·) =
      (piece ++ cs).filter (!isPythonSpace ·) := by
  have hnewline : isPythonSpace '\n' = true := by decide
  induction cs generalizing eating piece with
  | nil => simp [splitSections]
  | cons c cs ih =>
    unfold splitSections
    split_ifs with hc heating hheading hdouble
    · rw [ih, List.filter_append, List.filter_append, hc, List.filter_cons_of_neg (by simp [hnewline])]
    · rw [List.flatten_cons, List.filter_append, ih, List.nil_append, List.filter_append, hc,
        List.filter_cons_of_neg (by simp [hnewline])]
    · rw [List.flatten_cons, List.filter_append, ih, List.nil_append, List.filter_append, hc,
        List.filter_cons_of_neg (by simp [hnewline])]
    · rw [ih, List.append_assoc, List.singleton_append]
    · rw [ih, List.append_assoc, List.singleton_append]

/-- The first pieces of `maxChars` characters. -/
theorem flatMap_slices (maxChars n : Nat) (cs : List Char) :
    ((List.range n).flatMap fun i => (cs.drop (i * maxChars)).take maxChars) = cs.take (n * maxChars) := by
  induction n with
  | zero => simp
  | succ n ih =>
    rw [List.range_succ, List.flatMap_append, ih, List.flatMap_singleton, Nat.succ_mul, List.take_add]

theorem inked_slices {maxChars : Nat} (h : 0 < maxChars) (text : String) :
    (slices maxChars text).flatMap inked = inked text := by
  have hcover : text.length ≤ (text.length + maxChars - 1) / maxChars * maxChars := by
    have hdiv := Nat.div_add_mod (text.length + maxChars - 1) maxChars
    have hmod := Nat.mod_lt (text.length + maxChars - 1) h
    rw [Nat.mul_comm] at hdiv
    omega
  rw [slices, List.flatMap_map]
  simp only [inked_strip]
  simp only [inked, String.toList_ofList]
  rw [← List.filter_flatMap, flatMap_slices, List.take_of_length_le (by rwa [String.length_toList])]

theorem length_of_mem_slices {maxChars : Nat} {text piece : String} (h : piece ∈ slices maxChars text) :
    piece.length ≤ maxChars := by
  obtain ⟨i, -, rfl⟩ := List.mem_map.mp h
  refine (length_strip_le _).trans ?_
  rw [String.length_ofList]
  exact List.length_take_le _ _

theorem flatMap_inked_filter (texts : List String) :
    (texts.filter (· ≠ "")).flatMap inked = texts.flatMap inked := by
  induction texts with
  | nil => rfl
  | cons text texts ih =>
    by_cases h : text = ""
    · rw [List.filter_cons_of_neg (by simp [h]), ih, List.flatMap_cons, h]
      rfl
    · rw [List.filter_cons_of_pos (by simp [h]), List.flatMap_cons, List.flatMap_cons, ih]

/-- The sections hold the inked characters of the body. -/
theorem inked_sections (body : String) :
    (((splitSections false [] body.toList).map fun s => strip (String.ofList s)).filter (· ≠ "")).flatMap inked =
      inked body := by
  rw [flatMap_inked_filter, List.flatMap_map]
  simp only [inked_strip]
  simp only [inked, String.toList_ofList]
  rw [← List.filter_flatMap, List.flatMap_id', filter_splitSections, List.nil_append]

theorem inked_bodyPieces {maxChars : Nat} (h : 0 < maxChars) (body : String) :
    (bodyPieces maxChars body).flatMap inked = inked body := by
  have hpiece : ∀ s : String, (if s.length ≤ maxChars then [s] else slices maxChars s).flatMap inked = inked s := by
    intro s
    split
    · rw [List.flatMap_singleton]
    · exact inked_slices h s
  rw [bodyPieces, flatMap_inked_filter, List.flatMap_assoc]
  simp only [hpiece]
  split
  · rw [List.flatMap_singleton]
  · exact inked_sections body

theorem length_of_mem_bodyPieces {maxChars : Nat} {body piece : String} (h : piece ∈ bodyPieces maxChars body) :
    piece.length ≤ maxChars := by
  obtain ⟨s, -, hs⟩ := List.mem_flatMap.mp (List.mem_filter.mp h).1
  split at hs
  · next hshort => exact (List.mem_singleton.mp hs) ▸ hshort
  · exact length_of_mem_slices hs

/-! ### Both together -/

/-- Chunking conserves content: the chunks of a file are its non-blank blocks, in order and once, and
those that combine several are within the limit; the chunks of a document are the inked characters of
its body, in order, each within the limit. -/
theorem chunks_conserve_content (l : ChunkLibrary) (sha256 : String → String) (change : FileChange)
    (d : DatedDocument) {maxChars : Nat} (h : 0 < maxChars) :
    (((textChunks l maxChars change).map (·.content)).flatMap nonBlankBlocks =
        nonBlankBlocks (change.content.getD "") ∧
      ∀ c ∈ textChunks l maxChars change, 2 ≤ (nonBlankBlocks c.content).length → c.content.length ≤ maxChars) ∧
    (((chunkDocument sha256 d maxChars).map (·.content)).flatMap inked = inked d.body ∧
      ∀ c ∈ chunkDocument sha256 d maxChars, c.content.length ≤ maxChars) := by
  refine ⟨⟨?_, ?_⟩, ?_, ?_⟩
  · rw [map_content_textChunks, flatMap_textParts]
  · intro c hc
    have hpart : c.content ∈ textParts maxChars (change.content.getD "") := by
      rw [← map_content_textChunks l]
      exact List.mem_map_of_mem hc
    exact length_of_mem_textParts hpart
  · rw [chunkDocument_content, inked_bodyPieces h]
  · intro c hc
    have hpiece : c.content ∈ bodyPieces maxChars d.body := by
      rw [← chunkDocument_content sha256 d]
      exact List.mem_map_of_mem hc
    exact length_of_mem_bodyPieces hpiece

/-- Three blocks, the last one over the limit. -/
def releaseNote : FileChange where
  source := ⟨"github", "acme/shop", "main", "c1", "NOTE.txt"⟩
  changeType := .upsert
  content := some "\n\n\nOne\n\n Two \n\n\nThree four"
  language := none
  owner := none
  service := none
  acl := ⟨[], []⟩

theorem note_conserved :
    (((textChunks ⟨id, fun _ => .ok []⟩ 8 releaseNote).map (·.content)).flatMap nonBlankBlocks =
        nonBlankBlocks (releaseNote.content.getD "") ∧
      ∀ c ∈ textChunks ⟨id, fun _ => .ok []⟩ 8 releaseNote,
        2 ≤ (nonBlankBlocks c.content).length → c.content.length ≤ 8) ∧
    (((chunkDocument id (runbookFor []) 8).map (·.content)).flatMap inked = inked (runbookFor []).body ∧
      ∀ c ∈ chunkDocument id (runbookFor []) 8, c.content.length ≤ 8) :=
  chunks_conserve_content ⟨id, fun _ => .ok []⟩ id releaseNote (runbookFor []) (by decide)

example : textParts 8 "\n\n\nOne\n\n Two \n\n\nThree four" = ["One", "Two", "Three four"] := by decide

end EngineeringIntelligence.Ingestion
