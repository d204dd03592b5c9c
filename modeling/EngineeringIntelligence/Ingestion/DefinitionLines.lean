import EngineeringIntelligence.Framework.Joined
import EngineeringIntelligence.Framework.SourceLines
import EngineeringIntelligence.Ingestion.Chunkers

namespace EngineeringIntelligence.Ingestion

open EngineeringIntelligence.Framework

/-! The lines of a definition: those its chunk holds, and those the parser counted. -/

/-! ### What the parser counted -/

def Statement.lastLine (s : Statement) : Nat := s.endLineno.getD s.lineno

section
variable (content : String) (s : Statement)

def linesBefore : List (List Char) := (sourceLineChars [] content.toList).take (s.lineno - 1)

def ownLines : List (List Char) :=
  ((sourceLineChars [] content.toList).drop (s.lineno - 1)).take (s.lastLine - (s.lineno - 1))

/-- The source lines of a definition, without the white space around them. -/
def sourceText : String :=
  strip ("\n".intercalate (((sourceLines content).drop (s.lineno - 1)).take (s.lastLine - (s.lineno - 1))))

/-- A definition stands on lines of the text, and its last line is not blank. -/
structure Located : Prop where
  first : 1 ≤ s.lineno
  order : s.lineno ≤ s.lastLine
  last : ∃ line, (sourceLineChars [] content.toList)[s.lastLine - 1]? = some line ∧ ¬ Blank line

/-- No line break that only `splitlines` knows stands before a definition, nor inside of it before
its last character that is no white space. -/
def Counted : Prop :=
  (∀ x ∈ (linesBefore content s).flatten, isExtraBreak x = false) ∧ Unbroken (ownLines content s).flatten

/-- Such line breaks stand before a definition, and as many lines further up read as the definition does. -/
def Echoed : Prop :=
  (∃ x ∈ (linesBefore content s).flatten, isExtraBreak x = true) ∧
    reading ((((sourceLineChars [] content.toList).flatMap lineParts).drop (s.lineno - 1)).take
      (s.lastLine - (s.lineno - 1))) = reading (ownLines content s)

end

/-- One chunk for each definition, in order, with the source lines of the definition. -/
def FaithfulChunks (l : ChunkLibrary) (change : FileChange) (body : List Statement) : Prop :=
  pythonChunks l change = .ok ((body.filter (·.isDefinition)).mapIdx fun ordinal s =>
    change.chunk l ordinal (some s.name) (some "python") (sourceText (change.content.getD "") s))

/-! ### One definition -/

theorem strip_joined (lines : List (List Char)) :
    strip ("\n".intercalate (lines.map String.ofList)) = String.ofList (reading lines) := by
  apply String.toList_inj.mp
  have hlines : (lines.map String.ofList).map String.toList = lines := by simp
  rw [toList_strip, String.toList_intercalate, hlines, String.toList_ofList, String.toList_ofList]
  rfl

theorem exists_last_ink {line : List Char} (h : ¬ Blank line) :
    ∃ u c v, line = u ++ c :: v ∧ isPythonSpace c = false ∧ Blank v := by
  induction line using List.reverseRecOn with
  | nil => exact absurd (fun c hc => absurd hc List.not_mem_nil) h
  | append_singleton line x ih =>
    by_cases hx : isPythonSpace x = true
    · have hline : ¬ Blank line := by
        intro hblank
        refine h fun c hc => ?_
        rcases List.mem_append.mp hc with hc | hc
        · exact hblank c hc
        · exact List.mem_singleton.mp hc ▸ hx
      obtain ⟨u, c, v, rfl, hc, hv⟩ := ih hline
      refine ⟨u, c, v ++ [x], by simp, hc, fun d hd => ?_⟩
      rcases List.mem_append.mp hd with hd | hd
      · exact hv d hd
      · exact List.mem_singleton.mp hd ▸ hx
    · exact ⟨line, x, [], rfl, by simpa using hx, fun d hd => absurd hd List.not_mem_nil⟩

variable {content : String} {s : Statement}

theorem sourceText_eq : sourceText content s = String.ofList (reading (ownLines content s)) := by
  rw [sourceText, sourceLines, ← List.map_drop, ← List.map_take, strip_joined]
  rfl

theorem text_eq : s.text (splitLines content) = String.ofList
    (reading ((((sourceLineChars [] content.toList).flatMap lineParts).drop (s.lineno - 1)).take
      (s.lastLine - (s.lineno - 1)))) := by
  obtain ⟨tail, htail, hparts⟩ := lineChars_parts content.toList (show lineParts [] = [] ++ [[]] from rfl)
  rw [Statement.text, splitLines, ← List.map_drop, ← List.map_take, strip_joined, hparts, List.nil_append,
    reading_window _ htail]
  rfl

/-- The lines of a located definition end in one that holds its last ink. -/
theorem Located.own (h : Located content s) : ∃ lines u c v, ownLines content s = lines ++ [u ++ c :: v] ∧
    s.lastLine - (s.lineno - 1) = lines.length + 1 ∧ isPythonSpace c = false ∧ Blank v := by
  obtain ⟨line, hline, hink⟩ := h.last
  obtain ⟨u, c, v, rfl, hc, hv⟩ := exists_last_ink hink
  have hfirst := h.first
  have horder := h.order
  obtain ⟨hlast, hget⟩ := List.getElem?_eq_some_iff.mp hline
  obtain ⟨n, hn⟩ : ∃ n, s.lastLine - (s.lineno - 1) = n + 1 := ⟨s.lastLine - s.lineno, by omega⟩
  have hindex : s.lineno - 1 + n = s.lastLine - 1 := by omega
  refine ⟨((sourceLineChars [] content.toList).drop (s.lineno - 1)).take n, u, c, v, ?_, ?_, hc, hv⟩
  · rw [ownLines, hn, List.take_add_one, List.getElem?_drop, hindex, hline]
    rfl
  · rw [hn, List.length_take, List.length_drop]
    omega

theorem text_eq_iff (h : Located content s) :
    s.text (splitLines content) = sourceText content s ↔ Counted content s ∨ Echoed content s := by
  rw [text_eq, sourceText_eq, String.ofList_inj]
  by_cases hextra : ∃ x ∈ (linesBefore content s).flatten, isExtraBreak x = true
  · have hshifted : ¬ Counted content s := by
      rintro ⟨hnone, -⟩
      obtain ⟨x, hx, hbreak⟩ := hextra
      rw [hnone x hx] at hbreak
      cases hbreak
    simp only [hshifted, false_or, Echoed, hextra, true_and]
  · have hnone : ∀ x ∈ (linesBefore content s).flatten, isExtraBreak x = false := by
      intro x hx
      by_contra hbreak
      exact hextra ⟨x, hx, by simpa using hbreak⟩
    obtain ⟨lines, u, c, v, hown, hcount, hc, hv⟩ := h.own
    obtain ⟨line, hline, -⟩ := h.last
    have hfirst := h.first
    have horder := h.order
    have hlast := (List.getElem?_eq_some_iff.mp hline).1
    have hbefore : (linesBefore content s).length = s.lineno - 1 := by
      rw [linesBefore, List.length_take]
      omega
    have hsplit : sourceLineChars [] content.toList = linesBefore content s ++ (ownLines content s ++
        ((sourceLineChars [] content.toList).drop (s.lineno - 1)).drop (s.lastLine - (s.lineno - 1))) := by
      rw [linesBefore, ownLines, List.take_append_drop, List.take_append_drop]
    have hwindow : ((sourceLineChars [] content.toList).flatMap lineParts).drop (s.lineno - 1) =
        (ownLines content s).flatMap lineParts ++
          (((sourceLineChars [] content.toList).drop (s.lineno - 1)).drop
            (s.lastLine - (s.lineno - 1))).flatMap lineParts := by
      conv_lhs => rw [hsplit]
      rw [List.flatMap_append, List.flatMap_append, flatMap_lineParts_plain hnone, ← hbefore, List.drop_left]
    rw [hwindow, hown, hcount, reading_parts_iff _ _ hc hv, ← hown]
    simp only [Counted, Echoed, hextra, false_and, or_false]
    exact (and_iff_right hnone).symm

/-- The source text of a located definition is not empty. -/
theorem Located.sourceText_ne (h : Located content s) : sourceText content s ≠ "" := by
  obtain ⟨lines, u, c, v, hown, -, hc, -⟩ := h.own
  intro hempty
  rw [sourceText_eq] at hempty
  have hreading : reading (ownLines content s) = [] := String.ofList_inj.mp hempty
  have hink := inked_reading (ownLines content s)
  have hmem : c ∈ (ownLines content s).flatten.filter (!isPythonSpace ·) := by
    rw [hown]
    simp [hc]
  rw [← hink, hreading] at hmem
  exact absurd hmem List.not_mem_nil

/-! ### All definitions -/

variable {l : ChunkLibrary} {change : FileChange} {body : List Statement}

theorem chunk_inj {ordinal : Nat} {symbol language : Option String} {text text' : String}
    (h : change.chunk l ordinal symbol language text = change.chunk l ordinal symbol language text') :
    text = text' := congrArg Chunk.content h

/-- The chunks of a source are its definitions' lines exactly if the two counts of lines agree on every
definition, or what is read instead is the same. -/
theorem faithfulChunks_iff (hparse : l.parse (change.content.getD "") = .ok body)
    (hsome : ∃ s ∈ body, s.isDefinition = true)
    (hlocated : ∀ s ∈ body, s.isDefinition = true → Located (change.content.getD "") s) :
    FaithfulChunks l change body ↔ ∀ s ∈ body, s.isDefinition = true →
      Counted (change.content.getD "") s ∨ Echoed (change.content.getD "") s := by
  have hnodes : body.filter (·.isDefinition) ≠ [] := by
    obtain ⟨s, hs, hdefinition⟩ := hsome
    exact List.ne_nil_of_mem (List.mem_filter.mpr ⟨hs, hdefinition⟩)
  have hmap : ∀ (nodes : List Statement) (f : Nat → Statement → Chunk),
      nodes.mapIdx f = (nodes.mapIdx fun ordinal node => (ordinal, node)).map fun p => f p.1 p.2 := by
    intro nodes f
    apply List.ext_getElem?
    intro i
    simp [Function.comp_def]
  unfold FaithfulChunks pythonChunks
  simp only [hparse, ok_bind, if_neg hnodes]
  rw [hmap]
  change Except.ok _ = Except.ok _ ↔ _
  rw [Except.ok.injEq, List.filterMap_eq_map_iff_forall_eq_some]
  constructor
  · intro h s hs hdefinition
    obtain ⟨i, hi, hget⟩ := List.mem_iff_getElem.mp (List.mem_filter.mpr ⟨hs, hdefinition⟩)
    have hchunk := h (i, s) (List.mem_mapIdx.mpr ⟨i, hi, by rw [hget]⟩)
    refine (text_eq_iff (hlocated s hs hdefinition)).mp ?_
    simp only at hchunk
    split at hchunk
    · cases hchunk
    · exact chunk_inj (Option.some.inj hchunk)
  · rintro h ⟨i, s⟩ hmem
    obtain ⟨j, hj, hpair⟩ := List.mem_mapIdx.mp hmem
    obtain ⟨rfl, rfl⟩ := Prod.mk.inj hpair
    obtain ⟨hs, hdefinition⟩ := List.mem_filter.mp (List.getElem_mem hj)
    have hplace := hlocated _ hs hdefinition
    have htext := (text_eq_iff hplace).mpr (h _ hs hdefinition)
    simp only [htext, if_neg hplace.sourceText_ne]

/-- A change to a Python file. -/
def pythonChange (content : String) : FileChange :=
  { source := ⟨"git", "payments", "main", "1a2b", "app.py"⟩, changeType := .upsert, content := some content
    language := some "py", owner := none, service := none, acl := ⟨["repo:payments:read"], []⟩ }

theorem content_pythonChange (content : String) : (pythonChange content).content.getD "" = content := rfl

/-- What the parser gives for a source with one function, on some lines. -/
def oneFunction (lineno endLineno : Nat) : ChunkLibrary :=
  ⟨spell, fun _ => .ok [⟨.functionDef, "f", lineno, some endLineno⟩]⟩

/-- A form feed after the function is read as the end of a line, and nothing comes after it. -/
theorem form_feed_after_faithful :
    FaithfulChunks (oneFunction 1 2) (pythonChange "def f():\n    return 1\x0c\n")
      [⟨.functionDef, "f", 1, some 2⟩] := by
  have hlines : sourceLineChars [] "def f():\n    return 1\x0c\n".toList =
      ["def f():".toList, "    return 1\x0c".toList] := by decide
  refine (faithfulChunks_iff rfl ⟨_, List.mem_singleton_self _, rfl⟩ ?_).mpr ?_
  · intro s hs _
    obtain rfl := List.mem_singleton.mp hs
    have hlast : (sourceLineChars [] ((pythonChange "def f():\n    return 1\x0c\n").content.getD "").toList)[1]? =
        some "    return 1\x0c".toList := by
      rw [content_pythonChange, hlines]
      rfl
    exact ⟨by decide, by decide, _, hlast, fun hblank => absurd (hblank '1' (by decide)) (by decide)⟩
  · intro s hs _
    obtain rfl := List.mem_singleton.mp hs
    have hown : (ownLines "def f():\n    return 1\x0c\n" ⟨.functionDef, "f", 1, some 2⟩).flatten =
        "def f():    return ".toList ++ '1' :: ['\x0c'] := by
      rw [ownLines, hlines]
      decide
    refine .inl ⟨fun x hx => ?_, ?_⟩
    · exact absurd hx (by simp [linesBefore])
    · have hplain : ("def f():    return ".toList.all fun x => !isExtraBreak x) = true := by decide
      exact hown ▸ (unbroken_iff (by decide) (by simp [Blank, isPythonSpace, isUnicodeSpace])).mpr fun x hx => by
        simpa using List.all_eq_true.mp hplain x hx

/-- A form feed on a line of its own: the chunk starts one line too early and ends one too early. -/
theorem form_feed_before_truncates :
    pythonChunks (oneFunction 2 3) (pythonChange "\x0c\ndef f():\n    return 1\n") =
        .ok [(pythonChange "\x0c\ndef f():\n    return 1\n").chunk (oneFunction 2 3) 0 (some "f") (some "python")
          "def f():"] ∧
      ¬ FaithfulChunks (oneFunction 2 3) (pythonChange "\x0c\ndef f():\n    return 1\n")
        [⟨.functionDef, "f", 2, some 3⟩] := by
  have htext : (⟨.functionDef, "f", 2, some 3⟩ : Statement).text (splitLines "\x0c\ndef f():\n    return 1\n") =
      "def f():" := by decide
  have hsource : sourceText "\x0c\ndef f():\n    return 1\n" ⟨.functionDef, "f", 2, some 3⟩ =
      "def f():\n    return 1" := by decide
  have hchunks : pythonChunks (oneFunction 2 3) (pythonChange "\x0c\ndef f():\n    return 1\n") =
      .ok [(pythonChange "\x0c\ndef f():\n    return 1\n").chunk (oneFunction 2 3) 0 (some "f") (some "python")
        "def f():"] := by
    unfold pythonChunks
    simp [oneFunction, content_pythonChange, Statement.isDefinition, htext]
    rfl
  refine ⟨hchunks, fun hfaithful => ?_⟩
  unfold FaithfulChunks at hfaithful
  rw [hchunks] at hfaithful
  simp [content_pythonChange, Statement.isDefinition, hsource] at hfaithful
  exact absurd (chunk_inj hfaithful) (by decide)

end EngineeringIntelligence.Ingestion
