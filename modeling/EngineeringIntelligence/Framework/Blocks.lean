import Mathlib.Data.List.Chain
import Mathlib.Data.List.TakeWhile
import EngineeringIntelligence.Framework.Text

namespace EngineeringIntelligence.Framework

/-! What is kept of a text that is cut into blocks, trimmed and joined again. -/

/-- The trimmed blocks of a text, without the blank ones. -/
def nonBlankBlocks (text : String) : List String := ((splitBlocks text).map strip).filter (· ≠ "")

/-- The characters of a text that are not white space. -/
def inked (text : String) : List Char := text.toList.filter (!isPythonSpace ·)

/-- `strip` on characters. -/
def trimmed (cs : List Char) : List Char :=
  ((cs.dropWhile isPythonSpace).reverse.dropWhile isPythonSpace).reverse

/-- Nothing but white space. -/
def Blank (cs : List Char) : Prop := ∀ c ∈ cs, isPythonSpace c = true

theorem strip_ofList (cs : List Char) : strip (String.ofList cs) = String.ofList (trimmed cs) := by
  rw [strip, trimBy, String.toList_ofList]
  rfl

theorem toList_strip (s : String) : (strip s).toList = trimmed s.toList := by
  rw [strip, trimBy, String.toList_ofList]
  rfl

/-! ### Trimming -/

theorem trimmed_blank_append {w : List Char} (h : Blank w) (cs : List Char) :
    trimmed (w ++ cs) = trimmed cs := by
  rw [trimmed, List.dropWhile_append_of_pos h]
  rfl

theorem trimmed_of_blank {w : List Char} (h : Blank w) : trimmed w = [] := by
  have hdrop := trimmed_blank_append h []
  rwa [List.append_nil] at hdrop

theorem dropWhile_append_of_not_blank {cs : List Char} (h : ¬ Blank cs) (w : List Char) :
    (cs ++ w).dropWhile isPythonSpace = cs.dropWhile isPythonSpace ++ w := by
  induction cs with
  | nil => exact absurd (fun _ hc => absurd hc List.not_mem_nil) h
  | cons c cs ih =>
    by_cases hc : isPythonSpace c = true
    · have hrest : ¬ Blank cs := fun hblank => h (List.forall_mem_cons.mpr ⟨hc, hblank⟩)
      rw [List.cons_append, List.dropWhile_cons_of_pos hc, List.dropWhile_cons_of_pos hc, ih hrest]
    · rw [List.cons_append, List.dropWhile_cons_of_neg hc, List.dropWhile_cons_of_neg hc, List.cons_append]

theorem trimmed_append_blank {w : List Char} (h : Blank w) (cs : List Char) :
    trimmed (cs ++ w) = trimmed cs := by
  by_cases hcs : Blank cs
  · have hboth : Blank (cs ++ w) := fun c hc => (List.mem_append.mp hc).elim (hcs c) (h c)
    rw [trimmed_of_blank hboth, trimmed_of_blank hcs]
  · have hback : ∀ c ∈ w.reverse, isPythonSpace c = true := fun c hc => h c (List.mem_reverse.mp hc)
    rw [trimmed, dropWhile_append_of_not_blank hcs, List.reverse_append, List.dropWhile_append_of_pos hback]
    rfl

/-- A text is its trimmed part between two blank ones. -/
theorem exists_trimmed (cs : List Char) :
    ∃ front back, Blank front ∧ Blank back ∧ cs = front ++ trimmed cs ++ back := by
  have hback := List.takeWhile_append_dropWhile (p := isPythonSpace)
    (l := (cs.dropWhile isPythonSpace).reverse)
  refine ⟨cs.takeWhile isPythonSpace, ((cs.dropWhile isPythonSpace).reverse.takeWhile isPythonSpace).reverse,
    fun c hc => List.mem_takeWhile_imp hc, fun c hc => List.mem_takeWhile_imp (List.mem_reverse.mp hc), ?_⟩
  have hrest : cs.dropWhile isPythonSpace = trimmed cs ++
      ((cs.dropWhile isPythonSpace).reverse.takeWhile isPythonSpace).reverse := by
    rw [trimmed, ← List.reverse_append, hback, List.reverse_reverse]
  rw [List.append_assoc, ← hrest, List.takeWhile_append_dropWhile]

theorem not_blank_head_trimmed {cs : List Char} {c : Char} (h : c ∈ (trimmed cs).head?) :
    isPythonSpace c = false :=
  ((stripped_iff (strip (String.ofList cs))).mp ⟨_, rfl⟩).1 c (by rwa [strip_ofList, String.toList_ofList])

theorem not_blank_last_trimmed {cs : List Char} {c : Char} (h : c ∈ (trimmed cs).getLast?) :
    isPythonSpace c = false :=
  ((stripped_iff (strip (String.ofList cs))).mp ⟨_, rfl⟩).2 c (by rwa [strip_ofList, String.toList_ofList])

theorem filter_blank {w : List Char} (h : Blank w) : w.filter (!isPythonSpace ·) = [] := by
  rw [List.filter_eq_nil_iff]
  intro c hc
  simp [h c hc]

theorem filter_trimmed (cs : List Char) :
    (trimmed cs).filter (!isPythonSpace ·) = cs.filter (!isPythonSpace ·) := by
  obtain ⟨front, back, hfront, hback, hcs⟩ := exists_trimmed cs
  conv_rhs => rw [hcs]
  rw [List.filter_append, List.filter_append, filter_blank hfront, filter_blank hback, List.nil_append,
    List.append_nil]

theorem inked_strip (s : String) : inked (strip s) = inked s := by
  rw [inked, toList_strip, filter_trimmed]
  rfl

theorem length_strip_le (s : String) : (strip s).length ≤ s.length := by
  obtain ⟨front, back, -, -, hs⟩ := exists_trimmed s.toList
  have hlength := congrArg List.length hs
  rw [List.length_append, List.length_append, ← toList_strip, String.length_toList, String.length_toList] at hlength
  omega

/-! ### Cutting at empty lines -/

/-- What has been read of the first block only goes in front of it. -/
theorem blockChars_eq (cs : List Char) :
    ∃ first rest, ∀ block, blockChars block cs = (block ++ first) :: rest := by
  have h : ∀ start : List Char, ∃ first rest, ∀ block, blockChars block cs = (block ++ first) :: rest := by
    intro start
    induction start, cs using blockChars.induct with
    | case1 => exact ⟨[], [], fun block => by rw [blockChars, List.append_nil]⟩
    | case2 start rest ih => exact ⟨[], blockChars [] rest, fun block => by rw [blockChars, List.append_nil]⟩
    | case3 start c cs hcut ih =>
      obtain ⟨first, rest, ih⟩ := ih
      refine ⟨c :: first, rest, fun block => ?_⟩
      rw [blockChars, ih, List.append_assoc, List.singleton_append]
      exact hcut
  exact h []

theorem blockChars_append (block cs : List Char) :
    ∃ first rest, blockChars [] cs = first :: rest ∧ blockChars block cs = (block ++ first) :: rest := by
  obtain ⟨first, rest, h⟩ := blockChars_eq cs
  exact ⟨first, rest, h [], h block⟩

/-- The characters of the blocks are characters of the text, in its order. -/
theorem flatten_blockChars (block cs : List Char) : (blockChars block cs).flatten.Sublist (block ++ cs) := by
  induction block, cs using blockChars.induct with
  | case1 block => simp [blockChars]
  | case2 block rest ih =>
    rw [blockChars, List.flatten_cons]
    exact (List.append_sublist_append_left block).mpr ((ih.cons '\n').cons '\n')
  | case3 block c cs hcut ih =>
    rw [blockChars]
    · simpa using ih
    · exact hcut

/-- The blocks of a text that are left after trimming. -/
def keptBlocks (blocks : List (List Char)) : List (List Char) := (blocks.map trimmed).filter (· ≠ [])

theorem keptBlocks_cons (block : List Char) (blocks : List (List Char)) :
    keptBlocks (block :: blocks) = keptBlocks [block] ++ keptBlocks blocks := by
  rw [keptBlocks, List.map_cons, ← List.singleton_append, List.filter_append]
  rfl

theorem keptBlocks_congr {block block' : List Char} (h : trimmed block = trimmed block') (blocks : List (List Char)) :
    keptBlocks (block :: blocks) = keptBlocks (block' :: blocks) := by
  rw [keptBlocks, keptBlocks, List.map_cons, List.map_cons, h]

theorem keptBlocks_blank {block : List Char} (h : Blank block) (blocks : List (List Char)) :
    keptBlocks (block :: blocks) = keptBlocks blocks := by
  rw [keptBlocks, List.map_cons, trimmed_of_blank h]
  rfl

theorem keptBlocks_start {block : List Char} (h : Blank block) (cs : List Char) :
    keptBlocks (blockChars block cs) = keptBlocks (blockChars [] cs) := by
  obtain ⟨first, rest, hnil, hblock⟩ := blockChars_append block cs
  rw [hnil, hblock]
  exact keptBlocks_congr (trimmed_blank_append h first) rest

/-- White space before a text adds no block and changes none. -/
theorem keptBlocks_blank_append {w cs : List Char} (hw : Blank w) (hcs : ∀ c ∈ cs.head?, isPythonSpace c = false) :
    keptBlocks (blockChars [] (w ++ cs)) = keptBlocks (blockChars [] cs) := by
  have h : ∀ block, Blank block → keptBlocks (blockChars block (w ++ cs)) = keptBlocks (blockChars [] cs) := by
    intro block hblock
    induction block, w using blockChars.induct with
    | case1 block => exact keptBlocks_start hblock cs
    | case2 block rest ih =>
      rw [List.cons_append, List.cons_append, blockChars, keptBlocks_blank hblock]
      exact ih (fun c hc => hw c (by simp [hc])) (fun c hc => absurd hc List.not_mem_nil)
    | case3 block c w hcut ih =>
      rw [Blank, List.forall_mem_cons] at hw
      have hnot : ¬ (c = '\n' ∧ (w ++ cs).head? = some '\n') := by
        rintro ⟨rfl, hnext⟩
        cases w with
        | nil => exact absurd (hcs '\n' hnext) (by decide)
        | cons d w =>
          obtain rfl := Option.some.inj hnext
          exact hcut w rfl rfl
      rw [List.cons_append, blockChars_cons hnot]
      refine ih hw.2 fun d hd => ?_
      rcases List.mem_append.mp hd with hd | hd
      · exact hblock d hd
      · exact (List.mem_singleton.mp hd) ▸ hw.1
  exact h [] fun c hc => absurd hc List.not_mem_nil

/-- White space after a text adds no block and changes none. -/
theorem keptBlocks_append_blank {w cs : List Char} (hw : Blank w) (hcs : ∀ c ∈ cs.getLast?, isPythonSpace c = false) :
    keptBlocks (blockChars [] (cs ++ w)) = keptBlocks (blockChars [] cs) := by
  have h : ∀ block, keptBlocks (blockChars block (cs ++ w)) = keptBlocks (blockChars block cs) := by
    intro block
    induction block, cs using blockChars.induct with
    | case1 block =>
      obtain ⟨first, rest, hnil, hblock⟩ := blockChars_append block w
      have hsub := flatten_blockChars [] w
      rw [hnil, List.flatten_cons, List.nil_append] at hsub
      have hfirst : Blank first := fun c hc => hw c (hsub.subset (List.mem_append_left _ hc))
      have hrest : keptBlocks rest = [] := by
        rw [keptBlocks, List.filter_eq_nil_iff]
        intro piece hpiece
        obtain ⟨cs, hcs, rfl⟩ := List.mem_map.mp hpiece
        have hblank : Blank cs := fun c hc =>
          hw c (hsub.subset (List.mem_append_right _ (List.mem_flatten.mpr ⟨cs, hcs, hc⟩)))
        simp [trimmed_of_blank hblank]
      rw [List.nil_append, hblock, keptBlocks_congr (trimmed_append_blank hfirst block), keptBlocks_cons, hrest,
        List.append_nil, blockChars]
    | case2 block rest ih =>
      have hlast : ∀ c ∈ rest.getLast?, isPythonSpace c = false := by
        intro c hc
        refine hcs c ?_
        cases rest with
        | nil => exact absurd hc (by simp)
        | cons d rest => simpa using hc
      rw [List.cons_append, List.cons_append, blockChars, blockChars, keptBlocks_cons, ih hlast, ← keptBlocks_cons]
    | case3 block c cs hcut ih =>
      have hnot : ¬ (c = '\n' ∧ (cs ++ w).head? = some '\n') := by
        rintro ⟨rfl, hnext⟩
        cases cs with
        | nil => exact absurd (hcs '\n' rfl) (by decide)
        | cons d cs =>
          obtain rfl := Option.some.inj hnext
          exact hcut cs rfl rfl
      have hhere : ¬ (c = '\n' ∧ cs.head? = some '\n') := by
        rintro ⟨rfl, hnext⟩
        refine hnot ⟨rfl, ?_⟩
        rw [List.head?_append, hnext]
        rfl
      have hlast : ∀ d ∈ cs.getLast?, isPythonSpace d = false := by
        intro d hd
        refine hcs d ?_
        cases cs with
        | nil => exact absurd hd (by simp)
        | cons e cs => simpa using hd
      rw [List.cons_append, blockChars_cons hnot, blockChars_cons hhere, ih hlast]
  exact h []

theorem nonBlankBlocks_eq (text : String) :
    nonBlankBlocks text = (keptBlocks (blockChars [] text.toList)).map String.ofList := by
  have hstrip : strip ∘ String.ofList = String.ofList ∘ trimmed := funext strip_ofList
  have hblank : (fun block : String => decide (block ≠ "")) ∘ String.ofList = fun block => decide (block ≠ []) := by
    funext block
    rw [Function.comp_apply, decide_eq_decide, not_iff_not, ← String.toList_inj, String.toList_ofList]
    rfl
  rw [nonBlankBlocks, splitBlocks, List.map_map, hstrip, ← List.map_map, List.filter_map, hblank]
  rfl

/-- Trimming a text changes none of its blocks. -/
theorem nonBlankBlocks_strip (text : String) : nonBlankBlocks (strip text) = nonBlankBlocks text := by
  obtain ⟨front, back, hfront, hback, htext⟩ := exists_trimmed text.toList
  have hkept : keptBlocks (blockChars [] text.toList) = keptBlocks (blockChars [] (trimmed text.toList)) := by
    by_cases hnil : trimmed text.toList = []
    · have hblank : Blank ([] ++ (front ++ back)) := by
        rw [List.nil_append]
        exact fun c hc => (List.mem_append.mp hc).elim (hfront c) (hback c)
      have hempty : ∀ c ∈ ([] : List Char).getLast?, isPythonSpace c = false := by simp
      conv_lhs => rw [htext, hnil, List.append_nil]
      rw [hnil]
      exact keptBlocks_append_blank hblank hempty
    · obtain ⟨c, cs, hcons⟩ := List.exists_cons_of_ne_nil hnil
      have hhead : ∀ d ∈ (trimmed text.toList ++ back).head?, isPythonSpace d = false := by
        intro d hd
        rw [hcons] at hd
        have hfirst : d ∈ (trimmed text.toList).head? := by
          rw [hcons]
          exact hd
        exact not_blank_head_trimmed hfirst
      conv_lhs => rw [htext, List.append_assoc, keptBlocks_blank_append hfront hhead]
      exact keptBlocks_append_blank hback fun d hd => not_blank_last_trimmed hd
  rw [nonBlankBlocks_eq, nonBlankBlocks_eq, toList_strip, hkept]

/-! ### Joining with empty lines -/

/-- A block that reading back what was joined gives again: nothing to trim, and no empty line inside. -/
structure Solid (block : List Char) : Prop where
  trimmed : trimmed block = block
  filled : block ≠ []
  uncut : block.IsChain fun c d => ¬ (c = '\n' ∧ d = '\n')

theorem Solid.last {block : List Char} (h : Solid block) : ∀ c ∈ block.getLast?, isPythonSpace c = false := by
  intro c hc
  rw [← h.trimmed] at hc
  exact not_blank_last_trimmed hc

theorem blockChars_solid_append {block : List Char}
    (huncut : block.IsChain fun c d => ¬ (c = '\n' ∧ d = '\n')) (hlast : ∀ c ∈ block.getLast?, c ≠ '\n')
    (start rest : List Char) :
    blockChars start (block ++ '\n' :: '\n' :: rest) = (start ++ block) :: blockChars [] rest := by
  induction block generalizing start with
  | nil => rw [List.nil_append, blockChars, List.append_nil]
  | cons c block ih =>
    have hnot : ¬ (c = '\n' ∧ (block ++ '\n' :: '\n' :: rest).head? = some '\n') := by
      rintro ⟨rfl, hnext⟩
      cases block with
      | nil => exact hlast '\n' rfl rfl
      | cons d block =>
        obtain rfl := Option.some.inj hnext
        exact (List.isChain_cons_cons.mp huncut).1 ⟨rfl, rfl⟩
    have hlast' : ∀ d ∈ block.getLast?, d ≠ '\n' := by
      intro d hd
      refine hlast d ?_
      cases block with
      | nil => exact absurd hd (by simp)
      | cons e block => simpa using hd
    rw [List.cons_append, blockChars_cons hnot, ih huncut.of_cons hlast', List.append_assoc, List.singleton_append]

theorem blockChars_uncut {block : List Char} (huncut : block.IsChain fun c d => ¬ (c = '\n' ∧ d = '\n'))
    (start : List Char) : blockChars start block = [start ++ block] := by
  induction block generalizing start with
  | nil => rw [blockChars, List.append_nil]
  | cons c block ih =>
    have hnot : ¬ (c = '\n' ∧ block.head? = some '\n') := by
      rintro ⟨rfl, hnext⟩
      cases block with
      | nil => exact absurd hnext (by simp)
      | cons d block =>
        obtain rfl := Option.some.inj hnext
        exact (List.isChain_cons_cons.mp huncut).1 ⟨rfl, rfl⟩
    rw [blockChars_cons hnot, ih huncut.of_cons, List.append_assoc, List.singleton_append]

theorem not_newline {c : Char} (h : isPythonSpace c = false) : c ≠ '\n' := by
  rintro rfl
  exact absurd h (by decide)

/-- Joined blocks are read back as they were. -/
theorem blockChars_intercalate {blocks : List (List Char)} (h : ∀ block ∈ blocks, Solid block) (hne : blocks ≠ []) :
    blockChars [] (List.intercalate ['\n', '\n'] blocks) = blocks := by
  induction blocks with
  | nil => exact absurd rfl hne
  | cons block blocks ih =>
    rw [List.forall_mem_cons] at h
    cases blocks with
    | nil =>
      rw [List.intercalate_singleton, blockChars_uncut h.1.uncut, List.nil_append]
    | cons next blocks =>
      rw [List.intercalate_cons_cons, List.append_assoc, List.cons_append, List.cons_append, List.nil_append,
        blockChars_solid_append h.1.uncut (fun c hc => not_newline (h.1.last c hc)),
        ih h.2 (List.cons_ne_nil next blocks), List.nil_append]

/-- A text of one block. -/
def SolidText (block : String) : Prop := Solid block.toList

theorem keptBlocks_solid {blocks : List (List Char)} (h : ∀ block ∈ blocks, Solid block) :
    keptBlocks blocks = blocks := by
  rw [keptBlocks, List.map_congr_left (fun block hblock => (h block hblock).trimmed), List.map_id',
    List.filter_eq_self]
  intro block hblock
  simp [(h block hblock).filled]

theorem nonBlankBlocks_intercalate {blocks : List String} (h : ∀ block ∈ blocks, SolidText block) :
    nonBlankBlocks ("\n\n".intercalate blocks) = blocks := by
  have hsolid : ∀ block ∈ blocks.map String.toList, Solid block := by
    intro block hblock
    obtain ⟨text, htext, rfl⟩ := List.mem_map.mp hblock
    exact h text htext
  rw [nonBlankBlocks_eq, String.toList_intercalate]
  by_cases hnil : blocks = []
  · rw [hnil]
    rfl
  · have hne : blocks.map String.toList ≠ [] := by simpa using hnil
    rw [show "\n\n".toList = ['\n', '\n'] from rfl, blockChars_intercalate hsolid hne, keptBlocks_solid hsolid,
      List.map_map]
    simp

/-! ### The blocks of a text are solid -/

theorem trimmed_trimmed (cs : List Char) : trimmed (trimmed cs) = trimmed cs := by
  have hstrip : (strip (strip (String.ofList cs))).toList = (strip (String.ofList cs)).toList := by
    obtain ⟨hhead, hlast⟩ := (stripped_iff (strip (String.ofList cs))).mp ⟨_, rfl⟩
    rw [toList_strip, trimmed, dropWhile_blank_eq_self hhead]
    rw [dropWhile_blank_eq_self (by rwa [List.head?_reverse]), List.reverse_reverse]
  rwa [strip_ofList, strip_ofList, String.toList_ofList, String.toList_ofList] at hstrip

theorem infix_trimmed (cs : List Char) : trimmed cs <:+: cs := by
  obtain ⟨front, back, -, -, hcs⟩ := exists_trimmed cs
  exact ⟨front, back, hcs.symm⟩

/-- No block holds an empty line: it would have been cut there. -/
theorem uncut_of_mem_blockChars (cs : List Char) :
    ∀ block ∈ blockChars [] cs, block.IsChain fun c d => ¬ (c = '\n' ∧ d = '\n') := by
  -- the first block is where the text starts, so a newline before it shows in the text
  have h : ∀ start : List Char, ∃ first rest, blockChars [] cs = first :: rest ∧ first <+: cs ∧
      ∀ block ∈ first :: rest, block.IsChain fun c d => ¬ (c = '\n' ∧ d = '\n') := by
    intro start
    induction start, cs using blockChars.induct with
    | case1 => exact ⟨[], [], rfl, List.nil_prefix, by simp⟩
    | case2 start cs ih =>
      obtain ⟨first, rest, hblocks, -, huncut⟩ := ih
      refine ⟨[], blockChars [] cs, rfl, List.nil_prefix, List.forall_mem_cons.mpr ⟨List.isChain_nil, ?_⟩⟩
      rw [hblocks]
      exact huncut
    | case3 start c cs hcut ih =>
      obtain ⟨first, rest, hblocks, hstart, huncut⟩ := ih
      rw [List.forall_mem_cons] at huncut
      obtain ⟨first', rest', hfirst, hback⟩ := blockChars_append [c] cs
      obtain ⟨rfl, rfl⟩ := List.cons.inj (hblocks.symm.trans hfirst)
      refine ⟨c :: first, rest, ?_, List.cons_prefix_cons.mpr ⟨rfl, hstart⟩,
        List.forall_mem_cons.mpr ⟨?_, huncut.2⟩⟩
      · rw [blockChars, List.nil_append, hback, List.singleton_append]
        exact hcut
      · cases first with
        | nil => exact List.isChain_singleton c
        | cons d first =>
          refine List.isChain_cons_cons.mpr ⟨?_, huncut.1⟩
          rintro ⟨rfl, rfl⟩
          obtain ⟨tail, rfl⟩ := hstart
          exact hcut (first ++ tail) rfl rfl
  obtain ⟨first, rest, hblocks, -, huncut⟩ := h []
  rw [hblocks]
  exact huncut

theorem solid_of_mem_nonBlankBlocks {text block : String} (h : block ∈ nonBlankBlocks text) : SolidText block := by
  rw [nonBlankBlocks_eq] at h
  obtain ⟨cs, hcs, rfl⟩ := List.mem_map.mp h
  obtain ⟨hmem, hfilled⟩ := List.mem_filter.mp hcs
  obtain ⟨whole, hwhole, rfl⟩ := List.mem_map.mp hmem
  have huncut : (trimmed whole).IsChain fun c d => ¬ (c = '\n' ∧ d = '\n') :=
    List.IsChain.infix (uncut_of_mem_blockChars text.toList whole hwhole) (infix_trimmed whole)
  rw [SolidText, String.toList_ofList]
  exact ⟨trimmed_trimmed whole, by simpa using hfilled, huncut⟩

end EngineeringIntelligence.Framework
