import EngineeringIntelligence.Framework.Blocks

namespace EngineeringIntelligence.Framework

/-! The lines of a text as Python's parser counts them, and as `str.splitlines` does. -/

/-- A character that ends a line for `str.splitlines` alone. -/
def isExtraBreak (c : Char) : Bool := isLineBreak c && c ≠ '\n' && c ≠ '\r'

/-- The parser's lines: LF, CR and CRLF end one; `line` is what has been read of the current line. -/
def sourceLineChars : List Char → List Char → List (List Char)
  | line, [] => if line = [] then [] else [line]
  | line, '\r' :: '\n' :: rest => line :: sourceLineChars [] rest
  | line, c :: rest =>
    if c = '\n' || c = '\r' then line :: sourceLineChars [] rest else sourceLineChars (line ++ [c]) rest

def sourceLines (text : String) : List String := (sourceLineChars [] text.toList).map String.ofList

/-- What `str.splitlines` makes of one line of the parser's. -/
def lineParts (line : List Char) : List (List Char) := line.splitOnP isExtraBreak

/-! ### Parts of a line -/

section
variable {α : Type} {p : α → Bool}

/-- The last part of what comes first is the start of the first part of what follows. -/
theorem splitOnP_append {xs cur : List α} {d : List (List α)} (h : xs.splitOnP p = d ++ [cur]) (ys : List α) :
    (xs ++ ys).splitOnP p = d ++ (ys.splitOnP p).modifyHead (cur ++ ·) := by
  induction xs generalizing cur d with
  | nil =>
    rw [List.splitOnP_nil] at h
    cases d with
    | nil =>
      obtain rfl : [] = cur := by simpa using h
      cases hparts : ys.splitOnP p with
      | nil => exact absurd hparts (List.splitOnP_ne_nil p ys)
      | cons first rest => simp [hparts]
    | cons e d => simp at h
  | cons x xs ih =>
    rw [List.splitOnP_cons_eq_if_modifyHead] at h
    rw [List.cons_append, List.splitOnP_cons_eq_if_modifyHead]
    split at h
    · next hx =>
      rw [if_pos hx]
      cases d with
      | nil => simp at h
      | cons e d =>
        obtain ⟨rfl, hrest⟩ := List.cons.inj h
        rw [ih hrest]
        rfl
    · next hx =>
      rw [if_neg hx]
      cases hparts : xs.splitOnP p with
      | nil => exact absurd hparts (List.splitOnP_ne_nil p xs)
      | cons first rest =>
        rw [hparts, List.modifyHead_cons] at h
        cases d with
        | nil =>
          obtain ⟨rfl, rfl⟩ := List.cons.inj h
          rw [ih (d := []) hparts]
          cases ys.splitOnP p <;> simp
        | cons e d =>
          obtain ⟨rfl, hrest⟩ := List.cons.inj h
          rw [ih (d := first :: d) (by rw [hparts, hrest]; rfl)]
          rfl

theorem length_splitOnP (xs : List α) : (xs.splitOnP p).length = xs.countP p + 1 := by
  induction xs with
  | nil => rfl
  | cons x xs ih =>
    rw [List.splitOnP_cons_eq_if_modifyHead, List.countP_cons]
    split
    · rw [List.length_cons, ih]
    · rw [List.length_modifyHead, ih]

theorem exists_splitOnP (xs : List α) : ∃ done cur, xs.splitOnP p = done ++ [cur] :=
  ⟨_, _, (List.dropLast_append_getLast (List.splitOnP_ne_nil p xs)).symm⟩

/-- The parts hold what is no separator, in order. -/
theorem flatten_splitOnP (xs : List α) : (xs.splitOnP p).flatten = xs.filter (!p ·) := by
  induction xs with
  | nil => rfl
  | cons x xs ih =>
    rw [List.splitOnP_cons_eq_if_modifyHead]
    by_cases hx : p x = true
    · rw [if_pos hx, List.filter_cons_of_neg (by simp [hx]), List.flatten_cons, List.nil_append, ih]
    · rw [if_neg hx, List.filter_cons_of_pos (by simp [hx]), ← ih]
      cases hparts : xs.splitOnP p with
      | nil => exact absurd hparts (List.splitOnP_ne_nil p xs)
      | cons first rest => simp

end

/-! ### The two counts of lines -/

theorem isLineBreak_iff (c : Char) :
    isLineBreak c = true ↔ isExtraBreak c = true ∨ c = '\n' ∨ c = '\r' := by
  unfold isExtraBreak
  by_cases hn : c = '\n'
  · simp [hn, isLineBreak]
  · by_cases hr : c = '\r'
    · simp [hr, isLineBreak]
    · simp [hn, hr]

theorem isPythonSpace_of_break {c : Char} (h : isExtraBreak c = true ∨ c = '\n') : isPythonSpace c = true := by
  have hbreaks : ∀ c ∈ ['\n', '\r', '\x0b', '\x0c', '\x1c', '\x1d', '\x1e', '\u0085', '\u2028', '\u2029'],
      isPythonSpace c = true := List.all_eq_true.mp (by decide)
  refine hbreaks c ?_
  rcases h with h | rfl
  · have hline := (isLineBreak_iff c).mpr (.inl h)
    simpa [isLineBreak] using hline
  · exact List.mem_cons_self

theorem lineChars_cons {c : Char} {rest : List Char} (h : c = '\r' → ∀ more, rest ≠ '\n' :: more) (cur : List Char) :
    lineChars cur (c :: rest) =
      if isLineBreak c then cur :: lineChars [] rest else lineChars (cur ++ [c]) rest := by
  rw [lineChars]
  rintro more rfl rfl
  exact h rfl more rfl

/-- `splitlines` cuts every line of the parser into its parts; at the end one blank part may miss. -/
theorem lineChars_parts (cs : List Char) {line cur : List Char} {done : List (List Char)}
    (h : lineParts line = done ++ [cur]) :
    ∃ tail, (tail = [] ∨ tail = [[]]) ∧
      (sourceLineChars line cs).flatMap lineParts = done ++ (lineChars cur cs ++ tail) := by
  fun_induction sourceLineChars line cs generalizing cur done with
  | case1 =>
    obtain ⟨rfl, rfl⟩ : done = [] ∧ cur = [] := by
      have hnil : [[]] = done ++ [cur] := h
      cases done with
      | nil => simpa using hnil
      | cons d done => simp at hnil
    exact ⟨[], .inl rfl, rfl⟩
  | case2 line hline =>
    rw [List.flatMap_singleton, h, lineChars]
    by_cases hcur : cur = []
    · exact ⟨[[]], .inr rfl, by simp [hcur]⟩
    · exact ⟨[], .inl rfl, by simp [hcur]⟩
  | case3 line rest ih =>
    obtain ⟨tail, htail, heq⟩ := ih (show lineParts [] = [] ++ [[]] from rfl)
    refine ⟨tail, htail, ?_⟩
    rw [List.flatMap_cons, h, heq, lineChars]
    simp
  | case4 line c rest hcrlf hbreak ih =>
    obtain ⟨tail, htail, heq⟩ := ih (show lineParts [] = [] ++ [[]] from rfl)
    have hline : isLineBreak c = true := (isLineBreak_iff c).mpr (.inr (by simpa using hbreak))
    refine ⟨tail, htail, ?_⟩
    rw [List.flatMap_cons, h, heq, lineChars_cons fun hc more hmore => hcrlf more hc hmore, if_pos hline]
    simp
  | case5 line c rest hcrlf hbreak ih =>
    rw [lineChars_cons fun hc more hmore => hcrlf more hc hmore]
    by_cases hextra : isExtraBreak c = true
    · have hparts : lineParts (line ++ [c]) = (done ++ [cur]) ++ [[]] := by
        rw [lineParts, List.splitOnP_append_cons line [] hextra, List.splitOnP_nil, ← lineParts, h]
      obtain ⟨tail, htail, heq⟩ := ih hparts
      refine ⟨tail, htail, ?_⟩
      rw [heq, if_pos ((isLineBreak_iff c).mpr (.inl hextra))]
      simp
    · have hparts : lineParts (line ++ [c]) = done ++ [cur ++ [c]] := by
        rw [lineParts, splitOnP_append h, List.splitOnP_eq_singleton (by simpa using hextra)]
        rfl
      have hplain : ¬ isLineBreak c = true := by
        rw [isLineBreak_iff]
        exact not_or.mpr ⟨hextra, by simpa using hbreak⟩
      obtain ⟨tail, htail, heq⟩ := ih hparts
      exact ⟨tail, htail, by rw [heq, if_neg hplain]⟩

/-! ### Reading some lines -/

/-- Lines put together again, without the white space around them. -/
def reading (lines : List (List Char)) : List Char := trimmed (['\n'].intercalate lines)

/-- After an extra line break nothing but white space. -/
def Unbroken (cs : List Char) : Prop := ∀ u x v, cs = u ++ x :: v → isExtraBreak x = true → Blank v

theorem inked_intercalate (lines : List (List Char)) :
    (['\n'].intercalate lines).filter (!isPythonSpace ·) = lines.flatten.filter (!isPythonSpace ·) := by
  induction lines with
  | nil => rfl
  | cons line rest ih =>
    cases rest with
    | nil => simp
    | cons next rest =>
      have hnewline : ['\n'].filter (!isPythonSpace ·) = [] := by decide
      rw [List.intercalate_cons_cons, List.filter_append, List.filter_append, ih, hnewline, List.append_nil,
        ← List.filter_append]
      rfl

/-- What is read of lines is their ink. -/
theorem inked_reading (lines : List (List Char)) :
    (reading lines).filter (!isPythonSpace ·) = lines.flatten.filter (!isPythonSpace ·) := by
  rw [reading, filter_trimmed, inked_intercalate]

theorem inked_parts (line : List Char) :
    (lineParts line).flatten.filter (!isPythonSpace ·) = line.filter (!isPythonSpace ·) := by
  rw [lineParts, flatten_splitOnP, List.filter_filter]
  refine List.filter_congr fun c _ => ?_
  by_cases hc : isExtraBreak c = true
  · simp [isPythonSpace_of_break (.inl hc)]
  · simp [hc]

theorem intercalate_concat {lines : List (List Char)} (h : lines ≠ []) (line : List Char) :
    ['\n'].intercalate (lines ++ [line]) = ['\n'].intercalate lines ++ '\n' :: line := by
  induction lines with
  | nil => exact absurd rfl h
  | cons first rest ih =>
    cases rest with
    | nil => simp [List.intercalate_cons_cons]
    | cons next rest =>
      rw [List.cons_append, List.cons_append, List.intercalate_cons_cons, ← List.cons_append,
        ih (List.cons_ne_nil next rest), List.intercalate_cons_cons]
      simp

/-- A blank line at the end is not read. -/
theorem reading_concat_nil (lines : List (List Char)) : reading (lines ++ [[]]) = reading lines := by
  by_cases h : lines = []
  · rw [h]
    rfl
  · have hnewline : Blank ['\n'] := by simp [Blank, isPythonSpace, isUnicodeSpace]
    rw [reading, intercalate_concat h, trimmed_append_blank hnewline]
    rfl

/-- White space at the end of the last line is not read. -/
theorem reading_concat_blank (lines : List (List Char)) (line : List Char) {w : List Char} (hw : Blank w) :
    reading (lines ++ [line ++ w]) = reading (lines ++ [line]) := by
  by_cases h : lines = []
  · simp [h, reading, trimmed_append_blank hw]
  · have hsplit : ['\n'].intercalate lines ++ '\n' :: (line ++ w) =
        (['\n'].intercalate lines ++ '\n' :: line) ++ w := by simp
    rw [reading, reading, intercalate_concat h, intercalate_concat h, hsplit, trimmed_append_blank hw]

/-- Whether a last blank line is there or not, as much is read from some place on. -/
theorem reading_window (lines : List (List Char)) {tail : List (List Char)} (h : tail = [] ∨ tail = [[]])
    (start count : Nat) :
    reading (((lines ++ tail).drop start).take count) = reading ((lines.drop start).take count) := by
  rcases h with rfl | rfl
  · rw [List.append_nil]
  · rw [List.drop_append, List.take_append]
    have hlast : ∀ n m : Nat, (([[]] : List (List Char)).drop n).take m = [] ∨
        (([[]] : List (List Char)).drop n).take m = [[]] := by
      intro n m
      cases n <;> cases m <;> simp
    rcases hlast (start - lines.length) (count - (lines.drop start).length) with hnone | hone
    · rw [hnone, List.append_nil]
    · rw [hone, reading_concat_nil]

/-! ### Lines that are read alike -/

theorem not_break_of_ink {c : Char} (h : isPythonSpace c = false) : isExtraBreak c = false := by
  by_contra hbreak
  rw [Bool.not_eq_false] at hbreak
  rw [isPythonSpace_of_break (.inl hbreak)] at h
  cases h

/-- What comes before the last character that is no white space decides. -/
theorem unbroken_iff {w v : List Char} {c : Char} (hc : isPythonSpace c = false) (hv : Blank v) :
    Unbroken (w ++ c :: v) ↔ ∀ x ∈ w, isExtraBreak x = false := by
  constructor
  · intro h x hx
    by_contra hbreak
    obtain ⟨u, u', rfl⟩ := List.append_of_mem hx
    have hblank := h u x (u' ++ c :: v) (by simp) (by simpa using hbreak)
    rw [hblank c (by simp)] at hc
    cases hc
  · intro h u x rest heq hbreak
    have hne : c ≠ x := by
      rintro rfl
      rw [not_break_of_ink hc] at hbreak
      cases hbreak
    rcases List.append_eq_append_iff.mp heq with ⟨as, -, has⟩ | ⟨bs, rfl, hbs⟩
    · cases as with
      | nil => exact absurd (List.cons.inj has).1 hne
      | cons a as =>
        obtain ⟨-, rfl⟩ := List.cons.inj has
        exact fun d hd => hv d (by simp [hd])
    · cases bs with
      | nil => exact absurd (List.cons.inj hbs).1.symm hne
      | cons b bs =>
        obtain ⟨rfl, -⟩ := List.cons.inj hbs
        rw [h x (by simp)] at hbreak
        cases hbreak

theorem lineParts_plain {line : List Char} (h : ∀ x ∈ line, isExtraBreak x = false) : lineParts line = [line] :=
  List.splitOnP_eq_singleton h

theorem flatMap_lineParts_plain {lines : List (List Char)} (h : ∀ x ∈ lines.flatten, isExtraBreak x = false) :
    lines.flatMap lineParts = lines := by
  induction lines with
  | nil => rfl
  | cons line lines ih =>
    have hboth := List.forall_mem_append.mp h
    rw [List.flatMap_cons, lineParts_plain hboth.1, ih hboth.2, List.singleton_append]

theorem length_flatMap_lineParts (lines : List (List Char)) :
    (lines.flatMap lineParts).length = lines.flatten.countP isExtraBreak + lines.length := by
  induction lines with
  | nil => rfl
  | cons line lines ih =>
    rw [List.flatMap_cons, List.length_append, ih, lineParts, length_splitOnP, List.flatten_cons,
      List.countP_append, List.length_cons]
    omega

theorem inked_flatMap_lineParts (lines : List (List Char)) :
    (lines.flatMap lineParts).flatten.filter (!isPythonSpace ·) = lines.flatten.filter (!isPythonSpace ·) := by
  induction lines with
  | nil => rfl
  | cons line lines ih =>
    rw [List.flatMap_cons, List.flatten_append, List.filter_append, inked_parts, ih, List.flatten_cons,
      List.filter_append]

/-- As many parts as there are lines, from the first of these lines on, are read as the lines exactly if
nothing but white space follows an extra line break in them. -/
theorem reading_parts_iff (lines rest : List (List Char)) {u v : List Char} {c : Char}
    (hc : isPythonSpace c = false) (hv : Blank v) :
    reading (((lines ++ [u ++ c :: v]).flatMap lineParts ++ rest).take (lines.length + 1)) =
        reading (lines ++ [u ++ c :: v]) ↔
      Unbroken (lines ++ [u ++ c :: v]).flatten := by
  obtain ⟨done, cur, hu⟩ := exists_splitOnP (p := isExtraBreak) u
  obtain ⟨first, more, hparts⟩ := List.exists_cons_of_ne_nil (List.splitOnP_ne_nil isExtraBreak v)
  have hlast : lineParts (u ++ c :: v) = done ++ (cur ++ c :: first) :: more := by
    have hplain : ¬ isExtraBreak c = true := by simp [not_break_of_ink hc]
    rw [lineParts, splitOnP_append hu, List.splitOnP_cons_eq_if_modifyHead, if_neg hplain, hparts]
    rfl
  have hfirst : Blank first := by
    intro x hx
    have hmem : x ∈ (v.splitOnP isExtraBreak).flatten := by
      rw [hparts]
      exact List.mem_append_left _ hx
    rw [flatten_splitOnP] at hmem
    exact hv x (List.mem_filter.mp hmem).1
  have hflatten : (lines ++ [u ++ c :: v]).flatten = (lines.flatten ++ u) ++ c :: v := by simp
  have hall : (lines ++ [u ++ c :: v]).flatMap lineParts ++ rest =
      (lines.flatMap lineParts ++ done) ++ ((cur ++ c :: first) :: more ++ rest) := by
    rw [List.flatMap_append, List.flatMap_singleton, hlast]
    simp
  rw [hflatten, unbroken_iff hc hv, hall]
  constructor
  · intro hread
    by_contra hbroken
    -- the part with the last ink comes after as many parts as there are lines
    have hcount : 0 < (lines.flatten ++ u).countP isExtraBreak := by
      rw [List.countP_pos_iff]
      by_contra hnone
      exact hbroken fun x hx => by simpa using fun hbreak => hnone ⟨x, hx, hbreak⟩
    have hdone : done.length = u.countP isExtraBreak := by
      have hlength := length_splitOnP (p := isExtraBreak) u
      rw [hu, List.length_append] at hlength
      simpa using hlength
    have hlong : lines.length + 1 ≤ (lines.flatMap lineParts ++ done).length := by
      rw [List.length_append, length_flatMap_lineParts, hdone]
      rw [List.countP_append] at hcount
      omega
    rw [List.take_append_of_le_length hlong] at hread
    have hink := congrArg List.length (congrArg (List.filter (!isPythonSpace ·)) hread)
    rw [inked_reading, inked_reading, hflatten, List.filter_append, List.filter_append,
      List.filter_cons_of_pos (by simp [hc])] at hink
    have hfront : ((((lines.flatMap lineParts ++ done).take (lines.length + 1)).flatten).filter
        (!isPythonSpace ·)).length ≤
        (lines.flatten.filter (!isPythonSpace ·)).length + (u.filter (!isPythonSpace ·)).length := by
      have htake : ((lines.flatMap lineParts ++ done).take (lines.length + 1)).flatten.Sublist
          (lines.flatMap lineParts ++ done).flatten := by
        conv_rhs => rw [← List.take_append_drop (lines.length + 1) (lines.flatMap lineParts ++ done)]
        rw [List.flatten_append]
        exact List.sublist_append_left _ _
      have hpre : done.flatten.Sublist (lineParts u).flatten := by
        rw [lineParts, hu, List.flatten_append]
        exact List.sublist_append_left _ _
      have hle := (htake.filter (!isPythonSpace ·)).length_le
      have hleu := (hpre.filter (!isPythonSpace ·)).length_le
      rw [List.flatten_append, List.filter_append, List.length_append, inked_flatMap_lineParts] at hle
      rw [inked_parts] at hleu
      omega
    simp only [List.length_append, List.length_cons] at hink
    omega
  · intro hplain
    have hboth := List.forall_mem_append.mp hplain
    have hsingle : done ++ [cur] = [u] := by rw [← hu, ← lineParts, lineParts_plain hboth.2]
    obtain ⟨rfl, rfl⟩ : done = [] ∧ cur = u := by
      cases done with
      | nil => simpa using hsingle
      | cons d done => simp at hsingle
    have htake : (lines ++ ((cur ++ c :: first) :: more ++ rest)).take (lines.length + 1) =
        lines ++ [cur ++ c :: first] := by
      simp [List.take_append]
    have hsplit : ∀ w : List Char, cur ++ c :: w = (cur ++ [c]) ++ w := by simp
    rw [flatMap_lineParts_plain hboth.1, List.append_nil, htake, hsplit first, hsplit v,
      reading_concat_blank _ _ hfirst, reading_concat_blank _ _ hv]

end EngineeringIntelligence.Framework
