import EngineeringIntelligence.Framework.Blocks
import EngineeringIntelligence.Intelligence.ManifestLines

namespace EngineeringIntelligence.Intelligence

open EngineeringIntelligence.Framework EngineeringIntelligence.Topology
open Regex (ways Place)

/-! Exactly when every value of a manifest stands on its key's line. -/

namespace FieldPattern
variable (f : FieldPattern)

/-- What a quoted text starts with is left out. -/
def unquoted : List Char → List Char
  | [] => []
  | c :: cs => if isQuote c then cs else c :: cs

/-- The text after a colon that a value is taken from. -/
def textAfter (rest : List Char) : List Char :=
  (unquoted (rest.dropWhile isPythonSpace)).takeWhile f.value

/-- A value follows: some blanks, perhaps a quotation mark, and a character of a value. -/
def Follows (rest : List Char) : Prop :=
  ∃ blanks quote c tail, rest = blanks ++ quote ++ c :: tail ∧ (∀ d ∈ blanks, isPythonSpace d = true) ∧
    quote.length ≤ 1 ∧ (∀ d ∈ quote, isQuote d = true) ∧ f.value c = true

/-- The first key that a value follows has it on its own line, or what stands further down names nothing. -/
def NothingBelow (content : List Char) : Prop :=
  ∀ pre name rest, f.KeyAt content pre name rest → f.Follows rest →
    (∀ pre' name' rest', f.KeyAt content pre' name' rest' → pre'.length < pre.length → ¬f.Follows rest') →
    (∀ c ∈ rest.takeWhile (· ≠ '\n'), isPythonSpace c = true) →
    f.values (strip (String.ofList (f.textAfter rest))) = []

/-- A value stands after a key of its own, on that key's line. -/
def StandsOnItsLine (content : List Char) (v : String) : Prop :=
  ∃ start value, f.found content = some (start, value) ∧ v.toList <:+: value ∧ f.OnItsLine content start value

end FieldPattern

variable {f : FieldPattern}

/-! ### The value after a colon -/

theorem head_manyWays (p : Char → Bool) (before after : List Char) :
    (Regex.manyWays p before after).head? =
      some ((after.takeWhile p).reverse ++ before, after.dropWhile p) := by
  induction after generalizing before with
  | nil => rfl
  | cons c after ih =>
    rw [Regex.manyWays]
    by_cases hc : p c = true
    · rw [if_pos hc, List.head?_append, ih, List.takeWhile_cons_of_pos hc, List.dropWhile_cons_of_pos hc,
        List.reverse_cons, List.append_assoc]
      rfl
    · rw [if_neg hc, List.takeWhile_cons_of_neg hc, List.dropWhile_cons_of_neg hc]
      rfl

theorem head_flatMap_of_head {α β : Type} {l : List α} {g : α → List β} {a : α} (ha : l.head? = some a)
    (hne : g a ≠ []) : (l.flatMap g).head? = (g a).head? := by
  obtain ⟨tail, rfl⟩ := List.head?_eq_some_iff.mp ha
  rw [List.flatMap_cons, List.head?_append]
  cases h : (g a).head? with
  | none => exact absurd (List.head?_eq_none_iff.mp h) hne
  | some b => rfl

/-- The group takes as many characters as there are. -/
theorem head_group_many1 {p : Char → Bool} {x : Place} (h : x.after.takeWhile p ≠ []) :
    ∃ y, (ways (.group (.many1 p)) x).head? = some y ∧
      y.groups = x.groups ++ [(x.before.length, x.after.takeWhile p)] := by
  obtain ⟨before, after, groups⟩ := x
  cases after with
  | nil => exact absurd rfl h
  | cons c after =>
    have hc : p c = true := by
      by_contra hc
      exact h (List.takeWhile_cons_of_neg hc)
    have hone : ways (.one p) ⟨before, c :: after, groups⟩ = [⟨c :: before, after, groups⟩] := by
      rw [ways]
      exact if_pos hc
    have hmany : (ways (.many1 p) ⟨before, c :: after, groups⟩).head? =
        some ⟨(after.takeWhile p).reverse ++ c :: before, after.dropWhile p, groups⟩ := by
      rw [Regex.many1, ways, hone, List.flatMap_singleton, ways, List.head?_map, head_manyWays]
      rfl
    rw [ways, List.head?_map, hmany]
    refine ⟨_, rfl, ?_⟩
    have htaken : (after.takeWhile p).reverse ++ c :: before = ((after.takeWhile p).reverse ++ [c]) ++ before := by
      simp
    have hlength : ((after.takeWhile p).reverse ++ [c] ++ before).length - before.length =
        ((after.takeWhile p).reverse ++ [c]).length := by
      rw [List.length_append, Nat.add_sub_cancel]
    simp only [htaken, hlength, List.take_left, List.takeWhile_cons_of_pos hc]
    simp

theorem not_isQuote_of_space {c : Char} (h : isPythonSpace c = true) : isQuote c = false := by
  cases hq : isQuote c with
  | false => rfl
  | true =>
    simp only [isQuote, Bool.or_eq_true, decide_eq_true_eq] at hq
    rcases hq with rfl | rfl
    · revert h; decide
    · revert h; decide

/-- Where there is text to take, all of it is taken. -/
theorem valueAt_of_textAfter (before : List Char) {rest : List Char} (h : f.textAfter rest ≠ []) :
    ∃ start, f.valueAt before rest = some (start, f.textAfter rest) := by
  have hmany : (ways (.many isPythonSpace) ⟨before, rest, []⟩).head? =
      some ⟨(rest.takeWhile isPythonSpace).reverse ++ before, rest.dropWhile isPythonSpace, []⟩ := by
    rw [ways, List.head?_map, head_manyWays]
    rfl
  generalize hbefore : (rest.takeWhile isPythonSpace).reverse ++ before = before' at hmany
  rw [FieldPattern.textAfter] at h ⊢
  generalize rest.dropWhile isPythonSpace = r at h hmany ⊢
  -- with the quotation mark, where there is one
  have hopt : ∃ z, (ways (.opt (.one isQuote)) ⟨before', r, []⟩).head? = some z ∧
      z.after = FieldPattern.unquoted r ∧ z.groups = [] := by
    cases r with
    | nil => exact ⟨_, rfl, rfl, rfl⟩
    | cons c cs =>
      rw [FieldPattern.unquoted]
      by_cases hc : isQuote c = true
      · refine ⟨⟨c :: before', cs, []⟩, ?_, by rw [if_pos hc], rfl⟩
        simp [ways, hc]
      · refine ⟨⟨before', c :: cs, []⟩, ?_, by rw [if_neg hc], rfl⟩
        simp [ways, hc]
  obtain ⟨z, hz, hafter, hgroups⟩ := hopt
  rw [← hafter] at h ⊢
  obtain ⟨y, hy, hy'⟩ := head_group_many1 h
  have hgroup : ways (.group (.many1 f.value)) z ≠ [] := by
    intro hnil
    rw [hnil] at hy
    cases hy
  have hseq :
      (ways (.seq (.opt (.one isQuote)) (.group (.many1 f.value))) ⟨before', r, []⟩).head? = some y := by
    rw [ways, head_flatMap_of_head hz hgroup, hy]
  refine ⟨z.before.length, ?_⟩
  rw [FieldPattern.valueAt, valuePattern, ways, head_flatMap_of_head hmany, hseq, Option.bind_some, hy', hgroups]
  · rfl
  · intro hnil
    rw [hnil] at hseq
    cases hseq

/-- Where there is none, blanks are taken. -/
theorem blank_of_textAfter_nil {before rest : List Char} {g : Nat × List Char} (h : f.textAfter rest = [])
    (hg : f.valueAt before rest = some g) : ∀ c ∈ g.2, isPythonSpace c = true := by
  obtain ⟨blanks, quote, tail, hrest, hblanks, hshort, hquote, hne, hvalue, -⟩ := valueAt_eq_some hg
  have hdrop : rest.dropWhile isPythonSpace = (quote ++ g.2 ++ tail).dropWhile isPythonSpace := by
    rw [hrest, List.append_assoc, List.append_assoc, List.dropWhile_append_of_pos hblanks, List.append_assoc]
  rw [FieldPattern.textAfter, hdrop] at h
  match quote, hshort, hquote with
  | [], _, _ =>
    intro c hc
    by_contra hink
    -- the first character that is not blank would be taken
    cases hd : g.2.dropWhile isPythonSpace with
    | nil => exact hink (List.dropWhile_eq_nil_iff.mp hd c hc)
    | cons d ds =>
      have hmem : d ∈ g.2 := (List.dropWhile_suffix isPythonSpace).subset (hd ▸ List.mem_cons_self ..)
      have hplain : isQuote d = false := by
        cases hq : isQuote d with
        | false => rfl
        | true =>
          have := hvalue d hmem
          rw [f.value_quote d hq] at this
          cases this
      rw [List.nil_append, List.dropWhile_append, hd] at h
      simp [FieldPattern.unquoted, hplain, hvalue d hmem] at h
  | [q], _, hquote =>
    exfalso
    have hq : isQuote q = true := hquote q (List.mem_singleton.mpr rfl)
    have hink : isPythonSpace q = false := by
      cases hspace : isPythonSpace q with
      | false => rfl
      | true => rw [not_isQuote_of_space hspace] at hq; cases hq
    obtain ⟨c, cs, hg2⟩ := List.exists_cons_of_ne_nil hne
    have hc : f.value c = true := hvalue c (hg2 ▸ List.mem_cons_self ..)
    rw [hg2] at h
    simp [FieldPattern.unquoted, hink, hq, hc] at h
  | _ :: _ :: _, hshort, _ => simp at hshort

theorem follows_iff (before rest : List Char) : f.Follows rest ↔ f.valueAt before rest ≠ none := by
  rw [Ne, valueAt_eq_none]
  constructor
  · rintro ⟨blanks, quote, c, tail, hrest, hblanks, hshort, hquote, hc⟩
    refine ways_seq_ne_nil.mpr ⟨⟨blanks.reverse ++ before, quote ++ c :: tail, []⟩,
      mem_ways_many.mpr ⟨blanks, hblanks, rfl, by rw [hrest, List.append_assoc], rfl⟩, ?_⟩
    have hgroup (before' : List Char) : ways (.group (.many1 f.value)) ⟨before', c :: tail, []⟩ ≠ [] := by
      obtain ⟨y, hy, -⟩ := head_group_many1 (p := f.value) (x := ⟨before', c :: tail, []⟩) (by simp [hc])
      intro hnil
      rw [hnil] at hy
      cases hy
    match quote, hshort, hquote with
    | [], _, _ =>
      exact ways_seq_ne_nil.mpr ⟨_, List.mem_append_right _ (List.mem_singleton.mpr rfl), hgroup _⟩
    | [q], _, hquote =>
      have hq : isQuote q = true := hquote q (List.mem_singleton.mpr rfl)
      exact ways_seq_ne_nil.mpr ⟨⟨q :: (blanks.reverse ++ before), c :: tail, []⟩,
        List.mem_append_left _ (mem_ways_one.mpr ⟨q, hq, rfl, rfl, rfl⟩), hgroup _⟩
    | _ :: _ :: _, hshort, _ => simp at hshort
  · intro hne
    obtain ⟨g, hg⟩ := Option.ne_none_iff_exists'.mp fun hnone => hne (valueAt_eq_none.mp hnone)
    obtain ⟨blanks, quote, tail, hrest, hblanks, hshort, hquote, hne, hvalue, -⟩ := valueAt_eq_some hg
    obtain ⟨c, cs, hg2⟩ := List.exists_cons_of_ne_nil hne
    refine ⟨blanks, quote, c, cs ++ tail, ?_, hblanks, hshort, hquote, hvalue c (hg2 ▸ List.mem_cons_self ..)⟩
    rw [hrest, hg2]
    simp

/-! ### One pattern and its line -/

theorem keyAt_unique {content pre name rest pre' name' rest' : List Char} (h : f.KeyAt content pre name rest)
    (h' : f.KeyAt content pre' name' rest') (hlength : pre.length = pre'.length) :
    pre = pre' ∧ name = name' ∧ rest = rest' := by
  have hsplit := h.split.symm.trans h'.split
  rw [List.append_assoc, List.append_assoc] at hsplit
  obtain ⟨hpre, hmore⟩ := List.append_inj hsplit hlength
  obtain ⟨-, -, -, -, hcolon⟩ := FieldPattern.name_cons h.mem
  obtain ⟨-, -, -, -, hcolon'⟩ := FieldPattern.name_cons h'.mem
  obtain ⟨hname, hrest⟩ := name_unique hcolon hcolon' hmore
  exact ⟨hpre, hname, hrest⟩

/-- The value after the first key that has one is found. -/
theorem found_of_first {content pre name rest : List Char} (h : f.KeyAt content pre name rest)
    (hfollows : f.Follows rest)
    (hfirst : ∀ pre' name' rest', f.KeyAt content pre' name' rest' → pre'.length < pre.length →
      ¬f.Follows rest') :
    ∃ g, f.found content = some g ∧ f.valueAt (FieldPattern.upTo pre name) rest = some g := by
  have hvalue := (follows_iff (FieldPattern.upTo pre name) rest).mp hfollows
  cases hfound : f.found content with
  | none => exact absurd (found_eq_none hfound h) hvalue
  | some g =>
    obtain ⟨pre', name', rest', h', hg, hfirst'⟩ := found_eq_some hfound
    have hle : pre.length ≤ pre'.length := by
      by_contra hlt
      have hfollows' := follows_iff (f := f) (FieldPattern.upTo pre' name') rest'
      refine hfirst pre' name' rest' h' (Nat.lt_of_not_le hlt) (hfollows'.mpr ?_)
      rw [hg]
      exact Option.some_ne_none g
    have hge : pre'.length ≤ pre.length := by
      by_contra hlt
      exact hvalue (hfirst' pre name rest h (Nat.lt_of_not_le hlt))
    obtain ⟨rfl, rfl, rfl⟩ := keyAt_unique h h' (Nat.le_antisymm hle hge)
    exact ⟨g, rfl, hg⟩

theorem newline_not_mem_value {value : List Char} (h : ∀ c ∈ value, f.value c = true) : '\n' ∉ value := by
  intro hmem
  have hnewline := h _ hmem
  rw [f.value_newline] at hnewline
  cases hnewline

/-- What is read after a key with a blank line has no key on its own line. -/
theorem not_onItsLine {content pre name rest : List Char} {g : Nat × List Char}
    (h : f.KeyAt content pre name rest) (hline : ∀ c ∈ rest.takeWhile (· ≠ '\n'), isPythonSpace c = true)
    (hg : f.valueAt (FieldPattern.upTo pre name) rest = some g) {c : Char} (hc : c ∈ g.2)
    (hink : isPythonSpace c = false) : ¬f.OnItsLine content g.1 g.2 := by
  rintro ⟨pre', name', gap, rest', h', hstart', hgap⟩
  obtain ⟨blanks, quote, tail, hrest, hblanks, -, hquote, -, hvalue, hstart⟩ := valueAt_eq_some hg
  have hbreak : '\n' ∈ blanks ++ quote := by
    by_contra hno
    have hall : ∀ d ∈ blanks ++ quote ++ g.2, decide (d ≠ '\n') = true := by
      intro d hd
      rw [decide_eq_true_eq]
      rintro rfl
      rcases List.mem_append.mp hd with hd | hd
      · exact hno hd
      · exact newline_not_mem_value hvalue hd
    rw [hrest, List.takeWhile_append_of_pos hall] at hline
    have hspace := hline c (List.mem_append_left _ (List.mem_append_right _ hc))
    rw [hink] at hspace
    cases hspace
  have hcolon : ':' ∉ blanks ++ quote := by
    intro hmem
    rcases List.mem_append.mp hmem with hmem | hmem
    · exact absurd (hblanks _ hmem) (by decide)
    · exact absurd (hquote _ hmem) (by decide)
  -- both end where the value starts
  have hsame : pre ++ name ++ [':'] ++ (blanks ++ quote) = pre' ++ name' ++ [':'] ++ gap := by
    have hsplit := h.split.symm.trans h'.split
    rw [hrest] at hsplit
    have hlength : (pre ++ name ++ [':'] ++ (blanks ++ quote)).length =
        (pre' ++ name' ++ [':'] ++ gap).length := by
      rw [FieldPattern.upTo] at hstart
      simp at hstart hstart' ⊢
      omega
    have hjoin : pre ++ name ++ [':'] ++ (blanks ++ quote) ++ (g.2 ++ tail) =
        pre' ++ name' ++ [':'] ++ gap ++ (g.2 ++ rest') := by
      simpa using hsplit
    exact List.append_inj_left hjoin hlength
  have hgapSuffix : gap <:+ pre' ++ name' ++ [':'] ++ gap := List.suffix_append _ _
  have hcolonSuffix : ':' :: gap <:+ pre' ++ name' ++ [':'] ++ gap := ⟨pre' ++ name', by simp⟩
  have hbetween : blanks ++ quote <:+ pre' ++ name' ++ [':'] ++ gap := hsame ▸ List.suffix_append _ _
  rcases Nat.lt_or_ge gap.length (blanks ++ quote).length with hlt | hge
  · exact hcolon ((List.suffix_of_suffix_length_le hcolonSuffix hbetween hlt).subset (List.mem_cons_self ..))
  · exact hgap ((List.suffix_of_suffix_length_le hbetween hgapSuffix hge).subset hbreak)

/-- What is read after a key whose line goes on stands on that line. -/
theorem onItsLine_of_ink {content pre name rest : List Char} {g : Nat × List Char}
    (h : f.KeyAt content pre name rest) (hg : f.valueAt (FieldPattern.upTo pre name) rest = some g) {c : Char}
    (hc : c ∈ rest.takeWhile (· ≠ '\n')) (hink : isPythonSpace c = false) : f.OnItsLine content g.1 g.2 := by
  obtain ⟨blanks, quote, tail, hrest, hblanks, -, hquote, -, -, hstart⟩ := valueAt_eq_some hg
  refine ⟨pre, name, blanks ++ quote, tail, hrest ▸ h, ?_, ?_⟩
  · rw [hstart, FieldPattern.upTo]
    simp
    omega
  · intro hmem
    rcases List.mem_append.mp hmem with hmem | hmem
    · -- the line ends among the blanks
      obtain ⟨s, t, hst⟩ := List.append_of_mem hmem
      have hsub : c ∈ s := by
        rw [hrest, hst, List.append_assoc, List.append_assoc, List.append_assoc, List.cons_append,
          List.takeWhile_append] at hc
        split at hc
        · simpa using hc
        · exact List.takeWhile_subset _ hc
      rw [hblanks c (hst ▸ List.mem_append_left _ hsub)] at hink
      cases hink
    · exact absurd (hquote _ hmem) (by decide)

theorem strip_eq_empty {cs : List Char} (h : ∀ c ∈ cs, isPythonSpace c = true) : strip (String.ofList cs) = "" := by
  rw [strip_ofList, trimmed_of_blank h]

theorem exists_first {content : List Char} (h : ∃ pre name rest, f.KeyAt content pre name rest ∧ f.Follows rest) :
    ∃ pre name rest, f.KeyAt content pre name rest ∧ f.Follows rest ∧
      ∀ pre' name' rest', f.KeyAt content pre' name' rest' → pre'.length < pre.length → ¬f.Follows rest' := by
  obtain ⟨pre, name, rest, hkey, hfollows⟩ := h
  induction hn : pre.length using Nat.strong_induction_on generalizing pre name rest with
  | _ n ih =>
    by_cases hless : ∃ pre' name' rest', f.KeyAt content pre' name' rest' ∧ pre'.length < pre.length ∧ f.Follows rest'
    · obtain ⟨pre', name', rest', hkey', hlt, hfollows'⟩ := hless
      exact ih pre'.length (hn ▸ hlt) pre' name' rest' hkey' hfollows' rfl
    · push Not at hless
      exact ⟨pre, name, rest, hkey, hfollows, hless⟩

/-- A value of the pattern is found if and only if one follows some key. -/
theorem found_ne_none_iff {content : List Char} :
    f.found content ≠ none ↔ ∃ pre name rest, f.KeyAt content pre name rest ∧ f.Follows rest := by
  constructor
  · intro hne
    obtain ⟨g, hg⟩ := Option.ne_none_iff_exists'.mp hne
    obtain ⟨pre, name, rest, hkey, hvalue, -⟩ := found_eq_some hg
    refine ⟨pre, name, rest, hkey, (follows_iff (FieldPattern.upTo pre name) rest).mpr ?_⟩
    rw [hvalue]
    exact Option.some_ne_none g
  · intro h
    obtain ⟨pre, name, rest, hkey, hfollows, hfirst⟩ := exists_first h
    obtain ⟨g, hfound, -⟩ := found_of_first hkey hfollows hfirst
    rw [hfound]
    exact Option.some_ne_none g

/-- The values of one pattern stand on their key's line if and only if none was taken from below. -/
theorem stands_iff_nothingBelow {content : String} :
    (∀ raw, f.firstMatch content = some raw → ∀ v ∈ f.values raw, f.StandsOnItsLine content.toList v) ↔
      f.NothingBelow content.toList := by
  constructor
  · intro h pre name rest hkey hfollows hfirst hline
    obtain ⟨g, hfound, hvalue⟩ := found_of_first hkey hfollows hfirst
    by_contra hne
    -- some text is taken, and a name in it stands on no key's line
    have htext : f.textAfter rest ≠ [] := by
      intro hnil
      rw [hnil] at hne
      exact hne f.values_empty
    obtain ⟨start, hstart⟩ := valueAt_of_textAfter (FieldPattern.upTo pre name) htext
    obtain rfl : (start, f.textAfter rest) = g := Option.some.inj (hstart.symm.trans hvalue)
    have hink : ∃ c ∈ f.textAfter rest, isPythonSpace c = false := by
      by_contra hblank
      push Not at hblank
      refine hne ?_
      rw [strip_eq_empty fun c hc => Bool.not_eq_false _ ▸ hblank c hc]
      exact f.values_empty
    obtain ⟨c, hc, hink⟩ := hink
    obtain ⟨v, hv⟩ := List.exists_mem_of_ne_nil _ hne
    have hmatch : f.firstMatch content = some (strip (String.ofList (f.textAfter rest))) := by
      rw [FieldPattern.firstMatch, hfound]
      rfl
    obtain ⟨start', value', hfound', -, hon⟩ := h _ hmatch v hv
    obtain ⟨rfl, rfl⟩ := Prod.mk.inj (Option.some.inj (hfound.symm.trans hfound'))
    exact not_onItsLine hkey hline hvalue hc hink hon
  · intro h raw hraw v hv
    obtain ⟨g, hfound, rfl⟩ := Option.map_eq_some_iff.mp hraw
    obtain ⟨pre, name, rest, hkey, hvalue, hfirst⟩ := found_eq_some hfound
    refine ⟨g.1, g.2, hfound, (f.values_infix _ v hv).trans (infix_strip_ofList g.2), ?_⟩
    by_cases hline : ∀ c ∈ rest.takeWhile (· ≠ '\n'), isPythonSpace c = true
    · exfalso
      have hfollows : f.Follows rest := by
        refine (follows_iff (FieldPattern.upTo pre name) rest).mpr ?_
        rw [hvalue]
        exact Option.some_ne_none g
      have hnothing := h pre name rest hkey hfollows
        (fun pre' name' rest' hkey' hlt hfollows' =>
          (follows_iff (FieldPattern.upTo pre' name') rest').mp hfollows' (hfirst pre' name' rest' hkey' hlt)) hline
      by_cases htext : f.textAfter rest = []
      · rw [strip_eq_empty (blank_of_textAfter_nil htext hvalue), f.values_empty] at hv
        cases hv
      · obtain ⟨start, hstart⟩ := valueAt_of_textAfter (FieldPattern.upTo pre name) htext
        obtain rfl : (start, f.textAfter rest) = g := Option.some.inj (hstart.symm.trans hvalue)
        rw [hnothing] at hv
        cases hv
    · push Not at hline
      obtain ⟨c, hc, hink⟩ := hline
      exact onItsLine_of_ink hkey hvalue hc (Bool.eq_false_iff.mpr hink)

/-! ### A whole manifest -/

/-- The patterns of a manifest. -/
def manifestFields : List FieldPattern := [serviceField, ownerField, tierField, dependenciesField]

/-- Every value that is taken from a manifest stands after its key, on that key's line. -/
def KeepsToLines (path content : String) : Prop :=
  ∀ m, metadataFromManifest path content = some m →
    serviceField.StandsOnItsLine content.toList m.service ∧
    (∀ owner, m.owner = some owner → ownerField.StandsOnItsLine content.toList owner) ∧
    (∀ raw, tierField.firstMatch content = some raw → tierField.StandsOnItsLine content.toList raw) ∧
    ∀ dep ∈ m.dependencies, dependenciesField.StandsOnItsLine content.toList dep

/-- A value of plain characters is not empty. -/
theorem firstMatch_ne_empty (hplain : f.value = isPlain) {content raw : String}
    (h : f.firstMatch content = some raw) : raw ≠ "" := by
  obtain ⟨g, hfound, rfl⟩ := Option.map_eq_some_iff.mp h
  obtain ⟨pre, name, rest, -, hvalue, -⟩ := found_eq_some hfound
  obtain ⟨-, -, -, -, -, -, -, hne, hall, -⟩ := valueAt_eq_some hvalue
  obtain ⟨c, cs, hg⟩ := List.exists_cons_of_ne_nil hne
  have hmem : c ∈ g.2 := hg ▸ List.mem_cons_self ..
  have hc : (!isPythonSpace c) = true := by
    have hc := hall c hmem
    rw [hplain, isPlain, Bool.and_eq_true] at hc
    exact hc.1
  intro hempty
  have hkept : c ∈ inked (String.ofList g.2) := by
    rw [inked, String.toList_ofList]
    exact List.mem_filter.mpr ⟨hmem, hc⟩
  rw [← inked_strip, hempty] at hkept
  cases hkept

theorem mem_nonEmpty {raw v : String} (h : raw ≠ "") : v ∈ nonEmpty raw ↔ v = raw := by
  rw [nonEmpty, if_neg h, List.mem_singleton]

/-- What a pattern of plain characters finds is its one value. -/
theorem stands_iff_of_plain (hplain : f.value = isPlain) (hvalues : f.values = nonEmpty) {content : String} :
    (∀ raw, f.firstMatch content = some raw → f.StandsOnItsLine content.toList raw) ↔
      f.NothingBelow content.toList := by
  rw [← stands_iff_nothingBelow, hvalues]
  constructor
  · intro h raw hraw v hv
    rw [(mem_nonEmpty (firstMatch_ne_empty hplain hraw)).mp hv]
    exact h raw hraw
  · intro h raw hraw
    exact h raw hraw raw ((mem_nonEmpty (firstMatch_ne_empty hplain hraw)).mpr rfl)

theorem metadataFromManifest_eq_some {path content : String} {m : ServiceMetadata} :
    metadataFromManifest path content = some m ↔ isYaml path = true ∧
      serviceField.firstMatch content = some m.service ∧ m.owner = ownerField.firstMatch content ∧
      m.tier = tierValue (lower ((tierField.firstMatch content).getD "3")) ∧
      m.dependencies = listedNames ((dependenciesField.firstMatch content).getD "") := by
  rw [metadataFromManifest]
  by_cases hyaml : isYaml path = true
  · rw [hyaml, Bool.not_true, if_neg Bool.false_ne_true]
    cases hservice : serviceField.firstMatch content with
    | none => simp
    | some service =>
      have hne : service ≠ "" := firstMatch_ne_empty rfl hservice
      simp only [if_neg hne, Option.some.injEq, true_and]
      generalize tierValue (lower ((tierField.firstMatch content).getD "3")) = tier
      generalize listedNames ((dependenciesField.firstMatch content).getD "") = dependencies
      constructor
      · rintro rfl
        exact ⟨rfl, rfl, rfl, rfl⟩
      · rintro ⟨rfl, howner, htier, hdependencies⟩
        cases m
        simp_all
  · simp [hyaml]

/-- Every value stands on its key's line if and only if, in a manifest that names a service, no pattern
takes a value from below the first of its keys that one follows. -/
theorem keepsToLines_iff (path content : String) : KeepsToLines path content ↔
    (isYaml path = true →
      (∃ pre name rest, serviceField.KeyAt content.toList pre name rest ∧ serviceField.Follows rest) →
      ∀ f ∈ manifestFields, f.NothingBelow content.toList) := by
  constructor
  · intro h hyaml hnamed
    obtain ⟨g, hfound⟩ := Option.ne_none_iff_exists'.mp (found_ne_none_iff.mpr hnamed)
    have hservice : serviceField.firstMatch content = some (strip (String.ofList g.2)) := by
      rw [FieldPattern.firstMatch, hfound]
      rfl
    obtain ⟨m, hm⟩ : ∃ m, metadataFromManifest path content = some m := by
      rw [metadataFromManifest, hyaml, hservice, Bool.not_true, if_neg Bool.false_ne_true]
      exact ⟨_, if_neg (firstMatch_ne_empty rfl hservice)⟩
    obtain ⟨-, hsame, hown, -, hlisted⟩ := metadataFromManifest_eq_some.mp hm
    obtain ⟨hservices, howner, htier, hdependencies⟩ := h m hm
    rw [hown] at howner
    rw [hlisted] at hdependencies
    intro f hf
    simp only [manifestFields, List.mem_cons, List.not_mem_nil, or_false] at hf
    rcases hf with rfl | rfl | rfl | rfl
    · refine (stands_iff_of_plain rfl rfl).mp fun raw hraw => ?_
      rw [hsame] at hraw
      exact Option.some.inj hraw ▸ hservices
    · exact (stands_iff_of_plain rfl rfl).mp howner
    · exact (stands_iff_of_plain rfl rfl).mp htier
    · refine stands_iff_nothingBelow.mp fun raw hraw v hv => hdependencies v ?_
      rw [hraw]
      exact hv
  · intro h m hm
    obtain ⟨hyaml, hservice, howner, -, hdependencies⟩ := metadataFromManifest_eq_some.mp hm
    have hfound : serviceField.found content.toList ≠ none := by
      intro hnone
      rw [FieldPattern.firstMatch, hnone] at hservice
      cases hservice
    have hfields := h hyaml (found_ne_none_iff.mp hfound)
    refine ⟨?_, ?_, ?_, ?_⟩
    · exact (stands_iff_of_plain rfl rfl).mpr (hfields serviceField (by simp [manifestFields])) _ hservice
    · intro owner hm'
      exact (stands_iff_of_plain rfl rfl).mpr (hfields ownerField (by simp [manifestFields])) _ (howner ▸ hm')
    · exact (stands_iff_of_plain rfl rfl).mpr (hfields tierField (by simp [manifestFields]))
    · intro dep hdep
      rw [hdependencies] at hdep
      cases hraw : dependenciesField.firstMatch content with
      | none =>
        rw [hraw] at hdep
        have hempty : dep ∈ dependenciesField.values "" := hdep
        rw [dependenciesField.values_empty] at hempty
        cases hempty
      | some raw =>
        rw [hraw] at hdep
        exact stands_iff_nothingBelow.mpr (hfields dependenciesField (by simp [manifestFields])) raw hraw dep hdep

/-- A service with a mapping of its own is named after the mapping's first key. -/
theorem nested_service_taken :
    metadataFromManifest "deploy.yaml" "service:\n  name: web\n" =
        some { service := "name:", owner := none, tier := 3, dependencies := [] } ∧
      ¬KeepsToLines "deploy.yaml" "service:\n  name: web\n" := by
  have hmetadata : metadataFromManifest "deploy.yaml" "service:\n  name: web\n" =
      some { service := "name:", owner := none, tier := 3, dependencies := [] } :=
    metadataFromManifest_eq_some.mpr ⟨by decide, by decide, by decide, by decide,
      by decide⟩
  refine ⟨hmetadata, fun h => ?_⟩
  obtain ⟨hservice, -⟩ := h _ hmetadata
  have hvalue : serviceField.firstMatch "service:\n  name: web\n" = some "name:" := by
    decide
  have hnothing := (stands_iff_of_plain (f := serviceField) rfl rfl).mp fun raw hraw =>
    Option.some.inj (hvalue.symm.trans hraw) ▸ hservice
  have hempty := hnothing [] serviceName ['\n', ' ', ' ', 'n', 'a', 'm', 'e', ':', ' ', 'w', 'e', 'b', '\n']
    ⟨by decide, by decide, by simp⟩
    ⟨['\n', ' ', ' '], [], 'n', ['a', 'm', 'e', ':', ' ', 'w', 'e', 'b', '\n'], rfl,
      List.all_eq_true.mp (by decide), by decide, nofun, by decide⟩
    (fun _ _ _ _ hlt => absurd hlt (Nat.not_lt_zero _)) (List.all_eq_true.mp (by decide))
  exact absurd hempty (by decide)

end EngineeringIntelligence.Intelligence
