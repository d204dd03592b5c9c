import EngineeringIntelligence.Intelligence.Manifests

namespace EngineeringIntelligence.Intelligence

open EngineeringIntelligence.Framework EngineeringIntelligence.Topology
open Regex (ways Place)

/-! Where the values of a manifest stand: the blanks after a key may be line breaks, so that a key with
nothing after it on its line takes what follows further down. -/

namespace FieldPattern
variable (f : FieldPattern)

/-- A key, blank up to the start of its line, and what follows its colon. -/
structure KeyAt (content pre name rest : List Char) : Prop where
  split : content = pre ++ name ++ ':' :: rest
  mem : name ∈ f.names
  line : ∀ c ∈ pre.reverse.takeWhile (· ≠ '\n'), isPythonSpace c = true

/-- What stands before the rest, last character first. -/
def upTo (pre name : List Char) : List Char := ':' :: (name.reverse ++ pre.reverse)

/-- The value that is read after a colon, by where it starts. -/
def valueAt (before rest : List Char) : Option (Nat × List Char) :=
  (ways (valuePattern f.value) ⟨before, rest, []⟩).head?.bind fun y => y.groups.head?

/-- A value stands after a key, on the key's own line. -/
def OnItsLine (content : List Char) (start : Nat) (value : List Char) : Prop :=
  ∃ pre name gap rest, f.KeyAt content pre name (gap ++ value ++ rest) ∧
    pre.length + name.length + 1 + gap.length = start ∧ '\n' ∉ gap

end FieldPattern

variable {f : FieldPattern}

/-! ### One pattern -/

theorem ways_seq_ne_nil {r s : Regex} {x : Place} : ways (.seq r s) x ≠ [] ↔ ∃ z ∈ ways r x, ways s z ≠ [] := by
  rw [ways, Ne, List.flatMap_eq_nil_iff]
  push Not
  rfl

theorem head_ways_seq {r s : Regex} {x z : Place} (hz : z ∈ ways r x)
    (h : ∀ z' ∈ ways r x, ways s z' ≠ [] → z' = z) : (ways (.seq r s) x).head? = (ways s z).head? := by
  rw [ways]
  exact Regex.head_flatMap_of_unique hz h

theorem mem_ways_many {p : Char → Bool} {x y : Place} : y ∈ ways (.many p) x ↔
    ∃ taken, (∀ c ∈ taken, p c = true) ∧ y.before = taken.reverse ++ x.before ∧ x.after = taken ++ y.after ∧
      y.groups = x.groups := by
  rw [ways, List.mem_map]
  constructor
  · rintro ⟨z, hz, rfl⟩
    obtain ⟨taken, hall, hbefore, hafter⟩ := Regex.mem_manyWays.mp hz
    exact ⟨taken, hall, hbefore, hafter, rfl⟩
  · rintro ⟨taken, hall, hbefore, hafter, hgroups⟩
    refine ⟨(y.before, y.after), Regex.mem_manyWays.mpr ⟨taken, hall, hbefore, hafter⟩, ?_⟩
    rw [← hgroups]

theorem mem_ways_one {p : Char → Bool} {x y : Place} : y ∈ ways (.one p) x ↔
    ∃ c, p c = true ∧ y.before = c :: x.before ∧ x.after = c :: y.after ∧ y.groups = x.groups := by
  obtain ⟨before, after, groups⟩ := x
  cases after with
  | nil => simp [ways]
  | cons d after =>
    simp only [ways]
    split
    · next hd =>
      rw [List.mem_singleton]
      constructor
      · rintro rfl
        exact ⟨d, hd, rfl, rfl, rfl⟩
      · rintro ⟨c, -, hbefore, hafter, hgroups⟩
        obtain ⟨rfl, hrest⟩ := List.cons.inj hafter
        cases y
        simp_all
    · next hd =>
      refine ⟨nofun, ?_⟩
      rintro ⟨c, hc, -, hafter, -⟩
      obtain ⟨rfl, -⟩ := List.cons.inj hafter
      exact absurd hc hd

/-- The blanks before something that is not blank are all the blanks there are. -/
theorem blanks_unique {s t u v : List Char} {c d : Char} (hs : ∀ c ∈ s, isPythonSpace c = true)
    (ht : ∀ c ∈ t, isPythonSpace c = true) (hc : isPythonSpace c = false) (hd : isPythonSpace d = false)
    (h : s ++ c :: u = t ++ d :: v) : s = t ∧ c :: u = d :: v := by
  induction s generalizing t with
  | nil =>
    cases t with
    | nil => exact ⟨rfl, h⟩
    | cons e t =>
      obtain ⟨rfl, -⟩ := List.cons.inj h
      rw [ht c (List.mem_cons_self ..)] at hc
      cases hc
  | cons e s ih =>
    cases t with
    | nil =>
      obtain ⟨rfl, -⟩ := List.cons.inj h
      rw [hs e (List.mem_cons_self ..)] at hd
      cases hd
    | cons e' t =>
      obtain ⟨rfl, hrest⟩ := List.cons.inj h
      obtain ⟨rfl, hsame⟩ := ih (fun c hc => hs c (List.mem_cons_of_mem _ hc))
        (fun c hc => ht c (List.mem_cons_of_mem _ hc)) hrest
      exact ⟨rfl, hsame⟩

/-- A name goes up to the first colon. -/
theorem name_unique {s t u v : List Char} (hs : ':' ∉ s) (ht : ':' ∉ t) (h : s ++ ':' :: u = t ++ ':' :: v) :
    s = t ∧ u = v := by
  induction s generalizing t with
  | nil =>
    cases t with
    | nil => exact ⟨rfl, List.tail_eq_of_cons_eq h⟩
    | cons e t =>
      obtain ⟨rfl, -⟩ := List.cons.inj h
      exact absurd (List.mem_cons_self ..) ht
  | cons e s ih =>
    cases t with
    | nil =>
      obtain ⟨rfl, -⟩ := List.cons.inj h
      exact absurd (List.mem_cons_self ..) hs
    | cons e' t =>
      obtain ⟨rfl, hrest⟩ := List.cons.inj h
      obtain ⟨rfl, hsame⟩ := ih (fun hc => hs (List.mem_cons_of_mem _ hc))
        (fun hc => ht (List.mem_cons_of_mem _ hc)) hrest
      exact ⟨rfl, hsame⟩

theorem FieldPattern.name_cons {name : List Char} (h : name ∈ f.names) :
    ∃ c cs, name = c :: cs ∧ isPythonSpace c = false ∧ ':' ∉ name := by
  obtain ⟨hne, hall⟩ := f.named name h
  obtain ⟨c, cs, rfl⟩ := List.exists_cons_of_ne_nil hne
  refine ⟨c, cs, rfl, ?_, ?_⟩
  · simp only [List.all_cons, Bool.and_eq_true, Bool.not_eq_true'] at hall
    exact hall.1.1.1
  · intro hmem
    have hcolon := List.all_eq_true.mp hall ':' hmem
    simp at hcolon

theorem mem_ways_lineStart {x y : Place} :
    y ∈ ways .lineStart x ↔ Regex.atLineStart x.before = true ∧ y = x := by
  rw [ways]
  split
  · next h => simp [h]
  · next h => simp [h]

/-- From the start of a line the pattern goes on in one way: over all the blanks, the key and its colon. -/
theorem head_ways_regex {before blanks name rest : List Char} (hstart : Regex.atLineStart before = true)
    (hblanks : ∀ c ∈ blanks, isPythonSpace c = true) (hname : name ∈ f.names) :
    (ways f.regex ⟨before, blanks ++ name ++ ':' :: rest, []⟩).head? =
      (ways (valuePattern f.value) ⟨':' :: (name.reverse ++ (blanks.reverse ++ before)), rest, []⟩).head? := by
  obtain ⟨c, cs, rfl, hc, hcolon⟩ := FieldPattern.name_cons hname
  -- a key at the end of some blanks comes after these blanks
  have hkey {x : Place} (h : ways (.seq f.key (.seq (.one (· = ':')) (valuePattern f.value))) x ≠ []) :
      ∃ d ds, x.after = d :: ds ∧ isPythonSpace d = false := by
    obtain ⟨y, hy, -⟩ := ways_seq_ne_nil.mp h
    obtain ⟨name', hname', -, hafter, -⟩ := (f.spells x y).mp hy
    obtain ⟨d, ds, rfl, hd, -⟩ := FieldPattern.name_cons hname'
    exact ⟨d, ds ++ y.after, hafter, hd⟩
  have hline : (⟨before, blanks ++ c :: cs ++ ':' :: rest, []⟩ : Place) ∈
      ways .lineStart ⟨before, blanks ++ c :: cs ++ ':' :: rest, []⟩ := mem_ways_lineStart.mpr ⟨hstart, rfl⟩
  have hmany : (⟨blanks.reverse ++ before, c :: cs ++ ':' :: rest, []⟩ : Place) ∈
      ways (.many isPythonSpace) ⟨before, blanks ++ c :: cs ++ ':' :: rest, []⟩ :=
    mem_ways_many.mpr ⟨blanks, hblanks, rfl, List.append_assoc .., rfl⟩
  have hspelled : (⟨(c :: cs).reverse ++ (blanks.reverse ++ before), ':' :: rest, []⟩ : Place) ∈
      ways f.key ⟨blanks.reverse ++ before, c :: cs ++ ':' :: rest, []⟩ :=
    (f.spells _ _).mpr ⟨c :: cs, hname, rfl, rfl, rfl⟩
  have hone : (⟨':' :: ((c :: cs).reverse ++ (blanks.reverse ++ before)), rest, []⟩ : Place) ∈
      ways (.one (· = ':')) ⟨(c :: cs).reverse ++ (blanks.reverse ++ before), ':' :: rest, []⟩ :=
    mem_ways_one.mpr ⟨':', by simp, rfl, rfl, rfl⟩
  rw [FieldPattern.regex, head_ways_seq hline fun z hz _ => (mem_ways_lineStart.mp hz).2,
    head_ways_seq hmany ?_, head_ways_seq hspelled ?_, head_ways_seq hone ?_]
  · intro z hz _
    obtain ⟨d, hd, hbefore, hafter, hgroups⟩ := mem_ways_one.mp hz
    obtain ⟨rfl, hrest⟩ := List.cons.inj hafter
    exact Place.ext hbefore hrest.symm hgroups
  · intro z hz hnext
    obtain ⟨name', hname', hbefore, hafter, hgroups⟩ := (f.spells _ _).mp hz
    obtain ⟨y, hy, -⟩ := ways_seq_ne_nil.mp hnext
    obtain ⟨d, hd, -, hcolon', -⟩ := mem_ways_one.mp hy
    rw [hcolon', of_decide_eq_true hd] at hafter
    obtain ⟨-, -, -, -, hnocolon⟩ := FieldPattern.name_cons hname'
    obtain ⟨rfl, hrest⟩ := name_unique hcolon hnocolon hafter
    refine Place.ext hbefore ?_ hgroups
    rw [hcolon', of_decide_eq_true hd, hrest]
  · intro z hz hnext
    obtain ⟨taken, htaken, hbefore, hafter, hgroups⟩ := mem_ways_many.mp hz
    obtain ⟨d, ds, hd, hblank⟩ := hkey hnext
    rw [List.append_assoc, List.cons_append, hd] at hafter
    obtain ⟨rfl, hrest⟩ := blanks_unique hblanks htaken hc hblank hafter
    refine Place.ext hbefore ?_ hgroups
    rw [hd, ← hrest]
    rfl

/-- Every match of the pattern goes over a key. -/
theorem key_of_ways {before after : List Char} (h : ways f.regex ⟨before, after, []⟩ ≠ []) :
    Regex.atLineStart before = true ∧ ∃ blanks name rest, after = blanks ++ name ++ ':' :: rest ∧
      (∀ c ∈ blanks, isPythonSpace c = true) ∧ name ∈ f.names := by
  obtain ⟨z, hz, h⟩ := ways_seq_ne_nil.mp h
  obtain ⟨hstart, rfl⟩ := mem_ways_lineStart.mp hz
  obtain ⟨z, hz, h⟩ := ways_seq_ne_nil.mp h
  obtain ⟨blanks, hblanks, -, hafter, -⟩ := mem_ways_many.mp hz
  obtain ⟨y, hy, h⟩ := ways_seq_ne_nil.mp h
  obtain ⟨name, hname, -, hnext, -⟩ := (f.spells _ _).mp hy
  obtain ⟨w, hw, -⟩ := ways_seq_ne_nil.mp h
  obtain ⟨d, hd, -, hcolon, -⟩ := mem_ways_one.mp hw
  refine ⟨hstart, blanks, name, w.after, ?_, hblanks, hname⟩
  rw [List.append_assoc, ← of_decide_eq_true hd, ← hcolon, ← hnext]
  exact hafter

/-! ### The first key with a value -/

theorem exists_group {p : Char → Bool} {x y : Place} (h : y ∈ ways (valuePattern p) x) :
    ∃ blanks quote value, x.after = blanks ++ quote ++ value ++ y.after ∧
      (∀ c ∈ blanks, isPythonSpace c = true) ∧ quote.length ≤ 1 ∧ (∀ c ∈ quote, isQuote c = true) ∧ value ≠ [] ∧
      (∀ c ∈ value, p c = true) ∧
      y.groups = x.groups ++ [(x.before.length + blanks.length + quote.length, value)] := by
  obtain ⟨z, hz, h⟩ := List.mem_flatMap.mp h
  obtain ⟨blanks, hblanks, hbefore, hafter, hgroups⟩ := mem_ways_many.mp hz
  obtain ⟨w, hw, h⟩ := List.mem_flatMap.mp h
  have hquote : ∃ quote, quote.length ≤ 1 ∧ (∀ c ∈ quote, isQuote c = true) ∧
      w.before = quote.reverse ++ z.before ∧ z.after = quote ++ w.after ∧ w.groups = z.groups := by
    rcases List.mem_append.mp hw with hw | hw
    · obtain ⟨c, hc, hbefore, hafter, hgroups⟩ := mem_ways_one.mp hw
      exact ⟨[c], by simp, by simpa using hc, hbefore, hafter, hgroups⟩
    · obtain rfl := List.mem_singleton.mp hw
      exact ⟨[], by simp, by simp, rfl, rfl, rfl⟩
  obtain ⟨quote, hshort, hquotes, hbefore', hafter', hgroups'⟩ := hquote
  obtain ⟨v, hv, rfl⟩ := List.mem_map.mp h
  obtain ⟨u, hu, hv⟩ := List.mem_flatMap.mp hv
  obtain ⟨c, hc, hbefore₁, hafter₁, hgroups₁⟩ := mem_ways_one.mp hu
  obtain ⟨value, hvalue, hbefore₂, hafter₂, hgroups₂⟩ := mem_ways_many.mp hv
  refine ⟨blanks, quote, c :: value, ?_, hblanks, hshort, hquotes, by simp, ?_, ?_⟩
  · rw [hafter, hafter', hafter₁, hafter₂]
    simp
  · intro d hd
    rcases List.mem_cons.mp hd with rfl | hd
    · exact hc
    · exact hvalue d hd
  · have hlength : v.before.length - w.before.length = (value.reverse ++ [c]).length := by
      rw [hbefore₂, hbefore₁]
      simp
      omega
    have htaken : v.before = (value.reverse ++ [c]) ++ w.before := by
      rw [hbefore₂, hbefore₁]
      simp
    have hstart : w.before.length = x.before.length + blanks.length + quote.length := by
      rw [hbefore', hbefore]
      simp
      omega
    rw [hgroups₂, hgroups₁, hgroups', hgroups, hlength, htaken, List.take_left', hstart] <;> simp

theorem valueAt_eq_none {before rest : List Char} :
    f.valueAt before rest = none ↔ ways (valuePattern f.value) ⟨before, rest, []⟩ = [] := by
  rw [FieldPattern.valueAt, Option.bind_eq_none_iff]
  constructor
  · intro h
    cases hways : ways (valuePattern f.value) ⟨before, rest, []⟩ with
    | nil => rfl
    | cons y ys =>
      have hy : y ∈ ways (valuePattern f.value) ⟨before, rest, []⟩ := hways ▸ List.mem_cons_self ..
      obtain ⟨_, _, _, -, -, -, -, -, -, hgroups⟩ := exists_group hy
      have hnone := h y (by rw [hways]; rfl)
      rw [hgroups] at hnone
      cases hnone
  · intro h y hy
    rw [h] at hy
    cases hy

theorem valueAt_eq_some {before rest : List Char} {g : Nat × List Char} (h : f.valueAt before rest = some g) :
    ∃ blanks quote tail, rest = blanks ++ quote ++ g.2 ++ tail ∧
      (∀ c ∈ blanks, isPythonSpace c = true) ∧ quote.length ≤ 1 ∧ (∀ c ∈ quote, isQuote c = true) ∧ g.2 ≠ [] ∧
      (∀ c ∈ g.2, f.value c = true) ∧ g.1 = before.length + blanks.length + quote.length := by
  obtain ⟨y, hy, hg⟩ := Option.bind_eq_some_iff.mp h
  obtain ⟨blanks, quote, value, hafter, hblanks, hshort, hquote, hne, hvalue, hgroups⟩ :=
    exists_group (List.mem_of_head? hy)
  rw [hgroups] at hg
  obtain rfl := Option.some.inj hg
  exact ⟨blanks, quote, y.after, hafter, hblanks, hshort, hquote, hne, hvalue, rfl⟩

theorem keyAt_of_line {content start blanks name rest : List Char} (hstart : Regex.atLineStart start = true)
    (hblanks : ∀ c ∈ blanks, isPythonSpace c = true) (hname : name ∈ f.names)
    (hsplit : content = start.reverse ++ (blanks ++ name ++ ':' :: rest)) :
    f.KeyAt content (start.reverse ++ blanks) name rest := by
  refine ⟨by rw [hsplit]; simp, hname, ?_⟩
  intro c hc
  rw [List.reverse_append, List.reverse_reverse] at hc
  have hnil : start.takeWhile (· ≠ '\n') = [] := by
    cases start with
    | nil => rfl
    | cons d start =>
      have hd : d = '\n' := by simpa [Regex.atLineStart] using hstart
      rw [hd]
      rfl
  rw [List.takeWhile_append] at hc
  split at hc
  · rw [hnil, List.append_nil] at hc
    exact hblanks c (List.mem_reverse.mp hc)
  · exact hblanks c (List.mem_reverse.mp (List.takeWhile_subset _ hc))

theorem line_of_keyAt {content pre name rest : List Char} (h : f.KeyAt content pre name rest) :
    ∃ start blanks, pre = start.reverse ++ blanks ∧ Regex.atLineStart start = true ∧
      ∀ c ∈ blanks, isPythonSpace c = true := by
  refine ⟨pre.reverse.dropWhile (· ≠ '\n'), (pre.reverse.takeWhile (· ≠ '\n')).reverse, ?_, ?_, ?_⟩
  · rw [← List.reverse_append, List.takeWhile_append_dropWhile, List.reverse_reverse]
  · rw [Regex.atLineStart]
    cases hd : (pre.reverse.dropWhile (· ≠ '\n')).head? with
    | none => rfl
    | some c =>
      have hnot := List.head?_dropWhile_not (· ≠ '\n') pre.reverse
      rw [hd] at hnot
      simpa using hnot
  · intro c hc
    exact h.line c (List.mem_reverse.mp hc)

/-- A value after a key is a match of the pattern from the start of the key's line. -/
theorem found_of_keyAt {content pre name rest : List Char} {g : Nat × List Char}
    (h : f.KeyAt content pre name rest) (hg : f.valueAt (FieldPattern.upTo pre name) rest = some g) :
    ∃ start blanks, pre = start.reverse ++ blanks ∧
      content = start.reverse ++ (blanks ++ name ++ ':' :: rest) ∧
      ways f.regex ⟨start, blanks ++ name ++ ':' :: rest, []⟩ ≠ [] := by
  obtain ⟨start, blanks, rfl, hstart, hblanks⟩ := line_of_keyAt h
  refine ⟨start, blanks, rfl, ?_, ?_⟩
  · rw [h.split]
    simp
  · intro hnil
    have hhead : (ways f.regex ⟨start, blanks ++ name ++ ':' :: rest, []⟩).head? = _ :=
      head_ways_regex hstart hblanks h.mem
    rw [hnil] at hhead
    have hnone : f.valueAt (FieldPattern.upTo (start.reverse ++ blanks) name) rest = none := by
      rw [valueAt_eq_none, FieldPattern.upTo, List.reverse_append, List.reverse_reverse]
      exact List.head?_eq_none_iff.mp hhead.symm
    rw [hnone] at hg
    cases hg

/-- No name of a key starts among the blanks before another one. -/
theorem keyAt_not_between {content pre name rest pre' name' rest' : List Char} {blanks start : List Char}
    (hpre : pre = start ++ blanks) (hblanks : ∀ c ∈ blanks, isPythonSpace c = true)
    (h : content = pre ++ name ++ ':' :: rest) (h' : f.KeyAt content pre' name' rest')
    (hle : start.length ≤ pre'.length) : pre.length ≤ pre'.length := by
  by_contra hlt
  obtain ⟨c, cs, hname, hc, -⟩ := FieldPattern.name_cons h'.mem
  have hat : content[pre'.length]? = some c := by
    rw [h'.split, hname]
    simp
  have hin : pre'.length - start.length < blanks.length := by
    rw [hpre, List.length_append] at hlt
    omega
  have hblank : content[pre'.length]? = some (blanks[pre'.length - start.length]) := by
    rw [h, hpre, List.append_assoc, List.append_assoc, List.getElem?_append_right hle,
      List.getElem?_append_left hin, List.getElem?_eq_getElem hin]
  rw [hat] at hblank
  rw [Option.some.inj hblank, hblanks _ (List.getElem_mem hin)] at hc
  cases hc

/-- What is found stands after the first key that has a value. -/
theorem found_eq_some {content : List Char} {g : Nat × List Char} (h : f.found content = some g) :
    ∃ pre name rest, f.KeyAt content pre name rest ∧
      f.valueAt (FieldPattern.upTo pre name) rest = some g ∧
      ∀ pre' name' rest', f.KeyAt content pre' name' rest' → pre'.length < pre.length →
        f.valueAt (FieldPattern.upTo pre' name') rest' = none := by
  obtain ⟨⟨start, y⟩, hsearch, hg⟩ := Option.bind_eq_some_iff.mp h
  obtain ⟨passed, after, hcontent, hstart, hy, hearlier⟩ := Regex.searchFrom_eq_some hsearch
  rw [List.append_nil] at hstart
  have hne : ways f.regex ⟨start, after, []⟩ ≠ [] := by
    intro hnil
    rw [hnil] at hy
    cases hy
  obtain ⟨hline, blanks, name, rest, rfl, hblanks, hname⟩ := key_of_ways hne
  have hsplit : content = start.reverse ++ (blanks ++ name ++ ':' :: rest) := by
    rw [hcontent, hstart, List.reverse_reverse]
  refine ⟨start.reverse ++ blanks, name, rest, keyAt_of_line hline hblanks hname hsplit, ?_, ?_⟩
  · rw [FieldPattern.valueAt, FieldPattern.upTo, List.reverse_append, List.reverse_reverse,
      ← head_ways_regex hline hblanks hname, hy]
    exact hg
  · intro pre' name' rest' hkey hlt
    cases hvalue : f.valueAt (FieldPattern.upTo pre' name') rest' with
    | none => rfl
    | some g' =>
      obtain ⟨start', blanks', hpre', hsplit', hways⟩ := found_of_keyAt hkey hvalue
      exfalso
      have hle : start.reverse.length ≤ start'.reverse.length := by
        by_contra hshort
        refine hways ?_
        have hnil := hearlier start'.reverse (blanks' ++ name' ++ ':' :: rest') hsplit' (by
          rw [hstart, List.reverse_reverse] at hshort
          omega)
        rwa [List.reverse_reverse, List.append_nil] at hnil
      have hflat : content = start.reverse ++ blanks ++ name ++ ':' :: rest := by
        rw [hsplit]
        simp
      have hshort : start.reverse.length ≤ pre'.length := by
        rw [hpre', List.length_append]
        omega
      exact absurd (keyAt_not_between rfl hblanks hflat hkey hshort) (Nat.not_le_of_lt hlt)

theorem found_eq_none {content pre name rest : List Char} (h : f.found content = none)
    (hkey : f.KeyAt content pre name rest) : f.valueAt (FieldPattern.upTo pre name) rest = none := by
  cases hvalue : f.valueAt (FieldPattern.upTo pre name) rest with
  | none => rfl
  | some g =>
    exfalso
    obtain ⟨start, blanks, -, hsplit, hways⟩ := found_of_keyAt hkey hvalue
    cases hsearch : f.regex.search content with
    | none =>
      have hnil := Regex.searchFrom_eq_none hsearch hsplit
      rw [List.reverse_reverse, List.append_nil] at hnil
      exact hways hnil
    | some m =>
      obtain ⟨start', y⟩ := m
      obtain ⟨_, after, -, -, hy, -⟩ := Regex.searchFrom_eq_some hsearch
      have hne : ways f.regex ⟨start', after, []⟩ ≠ [] := by
        intro hnil
        rw [hnil] at hy
        cases hy
      obtain ⟨hline, blanks', name', rest', rfl, hblanks', hname'⟩ := key_of_ways hne
      rw [head_ways_regex hline hblanks' hname'] at hy
      obtain ⟨_, _, _, -, -, -, -, -, -, hgroups⟩ := exists_group (List.mem_of_head? hy)
      rw [FieldPattern.found, hsearch, Option.bind_some, hgroups] at h
      cases h

end EngineeringIntelligence.Intelligence
