import EngineeringIntelligence.Framework.JsonReader

namespace EngineeringIntelligence.Framework

namespace Json

/-! The reader stops where a value ends: what it has read it reads again with any text behind it and more fuel.
So no part of an object's text is taken for a value. -/

/-- A reading that more text does not change. -/
def Extends {α : Type} (read : List Char → Reading α) : Prop :=
  ∀ cs a rest t, read cs = .ok (a, rest) → read (cs ++ t) = .ok (a, rest ++ t)

/-! ### Strings -/

theorem extends_readUnit : Extends readUnit := by
  intro cs unit rest t h
  match cs with
  | [] | [_] | [_, _] | [_, _, _] => cases h
  | a :: b :: c :: d :: cs =>
    simp only [readUnit, List.cons_append] at h ⊢
    split_ifs at h ⊢ with hdigits
    · cases h
      rfl

theorem extends_readLow (high : Nat) : Extends (readLow high) := by
  intro cs c rest t h
  unfold readLow at h
  split at h
  · rename_i tail
    rw [List.cons_append, List.cons_append, readLow]
    cases hunit : readUnit tail with
    | error x => simp [hunit] at h
    | ok pair =>
      have hmore := extends_readUnit tail pair.1 pair.2 t hunit
      simp only [hunit] at h
      simp only [hmore]
      split_ifs at h ⊢ with hlow
      · simp only [Except.ok.injEq, Prod.mk.injEq] at h ⊢
        exact ⟨h.1, by rw [h.2]⟩
  · cases h

theorem extends_readEscape : Extends readEscape := by
  intro cs c rest t h
  cases cs with
  | nil => cases h
  | cons e tail =>
    rw [List.cons_append]
    rw [readEscape] at h ⊢
    split_ifs at h ⊢ with hu
    · cases hunit : readUnit tail with
      | error x => simp [hunit] at h
      | ok pair =>
        have hmore := extends_readUnit tail pair.1 pair.2 t hunit
        simp only [hunit] at h
        simp only [hmore]
        split_ifs at h ⊢ with hplain hhigh
        · cases h
          rfl
        · exact extends_readLow _ _ _ _ t h
    · cases hescape : escapes.lookup e with
      | none => simp [hescape] at h
      | some d =>
        simp only [hescape] at h ⊢
        cases h
        rfl

theorem extends_readChar : Extends readChar := by
  intro cs c rest t h
  cases cs with
  | nil => cases h
  | cons d tail =>
    rw [List.cons_append]
    rw [readChar] at h ⊢
    split_ifs at h ⊢ with hescape hcontrol
    · exact extends_readEscape _ _ _ t h
    · cases h
      rfl

theorem readString_append {n m : Nat} {cs s rest : List Char} (h : readString n cs = .ok (s, rest)) (hle : n ≤ m)
    (t : List Char) : readString m (cs ++ t) = .ok (s, rest ++ t) := by
  induction n generalizing m cs s rest with
  | zero => cases h
  | succ n ih =>
    obtain ⟨k, rfl⟩ : ∃ k, m = k + 1 := ⟨m - 1, by omega⟩
    cases cs with
    | nil => simp [readString, readChar] at h
    | cons c tail =>
      rw [readString] at h ⊢
      rw [List.cons_append, List.head?_cons]
      rw [List.head?_cons] at h
      by_cases hquote : some c = some '"'
      · rw [if_pos hquote] at h ⊢
        cases h
        rfl
      · rw [if_neg hquote] at h ⊢
        cases hchar : readChar (c :: tail) with
        | error x => simp [hchar] at h
        | ok pair =>
          have hmore := extends_readChar (c :: tail) pair.1 pair.2 t hchar
          rw [List.cons_append] at hmore
          simp only [hchar] at h
          simp only [hmore]
          cases hrest : readString n pair.2 with
          | error x => simp [hrest] at h
          | ok read =>
            obtain ⟨word, more⟩ := read
            have hextended := ih hrest (by omega : n ≤ k)
            simp only [hrest] at h
            simp only [hextended]
            cases h
            rfl

/-! ### Numbers and names -/

/-- The text goes on with what may stand after a value. -/
def Stops (rest : List Char) : Prop := ∃ c cs, rest = c :: cs ∧ (isBlank c = true ∨ isDelimiter c = true)

theorem stop_plain {c : Char} (h : isBlank c = true ∨ isDelimiter c = true) :
    c ≠ '.' ∧ c ≠ 'e' ∧ c ≠ 'E' := by
  simp only [isBlank, isDelimiter, Bool.or_eq_true, decide_eq_true_eq] at h
  rcases h with (((rfl | rfl) | rfl) | rfl) | ((rfl | rfl) | rfl) <;> decide

theorem takeWhile_append_stop {p : Char → Bool} {cs : List Char} (h : cs.dropWhile p ≠ []) (t : List Char) :
    (cs ++ t).takeWhile p = cs.takeWhile p ∧ (cs ++ t).dropWhile p = cs.dropWhile p ++ t := by
  induction cs with
  | nil => exact absurd rfl h
  | cons c cs ih =>
    rw [List.dropWhile_cons] at h
    cases hc : p c with
    | false => simp [hc]
    | true =>
      rw [hc, if_pos rfl] at h
      obtain ⟨htake, hdrop⟩ := ih h
      simp [hc, htake, hdrop]

theorem readInteger_extend {cs : List Char} (h : (readInteger cs).2 ≠ []) (t : List Char) :
    readInteger (cs ++ t) = ((readInteger cs).1, (readInteger cs).2 ++ t) := by
  cases cs with
  | nil => exact absurd rfl h
  | cons c tail =>
    by_cases hzero : c = '0'
    · simp [readInteger, hzero]
    · have hhead : ∀ l : List Char, (c :: l).head? ≠ some '0' := fun l heq => hzero (Option.some.inj heq)
      have hread : ∀ l : List Char, readInteger (c :: l) =
          ((c :: l).takeWhile Char.isDigit, (c :: l).dropWhile Char.isDigit) := fun l => if_neg (hhead l)
      rw [hread] at h ⊢
      obtain ⟨htake, hdrop⟩ := takeWhile_append_stop h t
      rw [List.cons_append] at htake hdrop
      rw [List.cons_append, hread, htake, hdrop]

/-- A fraction that is followed by no point. -/
theorem readFraction_extend {cs : List Char} (h : (readFraction cs).2 ≠ []) (hpoint : (readFraction cs).2.head? ≠ some '.')
    (t : List Char) : readFraction (cs ++ t) = ((readFraction cs).1, (readFraction cs).2 ++ t) ∧ cs ≠ [] := by
  cases cs with
  | nil => exact absurd rfl h
  | cons c tail =>
    refine ⟨?_, List.cons_ne_nil c tail⟩
    by_cases hc : c = '.'
    · rw [hc] at h hpoint ⊢
      simp only [readFraction, List.cons_append] at h hpoint ⊢
      by_cases hdigits : tail.takeWhile Char.isDigit = []
      · simp [hdigits] at hpoint
      · rw [if_neg hdigits] at h ⊢
        obtain ⟨htake, hdrop⟩ := takeWhile_append_stop h t
        rw [htake, hdrop, if_neg hdigits]
    · unfold readFraction
      split
      · rename_i heq
        exact absurd (List.cons.inj heq).1 hc
      · split
        · rename_i heq
          exact absurd (List.cons.inj heq).1 hc
        · rfl

def isSign (c : Char) : Bool := c = '+' || c = '-'

theorem readExponent_cons (e : Char) (tail : List Char) : readExponent (e :: tail) =
    if (e = 'e' ∨ e = 'E') ∧ (tail.takeWhile isSign).length ≤ 1 ∧
        (tail.dropWhile isSign).takeWhile Char.isDigit ≠ [] then
      (e :: (tail.takeWhile isSign ++ (tail.dropWhile isSign).takeWhile Char.isDigit),
        (tail.dropWhile isSign).dropWhile Char.isDigit)
    else ([], e :: tail) := by
  have hdrop : ∀ (p : Char → Bool) (l : List Char), l.drop (l.takeWhile p).length = l.dropWhile p := by
    intro p l
    induction l with
    | nil => rfl
    | cons a l ih => cases ha : p a <;> simp [ha, ih]
  simp only [readExponent, ← List.drop_drop, hdrop]
  rfl

theorem readExponent_extend {cs : List Char} (h : Stops (readExponent cs).2) (t : List Char) :
    readExponent (cs ++ t) = ((readExponent cs).1, (readExponent cs).2 ++ t) ∧ cs ≠ [] ∧ cs.head? ≠ some '.' := by
  cases cs with
  | nil =>
    obtain ⟨c, cs, hcs, -⟩ := h
    cases hcs
  | cons e tail =>
    rw [readExponent_cons] at h
    rw [List.cons_append, readExponent_cons, readExponent_cons]
    by_cases hexponent : (e = 'e' ∨ e = 'E') ∧ (tail.takeWhile isSign).length ≤ 1 ∧
        (tail.dropWhile isSign).takeWhile Char.isDigit ≠ []
    · rw [if_pos hexponent] at h ⊢
      obtain ⟨c, cs, hcs, -⟩ := h
      have hdigits : (tail.dropWhile isSign).dropWhile Char.isDigit ≠ [] := by
        intro hnil
        rw [hnil] at hcs
        cases hcs
      have hsign : tail.dropWhile isSign ≠ [] := by
        intro hnil
        rw [hnil] at hdigits
        exact hdigits rfl
      obtain ⟨htake, hdrop⟩ := takeWhile_append_stop hsign t
      obtain ⟨htakeDigits, hdropDigits⟩ := takeWhile_append_stop hdigits t
      rw [htake, hdrop, htakeDigits, hdropDigits, if_pos hexponent]
      refine ⟨rfl, List.cons_ne_nil e tail, ?_⟩
      intro hdot
      have hpoint := Option.some.inj hdot
      rw [hpoint] at hexponent
      exact absurd hexponent.1 (by decide)
    · rw [if_neg hexponent] at h ⊢
      obtain ⟨c, cs, hcs, hstop⟩ := h
      obtain ⟨hdot, hlower, hupper⟩ := stop_plain hstop
      have hc : e = c := (List.cons.inj hcs).1
      have hother : ¬ (e = 'e' ∨ e = 'E') := by
        rw [hc]
        exact fun hletter => hletter.elim hlower hupper
      rw [if_neg fun hall => hother hall.1]
      refine ⟨rfl, List.cons_ne_nil e tail, ?_⟩
      intro heq
      exact hdot (hc ▸ Option.some.inj heq)

variable {floatRepr : String → String}

/-- How a number begins. -/
def Leads (cs : List Char) : Prop :=
  ∃ c tail, cs = c :: tail ∧ (c.isDigit = true ∨ c = '-' ∧ ∃ d ds, tail = d :: ds ∧ d.isDigit = true)

theorem Leads.append {cs : List Char} (h : Leads cs) (t : List Char) : Leads (cs ++ t) := by
  obtain ⟨c, tail, rfl, hc | ⟨rfl, d, ds, rfl, hd⟩⟩ := h
  · exact ⟨c, tail ++ t, rfl, .inl hc⟩
  · exact ⟨'-', d :: ds ++ t, rfl, .inr ⟨rfl, d, ds ++ t, rfl, hd⟩⟩

/-- No name begins like a number. -/
theorem Leads.not_name {cs : List Char} (h : Leads cs) : names.find? (fun name => name.1.isPrefixOf cs) = none := by
  obtain ⟨c, tail, rfl, hc | ⟨rfl, d, ds, rfl, hd⟩⟩ := h
  · have hc' := lead_ne_digit hc
    simp only [List.mem_cons, List.not_mem_nil, or_false, forall_eq_or_imp, forall_eq] at hc'
    simp [names, List.find?, List.isPrefixOf, hc']
  · have hI := lead_ne_digit hd 'I' (by decide)
    simp [names, List.find?, List.isPrefixOf, hI]

theorem readInteger_lead {cs : List Char} (h : (readInteger cs).1 ≠ []) :
    ∃ d ds, cs = d :: ds ∧ d.isDigit = true := by
  cases cs with
  | nil => exact absurd rfl h
  | cons c tail =>
    refine ⟨c, tail, rfl, ?_⟩
    by_contra hdigit
    have hzero : (c :: tail).head? ≠ some '0' := by
      intro heq
      rw [Option.some.inj heq] at hdigit
      exact hdigit rfl
    rw [readInteger, if_neg hzero, List.takeWhile_cons, if_neg hdigit] at h
    exact h rfl

theorem readNumber_extend {cs rest : List Char} {j : Json} (h : readNumber floatRepr cs = .ok (j, rest))
    (hstop : Stops rest) (t : List Char) :
    readNumber floatRepr (cs ++ t) = .ok (j, rest ++ t) ∧ Leads cs := by
  have hsplit : ∃ sign unsigned, cs = sign ++ unsigned ∧ (sign = ['-'] ∨ sign = [] ∧ cs.head? ≠ some '-') ∧
      (if cs.head? = some '-' then (['-'], cs.tail) else ([], cs)) = (sign, unsigned) := by
    by_cases hminus : cs.head? = some '-'
    · refine ⟨['-'], cs.tail, ?_, .inl rfl, if_pos hminus⟩
      cases cs with
      | nil => cases hminus
      | cons c tail =>
        cases hminus
        rfl
    · exact ⟨[], cs, rfl, .inr ⟨rfl, hminus⟩, if_neg hminus⟩
  obtain ⟨sign, unsigned, hcs, hsign, hparts⟩ := hsplit
  unfold readNumber at h
  rw [hparts] at h
  dsimp only at h
  have hinteger : (readInteger unsigned).1 ≠ [] := by
    intro hnil
    rw [if_pos hnil] at h
    cases h
  have hrest : rest = (readExponent (readFraction (readInteger unsigned).2).2).2 := by
    split_ifs at h <;> cases h <;> rfl
  obtain ⟨d, ds, hlead, hdigit⟩ := readInteger_lead hinteger
  rw [hrest] at hstop
  obtain ⟨hexponent, hne, hpoint⟩ := readExponent_extend hstop t
  obtain ⟨hfraction, hne⟩ := readFraction_extend hne hpoint t
  have hunsigned := readInteger_extend hne t
  constructor
  · have hmore : (if (cs ++ t).head? = some '-' then (['-'], (cs ++ t).tail) else ([], cs ++ t)) =
        (sign, unsigned ++ t) := by
      rcases hsign with rfl | ⟨rfl, hminus⟩
      · rw [hcs]
        rfl
      · rw [hcs, hlead] at hminus
        rw [hcs, hlead]
        exact if_neg hminus
    unfold readNumber
    rw [hmore]
    dsimp only
    rw [hunsigned, hfraction, hexponent, hrest]
    rw [← hrest] at h ⊢
    split_ifs at h ⊢ <;> cases h <;> rfl
  · rcases hsign with rfl | ⟨rfl, -⟩
    · exact ⟨'-', unsigned, hcs, .inr ⟨rfl, d, ds, hlead, hdigit⟩⟩
    · exact ⟨d, ds, hcs.trans hlead, .inl hdigit⟩

theorem readAtom_extend {cs rest : List Char} {j : Json} (h : readAtom floatRepr cs = .ok (j, rest))
    (hstop : Stops rest) (t : List Char) : readAtom floatRepr (cs ++ t) = .ok (j, rest ++ t) := by
  unfold readAtom at h
  cases hname : names.find? (fun name => name.1.isPrefixOf cs) with
  | none =>
    rw [hname] at h
    obtain ⟨hnumber, hlead⟩ := readNumber_extend h hstop t
    rw [readAtom, (hlead.append t).not_name]
    exact hnumber
  | some name =>
    rw [hname] at h
    have hmem := List.mem_of_find?_eq_some hname
    have hstarts : name.1.isPrefixOf cs = true := List.find?_some (p := fun name : List Char × Json =>
      name.1.isPrefixOf cs) hname
    obtain ⟨more, hcs⟩ := List.isPrefixOf_iff_prefix.mp hstarts
    simp only [Except.ok.injEq, Prod.mk.injEq] at h
    obtain ⟨rfl, hdrop⟩ := h
    rw [← hcs, List.drop_left] at hdrop
    rw [← hcs, hdrop, List.append_assoc]
    simp only [names, List.mem_cons, List.not_mem_nil, or_false] at hmem
    rcases hmem with rfl | rfl | rfl | rfl | rfl | rfl <;> simp [readAtom, names]

/-! ### Values -/

theorem skipBlanks_append {cs : List Char} (h : skipBlanks cs ≠ []) (t : List Char) :
    skipBlanks (cs ++ t) = skipBlanks cs ++ t :=
  (takeWhile_append_stop h t).2

theorem ne_nil_of_head {cs : List Char} {c : Char} (h : cs.head? = some c) : cs ≠ [] := by
  intro hnil
  rw [hnil] at h
  cases h

theorem skipBlanks_extend {cs : List Char} {c : Char} (h : (skipBlanks cs).head? = some c) (t : List Char) :
    (skipBlanks (cs ++ t)).head? = some c ∧ (skipBlanks (cs ++ t)).tail = (skipBlanks cs).tail ++ t := by
  have hne := ne_nil_of_head h
  rw [skipBlanks_append hne]
  exact ⟨by rw [List.head?_append_of_ne_nil _ hne, h], List.tail_append_of_ne_nil hne⟩

/-- A text whose first character past the blanks is a delimiter stops a value. -/
theorem stops_of_skipBlanks {cs : List Char} {c : Char} (h : (skipBlanks cs).head? = some c)
    (hc : isDelimiter c = true) : Stops cs := by
  cases cs with
  | nil => cases h
  | cons d tail =>
    refine ⟨d, tail, rfl, ?_⟩
    cases hd : isBlank d with
    | true => exact .inl rfl
    | false =>
      rw [skipBlanks_cons hd] at h
      cases h
      exact .inr hc

/-- The value is a string, an array or an object: its last character ends it. -/
def Bracketed (cs : List Char) : Prop :=
  cs.head? = some '"' ∨ cs.head? = some '[' ∨ cs.head? = some '\x7b'

variable (floatRepr) in
/-- What `n` fuel reads, more fuel reads with more text behind it. -/
structure Extending (n : Nat) : Prop where
  value : ∀ m cs j rest, n ≤ m → readValue floatRepr n cs = .ok (j, rest) → Bracketed cs ∨ Stops rest →
    ∀ t, readValue floatRepr m (cs ++ t) = .ok (j, rest ++ t)
  items : ∀ m cs js rest, n ≤ m → readItems floatRepr n cs = .ok (js, rest) →
    ∀ t, readItems floatRepr m (cs ++ t) = .ok (js, rest ++ t)
  fields : ∀ m cs fs rest, n ≤ m → readFields floatRepr n cs = .ok (fs, rest) →
    ∀ t, readFields floatRepr m (cs ++ t) = .ok (fs, rest ++ t)

theorem readValue_nil (n : Nat) (r : Json × List Char) : readValue floatRepr n [] ≠ .ok r := by
  intro h
  cases n with
  | zero => cases h
  | succ n =>
    rw [readValue] at h
    cases h

theorem readItems_nil (n : Nat) (r : List Json × List Char) : readItems floatRepr n [] ≠ .ok r := by
  intro h
  cases n with
  | zero => cases h
  | succ n =>
    rw [readItems] at h
    cases hvalue : readValue floatRepr n [] with
    | error x => simp [hvalue] at h
    | ok pair => exact readValue_nil n pair hvalue

theorem readFields_nil (n : Nat) (r : List (String × Json) × List Char) : readFields floatRepr n [] ≠ .ok r := by
  intro h
  cases n with
  | zero => cases h
  | succ n =>
    rw [readFields] at h
    cases h

theorem Extending.valueStep {n m : Nat} (ih : Extending floatRepr n) (hle : n ≤ m) {cs rest : List Char} {j : Json}
    (h : readValue floatRepr (n + 1) cs = .ok (j, rest)) (hends : Bracketed cs ∨ Stops rest) (t : List Char) :
    readValue floatRepr (m + 1) (cs ++ t) = .ok (j, rest ++ t) := by
  have hcs : cs ≠ [] := fun hnil => readValue_nil (n + 1) (j, rest) (hnil ▸ h)
  have hhead : (cs ++ t).head? = cs.head? := List.head?_append_of_ne_nil _ hcs
  have htail : (cs ++ t).tail = cs.tail ++ t := List.tail_append_of_ne_nil hcs
  rw [readValue] at h ⊢
  rw [hhead, htail]
  by_cases hquote : cs.head? = some '"'
  · rw [if_pos hquote] at h ⊢
    cases hstring : readString n cs.tail with
    | error x => simp [hstring] at h
    | ok read =>
      obtain ⟨word, more⟩ := read
      have hextended := readString_append hstring hle t
      simp only [hstring] at h
      simp only [hextended]
      cases h
      rfl
  rw [if_neg hquote] at h ⊢
  by_cases hbracket : cs.head? = some '['
  · rw [if_pos hbracket] at h ⊢
    by_cases hempty : (skipBlanks cs.tail).head? = some ']'
    · obtain ⟨hclose, hrest⟩ := skipBlanks_extend hempty t
      rw [if_pos hempty] at h
      rw [if_pos hclose, hrest]
      cases h
      rfl
    · rw [if_neg hempty] at h
      cases hitems : readItems floatRepr n (skipBlanks cs.tail) with
      | error x => simp [hitems] at h
      | ok read =>
        obtain ⟨js, more⟩ := read
        have hne : skipBlanks cs.tail ≠ [] := fun hnil => readItems_nil n _ (hnil ▸ hitems)
        have hextended := ih.items m _ js more hle hitems t
        have hother : (skipBlanks cs.tail ++ t).head? ≠ some ']' := by
          rwa [List.head?_append_of_ne_nil _ hne]
        simp only [hitems] at h
        rw [skipBlanks_append hne, if_neg hother]
        simp only [hextended]
        cases h
        rfl
  rw [if_neg hbracket] at h ⊢
  by_cases hbrace : cs.head? = some '\x7b'
  · rw [if_pos hbrace] at h ⊢
    by_cases hempty : (skipBlanks cs.tail).head? = some '\x7d'
    · obtain ⟨hclose, hrest⟩ := skipBlanks_extend hempty t
      rw [if_pos hempty] at h
      rw [if_pos hclose, hrest]
      cases h
      rfl
    · rw [if_neg hempty] at h
      cases hfields : readFields floatRepr n (skipBlanks cs.tail) with
      | error x => simp [hfields] at h
      | ok read =>
        obtain ⟨fs, more⟩ := read
        have hne : skipBlanks cs.tail ≠ [] := fun hnil => readFields_nil n _ (hnil ▸ hfields)
        have hextended := ih.fields m _ fs more hle hfields t
        have hother : (skipBlanks cs.tail ++ t).head? ≠ some '\x7d' := by
          rwa [List.head?_append_of_ne_nil _ hne]
        simp only [hfields] at h
        rw [skipBlanks_append hne, if_neg hother]
        simp only [hextended]
        cases h
        rfl
  · rw [if_neg hbrace] at h ⊢
    have hstops : Stops rest := by
      rcases hends with (hstart | hstart | hstart) | hstops
      · exact absurd hstart hquote
      · exact absurd hstart hbracket
      · exact absurd hstart hbrace
      · exact hstops
    exact readAtom_extend h hstops t

theorem Extending.itemsStep {n m : Nat} (ih : Extending floatRepr n) (hle : n ≤ m) {cs rest : List Char}
    {js : List Json} (h : readItems floatRepr (n + 1) cs = .ok (js, rest)) (t : List Char) :
    readItems floatRepr (m + 1) (cs ++ t) = .ok (js, rest ++ t) := by
  rw [readItems] at h ⊢
  cases hvalue : readValue floatRepr n cs with
  | error x => simp [hvalue] at h
  | ok read =>
    obtain ⟨j, more⟩ := read
    simp only [hvalue] at h
    by_cases hclose : (skipBlanks more).head? = some ']'
    · have hextended := ih.value m cs j more hle hvalue (.inr (stops_of_skipBlanks hclose (by decide))) t
      obtain ⟨hclose', hrest⟩ := skipBlanks_extend hclose t
      rw [if_pos hclose] at h
      simp only [hextended]
      rw [if_pos hclose', hrest]
      cases h
      rfl
    · rw [if_neg hclose] at h
      by_cases hcomma : (skipBlanks more).head? = some ','
      · have hextended := ih.value m cs j more hle hvalue (.inr (stops_of_skipBlanks hcomma (by decide))) t
        obtain ⟨hcomma', hrest⟩ := skipBlanks_extend hcomma t
        rw [if_pos hcomma] at h
        simp only [hextended]
        rw [if_neg (by rw [hcomma']; decide), if_pos hcomma', hrest]
        cases hitems : readItems floatRepr n (skipBlanks (skipBlanks more).tail) with
        | error x => simp [hitems] at h
        | ok read =>
          obtain ⟨is, left⟩ := read
          have hne : skipBlanks (skipBlanks more).tail ≠ [] := fun hnil => readItems_nil n _ (hnil ▸ hitems)
          have hmore := ih.items m _ is left hle hitems t
          simp only [hitems] at h
          rw [skipBlanks_append hne]
          simp only [hmore]
          cases h
          rfl
      · rw [if_neg hcomma] at h
        cases h

theorem Extending.fieldsStep {n m : Nat} (ih : Extending floatRepr n) (hle : n ≤ m) {cs rest : List Char}
    {fs : List (String × Json)} (h : readFields floatRepr (n + 1) cs = .ok (fs, rest)) (t : List Char) :
    readFields floatRepr (m + 1) (cs ++ t) = .ok (fs, rest ++ t) := by
  have hcs : cs ≠ [] := fun hnil => readFields_nil (n + 1) (fs, rest) (hnil ▸ h)
  have hhead : (cs ++ t).head? = cs.head? := List.head?_append_of_ne_nil _ hcs
  have htail : (cs ++ t).tail = cs.tail ++ t := List.tail_append_of_ne_nil hcs
  rw [readFields] at h ⊢
  rw [hhead, htail]
  by_cases hquote : cs.head? = some '"'
  · rw [if_pos hquote] at h ⊢
    cases hkey : readString n cs.tail with
    | error x => simp [hkey] at h
    | ok read =>
      obtain ⟨key, afterKey⟩ := read
      have hkey' := readString_append hkey hle t
      simp only [hkey] at h
      simp only [hkey']
      by_cases hcolon : (skipBlanks afterKey).head? = some ':'
      · obtain ⟨hcolon', hrest⟩ := skipBlanks_extend hcolon t
        rw [if_pos hcolon] at h
        rw [if_pos hcolon', hrest]
        cases hvalue : readValue floatRepr n (skipBlanks (skipBlanks afterKey).tail) with
        | error x => simp [hvalue] at h
        | ok read =>
          obtain ⟨j, more⟩ := read
          have hne : skipBlanks (skipBlanks afterKey).tail ≠ [] := fun hnil => readValue_nil n _ (hnil ▸ hvalue)
          simp only [hvalue] at h
          rw [skipBlanks_append hne]
          by_cases hclose : (skipBlanks more).head? = some '\x7d'
          · have hextended := ih.value m _ j more hle hvalue (.inr (stops_of_skipBlanks hclose (by decide))) t
            obtain ⟨hclose', hrest⟩ := skipBlanks_extend hclose t
            rw [if_pos hclose] at h
            simp only [hextended]
            rw [if_pos hclose', hrest]
            cases h
            rfl
          · rw [if_neg hclose] at h
            by_cases hcomma : (skipBlanks more).head? = some ','
            · have hextended := ih.value m _ j more hle hvalue (.inr (stops_of_skipBlanks hcomma (by decide))) t
              obtain ⟨hcomma', hrest⟩ := skipBlanks_extend hcomma t
              rw [if_pos hcomma] at h
              simp only [hextended]
              rw [if_neg (by rw [hcomma']; decide), if_pos hcomma', hrest]
              cases hfields : readFields floatRepr n (skipBlanks (skipBlanks more).tail) with
              | error x => simp [hfields] at h
              | ok read =>
                obtain ⟨gs, left⟩ := read
                have hne : skipBlanks (skipBlanks more).tail ≠ [] := fun hnil => readFields_nil n _ (hnil ▸ hfields)
                have hmore := ih.fields m _ gs left hle hfields t
                simp only [hfields] at h
                rw [skipBlanks_append hne]
                simp only [hmore]
                cases h
                rfl
            · rw [if_neg hcomma] at h
              cases h
      · rw [if_neg hcolon] at h
        cases h
  · rw [if_neg hquote] at h
    cases h

/-- Reading is the same with more fuel and with more text behind a value that has ended. -/
theorem extending (n : Nat) : Extending floatRepr n := by
  induction n with
  | zero => exact ⟨nofun, nofun, nofun⟩
  | succ n ih =>
    refine ⟨fun m cs j rest hle h hends t => ?_, fun m cs js rest hle h t => ?_, fun m cs fs rest hle h t => ?_⟩
    · obtain ⟨k, rfl⟩ : ∃ k, m = k + 1 := ⟨m - 1, by omega⟩
      exact ih.valueStep (by omega) h hends t
    · obtain ⟨k, rfl⟩ : ∃ k, m = k + 1 := ⟨m - 1, by omega⟩
      exact ih.itemsStep (by omega) h t
    · obtain ⟨k, rfl⟩ : ∃ k, m = k + 1 := ⟨m - 1, by omega⟩
      exact ih.fieldsStep (by omega) h t

/-! ### The canonical text -/

mutual

theorem write_eq_writeWith : ∀ j : Json, write j = writeWith escapeChar j
  | null => rfl
  | bool b => by cases b <;> rfl
  | int n => rfl
  | float r => rfl
  | str s => rfl
  | arr [] => rfl
  | arr (j :: js) => by
    rw [write, writeWith, writeItems, write_eq_writeWith j, writeMore_eq_writeItems js]
  | obj [] => rfl
  | obj ((k, j) :: fs) => by
    rw [write, writeWith, writeFields, write_eq_writeWith j, writeMoreFields_eq_writeFields fs]

theorem writeMore_eq_writeItems : ∀ js : List Json,
    writeMore js = if js = [] then [']'] else ',' :: writeItems escapeChar js
  | [] => rfl
  | j :: js => by
    rw [writeMore, if_neg (List.cons_ne_nil j js), writeItems, write_eq_writeWith j, writeMore_eq_writeItems js]

theorem writeMoreFields_eq_writeFields : ∀ fs : List (String × Json),
    writeMoreFields fs = if fs = [] then ['\x7d'] else ',' :: writeFields escapeChar fs
  | [] => rfl
  | (k, j) :: fs => by
    rw [writeMoreFields, if_neg (List.cons_ne_nil _ fs), writeFields, write_eq_writeWith j,
      writeMoreFields_eq_writeFields fs]

end

theorem dumps_eq_writeWith (j : Json) : (dumps j).toList = writeWith escapeChar (sortKeys j) := by
  rw [dumps_eq_write, write_eq_writeWith]

/-- What `dumps` wrote, `loads` reads back, with the keys of every object sorted. -/
theorem loads_dumps {j : Json} (h : Readable floatRepr j) : loads floatRepr (dumps j) = .ok (sortKeys j) :=
  loads_writeSpaced floatRepr escaping_escapeChar [] (by simp) (readable_sortKeys floatRepr j h)
    (by rw [writeSpaced_nil, dumps_eq_writeWith])

/-- A part of an object's text is no JSON text. -/
theorem loads_part {fs : List (String × Json)} (h : Readable floatRepr (obj fs)) {part more : List Char}
    (htext : (dumps (obj fs)).toList = part ++ more) (hmore : more ≠ []) (j : Json) :
    loads floatRepr (String.ofList part) ≠ .ok j := by
  intro hloads
  have hsorted := readable_sortKeys floatRepr (obj fs) h
  rw [loads, String.toList_ofList] at hloads
  cases part with
  | nil =>
    cases hread : readValue floatRepr (2 * ([] : List Char).length + 1) (skipBlanks []) with
    | error x =>
      rw [hread] at hloads
      cases hloads
    | ok read => exact readValue_nil _ _ hread
  | cons c tail =>
    have hbrace : c = '\x7b' := by
      rw [dumps_eq_writeWith, sortKeys, writeWith] at htext
      exact (List.cons.inj htext).1.symm
    have hstart : skipBlanks (c :: tail) = c :: tail := skipBlanks_cons (by rw [hbrace]; decide) tail
    rw [hstart] at hloads
    cases hread : readValue floatRepr (2 * (c :: tail).length + 1) (c :: tail) with
    | error x =>
      rw [hread] at hloads
      cases hloads
    | ok read =>
      obtain ⟨value, rest⟩ := read
      -- read on to the end of the whole text, as the writer meant it
      have hextended := (extending _).value (2 * (dumps (obj fs)).toList.length + 1) _ value rest
        (by rw [htext, List.length_append]; omega) hread (.inl (.inr (.inr (by rw [hbrace]; rfl)))) more
      have hwhole := readValue_write floatRepr escaping_escapeChar (sortKeys (obj fs))
        (2 * (dumps (obj fs)).toList.length + 1) [] hsorted (by simp [Closed])
        (by rw [dumps_eq_writeWith]; omega)
      rw [List.append_nil, ← dumps_eq_writeWith, htext] at hwhole
      rw [htext, hwhole] at hextended
      simp only [Except.ok.injEq, Prod.mk.injEq] at hextended
      exact hmore (List.append_eq_nil_iff.mp hextended.2.symm).2

end Json

end EngineeringIntelligence.Framework
