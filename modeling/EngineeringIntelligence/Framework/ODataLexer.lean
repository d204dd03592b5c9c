import EngineeringIntelligence.Framework.OData

namespace EngineeringIntelligence.Framework

/-! The lexical level of the filter language: the tokens of a text, the expression that tokens
spell, and the fact that the text of an expression is read back token by token, whatever its
literals hold. -/

inductive ODataToken where
  | word (name : String)
  | text (value : String)
  | mark (c : Char)
deriving DecidableEq

namespace ODataToken

/-- A token without what a literal holds. -/
def shape : ODataToken → ODataToken
  | text _ => text ""
  | token => token

def literal? : ODataToken → Option String
  | text value => some value
  | _ => none

end ODataToken

namespace ODataFilter

def marks : List Char := ['(', ')', '/', ':', ',']

/-- Where a lexer stands: between tokens, in a word, in a literal, or behind a quote in one. -/
inductive Lexing where
  | between
  | word (name : List Char)
  | text (value : List Char)
  | closing (value : List Char)

/-- What a character starts between two tokens. -/
def startAt (c : Char) : Option (List ODataToken × Lexing) :=
  if c = ' ' then some ([], .between)
  else if c = '\'' then some ([], .text [])
  else if isNameChar c then some ([], .word [c])
  else if c ∈ marks then some ([.mark c], .between)
  else none

def endWith (token : ODataToken) (next : Option (List ODataToken × Lexing)) :
    Option (List ODataToken × Lexing) :=
  next.map fun p => (token :: p.1, p.2)

def Lexing.step : Lexing → Char → Option (List ODataToken × Lexing)
  | between, c => startAt c
  | word name, c =>
    if isNameChar c then some ([], word (name ++ [c]))
    else endWith (.word (String.ofList name)) (startAt c)
  | text value, c => some ([], if c = '\'' then closing value else text (value ++ [c]))
  | closing value, c =>
    -- a second quote stands for one, anything else is behind the literal
    if c = '\'' then some ([], text (value ++ ['\'']))
    else endWith (.text (String.ofList value)) (startAt c)

/-- A text may not end inside a literal. -/
def Lexing.finish : Lexing → Option (List ODataToken)
  | between => some []
  | word name => some [.word (String.ofList name)]
  | text _ => none
  | closing value => some [.text (String.ofList value)]

def lexFrom : Lexing → List Char → Option (List ODataToken)
  | state, [] => state.finish
  | state, c :: cs => (state.step c).bind fun p => (lexFrom p.2 cs).map (p.1 ++ ·)

def lex (source : String) : Option (List ODataToken) := lexFrom .between source.toList

/-- What may stand behind a word or a literal without being taken for more of it. -/
def Breaks (rest : List Char) : Prop := ∀ c ∈ rest.head?, isNameChar c = false ∧ c ≠ '\''

theorem breaks_nil : Breaks [] := by simp [Breaks]

theorem breaks_cons {c : Char} {cs : List Char} (hname : isNameChar c = false) (hquote : c ≠ '\'') :
    Breaks (c :: cs) := by
  intro d hd
  obtain rfl : c = d := by simpa using hd
  exact ⟨hname, hquote⟩

theorem lexFrom_blank (cs : List Char) : lexFrom .between (' ' :: cs) = lexFrom .between cs := by
  simp [lexFrom, Lexing.step, startAt]

theorem lexFrom_mark {c : Char} (hc : c ∈ marks) (cs : List Char) :
    lexFrom .between (c :: cs) = (lexFrom .between cs).map (.mark c :: ·) := by
  have hstart : startAt c = some ([.mark c], .between) := by
    have hshape : c ≠ ' ' ∧ c ≠ '\'' ∧ isNameChar c = false := by
      simp only [marks, List.mem_cons, List.not_mem_nil, or_false] at hc
      rcases hc with rfl | rfl | rfl | rfl | rfl <;> decide
    rw [startAt, if_neg hshape.1, if_neg hshape.2.1, hshape.2.2, if_neg (by simp), if_pos hc]
  rw [lexFrom, Lexing.step, hstart]
  rfl

/-- A token that is complete when the rest begins is the token before those of the rest. -/
theorem lexFrom_endWith {state : Lexing} {token : ODataToken}
    (hfinish : state.finish = some [token]) {rest : List Char}
    (hstep : ∀ c ∈ rest.head?, state.step c = endWith token (startAt c)) :
    lexFrom state rest = (lexFrom .between rest).map (token :: ·) := by
  cases rest with
  | nil => rw [lexFrom, hfinish, lexFrom]; rfl
  | cons c cs =>
    rw [lexFrom, lexFrom, hstep c (by simp), Lexing.step]
    cases startAt c with
    | none => rfl
    | some p => simp [endWith, Function.comp_def]

theorem lexFrom_inWord {cs : List Char} (hcs : cs.all isNameChar = true) (name rest : List Char)
    (hrest : Breaks rest) :
    lexFrom (.word name) (cs ++ rest) =
      (lexFrom .between rest).map (.word (String.ofList (name ++ cs)) :: ·) := by
  induction cs generalizing name with
  | nil =>
    rw [List.nil_append, List.append_nil]
    refine lexFrom_endWith rfl fun c hc => ?_
    rw [Lexing.step, (hrest c hc).1, if_neg (by simp)]
  | cons c cs ih =>
    have hboth : isNameChar c = true ∧ cs.all isNameChar = true := by simpa using hcs
    rw [List.cons_append, lexFrom, Lexing.step, if_pos hboth.1, Option.bind_some, ih hboth.2,
      List.append_assoc]
    simp [Function.comp_def]

theorem lexFrom_word {name : String} (hname : isName name = true) (hne : name ≠ "")
    {rest : List Char} (hrest : Breaks rest) :
    lexFrom .between (name.toList ++ rest) = (lexFrom .between rest).map (.word name :: ·) := by
  cases hcs : name.toList with
  | nil => exact absurd (String.toList_eq_nil_iff.mp hcs) hne
  | cons c cs =>
    have hall : isNameChar c = true ∧ cs.all isNameChar = true := by
      simpa [isName, hcs] using hname
    have hplain : c ≠ ' ' ∧ c ≠ '\'' := by
      constructor <;> (rintro rfl; exact absurd hall.1 (by decide))
    have hback : String.ofList (c :: cs) = name := by rw [← hcs, String.ofList_toList]
    rw [List.cons_append, lexFrom, Lexing.step, startAt, if_neg hplain.1, if_neg hplain.2,
      if_pos hall.1, Option.bind_some, lexFrom_inWord hall.2 [c] rest hrest, List.singleton_append,
      hback]
    simp [Function.comp_def]

/-- A literal ends at the quote that closes it and at no quote of its value. -/
theorem lexFrom_escaped (value before rest : List Char) :
    lexFrom (.text before)
        ((value.flatMap fun c => if c = '\'' then ['\'', '\''] else [c]) ++ '\'' :: rest) =
      lexFrom (.closing (before ++ value)) rest := by
  induction value generalizing before with
  | nil => simp [lexFrom, Lexing.step]
  | cons c value ih =>
    rw [List.flatMap_cons, List.append_assoc,
      show before ++ c :: value = (before ++ [c]) ++ value by simp, ← ih]
    by_cases hc : c = '\''
    · subst hc
      simp [lexFrom, Lexing.step, Function.comp_def]
    · simp [lexFrom, Lexing.step, hc]

theorem lexFrom_literal (value : String) {rest : List Char} (hrest : Breaks rest) :
    lexFrom .between ('\'' :: ((escape value).toList ++ '\'' :: rest)) =
      (lexFrom .between rest).map (.text value :: ·) := by
  have hopen : ∀ cs, lexFrom .between ('\'' :: cs) = lexFrom (.text []) cs := by
    intro cs
    simp [lexFrom, Lexing.step, startAt]
  rw [hopen, escape, String.toList_ofList, lexFrom_escaped, List.nil_append]
  refine lexFrom_endWith (by simp [Lexing.finish]) fun c hc => ?_
  rw [Lexing.step, if_neg (hrest c hc).2, String.ofList_toList]

def tokens : ODataFilter → List ODataToken
  | never => [.word "false"]
  | anyEq field var literal =>
    [.word field, .mark '/', .word "any", .mark '(', .word var, .mark ':', .word var, .word "eq",
      .text literal, .mark ')']
  | or left right => left.tokens ++ .word "or" :: right.tokens
  | paren inner => .mark '(' :: (inner.tokens ++ [.mark ')'])

/-- The fields have names, and none is the word for the empty filter. -/
def FieldsNamed (f : ODataFilter) : Prop := ∀ p ∈ f.comparisons, p.1 ≠ "" ∧ p.1 ≠ "false"

theorem FieldsNamed.left {left right : ODataFilter} (h : (or left right).FieldsNamed) :
    left.FieldsNamed := fun p hp => h p (List.mem_append_left _ hp)

theorem FieldsNamed.right {left right : ODataFilter} (h : (or left right).FieldsNamed) :
    right.FieldsNamed := fun p hp => h p (List.mem_append_right _ hp)

theorem isName_of_isVariable {var : String} (h : isVariable var = true) :
    isName var = true ∧ var ≠ "" := by
  obtain ⟨hone, hletters⟩ := Bool.and_eq_true_iff.mp h
  constructor
  · rw [isName, List.all_eq_true]
    intro c hc
    have hletter : c.isAlpha = true := List.all_eq_true.mp hletters c hc
    simp [isNameChar, Char.isAlphanum, hletter]
  · rintro rfl
    simp at hone

theorem lexFrom_text {f : ODataFilter} (h : f.WellFormed) (hnamed : f.FieldsNamed)
    {rest : List Char} (hrest : Breaks rest) :
    lexFrom .between (f.text.toList ++ rest) = (lexFrom .between rest).map (f.tokens ++ ·) := by
  have hbreak : ∀ {c : Char} {cs : List Char}, c = ' ' ∨ c ∈ marks → Breaks (c :: cs) := by
    intro c cs hc
    simp only [marks, List.mem_cons, List.not_mem_nil, or_false] at hc
    rcases hc with rfl | rfl | rfl | rfl | rfl | rfl <;> exact breaks_cons (by decide) (by decide)
  induction f generalizing rest with
  | never => exact lexFrom_word (by decide) (by decide) hrest
  | anyEq field var literal =>
    obtain ⟨hfield, hvar⟩ := h
    obtain ⟨hvarName, hvarNe⟩ := isName_of_isVariable hvar
    have hfieldNe : field ≠ "" := (hnamed (field, literal) (List.mem_singleton.mpr rfl)).1
    have htext : (anyEq field var literal).text.toList ++ rest =
        field.toList ++ '/' :: ("any".toList ++ '(' :: (var.toList ++ ':' :: ' ' ::
          (var.toList ++ ' ' :: ("eq".toList ++ ' ' :: '\'' ::
            ((escape literal).toList ++ '\'' :: ')' :: rest))))) := by
      simp [text]
    rw [htext, lexFrom_word hfield hfieldNe (hbreak (by decide)), lexFrom_mark (by decide),
      lexFrom_word (by decide) (by decide) (hbreak (by decide)), lexFrom_mark (by decide),
      lexFrom_word hvarName hvarNe (hbreak (by decide)), lexFrom_mark (by decide), lexFrom_blank,
      lexFrom_word hvarName hvarNe (hbreak (by decide)), lexFrom_blank,
      lexFrom_word (by decide) (by decide) (hbreak (by decide)), lexFrom_blank,
      lexFrom_literal literal (hbreak (by decide)), lexFrom_mark (by decide)]
    simp [tokens, Function.comp_def]
  | or left right ihl ihr =>
    have htext : (or left right).text.toList ++ rest =
        left.text.toList ++ ' ' :: ("or".toList ++ ' ' :: (right.text.toList ++ rest)) := by
      simp [text]
    rw [htext, ihl h.1 hnamed.left (hbreak (by decide)), lexFrom_blank,
      lexFrom_word (by decide) (by decide) (hbreak (by decide)), lexFrom_blank,
      ihr h.2 hnamed.right hrest]
    simp [tokens, Function.comp_def]
  | paren inner ih =>
    have htext : (paren inner).text.toList ++ rest =
        '(' :: (inner.text.toList ++ ')' :: rest) := by
      simp [text]
    rw [htext, lexFrom_mark (by decide), ih h hnamed (hbreak (by decide)), lexFrom_mark (by decide)]
    simp [tokens, Function.comp_def]

theorem lex_text {f : ODataFilter} (h : f.WellFormed) (hnamed : f.FieldsNamed) :
    lex f.text = some f.tokens := by
  have htext := lexFrom_text h hnamed breaks_nil
  rw [List.append_nil, lexFrom] at htext
  rw [lex, htext]
  simp [Lexing.finish]

/-- An expression without what its literals hold. -/
def shape : ODataFilter → ODataFilter
  | never => never
  | anyEq field var _ => anyEq field var ""
  | or left right => or left.shape right.shape
  | paren inner => paren inner.shape

theorem tokens_shape (f : ODataFilter) : f.shape.tokens = f.tokens.map ODataToken.shape := by
  induction f with
  | never => rfl
  | anyEq field var literal => rfl
  | or left right ihl ihr => simp [shape, tokens, ihl, ihr, ODataToken.shape]
  | paren inner ih => simp [shape, tokens, ih, ODataToken.shape]

theorem literals_tokens (f : ODataFilter) :
    f.tokens.filterMap ODataToken.literal? = f.comparisons.map Prod.snd := by
  induction f with
  | never => rfl
  | anyEq field var literal => rfl
  | or left right ihl ihr =>
    simp [tokens, comparisons, ihl, ihr, List.filterMap_cons, ODataToken.literal?]
  | paren inner ih => simp [tokens, comparisons, ih, List.filterMap_cons, ODataToken.literal?]

/-- An operand of `or`, given a way to read what parentheses hold. -/
def readTerm (inside : List ODataToken → Option (ODataFilter × List ODataToken)) :
    List ODataToken → Option (ODataFilter × List ODataToken)
  | .mark '(' :: rest =>
    (inside rest).bind fun p =>
      match p.2 with
      | .mark ')' :: rest => some (paren p.1, rest)
      | _ => none
  | .word field :: rest =>
    if field = "false" then some (never, rest)
    else
      match rest with
      | .mark '/' :: .word quantifier :: .mark '(' :: .word var :: .mark ':' :: .word bound ::
          .word operator :: .text literal :: .mark ')' :: rest =>
        if quantifier = "any" ∧ bound = var ∧ operator = "eq" then
          some (anyEq field var literal, rest)
        else none
      | _ => none
  | _ => none

/-- An expression and the tokens behind it; the fuel bounds the nesting. -/
def readTokens : ℕ → List ODataToken → Option (ODataFilter × List ODataToken)
  | 0, _ => none
  | fuel + 1, ts =>
    (readTerm (readTokens fuel) ts).bind fun p =>
      match p.2 with
      | .word name :: rest =>
        if name = "or" then (readTokens fuel rest).map fun q => (or p.1 q.1, q.2) else none
      | _ => some p

/-- The one expression that a text spells. -/
def parse (source : String) : Option ODataFilter :=
  (lex source).bind fun ts =>
    (readTokens (ts.length + 1) ts).bind fun p => if p.2 = [] then some p.1 else none

/-- No `or` stands to the left of another one, so that the text alone says how to nest. -/
def Nested : ODataFilter → Prop
  | or (or _ _) _ => False
  | or left right => left.Nested ∧ right.Nested
  | paren inner => inner.Nested
  | _ => True

/-- What ends an expression: the end of the text or a closing parenthesis. -/
def Ends (rest : List ODataToken) : Prop := ∀ token ∈ rest.head?, token = .mark ')'

def isOr : ODataFilter → Bool
  | or _ _ => true
  | _ => false

theorem nested_or {left right : ODataFilter} :
    (or left right).Nested ↔ left.isOr = false ∧ left.Nested ∧ right.Nested := by
  cases left <;> simp [Nested, isOr]

theorem tokens_length_pos (f : ODataFilter) : 0 < f.tokens.length := by
  cases f with
  | or left right =>
    rw [tokens, List.length_append, List.length_cons]
    exact Nat.lt_of_lt_of_le (Nat.succ_pos _) (Nat.le_add_left _ _)
  | _ => simp [tokens]

/-- A term is read whole, and an expression too where it ends. -/
theorem readTokens_tokens {f : ODataFilter} (hnested : f.Nested) (hnamed : f.FieldsNamed)
    {fuel : ℕ} (hfuel : f.tokens.length ≤ fuel) (rest : List ODataToken) :
    (f.isOr = false → readTerm (readTokens fuel) (f.tokens ++ rest) = some (f, rest)) ∧
      (Ends rest → readTokens (fuel + 1) (f.tokens ++ rest) = some (f, rest)) := by
  have hwhole : ∀ {g : ODataFilter} {fuel : ℕ} {rest : List ODataToken}, Ends rest →
      readTerm (readTokens fuel) (g.tokens ++ rest) = some (g, rest) →
      readTokens (fuel + 1) (g.tokens ++ rest) = some (g, rest) := by
    intro g fuel rest hends hterm
    rw [readTokens, hterm, Option.bind_some]
    cases rest with
    | nil => rfl
    | cons token rest =>
      obtain rfl := hends token (by simp)
      rfl
  induction f generalizing fuel rest with
  | never => exact ⟨fun _ => rfl, fun hends => hwhole hends rfl⟩
  | anyEq field var literal =>
    have hfield : field ≠ "false" := (hnamed (field, literal) (List.mem_singleton.mpr rfl)).2
    have hterm : readTerm (readTokens fuel) ((anyEq field var literal).tokens ++ rest) =
        some (anyEq field var literal, rest) := by
      simp [tokens, readTerm, hfield]
    exact ⟨fun _ => hterm, fun hends => hwhole hends hterm⟩
  | or left right ihl ihr =>
    obtain ⟨hleft, hnl, hnr⟩ := nested_or.mp hnested
    refine ⟨fun h => by simp [isOr] at h, fun hends => ?_⟩
    have hlength : left.tokens.length + (right.tokens.length + 1) ≤ fuel := by
      simpa [tokens] using hfuel
    obtain ⟨n, rfl⟩ : ∃ n, fuel = n + 1 := ⟨fuel - 1, by omega⟩
    have hterm := (ihl hnl hnamed.left (show left.tokens.length ≤ n + 1 by omega)
      (.word "or" :: (right.tokens ++ rest))).1 hleft
    have hright := (ihr hnr hnamed.right (show right.tokens.length ≤ n by
      have := tokens_length_pos left
      omega) rest).2 hends
    rw [tokens, List.append_assoc, List.cons_append, readTokens, hterm]
    simp [hright]
  | paren inner ih =>
    have hlength : inner.tokens.length + 2 ≤ fuel := by
      rwa [tokens, List.length_cons, List.length_append, List.length_singleton] at hfuel
    obtain ⟨n, rfl⟩ : ∃ n, fuel = n + 1 := ⟨fuel - 1, by omega⟩
    have hinner := (ih hnested hnamed (show inner.tokens.length ≤ n by omega) (.mark ')' :: rest)).2 (by simp [Ends])
    have hterm : readTerm (readTokens (n + 1)) ((paren inner).tokens ++ rest) =
        some (paren inner, rest) := by
      rw [tokens, List.cons_append, List.append_assoc, readTerm]
      simp [hinner]
    exact ⟨fun _ => hterm, fun hends => hwhole hends hterm⟩

/-- The text of an expression is read as that expression. -/
theorem parse_text {f : ODataFilter} (h : f.WellFormed) (hnamed : f.FieldsNamed)
    (hnested : f.Nested) : parse f.text = some f := by
  have hread := (readTokens_tokens hnested hnamed (Nat.le_refl _) []).2 (by simp [Ends])
  rw [List.append_nil] at hread
  rw [parse, lex_text h hnamed, Option.bind_some, hread]
  simp

theorem nested_disjunction {fs : List ODataFilter} (h : ∀ f ∈ fs, f.Nested ∧ f.isOr = false) :
    (disjunction fs).Nested := by
  induction fs with
  | nil => trivial
  | cons f fs ih =>
    cases fs with
    | nil => exact (h f List.mem_cons_self).1
    | cons g fs =>
      have hf := h f List.mem_cons_self
      exact nested_or.mpr ⟨hf.2, hf.1, ih fun k hk => h k (List.mem_cons_of_mem f hk)⟩

theorem shape_disjunction (fs : List ODataFilter) :
    (disjunction fs).shape = disjunction (fs.map shape) := by
  induction fs with
  | nil => rfl
  | cons f fs ih =>
    cases fs with
    | nil => rfl
    | cons g fs => rw [disjunction, shape, ih]; rfl

theorem comparisons_disjunction (fs : List ODataFilter) :
    (disjunction fs).comparisons = fs.flatMap comparisons := by
  induction fs with
  | nil => rfl
  | cons f fs ih =>
    cases fs with
    | nil => simp [disjunction]
    | cons g fs => rw [disjunction, comparisons, ih]; rfl

end ODataFilter

end EngineeringIntelligence.Framework
