import EngineeringIntelligence.Framework.JsonReader

namespace EngineeringIntelligence.Framework

namespace Json

/-! `json.loads` with the limits of its interpreter: the digits of an integer and the depth of the
nesting. One reader is run in two ways: it stops at the first mark beyond a limit, or it keeps the
marks it meets. Both meet the same marks up to the first one beyond. -/

/-- What the reader meets that a limit may stop. -/
inductive Mark where
  /-- An array or object, counting itself and those around it. -/
  | container (depth : Nat)
  /-- An atom, with its digits where it is an integer and zero where it is not. -/
  | atom (digits : Nat)
  deriving DecidableEq, Repr

/-- The limits: `depth` containers inside each other, and the digits that `int` converts. -/
def Mark.within (depth : Nat) : Mark → Bool
  | container d => d ≤ depth
  | atom digits => digits ≤ maxIntDigits

/-- What ends a reading: an error of the reader, or a mark beyond the limits. -/
inductive Stop where
  | error (x : LoadsError)
  | beyond (mark : Mark)
  deriving DecidableEq, Repr

/-- How a run of the reader takes a mark and the outcome of a reading that has none. -/
structure Host (m : Type → Type) where
  meet : Mark → m Unit
  lift : {α : Type} → Except LoadsError α → m α

/-! ### Lone surrogates -/

variable (lone : Nat → Char)

/-- A character of a string, where half of a surrogate pair is one too: a Lean text has no place for
it, and `lone` gives the character that stands there. -/
def readAnyChar (cs : List Char) : Reading Char :=
  match readChar cs with
  | .error .surrogate =>
    match readUnit (cs.drop 2) with
    | .error x => .error x
    | .ok (unit, rest) => .ok (lone unit, rest)
  | reading => reading

/-- A string, from after its opening quote. -/
def readAnyString : Nat → List Char → Reading (List Char)
  | 0, _ => .error .fuel
  | n + 1, cs =>
    if cs.head? = some '"' then .ok ([], cs.tail)
    else
      match readAnyChar lone cs with
      | .error x => .error x
      | .ok (c, rest) =>
        match readAnyString n rest with
        | .error x => .error x
        | .ok (s, rest) => .ok (c :: s, rest)

/-! ### The reader -/

/-- The digits of an integer that is not written as a float. -/
def integerDigits (cs : List Char) : Nat :=
  let integer := readInteger (if cs.head? = some '-' then cs.tail else cs)
  let fraction := readFraction integer.2
  if fraction.1 = [] ∧ (readExponent fraction.2).1 = [] then integer.1.length else 0

variable (floatRepr : String → String)

mutual

/-- A value inside `depth` containers. -/
def scanValue {m : Type → Type} [Monad m] (host : Host m) : Nat → Nat → List Char → m (Json × List Char)
  | 0, _, _ => host.lift (.error .fuel)
  | n + 1, depth, cs =>
    if cs.head? = some '"' then do
      let (s, rest) ← host.lift (readAnyString lone n cs.tail)
      pure (str (String.ofList s), rest)
    else if cs.head? = some '[' then do
      host.meet (.container (depth + 1))
      if (skipBlanks cs.tail).head? = some ']' then pure (arr [], (skipBlanks cs.tail).tail)
      else
        let (items, rest) ← scanItems host n (depth + 1) (skipBlanks cs.tail)
        pure (arr items, rest)
    else if cs.head? = some '\x7b' then do
      host.meet (.container (depth + 1))
      if (skipBlanks cs.tail).head? = some '\x7d' then pure (obj [], (skipBlanks cs.tail).tail)
      else
        let (pairs, rest) ← scanFields host n (depth + 1) (skipBlanks cs.tail)
        pure (obj (ofPairs pairs), rest)
    else do
      host.meet (.atom (integerDigits cs))
      host.lift (readAtom floatRepr cs)

/-- The items of an array and its closing bracket. -/
def scanItems {m : Type → Type} [Monad m] (host : Host m) :
    Nat → Nat → List Char → m (List Json × List Char)
  | 0, _, _ => host.lift (.error .fuel)
  | n + 1, depth, cs => do
    let (j, rest) ← scanValue host n depth cs
    if (skipBlanks rest).head? = some ']' then pure ([j], (skipBlanks rest).tail)
    else if (skipBlanks rest).head? = some ',' then
      let (js, rest) ← scanItems host n depth (skipBlanks (skipBlanks rest).tail)
      pure (j :: js, rest)
    else host.lift (.error .decode)

/-- The entries of an object and its closing brace. -/
def scanFields {m : Type → Type} [Monad m] (host : Host m) :
    Nat → Nat → List Char → m (List (String × Json) × List Char)
  | 0, _, _ => host.lift (.error .fuel)
  | n + 1, depth, cs =>
    if cs.head? = some '"' then do
      let (key, rest) ← host.lift (readAnyString lone n cs.tail)
      if (skipBlanks rest).head? = some ':' then
        let (j, rest) ← scanValue host n depth (skipBlanks (skipBlanks rest).tail)
        if (skipBlanks rest).head? = some '\x7d' then
          pure ([(String.ofList key, j)], (skipBlanks rest).tail)
        else if (skipBlanks rest).head? = some ',' then
          let (pairs, rest) ← scanFields host n depth (skipBlanks (skipBlanks rest).tail)
          pure ((String.ofList key, j) :: pairs, rest)
        else host.lift (.error .decode)
      else host.lift (.error .decode)
    else host.lift (.error .decode)

end

/-! ### The two ways to run it -/

/-- The reader that stops at the first mark beyond `depth` containers or the digits of an integer. -/
def limited (depth : Nat) : Host (Except Stop) where
  meet mark := if mark.within depth then .ok () else .error (.beyond mark)
  lift reading := reading.mapError .error

/-- A computation that keeps the marks it met. -/
structure Traced (α : Type) where
  marks : List Mark
  result : Except LoadsError α

instance : Monad Traced where
  pure a := ⟨[], .ok a⟩
  bind t f :=
    match t.result with
    | .error x => ⟨t.marks, .error x⟩
    | .ok a => ⟨t.marks ++ (f a).marks, (f a).result⟩

/-- The reader that no limit stops. -/
def tracing : Host Traced where
  meet mark := ⟨[mark], .ok ()⟩
  lift reading := ⟨[], reading⟩

/-- `json.loads` of an interpreter that nests at most `depth` containers. -/
def decode (depth : Nat) (text : String) : Except Stop Json :=
  match scanValue lone floatRepr (limited depth) (2 * text.toList.length + 1) 0 (skipBlanks text.toList) with
  | .error x => .error x
  | .ok (j, rest) => if skipBlanks rest = [] then .ok j else .error (.error .decode)

/-- The marks of a text, up to its end or its first error of syntax. -/
def marks (text : String) : List Mark :=
  (scanValue lone floatRepr tracing (2 * text.toList.length + 1) 0 (skipBlanks text.toList)).marks

/-! ### They agree up to the first mark beyond -/

/-- A kept run, ended at its first mark beyond the limits. -/
def Traced.cut {α : Type} (depth : Nat) (t : Traced α) : Except Stop α :=
  match t.marks.find? fun mark => !mark.within depth with
  | some mark => .error (.beyond mark)
  | none => t.result.mapError .error

namespace Traced

variable {α β : Type} (depth : Nat)

@[simp] theorem cut_pure (a : α) : cut depth (pure a) = pure a := rfl

@[simp] theorem cut_lift (reading : Except LoadsError α) :
    cut depth (tracing.lift reading) = (limited depth).lift reading := rfl

@[simp] theorem cut_meet (mark : Mark) : cut depth (tracing.meet mark) = (limited depth).meet mark := by
  cases h : mark.within depth <;> simp [cut, tracing, limited, h, Except.mapError]

@[simp] theorem cut_bind (t : Traced α) (f : α → Traced β) :
    cut depth (t >>= f) = cut depth t >>= fun a => cut depth (f a) := by
  obtain ⟨marks, result⟩ := t
  cases result with
  | error x =>
    simp only [cut, bind]
    cases marks.find? fun mark => !mark.within depth <;> rfl
  | ok a =>
    simp only [cut, bind, List.find?_append]
    cases marks.find? fun mark => !mark.within depth <;> rfl

theorem cut_beyond_iff (t : Traced α) : (∃ mark, t.cut depth = .error (.beyond mark)) ↔
    ∃ mark ∈ t.marks, mark.within depth = false := by
  obtain ⟨marks, result⟩ := t
  rw [cut]
  cases hfind : marks.find? fun mark => !mark.within depth with
  | some mark =>
    have hbeyond := List.find?_some hfind
    rw [Bool.not_eq_true'] at hbeyond
    exact ⟨fun _ => ⟨mark, List.mem_of_find?_eq_some hfind, hbeyond⟩, fun _ => ⟨mark, rfl⟩⟩
  | none =>
    constructor
    · rintro ⟨mark, h⟩
      cases result <;> cases h
    · rintro ⟨mark, hmem, hbeyond⟩
      have hwithin := List.find?_eq_none.mp hfind mark hmem
      rw [hbeyond] at hwithin
      exact absurd rfl hwithin

theorem cut_ite {p : Prop} [Decidable p] (t u : Traced α) :
    cut depth (if p then t else u) = if p then cut depth t else cut depth u :=
  apply_ite (cut depth) p t u

end Traced

/-- Cutting what the unlimited reader did gives what the limited one does. -/
theorem cut_scan (limit n : Nat) :
    (∀ depth cs, (scanValue lone floatRepr tracing n depth cs).cut limit =
        scanValue lone floatRepr (limited limit) n depth cs) ∧
      (∀ depth cs, (scanItems lone floatRepr tracing n depth cs).cut limit =
        scanItems lone floatRepr (limited limit) n depth cs) ∧
      ∀ depth cs, (scanFields lone floatRepr tracing n depth cs).cut limit =
        scanFields lone floatRepr (limited limit) n depth cs := by
  induction n with
  | zero =>
    simp [scanValue, scanItems, scanFields]
  | succ n ih =>
    obtain ⟨hvalue, hitems, hfields⟩ := ih
    refine ⟨fun depth cs => ?_, fun depth cs => ?_, fun depth cs => ?_⟩
    · simp only [scanValue, Traced.cut_ite, Traced.cut_bind, Traced.cut_pure, Traced.cut_lift,
        Traced.cut_meet, hitems, hfields]
    · simp only [scanItems, Traced.cut_ite, Traced.cut_bind, Traced.cut_pure, Traced.cut_lift, hvalue,
        hitems]
    · simp only [scanFields, Traced.cut_ite, Traced.cut_bind, Traced.cut_pure, Traced.cut_lift, hvalue,
        hfields]

/-! ### What the limited reader ends with -/

/-- A reading whose errors are those of syntax, and that takes something off the text otherwise. -/
def Advances {α : Type} (cs : List Char) (r : Except Stop (α × List Char)) : Prop :=
  (∀ x, r = .error (.error x) → x = .decode) ∧ ∀ a rest, r = .ok (a, rest) → rest.length < cs.length

variable {α β : Type} {cs ds : List Char} {limit : Nat}

theorem advances_ok {a : α} {rest : List Char} (h : rest.length < cs.length) :
    Advances cs (pure (a, rest) : Except Stop (α × List Char)) := by
  refine ⟨fun x hx => (by cases hx), fun b other hb => ?_⟩
  cases hb
  exact h

theorem advances_decode : Advances cs ((limited limit).lift (.error .decode : Reading α)) := by
  refine ⟨fun x hx => ?_, fun a rest h => (by cases h)⟩
  cases hx
  rfl

theorem Advances.bind {r : Except Stop (α × List Char)} {f : α × List Char → Except Stop (β × List Char)}
    (hr : Advances ds r) (hf : ∀ a rest, rest.length < ds.length → Advances cs (f (a, rest))) :
    Advances cs (r >>= f) := by
  rcases r with stop | ⟨a, rest⟩
  · refine ⟨fun x hx => hr.1 x ?_, fun b rest hb => (by cases hb)⟩
    cases hx
    rfl
  · exact hf a rest (hr.2 a rest rfl)

theorem advances_meet {mark : Mark} {f : Unit → Except Stop (α × List Char)}
    (h : mark.within limit = true → Advances cs (f ())) :
    Advances cs ((limited limit).meet mark >>= f) := by
  rw [limited]
  dsimp only
  split_ifs with hmark
  · exact h hmark
  · exact ⟨fun x hx => (by cases hx), fun a rest ha => (by cases ha)⟩

/-- A reading without limits that only fails on its syntax. -/
theorem advances_lift {r : Reading α} (h : Shortens cs r) (hr : ∀ x, r = .error x → x ≠ .fuel → x = .decode) :
    Advances cs ((limited limit).lift r) := by
  rcases h.outcome with ⟨x, hx, hread⟩ | ⟨a, rest, hrest, hread⟩
  · obtain rfl := hr x hread hx
    rw [hread]
    exact advances_decode
  · rw [hread]
    exact advances_ok hrest

theorem readUnit_error {x : LoadsError} (h : readUnit cs = .error x) : x = .decode := by
  unfold readUnit at h
  split at h
  · split_ifs at h
    exact (Except.error.inj h).symm
  · exact (Except.error.inj h).symm

theorem readUnit_length {cs rest : List Char} {unit : Nat} (h : readUnit cs = .ok (unit, rest)) :
    rest.length < cs.length := (readUnit_shortens cs).2 unit rest h

theorem readLow_error {high : Nat} {x : LoadsError} (h : readLow high cs = .error x) :
    x = .decode ∨ x = .surrogate := by
  unfold readLow at h
  split at h
  · split at h
    · rename_i hunit
      obtain rfl := Except.error.inj h
      exact .inl (readUnit_error hunit)
    · split_ifs at h
      exact .inr (Except.error.inj h).symm
  · exact .inr (Except.error.inj h).symm

theorem readChar_error {x : LoadsError} (h : readChar cs = .error x) : x = .decode ∨ x = .surrogate := by
  unfold readChar at h
  split at h
  · exact .inl (Except.error.inj h).symm
  · split_ifs at h
    · unfold readEscape at h
      split at h
      · exact .inl (Except.error.inj h).symm
      · split_ifs at h
        · split at h
          · rename_i hunit
            obtain rfl := Except.error.inj h
            exact .inl (readUnit_error hunit)
          · split_ifs at h
            · exact readLow_error h
            · exact .inr (Except.error.inj h).symm
        · split at h
          · cases h
          · exact .inl (Except.error.inj h).symm
    · exact .inl (Except.error.inj h).symm

theorem readAnyChar_error {x : LoadsError} (h : readAnyChar lone cs = .error x) : x = .decode := by
  unfold readAnyChar at h
  split at h
  · split at h
    · rename_i hunit
      obtain rfl := Except.error.inj h
      exact readUnit_error hunit
    · cases h
  · rename_i hsurrogate
    rcases readChar_error h with rfl | rfl
    · rfl
    · exact absurd h hsurrogate

theorem readAnyChar_shortens (cs : List Char) : Shortens cs (readAnyChar lone cs) := by
  unfold readAnyChar
  split
  · split
    · rename_i hunit
      rw [readUnit_error hunit]
      exact shortens_error (by decide)
    · rename_i hunit
      have hlength := readUnit_length hunit
      rw [List.length_drop] at hlength
      exact shortens_ok (by omega)
  · exact readChar_shortens cs

theorem readAnyString_shortens (n : Nat) (cs : List Char) (h : cs.length < n) :
    Shortens cs (readAnyString lone n cs) := by
  induction n generalizing cs with
  | zero => omega
  | succ n ih =>
    rw [readAnyString]
    split_ifs with hquote
    · exact shortens_ok (tail_shorter hquote)
    · rcases (readAnyChar_shortens lone cs).outcome with ⟨x, hx, hread⟩ | ⟨c, rest, hrest, hread⟩
      · rw [hread]
        exact shortens_error hx
      · rw [hread]
        rcases (ih rest (by omega)).outcome with ⟨x, hx, hread⟩ | ⟨s, more, hmore, hread⟩
        · dsimp only
          rw [hread]
          exact shortens_error hx
        · dsimp only
          rw [hread]
          exact shortens_ok (by omega)

theorem readAnyString_error {n : Nat} {x : LoadsError} (h : readAnyString lone n cs = .error x)
    (hx : x ≠ .fuel) : x = .decode := by
  induction n generalizing cs with
  | zero => exact absurd (Except.error.inj h).symm hx
  | succ n ih =>
    rw [readAnyString] at h
    split_ifs at h
    cases hchar : readAnyChar lone cs with
    | error y =>
      rw [hchar] at h
      obtain rfl := Except.error.inj h
      exact readAnyChar_error lone hchar
    | ok p =>
      rw [hchar] at h
      cases hstring : readAnyString lone n p.2 with
      | error y =>
        simp only [hstring] at h
        obtain rfl := Except.error.inj h
        exact ih hstring
      | ok q =>
        simp only [hstring] at h
        cases h

/-- An atom fails on its syntax or on the number of its digits. -/
theorem readAtom_error {x : LoadsError} (h : readAtom floatRepr cs = .error x)
    (hdigits : (Mark.atom (integerDigits cs)).within limit = true) : x = .decode := by
  have hle : integerDigits cs ≤ maxIntDigits := of_decide_eq_true hdigits
  unfold readAtom at h
  split at h
  · cases h
  · unfold readNumber at h
    unfold integerDigits at hle
    by_cases hsign : cs.head? = some '-'
    all_goals
      simp only [hsign, if_true, if_false] at h hle
      split_ifs at h with hinteger hfloat hlong
      · exact (Except.error.inj h).symm
      · rw [if_pos hfloat] at hle
        omega

theorem string_advances {n : Nat} (h : cs.length < n) :
    Advances cs ((limited limit).lift (readAnyString lone n cs)) :=
  advances_lift (readAnyString_shortens lone n cs h) fun _ => readAnyString_error lone

theorem scanItems_advances {n depth : Nat} (hvalue : ∀ (depth : Nat) (cs : List Char), 2 * cs.length < n →
      Advances cs (scanValue lone floatRepr (limited limit) n depth cs))
    (hitems : ∀ (depth : Nat) (cs : List Char), 2 * cs.length + 1 < n →
      Advances cs (scanItems lone floatRepr (limited limit) n depth cs))
    (h : 2 * cs.length < n) : Advances cs (scanItems lone floatRepr (limited limit) (n + 1) depth cs) := by
  rw [scanItems]
  refine (hvalue depth cs h).bind fun j rest hrest => ?_
  have hblanks := skipBlanks_length rest
  dsimp only
  split_ifs with hclose hcomma
  · have htail := tail_shorter hclose
    exact advances_ok (by omega)
  · have hafter := afterDelimiter_length hcomma
    refine (hitems depth _ (by omega)).bind fun js more hmore => ?_
    have hlength : more.length < cs.length := by omega
    exact advances_ok hlength
  · exact advances_decode

theorem scanFields_advances {n depth : Nat} (hvalue : ∀ (depth : Nat) (cs : List Char), 2 * cs.length < n →
      Advances cs (scanValue lone floatRepr (limited limit) n depth cs))
    (hfields : ∀ (depth : Nat) (cs : List Char), 2 * cs.length + 1 < n →
      Advances cs (scanFields lone floatRepr (limited limit) n depth cs))
    (h : 2 * cs.length < n) : Advances cs (scanFields lone floatRepr (limited limit) (n + 1) depth cs) := by
  rw [scanFields]
  split_ifs with hquote
  · have htail := tail_shorter hquote
    refine (string_advances lone (by omega)).bind fun key rest hrest => ?_
    dsimp only
    split_ifs with hcolon
    · have hafter := afterDelimiter_length hcolon
      refine (hvalue depth _ (by omega)).bind fun j more hmore => ?_
      have hblanks := skipBlanks_length more
      dsimp only
      split_ifs with hclose hcomma
      · have hlast := tail_shorter hclose
        exact advances_ok (by omega)
      · have hnext := afterDelimiter_length hcomma
        refine (hfields depth _ (by omega)).bind fun pairs left hleft => ?_
        have hlength : left.length < cs.length := by omega
        exact advances_ok hlength
      · exact advances_decode
    · exact advances_decode
  · exact advances_decode

/-- With twice as much fuel as characters, each of the three takes something off the text or stops at
a mark beyond the limits or an error of syntax. -/
theorem scan_advances (n : Nat) :
    (∀ (depth : Nat) (cs : List Char), 2 * cs.length < n →
        Advances cs (scanValue lone floatRepr (limited limit) n depth cs)) ∧
      (∀ (depth : Nat) (cs : List Char), 2 * cs.length + 1 < n →
        Advances cs (scanItems lone floatRepr (limited limit) n depth cs)) ∧
        ∀ (depth : Nat) (cs : List Char), 2 * cs.length + 1 < n →
          Advances cs (scanFields lone floatRepr (limited limit) n depth cs) := by
  induction n with
  | zero => exact ⟨fun _ _ h => by omega, fun _ _ h => by omega, fun _ _ h => by omega⟩
  | succ n ih =>
    obtain ⟨hvalue, hitems, hfields⟩ := ih
    refine ⟨fun depth cs hcs => ?_,
      fun depth cs hcs => scanItems_advances lone floatRepr hvalue hitems (by omega),
      fun depth cs hcs => scanFields_advances lone floatRepr hvalue hfields (by omega)⟩
    have hblanks := skipBlanks_length cs.tail
    rw [scanValue]
    split_ifs with hquote hbracket hnone hbrace hempty
    · have htail := tail_shorter hquote
      refine (string_advances lone (by omega)).bind fun s rest hrest => ?_
      have hlength : rest.length < cs.length := by omega
      exact advances_ok hlength
    · have htail := tail_shorter hbracket
      have hlast := tail_shorter hnone
      exact advances_meet fun _ => advances_ok (by omega)
    · have htail := tail_shorter hbracket
      refine advances_meet fun _ => (hitems (depth + 1) _ (by omega)).bind fun items rest hrest => ?_
      have hlength : rest.length < cs.length := by omega
      exact advances_ok hlength
    · have htail := tail_shorter hbrace
      have hlast := tail_shorter hempty
      exact advances_meet fun _ => advances_ok (by omega)
    · have htail := tail_shorter hbrace
      refine advances_meet fun _ => (hfields (depth + 1) _ (by omega)).bind fun pairs rest hrest => ?_
      have hlength : rest.length < cs.length := by omega
      exact advances_ok hlength
    · exact advances_meet fun hmark =>
        advances_lift (readAtom_shortens floatRepr cs) fun x hx _ => readAtom_error floatRepr hx hmark

/-- The decoder's only own error is that of syntax. -/
theorem decode_error {text : String} {x : LoadsError}
    (h : decode lone floatRepr limit text = .error (.error x)) : x = .decode := by
  have hblanks := skipBlanks_length text.toList
  have hread := (@scan_advances lone floatRepr limit (2 * text.toList.length + 1)).1 0
    (skipBlanks text.toList) (by omega)
  rw [decode] at h
  cases hscan : scanValue lone floatRepr (limited limit) (2 * text.toList.length + 1) 0
      (skipBlanks text.toList) with
  | error stop =>
    rw [hscan] at h
    cases h
    exact hread.1 x hscan
  | ok p =>
    simp only [hscan] at h
    split_ifs at h
    cases h
    rfl

/-- It stops at a limit exactly on the texts that have a mark beyond one. -/
theorem decode_beyond_iff {text : String} :
    (∃ mark, decode lone floatRepr limit text = .error (.beyond mark)) ↔
      ∃ mark ∈ marks lone floatRepr text, mark.within limit = false := by
  have hcut := (cut_scan lone floatRepr limit (2 * text.toList.length + 1)).1 0 (skipBlanks text.toList)
  rw [marks, ← Traced.cut_beyond_iff, hcut, decode]
  cases scanValue lone floatRepr (limited limit) (2 * text.toList.length + 1) 0
      (skipBlanks text.toList) with
  | error stop => simp only [Except.error.injEq]
  | ok p =>
    constructor
    · rintro ⟨mark, h⟩
      dsimp only at h
      split_ifs at h
      cases h
    · rintro ⟨mark, h⟩
      cases h

example : decode (fun _ => '?') id 2 "[[[" = .error (.beyond (.container 3)) := rfl

end Json

end EngineeringIntelligence.Framework
