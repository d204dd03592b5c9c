import Mathlib.Algebra.GroupWithZero.Nat
import Mathlib.Data.List.Basic
import Mathlib.Data.List.Nodup

namespace EngineeringIntelligence.Framework

/-! Texts put together from fields: decimal numerals, and fields joined by a separator. -/

theorem toDigits_injective {m n : Nat} (h : Nat.toDigits 10 m = Nat.toDigits 10 n) : m = n := by
  rw [← Nat.ofDigitChars_ten_toDigits (n := m), h, Nat.ofDigitChars_ten_toDigits]

/-- The characters of a numeral. -/
theorem toList_toString_int (n : Int) :
    (toString n).toList =
      if 0 ≤ n then Nat.toDigits 10 n.toNat else '-' :: Nat.toDigits 10 (-n).toNat := by
  rw [Int.toString_eq_repr, Int.repr_eq_if]
  split
  · rw [Nat.toList_repr]
  · rw [String.toList_append, Nat.toList_repr]
    rfl

theorem numeral_chars {n : Int} {c : Char} (h : c ∈ (toString n).toList) :
    c.isDigit = true ∨ c = '-' := by
  have hdigit : ∀ m, c ∈ Nat.toDigits 10 m → c.isDigit = true := fun m hm =>
    Nat.isDigit_of_mem_toDigits (by decide) (by decide) hm
  rw [toList_toString_int] at h
  split at h
  · exact Or.inl (hdigit _ h)
  · rcases List.mem_cons.mp h with h | h
    · exact Or.inr h
    · exact Or.inl (hdigit _ h)

theorem numeral_injective {m n : Int} (h : toString m = toString n) : m = n := by
  have hdash : ∀ k rest, Nat.toDigits 10 k ≠ '-' :: rest := by
    intro k rest hk
    have hd := Nat.isDigit_of_mem_toDigits (b := 10) (n := k) (c := '-') (by decide) (by decide)
      (by rw [hk]; exact List.mem_cons_self)
    revert hd
    decide
  have hlist := congrArg String.toList h
  rw [toList_toString_int, toList_toString_int] at hlist
  split at hlist
  · split at hlist
    · have := toDigits_injective hlist
      omega
    · exact absurd hlist (hdash _ _)
  · split at hlist
    · exact absurd hlist.symm (hdash _ _)
    · have := toDigits_injective (List.cons.inj hlist).2
      omega

section
variable {α : Type} {sep : α}

/-- Fields with a separator between each two. -/
def joinFields (sep : α) : List (List α) → List α
  | [] => []
  | [field] => field
  | field :: next :: rest => field ++ sep :: joinFields sep (next :: rest)

/-- Two texts split at their first separator have the same two parts. -/
theorem field_inj {a a' b b' : List α} (ha : sep ∉ a) (ha' : sep ∉ a')
    (h : a ++ sep :: b = a' ++ sep :: b') : a = a' ∧ b = b' := by
  induction a generalizing a' with
  | nil =>
    cases a' with
    | nil => exact ⟨rfl, (List.cons.inj h).2⟩
    | cons x a' =>
      have hx := (List.cons.inj h).1
      exact absurd (hx ▸ List.mem_cons_self) ha'
  | cons x a ih =>
    cases a' with
    | nil =>
      have hx := (List.cons.inj h).1
      exact absurd (hx ▸ List.mem_cons_self) ha
    | cons y a' =>
      obtain ⟨rfl, hrest⟩ := List.cons.inj h
      obtain ⟨rfl, rfl⟩ := ih (fun hm => ha (List.mem_cons_of_mem _ hm))
        (fun hm => ha' (List.mem_cons_of_mem _ hm)) hrest
      exact ⟨rfl, rfl⟩

theorem joinFields_inj_of_clean {fields others : List (List α)}
    (hlen : fields.length = others.length) (hf : ∀ field ∈ fields, sep ∉ field)
    (ho : ∀ field ∈ others, sep ∉ field) (h : joinFields sep fields = joinFields sep others) :
    fields = others := by
  induction fields generalizing others with
  | nil => exact (List.length_eq_zero_iff.mp hlen.symm).symm
  | cons field rest ih =>
    cases others with
    | nil => simp at hlen
    | cons other more =>
      cases rest with
      | nil =>
        cases more with
        | nil => rw [show field = other from h]
        | cons next more => simp at hlen
      | cons next rest =>
        cases more with
        | nil => simp at hlen
        | cons next' more =>
          obtain ⟨rfl, hrest⟩ := field_inj (hf field List.mem_cons_self)
            (ho other List.mem_cons_self) h
          rw [ih (by simpa using hlen) (fun g hg => hf g (List.mem_cons_of_mem _ hg))
            (fun g hg => ho g (List.mem_cons_of_mem _ hg)) hrest]

variable [DecidableEq α]

theorem count_joinFields (field : List α) (rest : List (List α)) :
    (joinFields sep (field :: rest)).count sep =
      ((field :: rest).map (List.count sep)).sum + rest.length := by
  induction rest generalizing field with
  | nil => simp [joinFields]
  | cons next rest ih =>
    rw [joinFields, List.count_append, List.count_cons_self, ih next]
    simp only [List.map_cons, List.sum_cons, List.length_cons]
    omega

/-- Clean fields are told apart from any other fields of the same number: a separator inside
one of the others would be one too many. -/
theorem joinFields_inj {fields others : List (List α)} (hlen : fields.length = others.length)
    (hclean : ∀ field ∈ fields, sep ∉ field)
    (h : joinFields sep fields = joinFields sep others) : fields = others := by
  cases fields with
  | nil => exact (List.length_eq_zero_iff.mp hlen.symm).symm
  | cons field rest =>
    cases others with
    | nil => simp at hlen
    | cons other more =>
      have hcount := congrArg (List.count sep) h
      rw [count_joinFields, count_joinFields] at hcount
      have hzero : ((field :: rest).map (List.count sep)).sum = 0 := by
        apply List.sum_eq_zero_iff_forall_eq_nat.mpr
        intro n hn
        obtain ⟨g, hg, rfl⟩ := List.mem_map.mp hn
        exact List.count_eq_zero_of_not_mem (hclean g hg)
      have hlen' : rest.length = more.length := by simpa using hlen
      have hother : ((other :: more).map (List.count sep)).sum = 0 := by omega
      refine joinFields_inj_of_clean hlen hclean ?_ h
      intro g hg
      apply List.count_eq_zero.mp
      exact List.sum_eq_zero_iff_forall_eq_nat.mp hother _ (List.mem_map_of_mem hg)

end

section
variable {α : Type} {sep : α}

/-- Two texts split at their last separator have the same two parts. -/
theorem last_field_inj {a a' b b' : List α} (hb : sep ∉ b) (hb' : sep ∉ b')
    (h : a ++ sep :: b = a' ++ sep :: b') : a = a' ∧ b = b' := by
  have hreverse : b.reverse ++ sep :: a.reverse = b'.reverse ++ sep :: a'.reverse := by
    simpa using congrArg List.reverse h
  obtain ⟨hlast, hfirst⟩ := field_inj (by simpa using hb) (by simpa using hb') hreverse
  exact ⟨List.reverse_inj.mp hfirst, List.reverse_inj.mp hlast⟩

variable [DecidableEq α]

/-- The pieces of joined fields are the pieces of the fields. -/
theorem splitOn_joined {fields : List (List α)} (h : fields ≠ []) :
    ([sep].intercalate fields).splitOn sep = fields.flatMap (List.splitOn sep) := by
  induction fields with
  | nil => exact absurd rfl h
  | cons field rest ih =>
    cases rest with
    | nil => simp
    | cons next rest =>
      rw [List.intercalate_cons_cons, List.append_assoc, List.singleton_append, List.splitOn_append_cons_self,
        ih (List.cons_ne_nil next rest), ← List.flatMap_cons]

/-- Joined fields are one text exactly if the fields have the same pieces in the same order. -/
theorem joined_eq_iff {fields others : List (List α)} (hf : fields ≠ []) (ho : others ≠ []) :
    [sep].intercalate fields = [sep].intercalate others ↔
      fields.flatMap (List.splitOn sep) = others.flatMap (List.splitOn sep) := by
  rw [← splitOn_joined hf, ← splitOn_joined ho]
  constructor
  · intro h
    rw [h]
  · intro h
    have hjoin := congrArg (List.intercalate [sep]) h
    rwa [List.intercalate_splitOn, List.intercalate_splitOn] at hjoin

end

/-- A text of ASCII characters for any text: each character as a run of ones closed by a
zero, after a letter that no hex digest starts with. -/
def spell (text : String) : String :=
  String.ofList ('z' :: text.toList.flatMap (fun c => List.replicate c.toNat '1' ++ ['0']))

theorem spell_injective : Function.Injective spell := by
  intro s t h
  have hlist := (List.cons.inj (String.ofList_inj.mp h)).2
  apply String.toList_inj.mp
  generalize s.toList = xs at hlist
  generalize t.toList = ys at hlist
  induction xs generalizing ys with
  | nil =>
    cases ys with
    | nil => rfl
    | cons y ys => simp at hlist
  | cons x xs ih =>
    cases ys with
    | nil => simp at hlist
    | cons y ys =>
      have hzero : ∀ n, '0' ∉ List.replicate n '1' := by
        intro n hmem
        exact absurd (List.eq_of_mem_replicate hmem) (by decide)
      simp only [List.flatMap_cons, List.append_assoc, List.singleton_append] at hlist
      obtain ⟨hchar, hrest⟩ := field_inj (hzero _) (hzero _) hlist
      have hnat : x.toNat = y.toNat := by simpa using congrArg List.length hchar
      rw [Char.toNat_inj.mp hnat, ih ys hrest]

theorem spell_ascii {text : String} {c : Char} (h : c ∈ (spell text).toList) : c.toNat < 128 := by
  simp only [spell, String.toList_ofList, List.mem_cons, List.mem_flatMap, List.mem_append,
    List.mem_replicate, List.mem_nil_iff, or_false] at h
  rcases h with rfl | ⟨d, -, ⟨-, rfl⟩ | rfl⟩ <;> decide

/-- A digest that is known on one text, and some injective digest elsewhere. -/
def digestAt (known digest text : String) : String := if text = known then digest else spell text

theorem digestAt_injective {known digest : String} (h : digest.toList.head? ≠ some 'z') :
    Function.Injective (digestAt known digest) := by
  have hz : ∀ text, digest ≠ spell text := by
    intro text he
    apply h
    rw [he]
    simp [spell]
  intro x y hxy
  unfold digestAt at hxy
  split at hxy
  · next hx =>
    split at hxy
    · next hy => rw [hx, hy]
    · exact absurd hxy (hz y)
  · split at hxy
    · exact absurd hxy.symm (hz x)
    · exact spell_injective hxy

/-- The same with several known texts. -/
def digestsAt (known : List (String × String)) (text : String) : String :=
  (known.lookup text).getD (spell text)

@[simp] theorem digestsAt_cons_self (text digest : String) (known : List (String × String)) :
    digestsAt ((text, digest) :: known) text = digest := by
  simp [digestsAt]

theorem digestsAt_cons_ne {text other digest : String} (known : List (String × String)) (h : text ≠ other) :
    digestsAt ((other, digest) :: known) text = digestsAt known text := by
  have hbeq : (text == other) = false := beq_eq_false_iff_ne.mpr h
  simp [digestsAt, List.lookup_cons, hbeq]

theorem digestsAt_injective {known : List (String × String)} (hdigests : (known.map (·.2)).Nodup)
    (h : ∀ p ∈ known, p.2.toList.head? ≠ some 'z') : Function.Injective (digestsAt known) := by
  have hmem : ∀ {text digest}, known.lookup text = some digest → (text, digest) ∈ known := by
    intro text digest hlookup
    obtain ⟨l, k, hsplit, -⟩ := List.lookup_eq_some_iff.mp hlookup
    rw [hsplit]
    simp
  have hz : ∀ {text text' digest}, known.lookup text = some digest → digest ≠ spell text' := by
    intro text text' digest hlookup he
    apply h _ (hmem hlookup)
    rw [he]
    simp [spell]
  intro x y hxy
  unfold digestsAt at hxy
  cases hx : known.lookup x with
  | none =>
    cases hy : known.lookup y with
    | none =>
      rw [hx, hy] at hxy
      exact spell_injective hxy
    | some digest =>
      rw [hx, hy] at hxy
      exact absurd hxy.symm (hz hy)
  | some digest =>
    cases hy : known.lookup y with
    | none =>
      rw [hx, hy] at hxy
      exact absurd hxy (hz hx)
    | some digest' =>
      rw [hx, hy] at hxy
      have hpair : (x, digest) = (y, digest') :=
        List.inj_on_of_nodup_map hdigests (hmem hx) (hmem hy) hxy
      exact congrArg Prod.fst hpair

theorem digestsAt_ne_blank {known : List (String × String)} (h : ∀ p ∈ known, p.2 ≠ "")
    (text : String) : digestsAt known text ≠ "" := by
  unfold digestsAt
  cases hlookup : known.lookup text with
  | none => simp [spell]
  | some digest =>
    obtain ⟨l, k, hsplit, -⟩ := List.lookup_eq_some_iff.mp hlookup
    exact h (text, digest) (by rw [hsplit]; simp)

end EngineeringIntelligence.Framework
