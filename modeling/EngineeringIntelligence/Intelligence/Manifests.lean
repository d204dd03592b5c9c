import EngineeringIntelligence.Framework.Regex
import EngineeringIntelligence.Framework.Sorted
import EngineeringIntelligence.Framework.Text
import EngineeringIntelligence.Topology.Projections

namespace EngineeringIntelligence.Intelligence

open EngineeringIntelligence.Framework EngineeringIntelligence.Topology
open Regex (ways Place word)

/-! What a service graph is told by the manifests of a checkout. -/

/-- `["']`. -/
def isQuote (c : Char) : Bool := c = '"' || c = '\''

/-- `[^\s"']`. -/
def isPlain (c : Char) : Bool := !isPythonSpace c && !isQuote c

/-- `[^\n"']`. -/
def isListed (c : Char) : Bool := c ≠ '\n' && !isQuote c

/-- `\s*["']?(...+)`. -/
def valuePattern (value : Char → Bool) : Regex :=
  .seq (.many isPythonSpace) (.seq (.opt (.one isQuote)) (.group (.many1 value)))

/-- `text.split(",")`. -/
def splitCommas (text : List Char) : List (List Char) := text.splitOn ','

/-- The names of a list that is written with commas. -/
def listedNames (raw : String) : List String :=
  sortedSet (((splitCommas raw.toList).map fun part => strip (String.ofList part)).filter (· ≠ ""))

/-- A text, unless it is empty. -/
def nonEmpty (raw : String) : List String := if raw = "" then [] else [raw]

theorem infix_of_mem_nonEmpty {raw v : String} (h : v ∈ nonEmpty raw) : v.toList <:+: raw.toList := by
  unfold nonEmpty at h
  split at h
  · cases h
  · rw [List.mem_singleton.mp h]

theorem infix_strip_ofList (cs : List Char) : (strip (String.ofList cs)).toList <:+: cs := by
  rw [strip, trimBy, String.toList_ofList, String.toList_ofList, ← List.reverse_infix, List.reverse_reverse]
  exact (List.dropWhile_suffix _).isInfix.trans
    (List.reverse_infix.mpr (List.dropWhile_suffix isPythonSpace).isInfix)

theorem infix_intercalate {s part : List Char} {parts : List (List Char)} (h : part ∈ parts) :
    part <:+: s.intercalate parts := by
  induction parts with
  | nil => cases h
  | cons first parts ih =>
    rcases List.mem_cons.mp h with rfl | hmem
    · cases parts with
      | nil => rw [List.intercalate_singleton]
      | cons second parts =>
        rw [List.intercalate_cons_cons]
        exact (List.prefix_append part _).isInfix.trans (List.prefix_append _ _).isInfix
    · rw [List.intercalate_cons_of_ne_nil (List.ne_nil_of_mem hmem)]
      exact (ih hmem).trans (List.suffix_append _ _).isInfix

theorem infix_of_mem_splitCommas {cs part : List Char} (h : part ∈ splitCommas cs) : part <:+: cs := by
  have hinfix := infix_intercalate (s := [',']) h
  rwa [splitCommas, List.intercalate_splitOn] at hinfix

theorem infix_of_mem_listedNames {raw v : String} (h : v ∈ listedNames raw) : v.toList <:+: raw.toList := by
  obtain ⟨hmem, -⟩ := List.mem_filter.mp (mem_sortedSet.mp h)
  obtain ⟨part, hpart, rfl⟩ := List.mem_map.mp hmem
  exact (infix_strip_ofList part).trans (infix_of_mem_splitCommas hpart)

/-- One of the patterns: its keys, by the regex and by the names this spells, the characters of a
value, and the values that are made of what the group holds. -/
structure FieldPattern where
  key : Regex
  names : List (List Char)
  value : Char → Bool
  values : String → List String
  spells : ∀ x y, y ∈ ways key x ↔ ∃ name ∈ names,
    y.before = name.reverse ++ x.before ∧ x.after = name ++ y.after ∧ y.groups = x.groups
  named : ∀ name ∈ names, name ≠ [] ∧ name.all (fun c => !isPythonSpace c && !isQuote c && c ≠ ':') = true
  value_newline : value '\n' = false
  value_quote : ∀ c, isQuote c = true → value c = false
  values_empty : values "" = []
  values_infix : ∀ raw v, v ∈ values raw → v.toList <:+: raw.toList

namespace FieldPattern
variable (f : FieldPattern)

/-- `(?m)^\s*(?:...):` and a value. -/
def regex : Regex :=
  .seq .lineStart (.seq (.many isPythonSpace) (.seq f.key (.seq (.one (· = ':')) (valuePattern f.value))))

/-- Where the group of the match starts, and what it holds. -/
def found (content : List Char) : Option (Nat × List Char) :=
  (f.regex.search content).bind fun m => m.2.groups.head?

/-- `_match`. -/
def firstMatch (content : String) : Option String :=
  (f.found content.toList).map fun g => strip (String.ofList g.2)

end FieldPattern

theorem mem_ways_alternatives {names : List Char} {more : List Char} {x y : Place} :
    y ∈ ways (.alt (word names) (word more)) x ↔ ∃ name ∈ [names, more],
      y.before = name.reverse ++ x.before ∧ x.after = name ++ y.after ∧ y.groups = x.groups := by
  simp only [ways, List.mem_append, Regex.mem_ways_word, List.mem_cons, List.not_mem_nil, or_false,
    exists_eq_or_imp, exists_eq_left]

def appName : List Char := ['a', 'p', 'p']

def appSuffix : List Char :=
  ['.', 'k', 'u', 'b', 'e', 'r', 'n', 'e', 't', 'e', 's', '.', 'i', 'o', '/', 'n', 'a', 'm', 'e']

def serviceName : List Char := ['s', 'e', 'r', 'v', 'i', 'c', 'e']

/-- `app(?:\.kubernetes\.io/name)?|service`. -/
def serviceField : FieldPattern where
  key := .alt (.seq (word appName) (.opt (word appSuffix))) (word serviceName)
  names := [appName ++ appSuffix, appName, serviceName]
  value := isPlain
  values := nonEmpty
  spells x y := by
    simp only [ways, List.mem_append, List.mem_flatMap, Regex.mem_ways_word, List.mem_cons, List.not_mem_nil,
      or_false, exists_eq_or_imp, exists_eq_left]
    constructor
    · rintro (⟨z, ⟨hbefore, hafter, hgroups⟩, ⟨hbefore', hafter', hgroups'⟩ | rfl⟩ | h)
      · left
        rw [hbefore', hbefore, hafter, hafter', hgroups', hgroups]
        exact ⟨by simp, by simp, rfl⟩
      · exact Or.inr (Or.inl ⟨hbefore, hafter, hgroups⟩)
      · exact Or.inr (Or.inr h)
    · rintro (⟨hbefore, hafter, hgroups⟩ | h | h)
      · left
        refine ⟨⟨appName.reverse ++ x.before, appSuffix ++ y.after, x.groups⟩, ⟨rfl, ?_, rfl⟩, Or.inl ⟨?_, rfl, ?_⟩⟩
        · rw [hafter, List.append_assoc]
        · rw [hbefore, List.reverse_append, List.append_assoc]
        · exact hgroups
      · exact Or.inl ⟨y, h, Or.inr rfl⟩
      · exact Or.inr h
  named := by decide
  value_newline := by decide
  value_quote c hc := by simp [isPlain, hc]
  values_empty := rfl
  values_infix _ _ := infix_of_mem_nonEmpty

/-- `owner|team`. -/
def ownerField : FieldPattern where
  key := .alt (word ['o', 'w', 'n', 'e', 'r']) (word ['t', 'e', 'a', 'm'])
  names := [['o', 'w', 'n', 'e', 'r'], ['t', 'e', 'a', 'm']]
  value := isPlain
  values := nonEmpty
  spells _ _ := mem_ways_alternatives
  named := by decide
  value_newline := by decide
  value_quote c hc := by simp [isPlain, hc]
  values_empty := rfl
  values_infix _ _ := infix_of_mem_nonEmpty

/-- `tier|service-tier`. -/
def tierField : FieldPattern where
  key := .alt (word ['t', 'i', 'e', 'r']) (word ['s', 'e', 'r', 'v', 'i', 'c', 'e', '-', 't', 'i', 'e', 'r'])
  names := [['t', 'i', 'e', 'r'], ['s', 'e', 'r', 'v', 'i', 'c', 'e', '-', 't', 'i', 'e', 'r']]
  value := isPlain
  values := nonEmpty
  spells _ _ := mem_ways_alternatives
  named := by decide
  value_newline := by decide
  value_quote c hc := by simp [isPlain, hc]
  values_empty := rfl
  values_infix _ _ := infix_of_mem_nonEmpty

/-- `dependencies|depends-on`. -/
def dependenciesField : FieldPattern where
  key := .alt (word ['d', 'e', 'p', 'e', 'n', 'd', 'e', 'n', 'c', 'i', 'e', 's'])
    (word ['d', 'e', 'p', 'e', 'n', 'd', 's', '-', 'o', 'n'])
  names := [['d', 'e', 'p', 'e', 'n', 'd', 'e', 'n', 'c', 'i', 'e', 's'],
    ['d', 'e', 'p', 'e', 'n', 'd', 's', '-', 'o', 'n']]
  value := isListed
  values := listedNames
  spells _ _ := mem_ways_alternatives
  named := by decide
  value_newline := by decide
  value_quote c hc := by simp [isListed, hc]
  values_empty := by decide +kernel
  values_infix _ _ := infix_of_mem_listedNames

/-- `_tier_value`. -/
def tierValue (value : String) : Int :=
  match [("critical", 1), ("tier-1", 1), ("1", 1), ("high", 2), ("tier-2", 2), ("2", 2), ("standard", 3),
      ("tier-3", 3), ("3", 3)].find? (·.1 = value) with
  | some entry => entry.2
  | none => 3

/-- `path.endswith((".yaml", ".yml"))`. -/
def isYaml (path : String) : Bool :=
  ".yaml".toList.isSuffixOf path.toList || ".yml".toList.isSuffixOf path.toList

/-- `metadata_from_manifest`. -/
def metadataFromManifest (path content : String) : Option ServiceMetadata :=
  if !isYaml path then none
  else
    match serviceField.firstMatch content with
    | none => none
    | some service =>
      if service = "" then none
      else
        some
          { service
            owner := ownerField.firstMatch content
            tier := tierValue (lower ((tierField.firstMatch content).getD "3"))
            dependencies := listedNames ((dependenciesField.firstMatch content).getD "") }

end EngineeringIntelligence.Intelligence
