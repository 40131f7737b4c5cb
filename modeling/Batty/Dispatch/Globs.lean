import Batty.Dispatch.Overlap
import Mathlib.Computability.Language

/-!
# What globs match

A glob is translated to a regular expression, and what the expression matches is a language: the
product of the languages of the glob's tokens. `globMatchesPath` decides it (`globMatchesPath_iff`).

Two globs are not compared by their languages, but by what stands before their first wildcards.
`pathsOverlap_detects`: this misses no path that both match, since such a path begins with what
stands before either's first wildcard. Where one of the two is no glob, nothing else is reported.
-/

namespace Batty

/-! ### Languages -/

/-- The texts that the part of the regular expression matches. -/
def GlobToken.language : GlobToken → Language Char
  | .char c => {[c]}
  | .oneOf => {text | ∃ c, c ≠ '/' ∧ text = [c]}
  | .segment => {text | '/' ∉ text}
  | .anything => {text | '\n' ∉ text}
  | .directories => {text | text = [] ∨ ∃ dirs, '\n' ∉ dirs ∧ text = dirs ++ ['/']}

/-- The paths that a pattern stands for: without wildcards, itself alone. -/
def patternLanguage (pattern : List Char) : Language Char :=
  if hasGlobMagic pattern then ((globTokens pattern).map GlobToken.language).prod else {pattern}

/-- **Detecting overlaps**: none is missed, it does not matter which pattern comes first, and one
that is reported is real unless both patterns are globs. The path is then the one that is no glob,
so that it contains a line feed only if that does. -/
structure DetectsOverlap (left right : List Char) : Prop where
  sound : ∀ path ∈ patternLanguage left, path ∈ patternLanguage right →
    pathsOverlap left right = true
  symmetric : pathsOverlap left right = pathsOverlap right left
  exact : ¬ (hasGlobMagic left = true ∧ hasGlobMagic right = true) →
    pathsOverlap left right = true → ∃ path, (path = left ∨ path = right) ∧
      path ∈ patternLanguage left ∧ path ∈ patternLanguage right

section

variable {pattern path left right : List Char} {tokens : List GlobToken}

theorem skipping_eq_true_iff {p : Char → Bool} {rest : List Char → Bool} :
    skipping p rest path = true ↔
      ∃ skipped, (∀ c ∈ skipped, p c = true) ∧ ∃ left, rest left = true ∧ skipped ++ left = path := by
  induction path with
  | nil => simp [skipping]
  | cons c path ih =>
    rw [skipping, Bool.or_eq_true, Bool.and_eq_true, ih]
    constructor
    · rintro (hrest | ⟨hc, skipped, hskipped, left, hleft, rfl⟩)
      · exact ⟨[], by simp, c :: path, hrest, rfl⟩
      · exact ⟨c :: skipped, List.forall_mem_cons.mpr ⟨hc, hskipped⟩, left, hleft, rfl⟩
    · rintro ⟨skipped, hskipped, left, hleft, happend⟩
      cases skipped with
      | nil => exact .inl (happend ▸ hleft)
      | cons c' skipped =>
        obtain ⟨rfl, rfl⟩ := List.cons.inj happend
        obtain ⟨hc, hskipped⟩ := List.forall_mem_cons.mp hskipped
        exact .inr ⟨hc, skipped, hskipped, left, hleft, rfl⟩

theorem forall_ne_iff {d : Char} : (∀ c ∈ path, decide (c ≠ d) = true) ↔ d ∉ path := by
  simp only [decide_eq_true_eq]
  exact ⟨fun h hmem => h d hmem rfl, fun h c hmem heq => h (heq ▸ hmem)⟩

/-- The matcher decides the language. -/
theorem tokensMatch_iff :
    tokensMatch tokens path = true ↔ path ∈ (tokens.map GlobToken.language).prod := by
  induction tokens generalizing path with
  | nil => simp [tokensMatch, Language.mem_one]
  | cons token tokens ih =>
    rw [List.map_cons, List.prod_cons, Language.mem_mul]
    cases token with
    | char c =>
      constructor
      · intro h
        cases path with
        | nil => cases h
        | cons c' path =>
          obtain ⟨hc, hrest⟩ := Bool.and_eq_true_iff.mp h
          obtain rfl := of_decide_eq_true hc
          exact ⟨[c'], rfl, path, ih.mp hrest, rfl⟩
      · rintro ⟨text, rfl, rest, hrest, rfl⟩
        exact Bool.and_eq_true_iff.mpr ⟨decide_eq_true rfl, ih.mpr hrest⟩
    | oneOf =>
      constructor
      · intro h
        cases path with
        | nil => cases h
        | cons c path =>
          obtain ⟨hc, hrest⟩ := Bool.and_eq_true_iff.mp h
          exact ⟨[c], ⟨c, of_decide_eq_true hc, rfl⟩, path, ih.mp hrest, rfl⟩
      · rintro ⟨text, ⟨c, hc, rfl⟩, rest, hrest, rfl⟩
        exact Bool.and_eq_true_iff.mpr ⟨decide_eq_true hc, ih.mpr hrest⟩
    | segment =>
      simp only [tokensMatch, skipping_eq_true_iff, forall_ne_iff, ih]
      rfl
    | anything =>
      simp only [tokensMatch, skipping_eq_true_iff, forall_ne_iff, ih]
      rfl
    | directories =>
      simp only [tokensMatch, Bool.or_eq_true, skipping_eq_true_iff, forall_ne_iff, ih]
      constructor
      · rintro (hrest | ⟨dirs, hdirs, left, hleft, rfl⟩)
        · exact ⟨[], .inl rfl, path, hrest, rfl⟩
        · split at hleft
          · rename_i rest
            exact ⟨dirs ++ ['/'], .inr ⟨dirs, hdirs, rfl⟩, rest, ih.mp hleft, by simp⟩
          · cases hleft
      · rintro ⟨text, rfl | ⟨dirs, hdirs, rfl⟩, rest, hrest, rfl⟩
        · exact .inl hrest
        · exact .inr ⟨dirs, hdirs, '/' :: rest, ih.mpr hrest, by simp⟩

theorem globMatchesPath_iff :
    globMatchesPath pattern path = true ↔ path ∈ patternLanguage pattern := by
  rw [globMatchesPath, patternLanguage]
  split
  · exact tokensMatch_iff
  · rw [decide_eq_true_iff]
    exact eq_comm

theorem mem_patternLanguage_self (h : hasGlobMagic pattern = false) :
    pattern ∈ patternLanguage pattern := by
  rw [patternLanguage, if_neg (by simp [h])]
  rfl

theorem eq_of_mem_patternLanguage (h : hasGlobMagic pattern = false)
    (hmem : path ∈ patternLanguage pattern) : path = pattern := by
  rw [patternLanguage, if_neg (by simp [h])] at hmem
  exact hmem

/-- A path that a glob matches begins with what stands before the first wildcard. -/
theorem takeWhile_isPrefix_of_mem_prod
    (h : path ∈ ((globTokens pattern).map GlobToken.language).prod) :
    pattern.takeWhile (fun c => c ≠ '*' && c ≠ '?') <+: path := by
  -- By the tokens of the glob: in front of a wildcard that comes first stands nothing.
  induction pattern using globTokens.induct generalizing path with
  | case1 rest _ => simp
  | case2 rest _ _ => simp
  | case3 rest _ _ => simp
  | case4 rest _ => simp
  | case5 c rest hdirectories hanything hsegment honeOf ih =>
    rw [globTokens.eq_5 c rest hdirectories hanything hsegment honeOf, List.map_cons, List.prod_cons,
      Language.mem_mul] at h
    obtain ⟨text, rfl, path, hrest, rfl⟩ := h
    have hc : (decide (c ≠ '*') && decide (c ≠ '?')) = true := by
      simpa using ⟨hsegment, honeOf⟩
    rw [List.takeWhile_cons, if_pos hc, List.singleton_append, List.cons_prefix_cons]
    exact ⟨rfl, ih hrest⟩
  | case6 => simp

theorem takeWhile_isPrefix_of_mem (h : path ∈ patternLanguage pattern) :
    pattern.takeWhile (fun c => c ≠ '*' && c ≠ '?') <+: path := by
  rw [patternLanguage] at h
  split at h
  · exact takeWhile_isPrefix_of_mem_prod h
  · obtain rfl : path = pattern := h
    exact List.takeWhile_prefix _

theorem globLiteralPrefix_isPrefix {literal : List Char} (h : path ∈ patternLanguage pattern)
    (hliteral : globLiteralPrefix pattern = some literal) : literal <+: path := by
  simp only [globLiteralPrefix, Option.ite_none_left_eq_some, Option.some.injEq] at hliteral
  obtain ⟨-, rfl⟩ := hliteral
  exact (Text.trimEndMatches_isPrefix _ _).trans (takeWhile_isPrefix_of_mem h)

/-- Two globs that match one path overlap. -/
theorem globsOverlap_of_mem (hleft : path ∈ patternLanguage left)
    (hright : path ∈ patternLanguage right) : globsOverlap left right = true := by
  rw [globsOverlap, Bool.or_eq_true]
  refine .inr ?_
  cases hl : globLiteralPrefix left with
  | none => rfl
  | some literal =>
    cases hr : globLiteralPrefix right with
    | none => rfl
    | some literal' =>
      -- Both literals begin the path, so that one of them begins the other.
      have hcomparable := List.prefix_or_prefix_of_prefix (globLiteralPrefix_isPrefix hright hr)
        (globLiteralPrefix_isPrefix hleft hl)
      simpa [List.isPrefixOf_iff_prefix] using hcomparable

theorem globsOverlap_comm : globsOverlap left right = globsOverlap right left := by
  simp only [globsOverlap, eq_comm (a := left)]
  cases globLiteralPrefix left with
  | none => cases globLiteralPrefix right <;> rfl
  | some literal =>
    cases globLiteralPrefix right with
    | none => rfl
    | some literal' => simp only [Bool.or_comm]

theorem pathsOverlap_comm : pathsOverlap left right = pathsOverlap right left := by
  rw [pathsOverlap, pathsOverlap]
  cases hasGlobMagic left with
  | false =>
    cases hasGlobMagic right with
    | false => simp only [eq_comm]
    | true => rfl
  | true =>
    cases hasGlobMagic right with
    | false => rfl
    | true => exact globsOverlap_comm

theorem pathsOverlap_of_mem (hleft : path ∈ patternLanguage left)
    (hright : path ∈ patternLanguage right) : pathsOverlap left right = true := by
  rw [pathsOverlap]
  cases hl : hasGlobMagic left with
  | false =>
    obtain rfl := eq_of_mem_patternLanguage hl hleft
    cases hr : hasGlobMagic right with
    | false => exact decide_eq_true (eq_of_mem_patternLanguage hr hright)
    | true => exact globMatchesPath_iff.mpr hright
  | true =>
    cases hr : hasGlobMagic right with
    | false =>
      obtain rfl := eq_of_mem_patternLanguage hr hright
      exact globMatchesPath_iff.mpr hleft
    | true => exact globsOverlap_of_mem hleft hright

/-- Where one pattern is no glob, it is the path that both match. -/
theorem exists_mem_of_pathsOverlap (hone : ¬ (hasGlobMagic left = true ∧ hasGlobMagic right = true))
    (h : pathsOverlap left right = true) : ∃ path, (path = left ∨ path = right) ∧
      path ∈ patternLanguage left ∧ path ∈ patternLanguage right := by
  rw [pathsOverlap] at h
  cases hl : hasGlobMagic left with
  | false =>
    refine ⟨left, .inl rfl, mem_patternLanguage_self hl, ?_⟩
    cases hr : hasGlobMagic right with
    | false =>
      rw [hl, hr] at h
      obtain rfl := of_decide_eq_true h
      exact mem_patternLanguage_self hl
    | true =>
      rw [hl, hr] at h
      exact globMatchesPath_iff.mp h
  | true =>
    cases hr : hasGlobMagic right with
    | false =>
      rw [hl, hr] at h
      exact ⟨right, .inr rfl, globMatchesPath_iff.mp h, mem_patternLanguage_self hr⟩
    | true => exact absurd ⟨hl, hr⟩ hone

/-- **No overlap is missed.** -/
theorem pathsOverlap_detects (left right : List Char) : DetectsOverlap left right where
  sound _ := pathsOverlap_of_mem
  symmetric := pathsOverlap_comm
  exact := exists_mem_of_pathsOverlap

end

end Batty
