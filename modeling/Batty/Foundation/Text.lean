import Mathlib.Algebra.Order.Ring.Int
import Mathlib.Data.List.Basic

/-!
# Text

Task files are read with the string functions of the source language's standard library. They
are restated here over lists of characters, which is what they are about: trimming, lines,
splitting, substring search, case folding of the ASCII letters and the decimal reading of a
32-bit or 64-bit number.

The one law needed later is `parseU32_repr`: a 32-bit number that was printed reads back.
-/

namespace Batty

namespace Text

/-- The `White_Space` property of Unicode, which `trim` and its kin go by. -/
def isWhitespace (c : Char) : Bool :=
  let n := c.toNat
  (9 ≤ n && n ≤ 13) || n == 0x20 || n == 0x85 || n == 0xa0 || n == 0x1680 ||
    (0x2000 ≤ n && n ≤ 0x200a) || n == 0x2028 || n == 0x2029 || n == 0x202f || n == 0x205f ||
    n == 0x3000

def trimStartMatches (p : Char → Bool) (s : List Char) : List Char := s.dropWhile p

def trimEndMatches (p : Char → Bool) (s : List Char) : List Char :=
  (s.reverse.dropWhile p).reverse

def trim (s : List Char) : List Char :=
  trimEndMatches isWhitespace (trimStartMatches isWhitespace s)

/-- The lines of a text, without their endings. A carriage return belongs to the ending only
in front of a line feed, and a final line feed opens no further line. -/
def lines (s : List Char) : List (List Char) :=
  let stripReturn (line : List Char) : List Char :=
    if line.getLast? = some '\r' then line.dropLast else line
  let pieces := s.splitOn '\n'
  let last := pieces.getLast?.getD []
  pieces.dropLast.map stripReturn ++ if last = [] then [] else [last]

/-- Every non-overlapping occurrence of `sub`, from left to right, as the text before it and
the text after it. `skip` counts down the characters of an occurrence already reported. -/
def occurrencesFrom (sub before : List Char) (skip : Nat) :
    List Char → List (List Char × List Char)
  | [] => []
  | c :: s =>
    match skip with
    | k + 1 => occurrencesFrom sub (before ++ [c]) k s
    | 0 =>
      if sub.isPrefixOf (c :: s) then
        (before, (c :: s).drop sub.length) ::
          occurrencesFrom sub (before ++ [c]) (sub.length - 1) s
      else occurrencesFrom sub (before ++ [c]) 0 s

/-- The occurrences of a non-empty `sub` in a text. -/
def occurrences (sub s : List Char) : List (List Char × List Char) := occurrencesFrom sub [] 0 s

def toAsciiLowercase (s : List Char) : List Char := s.map Char.toLower

/-- Decimal digits, with an optional plus sign in front, for a number below `2 ^ 32`. -/
def parseU32 (s : List Char) : Option Nat :=
  let digits := match s with
    | '+' :: rest => rest
    | s => s
  if digits.isEmpty || !digits.all Char.isDigit then none
  else
    let n := Nat.ofDigitChars 10 digits 0
    if n < 2 ^ 32 then some n else none

def parseDigits (digits : List Char) : Option Nat :=
  if digits.isEmpty || !digits.all Char.isDigit then none else some (Nat.ofDigitChars 10 digits 0)

/-- The same for a number below `2 ^ 64`. -/
def parseU64 (s : List Char) : Option Nat :=
  let digits := match s with
    | '+' :: rest => rest
    | s => s
  (parseDigits digits).filter (· < 2 ^ 64)

/-- A signed number of 64 bits. -/
def parseI64 : List Char → Option Int
  | '-' :: digits => ((parseDigits digits).filter (· ≤ 2 ^ 63)).map fun n => -n
  | '+' :: digits => ((parseDigits digits).filter (· < 2 ^ 63)).map Int.ofNat
  | digits => ((parseDigits digits).filter (· < 2 ^ 63)).map Int.ofNat

theorem trimEndMatches_isPrefix (p : Char → Bool) (s : List Char) : trimEndMatches p s <+: s := by
  rw [trimEndMatches, ← List.reverse_suffix, List.reverse_reverse]
  exact List.dropWhile_suffix p

theorem dropWhile_of_head {p : Char → Bool} {s : List Char} (h : ∀ c ∈ s.head?, p c = false) :
    s.dropWhile p = s := by
  cases s with
  | nil => rfl
  | cons c s => rw [List.dropWhile_cons_of_neg (by simp [h c rfl])]

theorem head?_dropWhile {p : Char → Bool} {s : List Char} :
    ∀ c ∈ (s.dropWhile p).head?, p c = false := by
  induction s with
  | nil => simp
  | cons c s ih =>
    cases hc : p c with
    | true => simpa [List.dropWhile_cons, hc] using ih
    | false => simp [hc]

theorem trim_trim (s : List Char) : trim (trim s) = trim s := by
  have hstart : trimStartMatches isWhitespace (trim s) = trim s := by
    refine dropWhile_of_head fun c hc => ?_
    obtain ⟨rest, hrest⟩ := trimEndMatches_isPrefix isWhitespace (trimStartMatches isWhitespace s)
    refine head?_dropWhile (s := s) c ?_
    rw [← trimStartMatches, ← hrest, List.head?_append, ← trim]
    simp [Option.mem_def.mp hc]
  have hend : trimEndMatches isWhitespace (trim s) = trim s := by
    rw [trim, trimEndMatches, trimEndMatches, List.reverse_reverse,
      dropWhile_of_head (fun c hc => head?_dropWhile c hc)]
  rw [trim, hstart, hend]

theorem parseU32_toDigits {n : Nat} (h : n < 2 ^ 32) : parseU32 (Nat.toDigits 10 n) = some n := by
  have hdigit : ∀ c ∈ Nat.toDigits 10 n, c.isDigit := fun c hc =>
    Nat.isDigit_of_mem_toDigits (by decide) (by decide) hc
  have hsign : ∀ s, Nat.toDigits 10 n ≠ '+' :: s := fun s hs =>
    absurd (hdigit '+' (hs ▸ List.mem_cons_self)) (by decide)
  have hne : (Nat.toDigits 10 n).isEmpty = false := by simp
  have hall : (Nat.toDigits 10 n).all Char.isDigit = true := List.all_eq_true.mpr hdigit
  unfold parseU32
  split
  · exact absurd ‹_› (hsign _)
  · have hvalue : Nat.ofDigitChars 10 (Nat.toDigits 10 n) 0 = n := by
      simp [Nat.ofDigitChars_toDigits]
    rw [if_neg (by simp [hne, hall])]
    show (if Nat.ofDigitChars 10 (Nat.toDigits 10 n) 0 < 2 ^ 32 then
      some (Nat.ofDigitChars 10 (Nat.toDigits 10 n) 0) else none) = some n
    rw [hvalue, if_pos h]

theorem lt_of_parseU32 {s : List Char} {n : Nat} (h : parseU32 s = some n) : n < 2 ^ 32 := by
  simp only [parseU32, Option.ite_none_left_eq_some, Option.ite_none_right_eq_some,
    Option.some.injEq] at h
  obtain ⟨-, hlt, rfl⟩ := h
  exact hlt

theorem parseU64_of_digits {digits : List Char} (hne : digits ≠ [])
    (h : ∀ c ∈ digits, c.isDigit = true) :
    parseU64 digits = (some (Nat.ofDigitChars 10 digits 0)).filter (· < 2 ^ 64) := by
  have hparse : parseDigits digits = some (Nat.ofDigitChars 10 digits 0) := by
    have hempty : digits.isEmpty = false := by simpa using hne
    rw [parseDigits, if_neg (by simpa [hempty] using h)]
  unfold parseU64
  split
  · exact absurd (h '+' List.mem_cons_self) (by decide)
  · exact congrArg (Option.filter _) hparse

/-- **Round trip.** -/
theorem parseU32_repr {n : Nat} (h : n < 2 ^ 32) : parseU32 (toString n).toList = some n := by
  rw [Nat.toString_eq_repr, Nat.toList_repr]
  exact parseU32_toDigits h

end Text

end Batty
