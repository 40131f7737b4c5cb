import Batty.Foundation.Text
import Mathlib.Data.List.TakeWhile

/-!
# Trimming

Blanks at the ends of a text make no difference to what is left of it when it is trimmed.
-/

namespace Batty

namespace Text

theorem isWhitespace_of_isAlphanum {c : Char} (h : c.isAlphanum = true) :
    isWhitespace c = false := by
  change (decide (c.val ≥ 'A'.val ∧ c.val ≤ 'Z'.val) || (c.val ≥ 'a'.val && c.val ≤ 'z'.val)
    || (c.val ≥ '0'.val && c.val ≤ '9'.val)) = true at h
  simp only [Bool.or_eq_true, Bool.and_eq_true, decide_eq_true_eq, UInt32.le_iff_toNat_le,
    ge_iff_le] at h
  simp only [isWhitespace, Char.toNat]
  simp at h ⊢
  omega

theorem trimEndMatches_append (p : Char → Bool) (a b : List Char) :
    trimEndMatches p (a ++ b) =
      if trimEndMatches p b = [] then trimEndMatches p a else a ++ trimEndMatches p b := by
  simp only [trimEndMatches, List.reverse_append, List.dropWhile_append, List.isEmpty_iff,
    List.reverse_eq_nil_iff]
  split <;> simp

/-- What is trimmed off at the end is blank. -/
theorem eq_trimEndMatches_append (p : Char → Bool) (s : List Char) :
    ∃ blanks, s = trimEndMatches p s ++ blanks ∧ ∀ c ∈ blanks, p c = true := by
  refine ⟨(s.reverse.takeWhile p).reverse, ?_, fun c hc => ?_⟩
  · rw [trimEndMatches, ← List.reverse_append, List.takeWhile_append_dropWhile,
      List.reverse_reverse]
  · exact List.mem_takeWhile_imp (List.mem_reverse.mp hc)

theorem trim_append_blanks {blanks : List Char} (h : ∀ c ∈ blanks, isWhitespace c = true)
    (s : List Char) : trim (s ++ blanks) = trim s := by
  have hend : trimEndMatches isWhitespace blanks = [] := by
    rw [trimEndMatches, List.reverse_eq_nil_iff, List.dropWhile_eq_nil_iff]
    exact fun c hc => h c (List.mem_reverse.mp hc)
  unfold trim trimStartMatches
  rw [List.dropWhile_append]
  split
  · rename_i hempty
    rw [List.isEmpty_iff.mp hempty, List.dropWhile_eq_nil_iff.mpr h]
  · rw [trimEndMatches_append, if_pos hend]

theorem trim_cons_ne_nil {c : Char} (hc : isWhitespace c = false) (s : List Char) :
    trim (c :: s) ≠ [] := by
  rw [trim, trimStartMatches, List.dropWhile_cons_of_neg (by simp [hc]), trimEndMatches, Ne,
    List.reverse_eq_nil_iff, List.dropWhile_eq_nil_iff]
  intro hall
  have hblank := hall c (List.mem_reverse.mpr List.mem_cons_self)
  rw [hc] at hblank
  cases hblank

theorem trim_blanks_append {blanks : List Char} (h : ∀ c ∈ blanks, isWhitespace c = true)
    (s : List Char) : trim (blanks ++ s) = trim s := by
  have hstart : blanks.dropWhile isWhitespace = [] := List.dropWhile_eq_nil_iff.mpr h
  rw [trim, trim, trimStartMatches, trimStartMatches, List.dropWhile_append, hstart]
  simp

/-- A text without blanks at its ends is left as it is. -/
theorem trim_eq_self {s : List Char} (hfirst : ∀ c ∈ s.head?, isWhitespace c = false)
    (hlast : ∀ c ∈ s.getLast?, isWhitespace c = false) : trim s = s := by
  have hstart : s.dropWhile isWhitespace = s := by
    cases s with
    | nil => rfl
    | cons c s => rw [List.dropWhile_cons_of_neg (by simp [hfirst c rfl])]
  have hend : s.reverse.dropWhile isWhitespace = s.reverse := by
    cases hs : s.reverse with
    | nil => rfl
    | cons c rest =>
      have hc : c ∈ s.getLast? := by rw [← List.head?_reverse, hs]; rfl
      rw [List.dropWhile_cons_of_neg (by simp [hlast c hc])]
  rw [trim, trimStartMatches, hstart, trimEndMatches, hend, List.reverse_reverse]

/-- Trimming the end first makes no difference. -/
theorem trim_trimEndMatches (s : List Char) : trim (trimEndMatches isWhitespace s) = trim s := by
  obtain ⟨blanks, hs, hblanks⟩ := eq_trimEndMatches_append isWhitespace s
  conv_rhs => rw [hs, trim_append_blanks hblanks]

end Text

end Batty
