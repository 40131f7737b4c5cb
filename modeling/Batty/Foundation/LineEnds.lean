import Batty.Foundation.Substrings
import Batty.Foundation.Text
import Batty.Foundation.Trimming
import Mathlib.Data.List.Forall2
import Mathlib.Data.List.TakeWhile

/-!
# Lines without their endings

A text is a number of lines, each closed by a line feed, and what follows the last line feed
(`exists_unlines`). Reading the lines of what was written drops a carriage return in front of a
line feed and nothing else (`lines_unlines_append`): a line without one is read as it was written.
-/

namespace Batty

/-- The lines, each closed by a line feed. -/
def unlines (lines : List (List Char)) : List Char := lines.flatMap (· ++ ['\n'])

def closeLine (text : List Char) : List Char :=
  if text.getLast? = some '\n' then text else text ++ ['\n']

namespace Text

def stripReturn (line : List Char) : List Char :=
  if line.getLast? = some '\r' then line.dropLast else line

def isBlank (line : List Char) : Bool := (trim line).isEmpty

end Text

section

variable {s line word : List Char} {lines : List (List Char)}

@[simp] theorem unlines_nil : unlines [] = [] := rfl

@[simp] theorem unlines_cons : unlines (line :: lines) = line ++ '\n' :: unlines lines := by
  simp [unlines]

@[simp] theorem unlines_append (lines lines' : List (List Char)) :
    unlines (lines ++ lines') = unlines lines ++ unlines lines' := by
  simp [unlines]

theorem exists_unlines (s : List Char) : ∃ lines last, (∀ line ∈ lines, '\n' ∉ line) ∧
    '\n' ∉ last ∧ s = unlines lines ++ last := by
  induction s with
  | nil => exact ⟨[], [], by simp, by simp, rfl⟩
  | cons c s ih =>
    obtain ⟨lines, last, hlines, hlast, rfl⟩ := ih
    by_cases hc : c = '\n'
    · subst hc
      exact ⟨[] :: lines, last, List.forall_mem_cons.mpr ⟨by simp, hlines⟩, hlast, by simp⟩
    · cases lines with
      | nil => exact ⟨[], c :: last, by simp, by simp [hlast, Ne.symm hc], by simp⟩
      | cons line lines =>
        obtain ⟨hline, hlines⟩ := List.forall_mem_cons.mp hlines
        refine ⟨(c :: line) :: lines, last, List.forall_mem_cons.mpr ⟨?_, hlines⟩, hlast, by simp⟩
        simp [hline, Ne.symm hc]

theorem exists_unlines_closeLine (text : List Char) :
    ∃ lines, (∀ line ∈ lines, '\n' ∉ line) ∧ closeLine text = unlines lines := by
  obtain ⟨lines, last, hlines, hlast, rfl⟩ := exists_unlines text
  rw [closeLine]
  split
  · rename_i hclosed
    refine ⟨lines, hlines, ?_⟩
    cases hnil : last with
    | nil => rw [List.append_nil]
    | cons c last =>
      subst hnil
      rw [List.getLast?_append, Option.or_of_isSome (by simp)] at hclosed
      exact absurd (List.mem_of_getLast? hclosed) hlast
  · refine ⟨lines ++ [last], ?_, by simp [unlines]⟩
    exact List.forall_mem_append.mpr ⟨hlines, List.forall_mem_singleton.mpr hlast⟩

theorem splitOn_unlines (h : ∀ line ∈ lines, '\n' ∉ line) :
    (unlines lines).splitOn '\n' = lines ++ [[]] := by
  induction lines with
  | nil => rfl
  | cons line lines ih =>
    obtain ⟨hline, hlines⟩ := List.forall_mem_cons.mp h
    rw [unlines_cons, List.splitOn_append_cons_self_of_not_mem hline, ih hlines, List.cons_append]

/-- Lines can be told from the text. -/
theorem unlines_inj {lines' : List (List Char)} (h : ∀ line ∈ lines, '\n' ∉ line)
    (h' : ∀ line ∈ lines', '\n' ∉ line) (heq : unlines lines = unlines lines') : lines = lines' := by
  have hpieces := congrArg (List.splitOn '\n') heq
  rw [splitOn_unlines h, splitOn_unlines h'] at hpieces
  exact List.append_cancel_right hpieces

namespace Text

/-! ### Reading lines -/

theorem lines_of_not_mem (h : '\n' ∉ s) : Text.lines s = if s = [] then [] else [s] := by
  have hpieces : s.splitOn '\n' = [s] := by
    rw [List.splitOn_eq_splitOnP]
    exact List.splitOnP_eq_singleton fun c hc => beq_false_of_ne fun heq => h (heq ▸ hc)
  simp [Text.lines, hpieces]

theorem lines_append_newline (h : '\n' ∉ line) (s : List Char) :
    Text.lines (line ++ '\n' :: s) = stripReturn line :: Text.lines s := by
  have hne : ∀ c ∈ line, (c == '\n') = false := fun c hc => beq_false_of_ne fun heq => h (heq ▸ hc)
  have hpieces : (line ++ '\n' :: s).splitOn '\n' = line :: s.splitOn '\n' := by
    rw [List.splitOn_eq_splitOnP, List.splitOn_eq_splitOnP]
    exact List.splitOnP_append_cons_of_forall_mem hne '\n' (by simp) s
  obtain ⟨piece, pieces, hs⟩ := List.exists_cons_of_ne_nil
    (show s.splitOn '\n' ≠ [] by rw [List.splitOn_eq_splitOnP]; exact List.splitOnP_ne_nil _ _)
  simp [Text.lines, hpieces, hs, stripReturn]

theorem lines_unlines_append (h : ∀ line ∈ lines, '\n' ∉ line) (s : List Char) :
    Text.lines (unlines lines ++ s) = lines.map stripReturn ++ Text.lines s := by
  induction lines with
  | nil => rfl
  | cons line lines ih =>
    obtain ⟨hline, hlines⟩ := List.forall_mem_cons.mp h
    rw [unlines_cons, List.append_assoc, List.cons_append, lines_append_newline hline, ih hlines,
      List.map_cons, List.cons_append]

/-! ### Carriage returns -/

theorem stripReturn_isPrefix (line : List Char) : stripReturn line <+: line := by
  rw [stripReturn]
  split
  · exact List.dropLast_prefix line
  · exact List.prefix_rfl

theorem not_mem_stripReturn {c : Char} (h : c ∉ line) : c ∉ stripReturn line :=
  fun hmem => h ((stripReturn_isPrefix line).subset hmem)

theorem stripReturn_of_getLast? (h : line.getLast? ≠ some '\r') : stripReturn line = line :=
  if_neg h

theorem not_mem_of_mem_lines (h : line ∈ Text.lines s) : '\n' ∉ line := by
  obtain ⟨lines, last, hlines, hlast, rfl⟩ := exists_unlines s
  rw [lines_unlines_append hlines, lines_of_not_mem hlast, List.mem_append, List.mem_map] at h
  rcases h with ⟨line, hmem, rfl⟩ | h
  · exact not_mem_stripReturn (hlines line hmem)
  · split at h
    · cases h
    · exact List.mem_singleton.mp h ▸ hlast

theorem stripReturn_append_return (line : List Char) : stripReturn (line ++ ['\r']) = line := by
  rw [stripReturn, if_pos List.getLast?_concat, List.dropLast_concat]

theorem length_stripReturn_of_getLast? (h : line.getLast? = some '\r') :
    (stripReturn line).length + 1 = line.length := by
  obtain ⟨line, rfl⟩ := List.getLast?_eq_some_iff.mp h
  rw [stripReturn_append_return, List.length_append, List.length_singleton]

theorem stripReturn_eq_self_iff : stripReturn line = line ↔ line.getLast? ≠ some '\r' := by
  refine ⟨fun heq hreturn => ?_, stripReturn_of_getLast?⟩
  have hshort := length_stripReturn_of_getLast? hreturn
  rw [heq] at hshort
  omega

theorem map_stripReturn_eq_self_iff :
    lines.map stripReturn = lines ↔ ∀ line ∈ lines, line.getLast? ≠ some '\r' := by
  conv_lhs => rhs; rw [← List.map_id lines]
  simp only [List.map_inj_left, id_eq, stripReturn_eq_self_iff]

theorem forall₂_map_stripReturn (lines : List (List Char)) :
    List.Forall₂ (· <+: ·) (lines.map stripReturn) lines := by
  rw [List.forall₂_map_left_iff, List.forall₂_same]
  exact fun line _ => stripReturn_isPrefix line

/-- What does not end in a carriage return begins a line if it begins what is read of it. -/
theorem isPrefix_stripReturn_iff (h : word.getLast? ≠ some '\r') :
    word <+: stripReturn line ↔ word <+: line := by
  refine ⟨fun hbegins => hbegins.trans (stripReturn_isPrefix line), fun ⟨rest, hline⟩ => ?_⟩
  rw [stripReturn]
  split
  · rename_i hreturn
    rcases List.eq_nil_or_concat rest with rfl | ⟨rest, c, rfl⟩
    · rw [List.append_nil] at hline
      exact absurd (hline ▸ hreturn) h
    · rw [← hline, List.concat_eq_append, ← List.append_assoc, List.dropLast_concat]
      exact List.prefix_append _ _
  · exact ⟨rest, hline⟩

/-! ### Blank lines -/

theorem isBlank_iff : isBlank line = true ↔ ∀ c ∈ line, isWhitespace c = true := by
  have hnil : trim line = [] ↔ (line.dropWhile isWhitespace) = [] := by
    rw [trim, trimEndMatches, List.reverse_eq_nil_iff, trimStartMatches]
    constructor
    · intro h
      by_contra hne
      obtain ⟨c, rest, hcons⟩ := List.exists_cons_of_ne_nil hne
      have hhead : isWhitespace c = false := head?_dropWhile (s := line) c (by rw [hcons]; rfl)
      have hall := List.dropWhile_eq_nil_iff.mp h c (by simp [hcons])
      rw [hhead] at hall
      cases hall
    · intro h
      rw [h]
      rfl
  rw [isBlank, List.isEmpty_iff, hnil, List.dropWhile_eq_nil_iff]

theorem trim_stripReturn (line : List Char) : trim (stripReturn line) = trim line := by
  rw [stripReturn]
  split
  · rename_i hreturn
    obtain ⟨line, rfl⟩ := List.getLast?_eq_some_iff.mp hreturn
    rw [List.dropLast_concat, trim_append_blanks (List.forall_mem_singleton.mpr rfl)]
  · rfl

theorem isBlank_stripReturn (line : List Char) : isBlank (stripReturn line) = isBlank line := by
  rw [isBlank, isBlank, trim_stripReturn]

end Text

end

end Batty
