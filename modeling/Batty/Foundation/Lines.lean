import Mathlib.Data.List.Basic

/-!
# Lines with their endings

A text is cut behind each line feed, so that its lines are its pieces and the last line may lack
an ending. Cutting is undone by gluing the lines together; what is glued together is cut into the
same lines again exactly if no line but the last lacks its ending (`splitInclusive_flatten`).
-/

namespace Batty

/-- The lines of a text, each with its ending. -/
def splitInclusive : List Char → List (List Char)
  | [] => []
  | c :: text =>
    if c = '\n' then [c] :: splitInclusive text
    else
      match splitInclusive text with
      | [] => [[c]]
      | line :: lines => (c :: line) :: lines

/-- The line is closed by a line feed. -/
def Ended (line : List Char) : Prop := line.getLast? = some '\n'

instance (line : List Char) : Decidable (Ended line) :=
  inferInstanceAs (Decidable (line.getLast? = some '\n'))

/-- One line: something without a line feed in it, or closed by one. -/
def IsLine (line : List Char) : Prop :=
  ∃ body, '\n' ∉ body ∧ (line = body ++ ['\n'] ∨ line = body ∧ body ≠ [])

/-- Lines of which only the last may lack its ending. -/
def AreLines : List (List Char) → Prop
  | [] => True
  | line :: lines => IsLine line ∧ (lines ≠ [] → Ended line) ∧ AreLines lines

section

variable {line body text : List Char} {lines lines' : List (List Char)}

theorem flatten_splitInclusive (text : List Char) : (splitInclusive text).flatten = text := by
  induction text with
  | nil => rfl
  | cons c text ih =>
    rw [splitInclusive]
    split
    · rw [List.flatten_cons, ih, List.singleton_append]
    · split
      · rename_i hnone
        rw [hnone] at ih
        simp [← ih]
      · rename_i line lines hsome
        rw [hsome, List.flatten_cons] at ih
        rw [List.flatten_cons, List.cons_append, ih]

theorem IsLine.ne_nil (h : IsLine line) : line ≠ [] := by
  obtain ⟨body, -, rfl | ⟨rfl, hne⟩⟩ := h
  · simp
  · exact hne

theorem IsLine.cons {c : Char} (h : IsLine line) (hc : c ≠ '\n') : IsLine (c :: line) := by
  obtain ⟨body, hbody, hline⟩ := h
  refine ⟨c :: body, by simp [hbody, Ne.symm hc], ?_⟩
  rcases hline with rfl | ⟨rfl, -⟩
  · exact .inl rfl
  · exact .inr ⟨rfl, List.cons_ne_nil _ _⟩

theorem isLine_singleton (c : Char) : IsLine [c] := by
  by_cases hc : c = '\n'
  · exact ⟨[], List.not_mem_nil, .inl (by rw [hc, List.nil_append])⟩
  · exact ⟨[c], by simpa using Ne.symm hc, .inr ⟨rfl, List.cons_ne_nil _ _⟩⟩

theorem ended_append (hne : body ≠ []) : Ended (text ++ body) ↔ Ended body := by
  rw [Ended, Ended, List.getLast?_append_of_ne_nil _ hne]

/-- A line that is not ended has no line feed in it. -/
theorem IsLine.not_mem_of_not_ended (h : IsLine line) (hended : ¬ Ended line) : '\n' ∉ line := by
  obtain ⟨body, hbody, rfl | ⟨rfl, -⟩⟩ := h
  · exact absurd (by simp [Ended]) hended
  · exact hbody

/-- A line may be prolonged at its front by a text without a line feed. -/
theorem IsLine.append (h : IsLine line) (hbody : '\n' ∉ body) : IsLine (body ++ line) := by
  induction body with
  | nil => exact h
  | cons c body ih =>
    rw [List.mem_cons, not_or] at hbody
    exact (ih hbody.2).cons (Ne.symm hbody.1)

theorem areLines_splitInclusive (text : List Char) : AreLines (splitInclusive text) := by
  induction text with
  | nil => trivial
  | cons c text ih =>
    rw [splitInclusive]
    split
    · rename_i hc
      exact ⟨isLine_singleton c, fun _ => by simp [Ended, hc], ih⟩
    · rename_i hc
      split
      · exact ⟨isLine_singleton c, fun h => absurd rfl h, trivial⟩
      · rename_i line lines hsome
        rw [hsome] at ih
        obtain ⟨hline, hended, hlines⟩ := ih
        refine ⟨hline.cons hc, fun hne => ?_, hlines⟩
        have happend : Ended ([c] ++ line) ↔ Ended line := ended_append hline.ne_nil
        exact happend.mpr (hended hne)

theorem splitInclusive_of_not_mem (hbody : '\n' ∉ body) (hne : body ≠ []) :
    splitInclusive body = [body] := by
  induction body with
  | nil => exact absurd rfl hne
  | cons c body ih =>
    rw [List.mem_cons, not_or] at hbody
    rw [splitInclusive, if_neg (Ne.symm hbody.1)]
    by_cases hnil : body = []
    · rw [hnil]
      rfl
    · rw [ih hbody.2 hnil]

theorem splitInclusive_append_newline (hbody : '\n' ∉ body) (text : List Char) :
    splitInclusive (body ++ '\n' :: text) = (body ++ ['\n']) :: splitInclusive text := by
  induction body with
  | nil => rw [List.nil_append, List.nil_append, splitInclusive, if_pos rfl]
  | cons c body ih =>
    rw [List.mem_cons, not_or] at hbody
    rw [List.cons_append, splitInclusive, if_neg (Ne.symm hbody.1), ih hbody.2, List.cons_append]

/-- **Gluing lines together is undone by cutting.** -/
theorem splitInclusive_flatten (h : AreLines lines) : splitInclusive lines.flatten = lines := by
  induction lines with
  | nil => rfl
  | cons line lines ih =>
    obtain ⟨⟨body, hbody, hline⟩, hended, hlines⟩ := h
    rw [List.flatten_cons]
    rcases hline with rfl | ⟨rfl, hne⟩
    · rw [List.append_assoc, List.singleton_append, splitInclusive_append_newline hbody, ih hlines]
    · by_cases hnil : lines = []
      · rw [hnil, List.flatten_nil, List.append_nil, splitInclusive_of_not_mem hbody hne]
      · exact absurd (List.mem_of_getLast? (hended hnil)) hbody

theorem areLines_append : AreLines (lines ++ lines') ↔
    AreLines lines ∧ AreLines lines' ∧ (lines' ≠ [] → ∀ line ∈ lines, Ended line) := by
  induction lines with
  | nil => simp [AreLines]
  | cons line lines ih =>
    simp only [List.cons_append, AreLines, ih, List.mem_cons, forall_eq_or_imp, List.append_eq_nil_iff,
      ne_eq, not_and_or]
    constructor
    · rintro ⟨hline, hended, hlines, hlines', hall⟩
      exact ⟨⟨hline, fun hne => hended (.inl hne), hlines⟩, hlines', fun hne =>
        ⟨hended (.inr hne), hall hne⟩⟩
    · rintro ⟨⟨hline, hended, hlines⟩, hlines', hall⟩
      exact ⟨hline, fun hne => hne.elim hended fun hne => (hall hne).1, hlines, hlines',
        fun hne => (hall hne).2⟩

theorem AreLines.isLine (h : AreLines lines) : ∀ line ∈ lines, IsLine line := by
  induction lines with
  | nil => simp
  | cons line lines ih => exact List.forall_mem_cons.mpr ⟨h.1, ih h.2.2⟩

/-- Every line is ended if the last one is. -/
theorem AreLines.ended (h : AreLines lines) (hlast : ∀ line ∈ lines.getLast?, Ended line) :
    ∀ line ∈ lines, Ended line := by
  induction lines with
  | nil => simp
  | cons line lines ih =>
    obtain ⟨-, hended, hlines⟩ := h
    by_cases hnil : lines = []
    · subst hnil
      simpa using hlast
    · rw [List.getLast?_cons_of_ne_nil hnil] at hlast
      exact List.forall_mem_cons.mpr ⟨hended hnil, ih hlines hlast⟩

/-- A line that is not ended is the last one. -/
theorem AreLines.getLast?_of_not_ended (h : AreLines lines) (hmem : line ∈ lines) (hended : ¬ Ended line) :
    lines.getLast? = some line := by
  obtain ⟨before, after, rfl⟩ := List.append_of_mem hmem
  by_cases hnil : after = []
  · rw [hnil, List.getLast?_concat]
  · exact absurd (((areLines_append.mp h).2.1).2.1 hnil) hended

theorem areLines_of_ended (hline : ∀ line ∈ lines, IsLine line) (hended : ∀ line ∈ lines, Ended line) :
    AreLines lines := by
  induction lines with
  | nil => trivial
  | cons line lines ih =>
    rw [List.forall_mem_cons] at hline hended
    exact ⟨hline.1, fun _ => hended.1, ih hline.2 hended.2⟩

/-- A line that is not ended and that something is put behind is glued to what comes next. -/
theorem splitInclusive_glue {last first : List Char} (hlines : AreLines lines)
    (hended : ∀ line ∈ lines, Ended line) (hlast : '\n' ∉ last) (hrest : AreLines (first :: lines')) :
    splitInclusive ((lines ++ [last]) ++ first :: lines').flatten =
      lines ++ (last ++ first) :: lines' := by
  have hglue : ((lines ++ [last]) ++ first :: lines').flatten =
      (lines ++ (last ++ first) :: lines').flatten := by simp
  rw [hglue, splitInclusive_flatten]
  refine areLines_append.mpr ⟨hlines, ⟨hrest.1.append hlast, fun hne => ?_, hrest.2.2⟩, fun _ => hended⟩
  rw [ended_append hrest.1.ne_nil]
  exact hrest.2.1 hne

end

end Batty
