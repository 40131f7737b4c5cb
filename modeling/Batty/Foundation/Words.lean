import Mathlib.Data.List.Basic
import Mathlib.Data.List.Infix

/-!
# Words and phrases of a sequence

A sequence over any type is cut into words: the longest runs of elements that a predicate holds
of. The cut is made by one pass with the word under way at hand, and `mem_words_iff` says what it
finds without the pass: the non-empty runs with nothing of a word next to them on either side.

The second part is about phrases looked for in a text put together from pieces. A phrase that
does not hold the first element of the separator lies in one of the pieces.
-/

namespace Batty

variable {α : Type} {p : α → Bool} {s w : List α}

/-! ### Words -/

/-- The words of a sequence, the word under way being `current`. -/
def wordsFrom (p : α → Bool) (current : List α) : List α → List (List α)
  | [] => if current.isEmpty then [] else [current]
  | c :: s =>
    if p c then wordsFrom p (current ++ [c]) s
    else if current.isEmpty then wordsFrom p [] s
    else current :: wordsFrom p [] s

def words (p : α → Bool) (s : List α) : List (List α) := wordsFrom p [] s

/-- `w` stands in `s` with nothing of a word next to it. -/
def StandsIn (p : α → Bool) (w s : List α) : Prop :=
  ∃ before after, s = before ++ w ++ after ∧ (∀ c ∈ before.getLast?, p c = false) ∧
    ∀ c ∈ after.head?, p c = false

theorem getLast?_eq_none_of_all {before : List α} (hall : ∀ c ∈ before, p c)
    (hlast : ∀ c ∈ before.getLast?, p c = false) : before = [] := by
  cases hbefore : before.getLast? with
  | none => exact List.getLast?_eq_none_iff.mp hbefore
  | some c =>
    have hc := hlast c hbefore
    rw [hall c (List.mem_of_getLast? hbefore)] at hc
    cases hc

theorem head?_eq_none_of_all {after : List α} (hall : ∀ c ∈ after, p c)
    (hhead : ∀ c ∈ after.head?, p c = false) : after = [] := by
  cases after with
  | nil => rfl
  | cons c after =>
    have hc := hhead c rfl
    rw [hall c List.mem_cons_self] at hc
    cases hc

/-- In a sequence of nothing but a word, only all of it stands by itself. -/
theorem standsIn_of_all (hall : ∀ c ∈ s, p c) : StandsIn p w s ↔ w = s := by
  constructor
  · rintro ⟨before, after, rfl, hbefore, hafter⟩
    have hnil : before = [] := getLast?_eq_none_of_all (fun c hc => hall c (by simp [hc])) hbefore
    have hnil' : after = [] := head?_eq_none_of_all (fun c hc => hall c (by simp [hc])) hafter
    rw [hnil, hnil', List.nil_append, List.append_nil]
  · rintro rfl
    exact ⟨[], [], by simp, by simp, by simp⟩

/-- A word of a sequence with a gap in it stands before the gap or after it. -/
theorem standsIn_gap {current : List α} {c : α} (hcurrent : ∀ d ∈ current, p d) (hc : p c = false)
    (hw : ∀ d ∈ w, p d) (hne : w ≠ []) :
    StandsIn p w (current ++ c :: s) ↔ w = current ∨ StandsIn p w s := by
  constructor
  · rintro ⟨before, after, heq, hbefore, hafter⟩
    rw [List.append_assoc] at heq
    rcases List.append_eq_append_iff.mp heq with ⟨rest, rfl, hrest⟩ | ⟨rest, rfl, hrest⟩
    · -- The word begins at the gap or behind it.
      cases rest with
      | nil =>
        cases w with
        | nil => exact absurd rfl hne
        | cons d w =>
          obtain ⟨rfl, -⟩ := List.cons.inj hrest
          have hd := hw c List.mem_cons_self
          rw [hc] at hd
          cases hd
      | cons d rest =>
        obtain ⟨rfl, rfl⟩ := List.cons.inj hrest
        refine .inr ⟨rest, after, (List.append_assoc _ _ _).symm, fun e he => hbefore e ?_, hafter⟩
        rw [List.getLast?_append, List.getLast?_cons, he]
        rfl
    · -- The word begins in front of the gap, so it begins with `current`.
      have hnil : before = [] :=
        getLast?_eq_none_of_all (fun d hd => hcurrent d (List.mem_append_left _ hd)) hbefore
      subst hnil
      rcases List.append_eq_append_iff.mp hrest with ⟨more, rfl, hmore⟩ | ⟨more, rfl, hmore⟩
      · left
        have hnil : more = [] := head?_eq_none_of_all (fun d hd => hcurrent d (by simp [hd]))
          fun d hd => hafter d (by rw [hmore, List.head?_append, hd]; rfl)
        rw [hnil, List.nil_append, List.append_nil]
      · cases more with
        | nil => left; simp
        | cons d more =>
          obtain ⟨rfl, -⟩ := List.cons.inj hmore
          have hd := hw c (by simp)
          rw [hc] at hd
          cases hd
  · rintro (rfl | ⟨before, after, rfl, hbefore, hafter⟩)
    · exact ⟨[], c :: s, by simp, by simp, by simpa using hc⟩
    · refine ⟨current ++ c :: before, after, by simp, fun d hd => ?_, hafter⟩
      cases hlast : before.getLast? with
      | none => simp_all
      | some e =>
        have hde : e = d := by simpa [List.getLast?_append, List.getLast?_cons, hlast] using hd
        exact hde ▸ hbefore e hlast

theorem mem_wordsFrom_iff {current : List α} (hcurrent : ∀ c ∈ current, p c) :
    w ∈ wordsFrom p current s ↔ w ≠ [] ∧ (∀ c ∈ w, p c) ∧ StandsIn p w (current ++ s) := by
  induction s generalizing current with
  | nil =>
    rw [List.append_nil, standsIn_of_all hcurrent, wordsFrom]
    by_cases hempty : current = []
    · subst hempty
      simp +contextual
    · rw [if_neg (by simpa using hempty), List.mem_singleton]
      constructor
      · rintro rfl
        exact ⟨hempty, hcurrent, rfl⟩
      · exact fun h => h.2.2
  | cons c s ih =>
    rw [wordsFrom]
    cases hc : p c with
    | true =>
      have hlonger : ∀ d ∈ current ++ [c], p d := by
        intro d hd
        rcases List.mem_append.mp hd with hd | hd
        · exact hcurrent d hd
        · rw [List.mem_singleton.mp hd, hc]
      -- The element belongs to the word that is read.
      rw [if_pos rfl, ih hlonger, List.append_assoc, List.singleton_append]
    | false =>
      -- A gap ends the word, and the rest is read anew.
      have hnone : ∀ d ∈ ([] : List α), p d := by simp
      have hrest := ih hnone
      rw [List.nil_append] at hrest
      have hgap : w ≠ [] → (∀ d ∈ w, p d) →
          (StandsIn p w (current ++ c :: s) ↔ w = current ∨ StandsIn p w s) :=
        fun hne hw => standsIn_gap hcurrent hc hw hne
      rw [if_neg (by simp)]
      by_cases hempty : current = []
      · rw [if_pos (by simpa using hempty), hrest]
        constructor
        · exact fun ⟨hne, hw, h⟩ => ⟨hne, hw, (hgap hne hw).mpr (.inr h)⟩
        · refine fun ⟨hne, hw, h⟩ => ⟨hne, hw, ?_⟩
          exact ((hgap hne hw).mp h).resolve_left fun heq => hne (heq.trans hempty)
      · rw [if_neg (by simpa using hempty), List.mem_cons, hrest]
        constructor
        · rintro (rfl | ⟨hne, hw, h⟩)
          · exact ⟨hempty, hcurrent, (hgap hempty hcurrent).mpr (.inl rfl)⟩
          · exact ⟨hne, hw, (hgap hne hw).mpr (.inr h)⟩
        · rintro ⟨hne, hw, h⟩
          exact ((hgap hne hw).mp h).imp id fun h => ⟨hne, hw, h⟩

/-- **The words of a sequence** are its non-empty runs with nothing of a word next to them. -/
theorem mem_words_iff : w ∈ words p s ↔ w ≠ [] ∧ (∀ c ∈ w, p c) ∧ StandsIn p w s :=
  mem_wordsFrom_iff (by simp)

/-- A gap parts the words in front of it from those behind it. -/
theorem wordsFrom_gap {c : α} (hc : p c = false) (current a b : List α) :
    wordsFrom p current (a ++ c :: b) = wordsFrom p current a ++ words p b := by
  induction a generalizing current with
  | nil =>
    simp only [List.nil_append, wordsFrom, hc, Bool.false_eq_true, if_false, words]
    split <;> simp
  | cons d a ih =>
    simp only [List.cons_append, wordsFrom]
    split
    · exact ih _
    · split
      · exact ih _
      · rw [ih, List.cons_append]

theorem wordsFrom_append {current a : List α} (hcurrent : ∀ c ∈ current, p c) :
    words p (current ++ a) = wordsFrom p current a := by
  have hstep : ∀ before : List α, wordsFrom p before (current ++ a) =
      wordsFrom p (before ++ current) a := by
    induction current with
    | nil => simp
    | cons c current ih =>
      intro before
      obtain ⟨hc, hcurrent⟩ := List.forall_mem_cons.mp hcurrent
      rw [List.cons_append, wordsFrom, if_pos hc, ih hcurrent, List.append_assoc,
        List.singleton_append]
  exact hstep []

/-- The words of words put together with a gap between them are these words. -/
theorem words_intercalate {c : α} (hc : p c = false) (pieces : List (List α))
    (hword : ∀ w ∈ pieces, w ≠ [] ∧ ∀ d ∈ w, p d) :
    words p ([c].intercalate pieces) = pieces := by
  induction pieces with
  | nil => rfl
  | cons w pieces ih =>
    obtain ⟨⟨hne, hw⟩, hpieces⟩ := List.forall_mem_cons.mp hword
    have hone : wordsFrom p w [] = [w] := by rw [wordsFrom, if_neg (by simpa using hne)]
    cases pieces with
    | nil => rw [List.intercalate_singleton, ← List.append_nil w, wordsFrom_append hw, hone,
        List.append_nil]
    | cons w' pieces =>
      have hrest : words p (w ++ c :: [c].intercalate (w' :: pieces)) =
          wordsFrom p w [] ++ words p ([c].intercalate (w' :: pieces)) := by
        rw [wordsFrom_append hw, ← wordsFrom_gap hc, List.nil_append]
      rw [List.intercalate_cons_cons, List.append_assoc, List.singleton_append, hrest, hone,
        ih hpieces, List.singleton_append]

/-- Words that are cut more finely are those of the coarser ones. -/
theorem words_flatMap {q : α → Bool} (hle : ∀ c, q c = true → p c = true) (s : List α) :
    words q s = (words p s).flatMap (words q) := by
  have hstep : ∀ current : List α, words q (current ++ s) =
      (wordsFrom p current s).flatMap (words q) := by
    induction s with
    | nil =>
      intro current
      rw [wordsFrom, List.append_nil]
      split
      · rename_i hempty
        rw [List.isEmpty_iff.mp hempty]
        rfl
      · simp
    | cons c s ih =>
      intro current
      rw [wordsFrom]
      cases hc : p c with
      | true =>
        rw [if_pos rfl, ← ih, List.append_assoc, List.singleton_append]
      | false =>
        have hq : q c = false := by
          by_contra hq
          rw [hle c (by simpa using hq)] at hc
          cases hc
        rw [words, wordsFrom_gap hq, if_neg Bool.false_ne_true, ← words]
        have hrest := ih []
        rw [List.nil_append] at hrest
        split
        · rename_i hempty
          rw [List.isEmpty_iff.mp hempty, hrest]
          rfl
        · rw [List.flatMap_cons, hrest]
  exact hstep []

/-! ### Phrases -/

/-- A phrase without the element `c` lies on one side of it. -/
theorem infix_append_cons {c : α} {a b : List α} (hc : c ∉ w) (h : w <:+: a ++ c :: b) :
    w <:+: a ∨ w <:+: b := by
  obtain ⟨before, after, heq⟩ := h
  rw [List.append_assoc] at heq
  rcases List.append_eq_append_iff.mp heq with ⟨rest, rfl, hrest⟩ | ⟨rest, rfl, hrest⟩
  · -- The phrase begins in front of `c`, and then ends in front of it.
    rcases List.append_eq_append_iff.mp hrest with ⟨more, rfl, -⟩ | ⟨more, rfl, hmore⟩
    · exact .inl ⟨before, more, by rw [List.append_assoc]⟩
    · cases more with
      | nil => exact .inl ⟨before, [], by simp⟩
      | cons d more =>
        obtain ⟨rfl, -⟩ := List.cons.inj hmore
        exact absurd (by simp) hc
  · cases rest with
    | nil =>
      cases w with
      | nil => exact .inl (List.nil_infix)
      | cons d w =>
        obtain ⟨rfl, -⟩ := List.cons.inj hrest
        exact absurd List.mem_cons_self hc
    | cons d rest =>
      obtain ⟨-, rfl⟩ := List.cons.inj hrest
      exact .inr ⟨rest, after, List.append_assoc _ _ _⟩

/-- `w` and `f` have no part in common where `f` stands in a text: neither holds the other, and `w`
reaches over no end of `f`. -/
def Apart (w f : List α) : Prop :=
  ¬ w <:+: f ∧ ¬ f <:+: w ∧ (∀ back ∈ f.tails, back <+: w → back = []) ∧
    ∀ front ∈ f.inits, front <:+ w → front = []

instance [DecidableEq α] (w f : List α) : Decidable (Apart w f) :=
  inferInstanceAs (Decidable (_ ∧ _ ∧ _ ∧ _))

/-- A phrase lies on one side of a text that it is apart from. -/
theorem Apart.infix_append_iff {f a b : List α} (h : Apart w f) :
    w <:+: a ++ (f ++ b) ↔ w <:+: a ∨ w <:+: b := by
  obtain ⟨hwf, hfw, hbacks, hfronts⟩ := h
  constructor
  · rintro ⟨before, after, heq⟩
    rw [List.append_assoc] at heq
    rcases List.append_eq_append_iff.mp heq with ⟨rest, rfl, hrest⟩ | ⟨rest, -, hrest⟩
    · -- The phrase begins in front of `f`.
      rcases List.append_eq_append_iff.mp hrest with ⟨more, rfl, -⟩ | ⟨more, rfl, hmore⟩
      · exact .inl ⟨before, more, by rw [List.append_assoc]⟩
      · rcases List.append_eq_append_iff.mp hmore with ⟨behind, rfl, -⟩ | ⟨behind, rfl, -⟩
        · exact absurd ⟨rest, behind, List.append_assoc _ _ _⟩ hfw
        · have hnone : more = [] :=
            hfronts more (List.mem_inits _ _ |>.mpr (List.prefix_append _ _))
              (List.suffix_append _ _)
          exact .inl ⟨before, [], by rw [hnone]; simp⟩
    · rcases List.append_eq_append_iff.mp hrest with ⟨more, -, hmore⟩ | ⟨more, rfl, hmore⟩
      · -- It begins behind `f`.
        exact .inr ⟨more, after, by rw [hmore, List.append_assoc]⟩
      · rcases List.append_eq_append_iff.mp hmore with ⟨behind, rfl, -⟩ | ⟨behind, rfl, hbehind⟩
        · exact absurd ⟨rest, behind, List.append_assoc _ _ _⟩ hwf
        · have hnone : more = [] :=
            hbacks more (List.mem_tails _ _ |>.mpr (List.suffix_append _ _))
              (List.prefix_append _ _)
          exact .inr ⟨[], after, by rw [hnone, hbehind]; rfl⟩
  · rintro (h | h)
    · exact List.IsInfix.trans h (List.prefix_append _ _).isInfix
    · exact List.IsInfix.trans h
        (List.IsInfix.trans (List.suffix_append _ _).isInfix (List.suffix_append _ _).isInfix)

/-- A phrase that does not begin with `d` lies behind a `d` in front. -/
theorem infix_of_infix_cons {d : α} {a : List α} (hd : d ∉ w.head?) (hne : w ≠ [])
    (h : w <:+: d :: a) : w <:+: a := by
  rcases List.infix_cons_iff.mp h with hprefix | h
  · cases w with
    | nil => exact absurd rfl hne
    | cons e w => exact absurd (by simpa using (List.cons_prefix_cons.mp hprefix).1) hd
  · exact h

/-- A phrase found in pieces joined by the two elements `c` and `d` is found in a piece, if it
does not hold the first of these and does not begin with the second. -/
theorem infix_intercalate {c d : α} {pieces : List (List α)} (hc : c ∉ w) (hd : d ∉ w.head?)
    (hne : w ≠ []) (h : w <:+: [c, d].intercalate pieces) : ∃ piece ∈ pieces, w <:+: piece := by
  induction pieces with
  | nil => exact absurd (List.eq_nil_of_infix_nil (by simpa using h)) hne
  | cons piece pieces ih =>
    cases pieces with
    | nil => exact ⟨piece, by simp, by simpa using h⟩
    | cons next pieces =>
      have hjoin : [c, d].intercalate (piece :: next :: pieces) =
          piece ++ c :: d :: [c, d].intercalate (next :: pieces) := by
        simp [List.intercalate, List.intersperse]
      rw [hjoin] at h
      rcases infix_append_cons hc h with h | h
      · exact ⟨piece, List.mem_cons_self, h⟩
      · obtain ⟨found, hfound, h⟩ := ih (infix_of_infix_cons hd hne h)
        exact ⟨found, List.mem_cons_of_mem _ hfound, h⟩

end Batty
