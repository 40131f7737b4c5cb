import Batty.Foundation.Lines
import Mathlib.Data.List.Perm.Basic
import Mathlib.Data.List.GetD
import Mathlib.Data.List.TakeWhile

/-!
# Additive merges

Two variants of a base that only add lines to it are merged by putting what either adds before a
line of the base in front of that line, the present side first. The lines are moved about with
their endings, and the last line of a variant may have none: when both variants add something
behind the base, that line is glued to the first line the other side adds there
(`not_keepsBothSides_unended`). Otherwise both sides are kept (`keepsBothSides_iff_tailsFit`).
-/

namespace Batty

/-! ### The merge -/

def splitLinesPreservingEndings (text : List Char) : List (List Char) :=
  if text = [] then [] else splitInclusive text

section

variable {α : Type} [DecidableEq α]

/-- What stands in the variant before each line of the base, and behind the last. -/
def slotsFrom : List α → List α → Option (List (List α))
  | [], variant => some [variant]
  | baseLine :: baseLines, variant =>
    match variant.dropWhile (· ≠ baseLine) with
    | [] => none
    | _ :: rest => (slotsFrom baseLines rest).map (variant.takeWhile (· ≠ baseLine) :: ·)

end

def insertionSlotsRelativeToBase (baseLines : List (List Char)) (variant : List Char) :
    Option (List (List (List Char))) :=
  slotsFrom baseLines (splitLinesPreservingEndings variant)

/-- What is put where a line of the base is to follow: what both sides have there is put once. -/
def appendSlot (output : List Char) (currentSlot incomingSlot : List (List Char)) : List Char :=
  output ++ currentSlot.flatten ++ if currentSlot ≠ incomingSlot then incomingSlot.flatten else []

/-- Go through the lines of the base, with a slot of each side for every line. -/
def mergeSlots (merged : List Char) :
    List (List Char) → List (List (List Char)) → List (List (List Char)) → List Char
  | baseLine :: baseLines, currentSlot :: currentSlots, incomingSlot :: incomingSlots =>
    mergeSlots (appendSlot merged currentSlot incomingSlot ++ baseLine) baseLines currentSlots
      incomingSlots
  | [], currentSlot :: _, incomingSlot :: _ => appendSlot merged currentSlot incomingSlot
  | _, _, _ => merged

def mergeAdditiveOnlyText (base current incoming : List Char) : Option (List Char) := do
  let baseLines := splitLinesPreservingEndings base
  let currentSlots ← insertionSlotsRelativeToBase baseLines current
  let incomingSlots ← insertionSlotsRelativeToBase baseLines incoming
  return mergeSlots [] baseLines currentSlots incomingSlots

/-! ### Slots -/

section

variable {α : Type} [DecidableEq α] {baseLines variant slot slot' : List α}

/-- **The alignment is found if there is one.** -/
theorem slotsFrom_isSome_iff : (slotsFrom baseLines variant).isSome ↔ baseLines.Sublist variant := by
  induction baseLines generalizing variant with
  | nil => simp [slotsFrom]
  | cons baseLine baseLines ih =>
    induction variant with
    | nil => simp [slotsFrom]
    | cons line variant ihv =>
      by_cases hline : line = baseLine
      · subst hline
        simp [slotsFrom, ih]
      · have hdrop : (line :: variant).dropWhile (· ≠ baseLine) = variant.dropWhile (· ≠ baseLine) :=
          List.dropWhile_cons_of_pos (by simpa using hline)
        have hskip : (slotsFrom (baseLine :: baseLines) (line :: variant)).isSome =
            (slotsFrom (baseLine :: baseLines) variant).isSome := by
          rw [slotsFrom, slotsFrom, hdrop]
          split <;> simp
        rw [hskip, ihv, List.sublist_cons_iff]
        simp [Ne.symm hline]

theorem slotsFrom_cons_eq_some_iff {baseLine : α} {slots : List (List α)} :
    slotsFrom (baseLine :: baseLines) variant = some slots ↔ ∃ slot rest restSlots,
      variant = slot ++ baseLine :: rest ∧ baseLine ∉ slot ∧ slotsFrom baseLines rest = some restSlots ∧
        slots = slot :: restSlots := by
  constructor
  · intro h
    rw [slotsFrom] at h
    split at h
    · cases h
    · rename_i found rest hdrop
      obtain ⟨restSlots, hrest, rfl⟩ := Option.map_eq_some_iff.mp h
      have hfound : found = baseLine := by
        have hhead := List.head?_dropWhile_not (p := (· ≠ baseLine)) (l := variant)
        rw [hdrop] at hhead
        simpa using hhead
      refine ⟨_, rest, restSlots, ?_, ?_, hrest, rfl⟩
      · rw [← hfound, ← hdrop, hfound, List.takeWhile_append_dropWhile]
      · intro hmem
        have hne := List.mem_takeWhile_imp hmem
        simp at hne
  · rintro ⟨slot, rest, restSlots, rfl, hslot, hrest, rfl⟩
    have hall : ∀ line ∈ slot, decide (line ≠ baseLine) = true := fun line hmem =>
      decide_eq_true fun heq => hslot (heq ▸ hmem)
    rw [slotsFrom, List.dropWhile_append_of_pos hall, List.takeWhile_append_of_pos hall]
    simp [hrest]

/-- The two slots in the order of the merge. -/
def joinSlots (slot slot' : List α) : List α := slot ++ if slot ≠ slot' then slot' else []

theorem joinSlots_self (slot : List α) : joinSlots slot slot = slot := by simp [joinSlots]

theorem joinSlots_of_ne (h : slot ≠ slot') : joinSlots slot slot' = slot ++ slot' := by
  simp [joinSlots, h]

theorem joinSlots_nil_left (slot : List α) : joinSlots [] slot = slot := by
  by_cases h : [] = slot <;> simp [joinSlots, h]

theorem joinSlots_nil_right (slot : List α) : joinSlots slot [] = slot := by
  by_cases h : slot = [] <;> simp [joinSlots, h]

theorem sublist_joinSlots_left (slot slot' : List α) : slot.Sublist (joinSlots slot slot') :=
  List.sublist_append_left _ _

theorem sublist_joinSlots_right (slot slot' : List α) : slot'.Sublist (joinSlots slot slot') := by
  by_cases h : slot = slot'
  · rw [h, joinSlots_self]
  · rw [joinSlots_of_ne h]
    exact List.sublist_append_right _ _

theorem joinSlots_perm (slot slot' : List α) : (joinSlots slot slot').Perm (joinSlots slot' slot) := by
  by_cases h : slot = slot'
  · rw [h]
  · rw [joinSlots_of_ne h, joinSlots_of_ne (Ne.symm h)]
    exact List.perm_append_comm

theorem mem_joinSlots {line : α} (h : line ∈ joinSlots slot slot') : line ∈ slot ∨ line ∈ slot' := by
  by_cases hsame : slot = slot'
  · rw [hsame, joinSlots_self] at h
    exact .inr h
  · rwa [joinSlots_of_ne hsame, List.mem_append] at h

end

/-! ### The pieces of a merge -/

/-- The sides are woven from the lines of the base and their slots, the last of which are `tail` and
`tail'`, and the pieces are those that the merge puts together. -/
inductive Woven : (baseLines tail tail' current incoming pieces : List (List Char)) → Prop where
  | tails (tail tail' : List (List Char)) : Woven [] tail tail' tail tail' (joinSlots tail tail')
  | line {baseLines tail tail' current incoming pieces} (baseLine : List Char)
      (slot slot' : List (List Char)) : Woven baseLines tail tail' current incoming pieces →
      Woven (baseLine :: baseLines) tail tail' (slot ++ baseLine :: current)
        (slot' ++ baseLine :: incoming) (joinSlots slot slot' ++ baseLine :: pieces)

section

variable {baseLines tail tail' current incoming pieces : List (List Char)}
  (h : Woven baseLines tail tail' current incoming pieces)
include h

theorem Woven.sublist_current : current.Sublist pieces := by
  induction h with
  | tails tail tail' => exact sublist_joinSlots_left tail tail'
  | line baseLine slot slot' _ ih => exact (sublist_joinSlots_left slot slot').append (ih.cons_cons _)

theorem Woven.sublist_incoming : incoming.Sublist pieces := by
  induction h with
  | tails tail tail' => exact sublist_joinSlots_right tail tail'
  | line baseLine slot slot' _ ih => exact (sublist_joinSlots_right slot slot').append (ih.cons_cons _)

theorem Woven.length_le : baseLines.length ≤ current.length ∧ baseLines.length ≤ incoming.length := by
  induction h with
  | tails tail tail' => simp
  | line baseLine slot slot' _ ih =>
    simp only [List.length_cons, List.length_append]
    omega

theorem Woven.mem {line : List Char} (hmem : line ∈ pieces) : line ∈ current ∨ line ∈ incoming := by
  induction h with
  | tails tail tail' => exact mem_joinSlots hmem
  | line baseLine slot slot' _ ih =>
    simp only [List.mem_append, List.mem_cons] at hmem ⊢
    rcases hmem with hmem | rfl | hmem
    · exact (mem_joinSlots hmem).imp .inl .inl
    · exact .inl (.inr (.inl rfl))
    · exact (ih hmem).imp (fun h => .inr (.inr h)) fun h => .inr (.inr h)

/-- A side that adds nothing leaves the other as it is. -/
theorem Woven.eq_incoming (hlength : current.length = baseLines.length) : pieces = incoming := by
  induction h with
  | tails tail tail' =>
    rw [List.length_eq_zero_iff.mp hlength, joinSlots_nil_left]
  | line baseLine slot slot' hrest ih =>
    have hle := hrest.length_le.1
    simp only [List.length_cons, List.length_append] at hlength
    have hslot : slot = [] := List.length_eq_zero_iff.mp (by omega)
    rw [hslot, joinSlots_nil_left, ih (by omega)]

theorem Woven.eq_current (hlength : incoming.length = baseLines.length) : pieces = current := by
  induction h with
  | tails tail tail' =>
    rw [List.length_eq_zero_iff.mp hlength, joinSlots_nil_right]
  | line baseLine slot slot' hrest ih =>
    have hle := hrest.length_le.2
    simp only [List.length_cons, List.length_append] at hlength
    have hslot : slot' = [] := List.length_eq_zero_iff.mp (by omega)
    rw [hslot, joinSlots_nil_right, ih (by omega)]

/-- Lines are put together properly if they are at the end. -/
theorem Woven.areLines (hcurrent : AreLines current) (hincoming : AreLines incoming)
    (htails : AreLines (joinSlots tail tail')) : AreLines pieces := by
  induction h with
  | tails tail tail' => exact htails
  | line baseLine slot slot' hrest ih =>
    obtain ⟨hslot, ⟨hline, hended, hcurrent⟩, hslotEnded⟩ := areLines_append.mp hcurrent
    obtain ⟨hslot', ⟨-, hended', hincoming⟩, hslotEnded'⟩ := areLines_append.mp hincoming
    have hslotEnded := hslotEnded (List.cons_ne_nil _ _)
    have hslotEnded' := hslotEnded' (List.cons_ne_nil _ _)
    refine areLines_append.mpr ⟨?_, ⟨hline, fun hne => ?_, ih hcurrent hincoming htails⟩, ?_⟩
    · by_cases hsame : slot = slot'
      · rwa [hsame, joinSlots_self]
      · rw [joinSlots_of_ne hsame]
        exact areLines_append.mpr ⟨hslot, hslot', fun _ => hslotEnded⟩
    · obtain ⟨line, hmem⟩ := List.exists_mem_of_ne_nil _ hne
      exact (hrest.mem hmem).elim (fun h => hended (List.ne_nil_of_mem h))
        fun h => hended' (List.ne_nil_of_mem h)
    · exact fun _ line hmem => (mem_joinSlots hmem).elim (hslotEnded line) (hslotEnded' line)

/-- In front of what is added behind the base, both sides and the merge keep to the base. -/
theorem Woven.exists_fronts : ∃ front currentFront incomingFront, current = currentFront ++ tail ∧
    incoming = incomingFront ++ tail' ∧ pieces = front ++ joinSlots tail tail' ∧
      currentFront.Sublist front ∧ incomingFront.Sublist front ∧
        ∀ line ∈ front, line ∈ currentFront ∨ line ∈ incomingFront := by
  induction h with
  | tails tail tail' => exact ⟨[], [], [], rfl, rfl, rfl, .slnil, .slnil, by simp⟩
  | line baseLine slot slot' _ ih =>
    obtain ⟨front, currentFront, incomingFront, rfl, rfl, rfl, hcurrent, hincoming, hmem⟩ := ih
    refine ⟨joinSlots slot slot' ++ baseLine :: front, slot ++ baseLine :: currentFront,
      slot' ++ baseLine :: incomingFront, by simp, by simp, by simp,
      (sublist_joinSlots_left slot slot').append (hcurrent.cons_cons _),
      (sublist_joinSlots_right slot slot').append (hincoming.cons_cons _), fun line hline => ?_⟩
    simp only [List.mem_append, List.mem_cons] at hline ⊢
    rcases hline with hline | rfl | hline
    · exact (mem_joinSlots hline).imp .inl .inl
    · exact .inl (.inr (.inl rfl))
    · exact (hmem line hline).imp (fun h => .inr (.inr h)) fun h => .inr (.inr h)

end

theorem appendSlot_eq (output : List Char) (slot slot' : List (List Char)) :
    appendSlot output slot slot' = output ++ (joinSlots slot slot').flatten := by
  unfold appendSlot joinSlots
  split <;> simp

/-- What the merges of two sides, one way and the other, are put together from. -/
structure Pieced (baseLines current incoming : List (List Char))
    (slots slots' : List (List (List Char))) (pieces swapped : List (List Char)) : Prop where
  woven : Woven baseLines (slots.getLastD []) (slots'.getLastD []) current incoming pieces
  woven_swapped : Woven baseLines (slots'.getLastD []) (slots.getLastD []) incoming current swapped
  perm : swapped.Perm pieces
  eq_flatten : ∀ merged, mergeSlots merged baseLines slots slots' = merged ++ pieces.flatten
  eq_flatten_swapped : ∀ merged, mergeSlots merged baseLines slots' slots = merged ++ swapped.flatten
  same : slots = slots' → pieces = current

theorem getLastD_cons_of_ne_nil {α : Type} {x d : α} {xs : List α} (h : xs ≠ []) :
    (x :: xs).getLastD d = xs.getLastD d := by
  cases xs with
  | nil => exact absurd rfl h
  | cons y xs => rfl

theorem slotsFrom_ne_nil {baseLines variant : List (List Char)} {slots : List (List (List Char))}
    (h : slotsFrom baseLines variant = some slots) : slots ≠ [] := by
  cases baseLines with
  | nil =>
    cases h
    exact List.cons_ne_nil _ _
  | cons baseLine baseLines =>
    obtain ⟨slot, rest, restSlots, -, -, -, rfl⟩ := slotsFrom_cons_eq_some_iff.mp h
    exact List.cons_ne_nil _ _

/-- **The merge is put together from the slots and the base.** -/
theorem exists_pieced {baseLines current incoming : List (List Char)}
    {slots slots' : List (List (List Char))} (h : slotsFrom baseLines current = some slots)
    (h' : slotsFrom baseLines incoming = some slots') :
    ∃ pieces swapped, Pieced baseLines current incoming slots slots' pieces swapped := by
  induction baseLines generalizing current incoming slots slots' with
  | nil =>
    cases h
    cases h'
    refine ⟨_, _, .tails _ _, .tails _ _, joinSlots_perm _ _, fun merged => ?_, fun merged => ?_, ?_⟩
    · exact appendSlot_eq merged current incoming
    · exact appendSlot_eq merged incoming current
    · intro hsame
      rw [List.singleton_inj.mp hsame]
      exact joinSlots_self _
  | cons baseLine baseLines ih =>
    obtain ⟨slot, rest, restSlots, rfl, hslot, hrest, rfl⟩ := slotsFrom_cons_eq_some_iff.mp h
    obtain ⟨slot', rest', restSlots', rfl, hslot', hrest', rfl⟩ := slotsFrom_cons_eq_some_iff.mp h'
    obtain ⟨pieces, swapped, hpieced⟩ := ih hrest hrest'
    have htail := getLastD_cons_of_ne_nil (x := slot) (d := []) (slotsFrom_ne_nil hrest)
    have htail' := getLastD_cons_of_ne_nil (x := slot') (d := []) (slotsFrom_ne_nil hrest')
    refine ⟨joinSlots slot slot' ++ baseLine :: pieces, joinSlots slot' slot ++ baseLine :: swapped,
      ?_, ?_, (joinSlots_perm slot' slot).append (hpieced.perm.cons _), fun merged => ?_,
      fun merged => ?_, fun hsame => ?_⟩
    · rw [htail, htail']
      exact .line _ _ _ hpieced.woven
    · rw [htail, htail']
      exact .line _ _ _ hpieced.woven_swapped
    · simp [mergeSlots, hpieced.eq_flatten, appendSlot_eq]
    · simp [mergeSlots, hpieced.eq_flatten_swapped, appendSlot_eq]
    · obtain ⟨rfl, hrestSlots⟩ := List.cons.inj hsame
      rw [joinSlots_self, hpieced.same hrestSlots]

/-! ### What is kept -/

/-- The claims of an additive merge: it succeeds exactly on sides that only add lines, all lines of
either side are lines of the result, in order, and nothing else is, a side that adds nothing or the
same as the other leaves the other as it is, and the sides may be exchanged. -/
structure KeepsBothSides (base current incoming : List Char) : Prop where
  succeeds : (mergeAdditiveOnlyText base current incoming).isSome ↔
    (splitLinesPreservingEndings base).Sublist (splitLinesPreservingEndings current) ∧
      (splitLinesPreservingEndings base).Sublist (splitLinesPreservingEndings incoming)
  keepsCurrent : ∀ merged ∈ mergeAdditiveOnlyText base current incoming,
    (splitLinesPreservingEndings current).Sublist (splitLinesPreservingEndings merged)
  keepsIncoming : ∀ merged ∈ mergeAdditiveOnlyText base current incoming,
    (splitLinesPreservingEndings incoming).Sublist (splitLinesPreservingEndings merged)
  source : ∀ merged ∈ mergeAdditiveOnlyText base current incoming,
    ∀ line ∈ splitLinesPreservingEndings merged, line ∈ splitLinesPreservingEndings current ∨
      line ∈ splitLinesPreservingEndings incoming
  onlyIncoming : ∀ merged ∈ mergeAdditiveOnlyText base current incoming,
    current = base → merged = incoming
  onlyCurrent : ∀ merged ∈ mergeAdditiveOnlyText base current incoming,
    incoming = base → merged = current
  same : ∀ merged ∈ mergeAdditiveOnlyText base current incoming,
    current = incoming → merged = current
  exchange : ∀ merged ∈ mergeAdditiveOnlyText base current incoming,
    ∀ merged' ∈ mergeAdditiveOnlyText base incoming current,
      (splitLinesPreservingEndings merged').Perm (splitLinesPreservingEndings merged)

/-- Behind the base one side adds nothing, or both add the same, or both sides end with a line
feed. Otherwise a line that is not ended is glued to another one, and nothing is lost only if the
result happens to be a line of either side: both sides add the same first line, which is what the
line is glued to, and the same last one. -/
def TailsFit (base current incoming : List Char) : Prop :=
  ∀ slots ∈ insertionSlotsRelativeToBase (splitLinesPreservingEndings base) current,
    ∀ slots' ∈ insertionSlotsRelativeToBase (splitLinesPreservingEndings base) incoming,
      slots.getLastD [] = [] ∨ slots'.getLastD [] = [] ∨ slots.getLastD [] = slots'.getLastD [] ∨
        (Ended current ∧ Ended incoming) ∨ ∃ first between between' last,
          slots.getLastD [] = first :: between ++ [last] ∧
            slots'.getLastD [] = first :: between' ++ [last] ∧
              (last ++ first ∈ splitLinesPreservingEndings current ∨
                last ++ first ∈ splitLinesPreservingEndings incoming)

theorem splitLinesPreservingEndings_eq (text : List Char) :
    splitLinesPreservingEndings text = splitInclusive text := by
  unfold splitLinesPreservingEndings
  split
  · rename_i hnil
    rw [hnil]
    rfl
  · rfl

section

variable {baseLines tail tail' front pieces : List (List Char)} {line : List Char}

/-- A text ends with a line feed if its last line does. -/
theorem ended_flatten_append (h : IsLine line) (front : List (List Char)) :
    Ended (front ++ [line]).flatten ↔ Ended line := by
  rw [List.flatten_append, List.flatten_singleton, ended_append h.ne_nil]

theorem ended_iff_of_tail {text : List Char} (h : splitInclusive text = front ++ tail)
    (hne : tail ≠ []) : Ended text ↔ ∀ line ∈ tail, Ended line := by
  have hlines := areLines_splitInclusive text
  rw [h] at hlines
  obtain ⟨before, last, rfl⟩ : ∃ before last, tail = before ++ [last] :=
    ⟨_, _, (List.dropLast_append_getLast hne).symm⟩
  have htail := (areLines_append.mp hlines).2.1
  have hlast : IsLine last := htail.isLine last (by simp)
  rw [← flatten_splitInclusive text, h, ← List.append_assoc, ended_flatten_append hlast]
  exact ⟨fun hended => htail.ended (by simpa using hended), fun hall => hall last (by simp)⟩

theorem ended_of_mem_splitInclusive {text : List Char} (h : Ended text)
    (hmem : line ∈ splitInclusive text) : Ended line := by
  have hall : splitInclusive text = [] ++ splitInclusive text := rfl
  exact (ended_iff_of_tail hall (List.ne_nil_of_mem hmem)).mp h line hmem

/-- The tails may stand one behind the other. -/
theorem areLines_joinSlots (htail : AreLines tail) (htail' : AreLines tail')
    (hfit : tail = [] ∨ tail' = [] ∨ tail = tail' ∨ ∀ line ∈ tail, Ended line) :
    AreLines (joinSlots tail tail') := by
  rcases hfit with rfl | rfl | rfl | hended
  · rwa [joinSlots_nil_left]
  · rwa [joinSlots_nil_right]
  · rwa [joinSlots_self]
  · by_cases hsame : tail = tail'
    · rwa [hsame, joinSlots_self]
    · rw [joinSlots_of_ne hsame]
      exact areLines_append.mpr ⟨htail, htail', fun _ => hended⟩

end

/-! ### Both sides are kept -/

theorem mergeAdditiveOnlyText_isSome_iff (base current incoming : List Char) :
    (mergeAdditiveOnlyText base current incoming).isSome ↔
      (splitLinesPreservingEndings base).Sublist (splitLinesPreservingEndings current) ∧
        (splitLinesPreservingEndings base).Sublist (splitLinesPreservingEndings incoming) := by
  rw [← slotsFrom_isSome_iff, ← slotsFrom_isSome_iff]
  simp only [mergeAdditiveOnlyText, insertionSlotsRelativeToBase]
  cases slotsFrom (splitLinesPreservingEndings base) (splitLinesPreservingEndings current) with
  | none => simp
  | some slots =>
    cases slotsFrom (splitLinesPreservingEndings base) (splitLinesPreservingEndings incoming) <;> simp

section

variable {base current incoming : List Char} {slots slots' : List (List (List Char))}
  {pieces swapped : List (List Char)}

/-- What the lines of the results must be. -/
theorem keepsBothSides_of_lines
    (hpieced : Pieced (splitInclusive base) (splitInclusive current) (splitInclusive incoming) slots
      slots' pieces swapped)
    (hmerge : mergeAdditiveOnlyText base current incoming = some pieces.flatten)
    (hmerge' : mergeAdditiveOnlyText base incoming current = some swapped.flatten)
    (hslots : insertionSlotsRelativeToBase (splitLinesPreservingEndings base) current = some slots)
    (hslots' : insertionSlotsRelativeToBase (splitLinesPreservingEndings base) incoming = some slots')
    (hcurrent : (splitInclusive current).Sublist (splitInclusive pieces.flatten))
    (hincoming : (splitInclusive incoming).Sublist (splitInclusive pieces.flatten))
    (hsource : ∀ line ∈ splitInclusive pieces.flatten,
      line ∈ splitInclusive current ∨ line ∈ splitInclusive incoming)
    (hperm : (splitInclusive swapped.flatten).Perm (splitInclusive pieces.flatten)) :
    KeepsBothSides base current incoming := by
  refine ⟨mergeAdditiveOnlyText_isSome_iff base current incoming, ?_, ?_, ?_, ?_, ?_, ?_, ?_⟩
  · intro merged hmem
    obtain rfl := Option.some.inj (hmerge.symm.trans hmem)
    simpa only [splitLinesPreservingEndings_eq] using hcurrent
  · intro merged hmem
    obtain rfl := Option.some.inj (hmerge.symm.trans hmem)
    simpa only [splitLinesPreservingEndings_eq] using hincoming
  · intro merged hmem
    obtain rfl := Option.some.inj (hmerge.symm.trans hmem)
    simpa only [splitLinesPreservingEndings_eq] using hsource
  · rintro merged hmem rfl
    obtain rfl := Option.some.inj (hmerge.symm.trans hmem)
    rw [hpieced.woven.eq_incoming rfl, flatten_splitInclusive]
  · rintro merged hmem rfl
    obtain rfl := Option.some.inj (hmerge.symm.trans hmem)
    rw [hpieced.woven.eq_current rfl, flatten_splitInclusive]
  · rintro merged hmem rfl
    obtain rfl := Option.some.inj (hmerge.symm.trans hmem)
    have hsame : slots = slots' := Option.some.inj (hslots.symm.trans hslots')
    rw [hpieced.same hsame, flatten_splitInclusive]
  · intro merged hmem merged' hmem'
    obtain rfl := Option.some.inj (hmerge.symm.trans hmem)
    obtain rfl := Option.some.inj (hmerge'.symm.trans hmem')
    simpa only [splitLinesPreservingEndings_eq] using hperm

/-- **Nothing is glued where the tails fit.** -/
theorem Pieced.areLines (h : Pieced (splitInclusive base) (splitInclusive current)
    (splitInclusive incoming) slots slots' pieces swapped)
    (hfit : slots.getLastD [] = [] ∨ slots'.getLastD [] = [] ∨
      slots.getLastD [] = slots'.getLastD [] ∨ (Ended current ∧ Ended incoming)) :
    AreLines pieces ∧ AreLines swapped := by
  obtain ⟨front, currentFront, incomingFront, hcurrent, hincoming, -⟩ := h.woven.exists_fronts
  have hcurrentLines := areLines_splitInclusive current
  have hincomingLines := areLines_splitInclusive incoming
  have htail : AreLines (slots.getLastD []) := by
    rw [hcurrent] at hcurrentLines
    exact (areLines_append.mp hcurrentLines).2.1
  have htail' : AreLines (slots'.getLastD []) := by
    rw [hincoming] at hincomingLines
    exact (areLines_append.mp hincomingLines).2.1
  have hall : ∀ {text : List Char} {front tail : List (List Char)},
      splitInclusive text = front ++ tail → Ended text → ∀ line ∈ tail, Ended line := by
    intro text front tail htext hended line hmem
    exact (ended_iff_of_tail htext (List.ne_nil_of_mem hmem)).mp hended line hmem
  refine ⟨h.woven.areLines hcurrentLines hincomingLines (areLines_joinSlots htail htail' ?_),
    h.woven_swapped.areLines hincomingLines hcurrentLines (areLines_joinSlots htail' htail ?_)⟩
  · exact hfit.imp_right fun h => h.imp_right fun h => h.imp_right fun h => hall hcurrent h.1
  · rcases hfit with hnil | hnil | hsame | hended
    · exact .inr (.inl hnil)
    · exact .inl hnil
    · exact .inr (.inr (.inl hsame.symm))
    · exact .inr (.inr (.inr (hall hincoming hended.2)))

/-- Both sides add something behind the base, and not the same: `tail` and `tail'`. What stands in
front of it is ended, in either side and in the merge. -/
structure Tailed (currentLines incomingLines pieces swapped tail tail' front front' : List (List Char)) :
    Prop where
  ne_nil : tail ≠ []
  ne_nil' : tail' ≠ []
  current : ∃ currentFront, currentLines = currentFront ++ tail ∧ currentFront.Sublist front
  incoming : ∃ incomingFront, incomingLines = incomingFront ++ tail' ∧ incomingFront.Sublist front
  pieces : pieces = front ++ (tail ++ tail')
  swapped : swapped = front' ++ (tail' ++ tail)
  perm : front'.Perm front
  front : ∀ line ∈ front, IsLine line ∧ Ended line ∧ (line ∈ currentLines ∨ line ∈ incomingLines)
  lines : AreLines tail
  lines' : AreLines tail'

theorem Pieced.exists_tailed (h : Pieced (splitInclusive base) (splitInclusive current)
    (splitInclusive incoming) slots slots' pieces swapped) (hne : slots.getLastD [] ≠ [])
    (hne' : slots'.getLastD [] ≠ []) (hdiffer : slots.getLastD [] ≠ slots'.getLastD []) :
    ∃ front front', Tailed (splitInclusive current) (splitInclusive incoming) pieces swapped
      (slots.getLastD []) (slots'.getLastD []) front front' := by
  obtain ⟨front, currentFront, incomingFront, hcurrent, hincoming, hpieces, hsub, hsub', hmem⟩ :=
    h.woven.exists_fronts
  obtain ⟨front', -, -, -, -, hswapped, -⟩ := h.woven_swapped.exists_fronts
  rw [joinSlots_of_ne hdiffer] at hpieces
  rw [joinSlots_of_ne hdiffer.symm] at hswapped
  have hcurrentLines := areLines_splitInclusive current
  have hincomingLines := areLines_splitInclusive incoming
  rw [hcurrent] at hcurrentLines
  rw [hincoming] at hincomingLines
  obtain ⟨hlines, htail, hended⟩ := areLines_append.mp hcurrentLines
  obtain ⟨hlines', htail', hended'⟩ := areLines_append.mp hincomingLines
  refine ⟨front, front', hne, hne', ⟨currentFront, hcurrent, hsub⟩,
    ⟨incomingFront, hincoming, hsub'⟩, hpieces, hswapped, ?_, fun line hline => ?_, htail, htail'⟩
  · have hperm := h.perm
    rw [hpieces, hswapped] at hperm
    exact (List.perm_append_right_iff _).mp
      (hperm.trans (List.perm_append_comm.append_left front))
  · rcases hmem line hline with hfront | hfront
    · refine ⟨hlines.isLine line hfront, hended hne line hfront, .inl ?_⟩
      rw [hcurrent]
      exact List.mem_append_left _ hfront
    · refine ⟨hlines'.isLine line hfront, hended' hne' line hfront, .inr ?_⟩
      rw [hincoming]
      exact List.mem_append_left _ hfront

/-- A line that is not ended and comes out of the merge ends what comes last. -/
theorem exists_of_mem_glued {front before rest : List (List Char)} {last first : List Char}
    (hfront : ∀ line ∈ front ++ before, IsLine line ∧ Ended line) (hlast : IsLine last)
    (hended : ¬ Ended last) (hrest : AreLines (first :: rest))
    (hmem : last ∈ splitInclusive (front ++ ((before ++ [last]) ++ first :: rest)).flatten) :
    splitInclusive (front ++ ((before ++ [last]) ++ first :: rest)).flatten =
      front ++ before ++ (last ++ first) :: rest ∧ ∃ between, rest = between ++ [last] := by
  have hall : front ++ ((before ++ [last]) ++ first :: rest) =
      ((front ++ before) ++ [last]) ++ first :: rest := by simp
  have hsplit : splitInclusive (front ++ ((before ++ [last]) ++ first :: rest)).flatten =
      front ++ before ++ (last ++ first) :: rest := by
    rw [hall]
    exact splitInclusive_glue
      (areLines_of_ended (fun line h => (hfront line h).1) fun line h => (hfront line h).2)
      (fun line h => (hfront line h).2) (hlast.not_mem_of_not_ended hended) hrest
  refine ⟨hsplit, ?_⟩
  have hget := (areLines_splitInclusive _).getLast?_of_not_ended hmem hended
  rw [hsplit, List.getLast?_append_of_ne_nil _ (List.cons_ne_nil _ _)] at hget
  rcases List.eq_nil_or_concat rest with rfl | ⟨between, other, rfl⟩
  · rw [List.getLast?_singleton, Option.some.injEq] at hget
    exact absurd (List.append_right_eq_self.mp hget) hrest.1.ne_nil
  · rw [List.concat_eq_append, ← List.cons_append, List.getLast?_concat, Option.some.injEq] at hget
    exact ⟨between, by rw [List.concat_eq_append, hget]⟩

/-- A side ends with a line feed if the last line it adds does. -/
theorem ended_iff_of_append {text : List Char} {front before : List (List Char)} {last : List Char}
    (h : splitInclusive text = front ++ (before ++ [last])) : Ended text ↔ Ended last := by
  have hlines := areLines_splitInclusive text
  rw [h] at hlines
  have htail := (areLines_append.mp hlines).2.1
  refine (ended_iff_of_tail h (by simp)).trans ⟨fun hall => hall last (by simp), fun hlast => ?_⟩
  exact htail.ended (by simpa using hlast)

variable {tail tail' front front' : List (List Char)}

theorem ended_of_areLines {before : List (List Char)} {last : List Char}
    (h : AreLines (before ++ [last])) : ∀ line ∈ before, IsLine line ∧ Ended line := by
  obtain ⟨hbefore, -, hall⟩ := areLines_append.mp h
  exact fun line hline => ⟨hbefore.isLine line hline, hall (List.cons_ne_nil _ _) line hline⟩

theorem Tailed.front_ended {before : List (List Char)} {last : List Char}
    (h : Tailed (splitInclusive current) (splitInclusive incoming) pieces swapped (before ++ [last])
      tail' front front') : ∀ line ∈ front ++ before, IsLine line ∧ Ended line :=
  List.forall_mem_append.mpr ⟨fun line hline => ⟨(h.front line hline).1, (h.front line hline).2.1⟩,
    ended_of_areLines h.lines⟩

theorem Tailed.front_ended' {before : List (List Char)} {last : List Char}
    (h : Tailed (splitInclusive current) (splitInclusive incoming) pieces swapped tail
      (before ++ [last]) front front') : ∀ line ∈ front' ++ before, IsLine line ∧ Ended line := by
  refine List.forall_mem_append.mpr ⟨fun line hline => ?_, ended_of_areLines h.lines'⟩
  have hfront := h.front line (h.perm.subset hline)
  exact ⟨hfront.1, hfront.2.1⟩

/-- If a side does not end with a line feed, both must end with the same line that is not ended. -/
theorem Tailed.not_ended {before before' : List (List Char)} {last last' : List Char}
    (h : Tailed (splitInclusive current) (splitInclusive incoming) pieces swapped (before ++ [last])
      (before' ++ [last']) front front') (hended : ¬ (Ended current ∧ Ended incoming))
    (hmem : last ∈ splitInclusive pieces.flatten) (hmem' : last' ∈ splitInclusive swapped.flatten) :
    ¬ Ended last ∧ ¬ Ended last' := by
  obtain ⟨currentFront, hcurrent, -⟩ := h.current
  obtain ⟨incomingFront, hincoming, -⟩ := h.incoming
  rw [ended_iff_of_append hcurrent, ended_iff_of_append hincoming] at hended
  have hlast : IsLine last := h.lines.isLine last (by simp)
  have hlast' : IsLine last' := h.lines'.isLine last' (by simp)
  by_cases hone : Ended last
  · have htext : Ended swapped.flatten := by
      rw [h.swapped, ← List.append_assoc, ← List.append_assoc, ended_flatten_append hlast]
      exact hone
    exact absurd ⟨hone, ended_of_mem_splitInclusive htext hmem'⟩ hended
  · refine ⟨hone, fun hother => hone (ended_of_mem_splitInclusive ?_ hmem)⟩
    rw [h.pieces, ← List.append_assoc, ← List.append_assoc, ended_flatten_append hlast']
    exact hother

/-- **Where lines are glued**, and yet nothing is lost: both sides add the same first line and the
same last line, and the glued line is a line of either side. -/
theorem Tailed.exists_of_glued (h : Tailed (splitInclusive current) (splitInclusive incoming) pieces
      swapped tail tail' front front') (hended : ¬ (Ended current ∧ Ended incoming))
    (hcurrent : (splitInclusive current).Sublist (splitInclusive pieces.flatten))
    (hincoming : (splitInclusive incoming).Sublist (splitInclusive pieces.flatten))
    (hsource : ∀ line ∈ splitInclusive pieces.flatten,
      line ∈ splitInclusive current ∨ line ∈ splitInclusive incoming)
    (hperm : (splitInclusive swapped.flatten).Perm (splitInclusive pieces.flatten)) :
    ∃ first between between' last, tail = first :: between ++ [last] ∧
      tail' = first :: between' ++ [last] ∧
        (last ++ first ∈ splitInclusive current ∨ last ++ first ∈ splitInclusive incoming) := by
  obtain ⟨before, last, rfl⟩ : ∃ before last, tail = before ++ [last] :=
    ⟨_, _, (List.dropLast_append_getLast h.ne_nil).symm⟩
  obtain ⟨before', last', rfl⟩ : ∃ before' last', tail' = before' ++ [last'] :=
    ⟨_, _, (List.dropLast_append_getLast h.ne_nil').symm⟩
  obtain ⟨first, rest, hcons⟩ := List.exists_cons_of_ne_nil h.ne_nil
  obtain ⟨first', rest', hcons'⟩ := List.exists_cons_of_ne_nil h.ne_nil'
  have hlast : IsLine last := h.lines.isLine last (by simp)
  have hlast' : IsLine last' := h.lines'.isLine last' (by simp)
  -- both last lines come out of the merge, whichever way it is done
  obtain ⟨currentFront, hcurrentEq, -⟩ := h.current
  obtain ⟨incomingFront, hincomingEq, -⟩ := h.incoming
  have hmem : last ∈ splitInclusive pieces.flatten := hcurrent.subset (by simp [hcurrentEq])
  have hmem' : last' ∈ splitInclusive swapped.flatten :=
    hperm.symm.subset (hincoming.subset (by simp [hincomingEq]))
  obtain ⟨hnot, hnot'⟩ := h.not_ended hended hmem hmem'
  have hlines := h.lines
  have hlines' := h.lines'
  rw [h.pieces, hcons'] at hmem
  rw [h.swapped, hcons] at hmem'
  rw [hcons] at hlines
  rw [hcons'] at hlines'
  obtain ⟨hsplit, between', rfl⟩ := exists_of_mem_glued h.front_ended hlast hnot hlines' hmem
  obtain ⟨hsplit', between, rfl⟩ := exists_of_mem_glued h.front_ended' hlast' hnot' hlines hmem'
  rw [← hcons', ← h.pieces] at hsplit
  rw [← hcons, ← h.swapped] at hsplit'
  -- so both sides end alike
  obtain ⟨hbefore, hsame⟩ := List.append_inj' (hcons.trans (List.cons_append).symm) rfl
  obtain rfl : last = last' := List.singleton_inj.mp hsame
  obtain ⟨hbefore', -⟩ := List.append_inj' (hcons'.trans (List.cons_append).symm) rfl
  subst hbefore hbefore'
  -- and begin alike, for otherwise the glued lines would differ
  have hfirst : first = first' := by
    have hcount : ∀ line, [first', last ++ first].count line = [first, last ++ first'].count line := by
      intro line
      have hall := hperm.count_eq line
      rw [hsplit, hsplit'] at hall
      have hfronts := h.perm.count_eq line
      simp only [List.count_append, List.count_cons, List.count_nil] at hall ⊢
      omega
    have hpair : [first', last ++ first].Perm [first, last ++ first'] := List.perm_iff_count.mpr hcount
    have hmem : first ∈ [first', last ++ first] := hpair.symm.subset List.mem_cons_self
    rw [List.mem_pair] at hmem
    refine hmem.resolve_right fun heq => hlast.ne_nil ?_
    exact List.append_left_eq_self.mp heq.symm
  subst hfirst
  refine ⟨first, between, between', last, rfl, rfl, hsource (last ++ first) ?_⟩
  rw [hsplit]
  simp

/-- The converse: what is glued is made up for. -/
theorem Tailed.lines_of_glued {between between' : List (List Char)} {first last : List Char}
    (h : Tailed (splitInclusive current) (splitInclusive incoming) pieces swapped
      (first :: between ++ [last]) (first :: between' ++ [last]) front front')
    (hended : ¬ (Ended current ∧ Ended incoming))
    (hglued : last ++ first ∈ splitInclusive current ∨ last ++ first ∈ splitInclusive incoming) :
    (splitInclusive current).Sublist (splitInclusive pieces.flatten) ∧
      (splitInclusive incoming).Sublist (splitInclusive pieces.flatten) ∧
        (∀ line ∈ splitInclusive pieces.flatten,
          line ∈ splitInclusive current ∨ line ∈ splitInclusive incoming) ∧
            (splitInclusive swapped.flatten).Perm (splitInclusive pieces.flatten) := by
  obtain ⟨currentFront, hcurrent, hsub⟩ := h.current
  obtain ⟨incomingFront, hincoming, hsub'⟩ := h.incoming
  have hlast : IsLine last := h.lines.isLine last (by simp)
  -- The last line of both sides is the same, so if it is ended both sides are.
  have hnot : '\n' ∉ last := by
    refine hlast.not_mem_of_not_ended fun hlastEnded => hended ?_
    exact ⟨(ended_iff_of_append hcurrent).mpr hlastEnded,
      (ended_iff_of_append hincoming).mpr hlastEnded⟩
  have hglue : ∀ {front before rest : List (List Char)},
      (∀ line ∈ front ++ before, IsLine line ∧ Ended line) → AreLines (first :: rest) →
      splitInclusive (front ++ ((before ++ [last]) ++ first :: rest)).flatten =
        front ++ before ++ (last ++ first) :: rest := by
    intro front before rest hfront hrest
    rw [← splitInclusive_glue (areLines_of_ended (fun line h => (hfront line h).1)
      fun line h => (hfront line h).2) (fun line h => (hfront line h).2) hnot hrest]
    simp
  -- In either order one last line runs into the first line of the other side.
  have hsplit : splitInclusive pieces.flatten =
      front ++ first :: between ++ (last ++ first) :: (between' ++ [last]) := by
    rw [h.pieces]
    exact hglue h.front_ended h.lines'
  have hsplit' : splitInclusive swapped.flatten =
      front' ++ first :: between' ++ (last ++ first) :: (between ++ [last]) := by
    rw [h.swapped]
    exact hglue h.front_ended' h.lines
  rw [hsplit, hsplit']
  refine ⟨?_, ?_, fun line hmem => ?_, List.perm_iff_count.mpr fun line => ?_⟩
  · have hend : [last].Sublist ((last ++ first) :: (between' ++ [last])) :=
      List.singleton_sublist.mpr (by simp)
    rw [hcurrent, ← List.append_assoc]
    exact (hsub.append (List.Sublist.refl _)).append hend
  · have hfirst : [first].Sublist (first :: between) := List.singleton_sublist.mpr (by simp)
    have hall := (hsub'.append hfirst).append ((List.Sublist.refl (between' ++ [last])).cons
      (last ++ first))
    rw [hincoming]
    simpa using hall
  · rw [hcurrent, hincoming] at hglued ⊢
    simp only [List.mem_append, List.mem_cons, List.not_mem_nil, or_false] at hmem
    rcases hmem with (hfront | rfl | hbetween) | rfl | hbetween | rfl
    · have hside := (h.front line hfront).2.2
      rwa [hcurrent, hincoming] at hside
    · simp
    · simp [hbetween]
    · exact hglued
    · simp [hbetween]
    · simp
  · have hfronts := h.perm.count_eq line
    simp only [List.count_append, List.count_cons, List.count_nil]
    omega

end

/-- **When both sides are kept**: exactly where what they add behind the base fits together. -/
theorem keepsBothSides_iff_tailsFit (base current incoming : List Char) :
    KeepsBothSides base current incoming ↔ TailsFit base current incoming := by
  cases hslots : insertionSlotsRelativeToBase (splitLinesPreservingEndings base) current with
  | none =>
    have hnone : mergeAdditiveOnlyText base current incoming = none := by
      simp [mergeAdditiveOnlyText, hslots]
    have hsome := mergeAdditiveOnlyText_isSome_iff base current incoming
    refine ⟨fun _ => by simp [TailsFit, hslots], fun _ => ?_⟩
    constructor <;> simp only [hnone, Option.not_mem_none, false_implies, implies_true]
    rwa [hnone] at hsome
  | some slots =>
  cases hslots' : insertionSlotsRelativeToBase (splitLinesPreservingEndings base) incoming with
  | none =>
    have hnone : mergeAdditiveOnlyText base current incoming = none := by
      simp [mergeAdditiveOnlyText, hslots, hslots']
    have hsome := mergeAdditiveOnlyText_isSome_iff base current incoming
    refine ⟨fun _ => by simp [TailsFit, hslots'], fun _ => ?_⟩
    constructor <;> simp only [hnone, Option.not_mem_none, false_implies, implies_true]
    rwa [hnone] at hsome
  | some slots' =>
  have hpieced := exists_pieced hslots hslots'
  simp only [splitLinesPreservingEndings_eq] at hpieced
  obtain ⟨pieces, swapped, hpieced⟩ := hpieced
  have hmerge : mergeAdditiveOnlyText base current incoming = some pieces.flatten := by
    have heq := hpieced.eq_flatten []
    rw [← splitLinesPreservingEndings_eq] at heq
    simp [mergeAdditiveOnlyText, hslots, hslots', heq]
  have hmerge' : mergeAdditiveOnlyText base incoming current = some swapped.flatten := by
    have heq := hpieced.eq_flatten_swapped []
    rw [← splitLinesPreservingEndings_eq] at heq
    simp [mergeAdditiveOnlyText, hslots, hslots', heq]
  have hfit : TailsFit base current incoming ↔ slots.getLastD [] = [] ∨ slots'.getLastD [] = [] ∨
      slots.getLastD [] = slots'.getLastD [] ∨ (Ended current ∧ Ended incoming) ∨
        ∃ first between between' last, slots.getLastD [] = first :: between ++ [last] ∧
          slots'.getLastD [] = first :: between' ++ [last] ∧
            (last ++ first ∈ splitInclusive current ∨ last ++ first ∈ splitInclusive incoming) := by
    simp only [TailsFit, hslots, hslots', Option.mem_def, Option.some.injEq, forall_eq']
    simp only [splitLinesPreservingEndings_eq]
  rw [hfit]
  by_cases hclean : slots.getLastD [] = [] ∨ slots'.getLastD [] = [] ∨
      slots.getLastD [] = slots'.getLastD [] ∨ (Ended current ∧ Ended incoming)
  · obtain ⟨hlines, hlines'⟩ := hpieced.areLines hclean
    refine iff_of_true (keepsBothSides_of_lines hpieced hmerge hmerge' hslots hslots' ?_ ?_ ?_ ?_) ?_
    · rw [splitInclusive_flatten hlines]
      exact hpieced.woven.sublist_current
    · rw [splitInclusive_flatten hlines]
      exact hpieced.woven.sublist_incoming
    · rw [splitInclusive_flatten hlines]
      exact fun line => hpieced.woven.mem
    · rw [splitInclusive_flatten hlines, splitInclusive_flatten hlines']
      exact hpieced.perm
    · exact hclean.imp_right fun h => h.imp_right fun h => h.imp_right .inl
  · simp only [not_or] at hclean
    obtain ⟨hne, hne', hdiffer, hended⟩ := hclean
    -- Both sides end with lines of their own, and the last of these has no end.
    obtain ⟨front, front', htailed⟩ := hpieced.exists_tailed hne hne' hdiffer
    simp only [hne, hne', hdiffer, hended, false_or]
    constructor
    · intro hkeeps
      have hcurrent := hkeeps.keepsCurrent _ hmerge
      have hincoming := hkeeps.keepsIncoming _ hmerge
      have hsource := hkeeps.source _ hmerge
      have hperm := hkeeps.exchange _ hmerge _ hmerge'
      simp only [splitLinesPreservingEndings_eq] at hcurrent hincoming hsource hperm
      exact htailed.exists_of_glued hended hcurrent hincoming hsource hperm
    · rintro ⟨first, between, between', last, htail, htail', hglued⟩
      rw [htail, htail'] at htailed
      obtain ⟨hcurrent, hincoming, hsource, hperm⟩ := htailed.lines_of_glued hended hglued
      exact keepsBothSides_of_lines hpieced hmerge hmerge' hslots hslots' hcurrent hincoming hsource
        hperm

/-- Both sides add a line behind the base, and neither line is ended. -/
theorem not_keepsBothSides_unended :
    ¬ ∀ base current incoming : List Char, KeepsBothSides base current incoming := by
  intro h
  have hmerge : mergeAdditiveOnlyText "one\n".toList "one\ntwo".toList "one\nthree".toList =
      some "one\ntwothree".toList := by decide +kernel
  have hlost : ¬ (splitLinesPreservingEndings "one\ntwo".toList).Sublist
      (splitLinesPreservingEndings "one\ntwothree".toList) := by decide +kernel
  exact hlost ((h _ _ _).keepsCurrent _ hmerge)

end Batty
