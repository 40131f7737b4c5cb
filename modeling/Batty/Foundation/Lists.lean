import Mathlib.Algebra.Order.Ring.Int
import Mathlib.Data.List.Flatten
import Mathlib.Data.List.Sort

/-!
# Lists as directories and as histories

Facts about lists that are looked up by a key or shown in a fixed order, for any type of
entries; and what holds of each entry of a list together with the entries before it.
-/

namespace Batty

variable {α β : Type} [DecidableEq β]

/-- Where keys are distinct, looking up the key of an entry finds that entry. -/
theorem find?_of_nodup_map {f : α → β} {entries : List α} (hnodup : (entries.map f).Nodup)
    {entry : α} (hmem : entry ∈ entries) : entries.find? (fun a => f a = f entry) = some entry := by
  induction entries with
  | nil => cases hmem
  | cons head rest ih =>
    rw [List.map_cons, List.nodup_cons] at hnodup
    rcases List.mem_cons.mp hmem with rfl | hmem
    · simp
    · have hne : f head ≠ f entry := fun heq => hnodup.1 (heq ▸ List.mem_map_of_mem hmem)
      rw [List.find?_cons_of_neg (by simpa using hne)]
      exact ih hnodup.2 hmem

omit [DecidableEq β] in
/-- Two selections shown in the same order are the same list exactly when they select alike. -/
theorem insertionSort_filter_eq_iff {r : α → α → Prop} [DecidableRel r] {p q : α → Bool}
    {entries : List α} :
    (entries.filter p).insertionSort r = (entries.filter q).insertionSort r ↔
      ∀ a ∈ entries, p a = q a := by
  refine ⟨fun h a ha => ?_, fun h => by rw [List.filter_congr h]⟩
  have hmem : a ∈ entries.filter p ↔ a ∈ entries.filter q := by
    rw [← List.mem_insertionSort r, h, List.mem_insertionSort]
  simpa [ha, ← Bool.eq_iff_iff] using hmem

section

variable {r : α → α → Prop} [DecidableRel r] [IsTrans α r] [Std.Total r] {p : α → Bool}

omit [DecidableEq β] [Std.Total r] in
theorem filter_orderedInsert {a : α} {entries : List α} (h : entries.Pairwise r) :
    (entries.orderedInsert r a).filter p =
      if p a then (entries.filter p).orderedInsert r a else entries.filter p := by
  induction entries with
  | nil => by_cases ha : p a <;> simp [ha]
  | cons head entries ih =>
    obtain ⟨hhead, hentries⟩ := List.pairwise_cons.mp h
    by_cases hle : r a head
    · rw [List.orderedInsert_cons_of_le _ _ hle]
      by_cases ha : p a
      · have hall : ∀ b ∈ (head :: entries).filter p, r a b := by
          intro b hb
          rcases List.mem_cons.mp (List.mem_of_mem_filter hb) with rfl | hb
          · exact hle
          · exact IsTrans.trans _ _ _ hle (hhead b hb)
        rw [List.filter_cons_of_pos ha, if_pos ha]
        cases hfilter : (head :: entries).filter p with
        | nil => rfl
        | cons b rest =>
          rw [List.orderedInsert_cons_of_le _ _ (hall b (hfilter ▸ List.mem_cons_self))]
      · rw [List.filter_cons_of_neg ha, if_neg ha]
    · rw [List.orderedInsert_of_not_le _ _ hle, List.filter_cons, List.filter_cons, ih hentries]
      by_cases ha : p a <;> by_cases hb : p head <;> simp [ha, hb, hle]

omit [DecidableEq β] in
/-- Sorting does not look at the entries that are left out. -/
theorem filter_insertionSort (entries : List α) :
    (entries.insertionSort r).filter p = (entries.filter p).insertionSort r := by
  induction entries with
  | nil => rfl
  | cons head entries ih =>
    rw [List.insertionSort_cons, filter_orderedInsert (List.pairwise_insertionSort _ _), ih]
    by_cases hp : p head <;> simp [hp]

omit [DecidableEq β] [IsTrans α r] [Std.Total r] in
theorem head?_orderedInsert {a b : α} {entries : List α} :
    (entries.orderedInsert r a).head? = some b ↔
      a = b ∧ (∀ c ∈ entries.head?, r a c) ∨ entries.head? = some b ∧ ¬ r a b := by
  cases entries with
  | nil => simp
  | cons head entries =>
    by_cases hle : r a head
    · rw [List.orderedInsert_cons_of_le _ _ hle]
      simp only [List.head?_cons, Option.some.injEq, Option.mem_some_iff, forall_eq']
      exact ⟨fun h => .inl ⟨h, hle⟩, fun h => h.elim And.left fun h => absurd (h.1 ▸ hle) h.2⟩
    · rw [List.orderedInsert_of_not_le _ _ hle]
      simp only [List.head?_cons, Option.some.injEq, Option.mem_some_iff, forall_eq']
      exact ⟨fun h => .inr ⟨h, h ▸ hle⟩, fun h => h.elim (fun h => absurd h.2 hle) And.left⟩

omit [DecidableEq β] in
/-- A stable sort puts first the first of the least entries. -/
theorem head?_insertionSort_iff {a : α} {entries : List α} :
    (entries.insertionSort r).head? = some a ↔ ∃ before after, entries = before ++ a :: after ∧
      (∀ b ∈ before, ¬ r b a) ∧ ∀ b ∈ after, r a b := by
  induction entries generalizing a with
  | nil => simp
  | cons head entries ih =>
    rw [List.insertionSort_cons, head?_orderedInsert]
    constructor
    · rintro (⟨rfl, hhead⟩ | ⟨hrest, hnot⟩)
      · refine ⟨[], entries, rfl, by simp, fun b hb => ?_⟩
        have hsorted := List.pairwise_insertionSort r entries
        have hb := (List.mem_insertionSort r).mpr hb
        cases hsort : entries.insertionSort r with
        | nil => simp [hsort] at hb
        | cons first rest =>
          rw [hsort] at hb hsorted hhead
          rcases List.mem_cons.mp hb with rfl | hb
          · exact hhead _ rfl
          · exact IsTrans.trans _ _ _ (hhead first rfl) (List.rel_of_pairwise_cons hsorted hb)
      · obtain ⟨before, after, rfl, hbefore, hafter⟩ := ih.mp hrest
        exact ⟨head :: before, after, rfl, List.forall_mem_cons.mpr ⟨hnot, hbefore⟩, hafter⟩
    · rintro ⟨before, after, hsplit, hbefore, hafter⟩
      cases before with
      | nil =>
        obtain ⟨rfl, rfl⟩ := List.cons.inj hsplit
        refine .inl ⟨rfl, fun c hc => hafter c ?_⟩
        exact (List.mem_insertionSort r).mp (List.mem_of_mem_head? hc)
      | cons first before =>
        obtain ⟨rfl, rfl⟩ := List.cons.inj hsplit
        obtain ⟨hfirst, hbefore⟩ := List.forall_mem_cons.mp hbefore
        exact .inr ⟨ih.mpr ⟨before, after, rfl, hbefore, hafter⟩, hfirst⟩

omit [DecidableEq β] in
/-- What is sorted to the front comes before every entry. -/
theorem rel_of_head?_insertionSort {a b : α} {entries : List α}
    (h : (entries.insertionSort r).head? = some a) (hmem : b ∈ entries) : r a b := by
  obtain ⟨before, after, rfl, hbefore, hafter⟩ := head?_insertionSort_iff.mp h
  rcases List.mem_append.mp hmem with hmem | hmem
  · exact (Std.Total.total a b).resolve_right (hbefore b hmem)
  · rcases List.mem_cons.mp hmem with rfl | hmem
    · exact (Std.Total.total (r := r) b b).elim id id
    · exact hafter b hmem

omit [DecidableEq β] in
/-- Where no two entries are tied, sorting does not look at the order in which they stand. -/
theorem insertionSort_eq_of_perm {entries entries' : List α} (h : entries.Perm entries')
    (hanti : ∀ a ∈ entries, ∀ b ∈ entries, r a b → r b a → a = b) :
    entries.insertionSort r = entries'.insertionSort r := by
  refine List.Perm.eq_of_pairwise (fun a b ha hb => hanti a ?_ b ?_)
    (List.pairwise_insertionSort r _) (List.pairwise_insertionSort r _)
    ((List.perm_insertionSort r _).trans (h.trans (List.perm_insertionSort r _).symm))
  · exact (List.mem_insertionSort r).mp ha
  · exact h.mem_iff.mpr ((List.mem_insertionSort r).mp hb)

end

/-! ### Sorting by a comparison -/

instance isTrans_isLE {cmp : α → α → Ordering} [Std.TransCmp cmp] :
    IsTrans α fun a b => (cmp a b).isLE = true where
  trans _ _ _ := Std.TransCmp.isLE_trans

instance total_isLE {cmp : α → α → Ordering} [Std.OrientedCmp cmp] :
    Std.Total fun a b => (cmp a b).isLE = true where
  total a b := by
    have hswap : cmp b a = (cmp a b).swap := Std.OrientedCmp.eq_swap
    rw [hswap]
    cases cmp a b <;> simp

/-! ### Selections -/

omit [DecidableEq β] in
theorem filter_eq_filter_iff {p q : α → Bool} {entries : List α} :
    entries.filter p = entries.filter q ↔ ∀ a ∈ entries, p a = q a := by
  refine ⟨fun h a ha => ?_, List.filter_congr⟩
  have hmem : a ∈ entries.filter p ↔ a ∈ entries.filter q := by rw [h]
  simpa [ha, ← Bool.eq_iff_iff] using hmem

omit [DecidableEq β] in
theorem sublist_filterMap {f g : α → Option β} {entries : List α}
    (h : ∀ a ∈ entries, f a = none ∨ f a = g a) :
    (entries.filterMap f).Sublist (entries.filterMap g) := by
  induction entries with
  | nil => exact .slnil
  | cons head entries ih =>
    obtain ⟨hhead, hentries⟩ := List.forall_mem_cons.mp h
    rw [List.filterMap_cons, List.filterMap_cons]
    rcases hhead with hnone | hsame
    · rw [hnone]
      cases g head with
      | none => exact ih hentries
      | some b => exact (ih hentries).cons b
    · rw [hsame]
      cases g head with
      | none => exact ih hentries
      | some b => exact (ih hentries).cons_cons b

theorem find?_congr {p q : α → Bool} {entries : List α} (h : ∀ entry ∈ entries, p entry = q entry) :
    entries.find? p = entries.find? q := by
  induction entries with
  | nil => rfl
  | cons entry entries ih =>
    obtain ⟨hentry, hentries⟩ := List.forall_mem_cons.mp h
    rw [List.find?_cons, List.find?_cons, hentry, ih hentries]

/-- Gathering the entries by their keys loses none of them. -/
theorem perm_flatMap_filter {f : α → β} {keys : List β} {entries : List α} (hnodup : keys.Nodup)
    (hkeys : ∀ a ∈ entries, f a ∈ keys) :
    (keys.flatMap fun key => entries.filter fun a => f a = key).Perm entries := by
  induction keys generalizing entries with
  | nil =>
    have hnone : entries = [] := List.eq_nil_iff_forall_not_mem.mpr fun a ha => nomatch hkeys a ha
    rw [hnone, List.flatMap_nil]
  | cons key keys ih =>
    obtain ⟨hnotin, hnodup⟩ := List.nodup_cons.mp hnodup
    have hrest : ∀ a ∈ entries.filter (fun a => !decide (f a = key)), f a ∈ keys := by
      intro a ha
      obtain ⟨hmem, hne⟩ := List.mem_filter.mp ha
      exact (List.mem_cons.mp (hkeys a hmem)).resolve_left (by simpa using hne)
    have hsame : (keys.flatMap fun other => entries.filter fun a => f a = other) =
        keys.flatMap fun other =>
          (entries.filter fun a => !decide (f a = key)).filter fun a => f a = other := by
      refine List.flatMap_congr fun other hother => ?_
      rw [List.filter_filter]
      refine List.filter_congr fun a _ => ?_
      have hne : other ≠ key := fun heq => hnotin (heq ▸ hother)
      by_cases ha : f a = other
      · simp [ha, hne]
      · simp [ha]
    rw [List.flatMap_cons, hsame]
    exact ((ih hnodup hrest).append_left _).trans (List.filter_append_perm _ _)

omit [DecidableEq β] in
/-- Leaving out an entry that holds something leaves less. -/
theorem length_flatMap_filter_lt {p : α → Bool} {g : α → List β} {entries : List α} {a : α}
    (hmem : a ∈ entries) (hp : p a = false) (hg : g a ≠ []) :
    ((entries.filter p).flatMap g).length < (entries.flatMap g).length := by
  obtain ⟨before, after, rfl⟩ := List.append_of_mem hmem
  have hle : ∀ some : List α, ((some.filter p).flatMap g).length ≤ (some.flatMap g).length :=
    fun some => (List.filter_sublist.flatMap g).length_le
  have hpos := List.length_pos_of_ne_nil hg
  have hbefore := hle before
  have hafter := hle after
  rw [List.filter_append, List.filter_cons_of_neg (by simp [hp])]
  simp only [List.flatMap_append, List.flatMap_cons, List.length_append]
  omega

/-- Pieces that are shorter or the same, and are not shorter taken together, are the same. -/
theorem eq_of_forall₂_isPrefix {xs ys : List (List α)} (h : List.Forall₂ (· <+: ·) xs ys)
    (hsum : (ys.map List.length).sum ≤ (xs.map List.length).sum) : xs = ys := by
  suffices hboth : (xs.map List.length).sum ≤ (ys.map List.length).sum ∧
      ((ys.map List.length).sum ≤ (xs.map List.length).sum → xs = ys) from hboth.2 hsum
  clear hsum
  induction h with
  | nil => simp
  | cons hbegins _ ih =>
    obtain ⟨hle, heq⟩ := ih
    have hlength := hbegins.length_le
    simp only [List.map_cons, List.sum_cons]
    refine ⟨Nat.add_le_add hlength hle, fun hsum => ?_⟩
    rw [hbegins.eq_of_length (by omega), heq (by omega)]

/-- What stands before as many marked entries as there are from the first one on stands before
that. -/
theorem sublist_of_append_sublist {p : α → Bool} {front front' back back' : List α} {a : α}
    (h : (front ++ back).Sublist (front' ++ a :: back')) (ha : p a = true)
    (hcount : back.countP p = (a :: back').countP p) : front.Sublist front' := by
  obtain ⟨first, second, hsplit, hfront, hback⟩ := List.append_sublist_iff.mp h
  rcases List.append_eq_append_iff.mp hsplit with ⟨between, rfl, hrest⟩ | ⟨between, rfl, -⟩
  · cases between with
    | nil => rwa [List.append_nil] at hfront
    | cons b between =>
      obtain ⟨rfl, rfl⟩ := List.cons.inj hrest
      have hle := hback.countP_le (p := p)
      have hmore : second.countP p ≤ (between ++ second).countP p :=
        (List.sublist_append_right _ _).countP_le
      rw [hcount, List.countP_cons_of_pos ha] at hle
      exact absurd (hle.trans hmore) (Nat.not_succ_le_self _)
  · exact hfront.trans (List.sublist_append_left _ _)

/-- The pieces of a list are free of what it was split at. -/
theorem mem_splitOn {a : β} {entries piece : List β} (h : piece ∈ entries.splitOn a) :
    a ∉ piece ∧ piece ⊆ entries := by
  induction entries generalizing piece with
  | nil =>
    rw [List.splitOn_nil, List.mem_singleton] at h
    subst h
    exact ⟨List.not_mem_nil, List.Subset.refl _⟩
  | cons first entries ih =>
    rw [List.splitOn_cons_eq_if_modifyHead] at h
    split at h
    · rcases List.mem_cons.mp h with rfl | h
      · exact ⟨List.not_mem_nil, List.nil_subset _⟩
      · exact ⟨(ih h).1, List.subset_cons_of_subset _ (ih h).2⟩
    · rename_i hne
      obtain ⟨head, pieces, hpieces⟩ := List.exists_cons_of_ne_nil (List.splitOn_ne_nil a entries)
      rw [hpieces, List.modifyHead_cons, List.mem_cons] at h
      rcases h with rfl | h
      · obtain ⟨hmem, hsub⟩ := ih (hpieces ▸ List.mem_cons_self)
        refine ⟨fun hcons => ?_, List.cons_subset_cons _ hsub⟩
        rcases List.mem_cons.mp hcons with rfl | hhead
        · exact hne (beq_self_eq_true _)
        · exact hmem hhead
      · obtain ⟨hmem, hsub⟩ := ih (hpieces ▸ List.mem_cons_of_mem _ h)
        exact ⟨hmem, List.subset_cons_of_subset _ hsub⟩

theorem mem_of_mem_intercalate {a : α} {sep : List α} {pieces : List (List α)}
    (h : a ∈ sep.intercalate pieces) : a ∈ sep ∨ ∃ piece ∈ pieces, a ∈ piece := by
  induction pieces with
  | nil => cases h
  | cons piece pieces ih =>
    cases pieces with
    | nil => exact .inr ⟨piece, List.mem_cons_self, by simpa [List.intercalate] using h⟩
    | cons next pieces =>
      have hcons : sep.intercalate (piece :: next :: pieces) =
          piece ++ (sep ++ sep.intercalate (next :: pieces)) := by simp [List.intercalate]
      rw [hcons, List.mem_append, List.mem_append] at h
      rcases h with hpiece | hsep | hrest
      · exact .inr ⟨piece, List.mem_cons_self, hpiece⟩
      · exact .inl hsep
      · refine (ih hrest).imp_right fun ⟨piece', hmem, ha⟩ =>
          ⟨piece', List.mem_cons_of_mem _ hmem, ha⟩

/-- A list is cut in one way only at the first occurrence of an entry. -/
theorem append_cons_inj_of_not_mem_left {before before' after after' : List α} {a : α}
    (hbefore : a ∉ before) (hbefore' : a ∉ before')
    (h : before ++ a :: after = before' ++ a :: after') : before = before' ∧ after = after' := by
  rcases List.append_eq_append_iff.mp h with ⟨between, rfl, htail⟩ | ⟨between, rfl, htail⟩
  · cases between with
    | nil => simp_all
    | cons first between =>
      obtain ⟨rfl, -⟩ := List.cons.inj htail
      exact absurd (List.mem_append_right _ List.mem_cons_self) hbefore'
  · cases between with
    | nil => simp_all
    | cons first between =>
      obtain ⟨rfl, -⟩ := List.cons.inj htail
      exact absurd (List.mem_append_right _ List.mem_cons_self) hbefore

/-- A list is cut in one way only at the last occurrence of an entry. -/
theorem append_cons_inj_of_not_mem {before before' after after' : List α} {a : α}
    (hafter : a ∉ after) (hafter' : a ∉ after')
    (h : before ++ a :: after = before' ++ a :: after') : before = before' ∧ after = after' := by
  have hreverse := congrArg List.reverse h
  rw [List.reverse_append, List.reverse_append, List.reverse_cons, List.reverse_cons,
    List.append_assoc, List.append_assoc] at hreverse
  obtain ⟨hback, hfront⟩ := append_cons_inj_of_not_mem_left (mt List.mem_reverse.mp hafter)
    (mt List.mem_reverse.mp hafter') hreverse
  exact ⟨List.reverse_injective hfront, List.reverse_injective hback⟩

/-! ### Histories -/

/-- `P` holds of each entry and what comes before it. -/
def EachAfter (P : List α → α → Prop) (entries : List α) : Prop :=
  ∀ before entry after, entries = before ++ entry :: after → P before entry

theorem eachAfter_nil (P : List α → α → Prop) : EachAfter P [] := by
  intro before entry after h
  simp at h

theorem eachAfter_concat {P : List α → α → Prop} {entries : List α} {last : α} :
    EachAfter P (entries ++ [last]) ↔ EachAfter P entries ∧ P entries last := by
  constructor
  · intro h
    refine ⟨fun before entry after hsplit => h before entry (after ++ [last]) ?_, h entries last [] rfl⟩
    rw [hsplit, List.append_assoc, List.cons_append]
  · rintro ⟨hentries, hlast⟩ before entry after hsplit
    rcases List.eq_nil_or_concat after with rfl | ⟨after, last', rfl⟩
    · obtain ⟨rfl, hsingle⟩ := List.append_inj' hsplit rfl
      obtain rfl := List.singleton_inj.mp hsingle
      exact hlast
    · rw [List.concat_eq_append, ← List.cons_append, ← List.append_assoc] at hsplit
      obtain ⟨rfl, -⟩ := List.append_inj' hsplit rfl
      exact hentries before entry after rfl

end Batty
