import Batty.Foundation.Lists
import Mathlib.Data.Prod.Lex

/-!
# Ties

What a list of entries shows of the order in which they stood before they were sorted. Sorting by a
key leaves tied entries in the order in which it finds them, so if they can stand in any order,
every one of them can come first. `take_map_eq_iff` says which entries must look alike so that the
beginning of the sorted list always looks the same: those that are tied, unless there are so many
entries in front of them that none of them is shown.

Sorting by one key and then by another sorts by both (`pairwise_insertionSort_twice`).
-/

namespace Batty

variable {α β κ κ' : Type} [LinearOrder κ] [LinearOrder κ'] {key : α → κ} {entries : List α}

/-- A sorted list is cut in three at a key. -/
theorem eq_append_of_pairwise (h : entries.Pairwise fun a b => key a ≤ key b) (k : κ) :
    entries = entries.filter (key · < k) ++
      (entries.filter (key · = k) ++ entries.filter (k < key ·)) := by
  induction entries with
  | nil => rfl
  | cons a entries ih =>
    obtain ⟨hfirst, hrest⟩ := List.pairwise_cons.mp h
    have ih := ih hrest
    rcases lt_trichotomy (key a) k with hlt | heq | hgt
    · rw [List.filter_cons_of_pos (by simpa), List.filter_cons_of_neg (by simpa using hlt.ne),
        List.filter_cons_of_neg (by simpa using hlt.le), List.cons_append, ← ih]
    · have hnone : entries.filter (key · < k) = [] := by
        rw [List.filter_eq_nil_iff]
        intro b hb
        simpa [← heq] using hfirst b hb
      rw [List.filter_cons_of_neg (by simp [heq]), List.filter_cons_of_pos (by simpa),
        List.filter_cons_of_neg (by simp [heq]), hnone, List.nil_append, List.cons_append]
      rw [hnone, List.nil_append] at ih
      rw [← ih]
    · have hnone : entries.filter (key · < k) = [] := by
        rw [List.filter_eq_nil_iff]
        intro b hb
        simpa using hgt.le.trans (hfirst b hb)
      have hnone' : entries.filter (key · = k) = [] := by
        rw [List.filter_eq_nil_iff]
        intro b hb
        simpa using (hgt.trans_le (hfirst b hb)).ne'
      rw [List.filter_cons_of_neg (by simpa using hgt.le),
        List.filter_cons_of_neg (by simpa using hgt.ne'), List.filter_cons_of_pos (by simpa), hnone,
        hnone', List.nil_append, List.nil_append]
      rw [hnone, hnone', List.nil_append, List.nil_append] at ih
      rw [← ih]

/-- The place at which the entries of a key begin is given by how many have a lesser one. -/
theorem getElem?_of_head?_filter (h : entries.Pairwise fun a b => key a ≤ key b) {a : α}
    (hhead : (entries.filter (key · = key a)).head? = some a) :
    entries[(entries.filter (key · < key a)).length]? = some a := by
  have hcut := eq_append_of_pairwise h (key a)
  obtain ⟨block, hblock⟩ := List.head?_eq_some_iff.mp hhead
  rw [hblock] at hcut
  calc entries[(entries.filter (key · < key a)).length]?
      = (entries.filter (key · < key a) ++ (a :: block ++ entries.filter (key a < key ·)))[
          (entries.filter (key · < key a)).length]? := by rw [← hcut]
    _ = some a := by rw [List.getElem?_append_right le_rfl, Nat.sub_self]; rfl

theorem length_filter_lt_le (h : entries.Pairwise fun a b => key a ≤ key b) {a : α} {i : Nat}
    (hget : entries[i]? = some a) : (entries.filter (key · < key a)).length ≤ i := by
  by_contra hlt
  rw [eq_append_of_pairwise h (key a), List.getElem?_append_left (Nat.lt_of_not_le hlt)] at hget
  have hmem := (List.mem_filter.mp (List.mem_of_getElem? hget)).2
  simp at hmem

/-- **The beginning of a sorted list** looks the same in all arrangements of the entries if and only
if tied entries look alike, except those that no arrangement shows. -/
theorem take_map_eq_iff (key : α → κ) (arranged : Set (List α)) (base : List α)
    (hperm : ∀ entries ∈ arranged, entries.Perm base)
    (hsorted : ∀ entries ∈ arranged, entries.Pairwise fun a b => key a ≤ key b)
    (hfirst : ∀ a ∈ base, ∃ entries ∈ arranged, (entries.filter (key · = key a)).head? = some a)
    (n : Nat) (row : α → β) :
    (∀ entries ∈ arranged, ∀ entries' ∈ arranged,
        (entries.take n).map row = (entries'.take n).map row) ↔
      ∀ a ∈ base, ∀ b ∈ base, key a = key b → (base.filter (key · < key a)).length < n →
        row a = row b := by
  constructor
  · intro hsame a ha b hb htied hshown
    -- Each of the two is the first of its key in some arrangement, and so in the same place.
    obtain ⟨entries, harr, hhead⟩ := hfirst a ha
    obtain ⟨entries', harr', hhead'⟩ := hfirst b hb
    have hget := getElem?_of_head?_filter (hsorted entries harr) hhead
    have hget' := getElem?_of_head?_filter (hsorted entries' harr') hhead'
    rw [((hperm entries harr).filter _).length_eq] at hget
    rw [((hperm entries' harr').filter _).length_eq, ← htied] at hget'
    have hrows := congrArg (·[(base.filter (key · < key a)).length]?)
      (hsame entries harr entries' harr')
    simpa [List.getElem?_take_of_lt hshown, hget, hget'] using hrows
  · intro halike entries harr entries' harr'
    refine List.ext_getElem? fun i => ?_
    rcases Nat.lt_or_ge i n with hi | hi
    · rw [List.getElem?_map, List.getElem?_map, List.getElem?_take_of_lt hi,
        List.getElem?_take_of_lt hi]
      -- The keys of the two arrangements are the same throughout.
      have hkeys : entries.map key = entries'.map key := by
        refine List.Perm.eq_of_pairwise (fun _ _ _ _ => le_antisymm)
          (List.pairwise_map.mpr (hsorted entries harr))
          (List.pairwise_map.mpr (hsorted entries' harr')) ?_
        exact ((hperm entries harr).trans (hperm entries' harr').symm).map key
      have hkey := congrArg (·[i]?) hkeys
      simp only [List.getElem?_map] at hkey
      cases hget : entries[i]? with
      | none =>
        cases hget' : entries'[i]? with
        | none => rfl
        | some b => simp [hget, hget'] at hkey
      | some a =>
        cases hget' : entries'[i]? with
        | none => simp [hget, hget'] at hkey
        | some b =>
          rw [hget, hget'] at hkey
          refine congrArg some (halike a ?_ b ?_ (by simpa using hkey) ?_)
          · exact (hperm entries harr).mem_iff.mp (List.mem_of_getElem? hget)
          · exact (hperm entries' harr').mem_iff.mp (List.mem_of_getElem? hget')
          · have hle := length_filter_lt_le (hsorted entries harr) hget
            rw [((hperm entries harr).filter _).length_eq] at hle
            exact hle.trans_lt hi
    · rw [List.getElem?_eq_none (by simp; omega), List.getElem?_eq_none (by simp; omega)]

/-! ### Sorting twice -/

instance isTrans_key (key : α → κ) : IsTrans α fun a b => key a ≤ key b := ⟨fun _ _ _ => le_trans⟩

instance total_key (key : α → κ) : Std.Total fun a b : α => key a ≤ key b :=
  ⟨fun _ _ => le_total _ _⟩

theorem pairwise_insertionSort_key (key : α → κ) (entries : List α) :
    (entries.insertionSort fun a b => key a ≤ key b).Pairwise fun a b => key a ≤ key b :=
  List.pairwise_insertionSort _ _

/-- Sorting leaves tied entries as it finds them. -/
theorem filter_eq_insertionSort (key : α → κ) (entries : List α) (k : κ) :
    (entries.insertionSort fun a b => key a ≤ key b).filter (key · = k) =
      entries.filter (key · = k) := by
  rw [filter_insertionSort (r := fun a b => key a ≤ key b)]
  refine List.Pairwise.insertionSort_eq (List.pairwise_of_forall_mem_list fun a ha b hb => ?_)
  have hka : key a = k := by simpa using (List.mem_filter.mp ha).2
  have hkb : key b = k := by simpa using (List.mem_filter.mp hb).2
  rw [hka, hkb]

section

variable (key : α → κ) (key' : α → κ') (entries : List α)

theorem filter_insertionSort_twice (k : κ) (k' : κ') :
    ((entries.insertionSort fun a b => key a ≤ key b).insertionSort fun a b =>
        key' a ≤ key' b).filter (fun a => toLex (key' a, key a) = toLex (k', k)) =
      entries.filter fun a => toLex (key' a, key a) = toLex (k', k) := by
  have hboth (l : List α) : (l.filter fun a => toLex (key' a, key a) = toLex (k', k)) =
      (l.filter (key' · = k')).filter (key · = k) := by
    rw [List.filter_filter]
    refine List.filter_congr fun a _ => ?_
    simp [Prod.ext_iff, and_comm]
  have hcomm (l : List α) : (l.filter (key' · = k')).filter (key · = k) =
      (l.filter (key · = k)).filter (key' · = k') := by
    rw [List.filter_filter, List.filter_filter]
    exact List.filter_congr fun a _ => Bool.and_comm _ _
  rw [hboth, hboth, filter_eq_insertionSort, hcomm, filter_eq_insertionSort, hcomm]

theorem pairwise_insertionSort_twice :
    ((entries.insertionSort fun a b => key a ≤ key b).insertionSort fun a b =>
      key' a ≤ key' b).Pairwise fun a b => toLex (key' a, key a) ≤ toLex (key' b, key b) := by
  rw [List.pairwise_iff_forall_sublist]
  intro a b hsub
  have hle : key' a ≤ key' b :=
    List.pairwise_iff_forall_sublist.mp (pairwise_insertionSort_key key' _) hsub
  rw [Prod.Lex.le_iff]
  rcases hle.lt_or_eq with hlt | heq
  · exact .inl hlt
  · refine .inr ⟨heq, ?_⟩
    -- Among those of one second key the order is that of the first sort.
    have htied := hsub.filter fun c => key' c = key' a
    rw [filter_eq_insertionSort, List.filter_cons_of_pos (by simp),
      List.filter_cons_of_pos (by simpa using heq.symm), List.filter_nil] at htied
    exact List.pairwise_iff_forall_sublist.mp (pairwise_insertionSort_key key _)
      (htied.trans List.filter_sublist)

end

end Batty
