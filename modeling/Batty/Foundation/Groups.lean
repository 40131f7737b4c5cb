import Batty.Foundation.Lists
import Mathlib.Data.List.Induction

/-!
# Groups by a key

Entries are put one after the other into groups by a key, as a map from keys to lists holds them.
The keys of the groups are distinct, a group consists of the entries of its key in their order, and
together the groups hold every entry once (`Grouped`).
-/

namespace Batty

variable {α κ : Type} [DecidableEq κ]

/-- Put an entry at the end of the group of its key, which is opened if there is none. -/
def pushInto (key : κ) (entry : α) : List (κ × List α) → List (κ × List α)
  | [] => [(key, [entry])]
  | group :: groups =>
    if group.1 = key then (key, group.2 ++ [entry]) :: groups
    else group :: pushInto key entry groups

def groupInto (key : α → κ) (entries : List α) : List (κ × List α) :=
  entries.foldl (fun groups entry => pushInto (key entry) entry groups) []

/-- The groups are those of the entries. -/
structure Grouped (key : α → κ) (entries : List α) (groups : List (κ × List α)) : Prop where
  nodup : (groups.map Prod.fst).Nodup
  mem_iff : ∀ k, k ∈ groups.map Prod.fst ↔ ∃ entry ∈ entries, key entry = k
  members : ∀ group ∈ groups, group.2 = entries.filter (key · = group.1)

section

variable {key : α → κ} {entries : List α} {groups : List (κ × List α)}

theorem map_fst_pushInto {k : κ} {entry : α} : (pushInto k entry groups).map Prod.fst =
    if k ∈ groups.map Prod.fst then groups.map Prod.fst else groups.map Prod.fst ++ [k] := by
  induction groups with
  | nil => simp [pushInto]
  | cons group groups ih =>
    rw [pushInto]
    split_ifs with hkey hmem hmem
    · simp [hkey]
    · simp [hkey] at hmem
    · have hrest : k ∈ groups.map Prod.fst := by simpa [Ne.symm hkey] using hmem
      rw [List.map_cons, ih, if_pos hrest, List.map_cons]
    · have hrest : k ∉ groups.map Prod.fst := by simp_all
      rw [List.map_cons, ih, if_neg hrest, List.map_cons, List.cons_append]

/-- The members of a group after an entry was put in. -/
theorem mem_pushInto {k : κ} {entry : α} {group : κ × List α}
    (hnodup : (groups.map Prod.fst).Nodup) (hmem : group ∈ pushInto k entry groups) :
    (group.1 ≠ k ∧ group ∈ groups) ∨ (∃ members, (k, members) ∈ groups ∧
      group = (k, members ++ [entry])) ∨ (k ∉ groups.map Prod.fst ∧ group = (k, [entry])) := by
  induction groups with
  | nil => exact .inr (.inr ⟨List.not_mem_nil, List.mem_singleton.mp hmem⟩)
  | cons head groups ih =>
    rw [List.map_cons, List.nodup_cons] at hnodup
    rw [pushInto] at hmem
    split_ifs at hmem with hkey
    · rcases List.mem_cons.mp hmem with rfl | hmem
      · exact .inr (.inl ⟨head.2, hkey ▸ List.mem_cons_self, rfl⟩)
      · refine .inl ⟨fun heq => hnodup.1 ?_, List.mem_cons_of_mem _ hmem⟩
        rw [hkey, ← heq]
        exact List.mem_map_of_mem hmem
    · rcases List.mem_cons.mp hmem with rfl | hmem
      · exact .inl ⟨hkey, List.mem_cons_self⟩
      · rcases ih hnodup.2 hmem with ⟨hne, hmem⟩ | ⟨members, hmem, heq⟩ | ⟨hnone, heq⟩
        · exact .inl ⟨hne, List.mem_cons_of_mem _ hmem⟩
        · exact .inr (.inl ⟨members, List.mem_cons_of_mem _ hmem, heq⟩)
        · refine .inr (.inr ⟨?_, heq⟩)
          rw [List.map_cons, List.mem_cons, not_or]
          exact ⟨Ne.symm hkey, hnone⟩

theorem Grouped.nil : Grouped key ([] : List α) [] where
  nodup := List.nodup_nil
  mem_iff := by simp
  members := by simp

theorem Grouped.push (h : Grouped key entries groups) (entry : α) :
    Grouped key (entries ++ [entry]) (pushInto (key entry) entry groups) where
  nodup := by
    rw [map_fst_pushInto]
    split_ifs with hmem
    · exact h.nodup
    · exact h.nodup.append (List.nodup_singleton _) (by simpa using hmem)
  mem_iff k := by
    rw [map_fst_pushInto]
    have hmem := h.mem_iff k
    split_ifs with hold
    · rw [hmem]
      constructor
      · rintro ⟨entry', hentry, hkey⟩
        exact ⟨entry', List.mem_append_left _ hentry, hkey⟩
      · rintro ⟨entry', hentry, hkey⟩
        rcases List.mem_append.mp hentry with hentry | hentry
        · exact ⟨entry', hentry, hkey⟩
        · rw [List.mem_singleton.mp hentry] at hkey
          exact (h.mem_iff k).mp (hkey ▸ hold)
    · rw [List.mem_append, hmem, List.mem_singleton]
      simp [or_and_right, exists_or, eq_comm]
  members group hmem := by
    rw [List.filter_append, List.filter_singleton]
    rcases mem_pushInto h.nodup hmem with ⟨hne, hold⟩ | ⟨members, hold, rfl⟩ | ⟨hnone, rfl⟩
    · rw [h.members group hold]
      simp [Ne.symm hne]
    · rw [← h.members _ hold]
      simp
    · have hempty : entries.filter (key · = key entry) = [] := by
        rw [List.filter_eq_nil_iff]
        intro entry' hentry hkey
        exact hnone ((h.mem_iff _).mpr ⟨entry', hentry, by simpa using hkey⟩)
      rw [hempty]
      simp

/-- Together the groups hold every entry once. -/
theorem Grouped.perm (h : Grouped key entries groups) :
    (groups.flatMap Prod.snd).Perm entries := by
  have hmembers : groups.flatMap Prod.snd =
      (groups.map Prod.fst).flatMap fun k => entries.filter (key · = k) := by
    rw [List.flatMap_map]
    exact List.flatMap_congr h.members
  rw [hmembers]
  exact perm_flatMap_filter h.nodup fun entry hentry => (h.mem_iff _).mpr ⟨entry, hentry, rfl⟩

theorem Grouped.ne_nil (h : Grouped key entries groups) {group : κ × List α}
    (hmem : group ∈ groups) : group.2 ≠ [] := by
  obtain ⟨entry, hentry, hkey⟩ := (h.mem_iff group.1).mp (List.mem_map_of_mem hmem)
  rw [h.members group hmem]
  exact List.ne_nil_of_mem (List.mem_filter.mpr ⟨hentry, by simpa using hkey⟩)

theorem grouped_groupInto (key : α → κ) (entries : List α) :
    Grouped key entries (groupInto key entries) := by
  induction entries using List.reverseRecOn with
  | nil => exact .nil
  | append_singleton entries entry ih =>
    rw [groupInto, List.foldl_append]
    exact ih.push entry

end

end Batty
