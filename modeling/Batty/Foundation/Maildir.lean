import Mathlib.Data.List.Nodup

/-!
# Maildirs

A maildir holds its messages as files in two directories, `new` for those nobody has taken yet and
`cur` for the others. Files are named by their ids, and no two in `new` have one name. A message
comes in as a file in `new` under a name not used there, and moves to `cur` at most once.
-/

namespace Batty

/-- A maildir: numbered messages that are new, or were read. Numbers may recur among the latter. -/
structure Maildir (α : Type*) where
  new : List (Nat × α)
  cur : List (Nat × α)
  nodup : (new.map Prod.fst).Nodup

namespace Maildir

variable {α : Type*}

def empty : Maildir α where
  new := []
  cur := []
  nodup := List.nodup_nil

def storeNew (maildir : Maildir α) (id : Nat) (data : α) (hfresh : id ∉ maildir.new.map Prod.fst) :
    Maildir α where
  new := maildir.new ++ [(id, data)]
  cur := maildir.cur
  nodup := by
    rw [List.map_append]
    exact maildir.nodup.append (by simp) (by simpa using hfresh)

/-- What is left in `new` without the file. -/
def without (maildir : Maildir α) (id : Nat) : List (Nat × α) :=
  maildir.new.filter fun entry => entry.1 ≠ id

/-- Renaming fails if there is no such file. -/
def moveNewToCur (maildir : Maildir α) (id : Nat) : Option (Maildir α) :=
  (maildir.new.find? fun entry => entry.1 = id).map fun entry => {
    new := maildir.without id
    cur := maildir.cur ++ [entry]
    nodup := maildir.nodup.sublist (List.filter_sublist.map Prod.fst) }

section

variable {maildir maildir' : Maildir α} {id : Nat} {data : α}

theorem mem_without {entry : Nat × α} :
    entry ∈ maildir.without id ↔ entry ∈ maildir.new ∧ entry.1 ≠ id := by
  simp [without]

theorem new_of_moveNewToCur (h : maildir.moveNewToCur id = some maildir') :
    maildir'.new = maildir.without id := by
  obtain ⟨entry, -, rfl⟩ := Option.map_eq_some_iff.mp h
  rfl

/-- Only a file that is there is moved. -/
theorem mem_of_moveNewToCur (h : maildir.moveNewToCur id = some maildir') :
    id ∈ maildir.new.map Prod.fst := by
  obtain ⟨entry, hfound, -⟩ := Option.map_eq_some_iff.mp h
  have hid : entry.1 = id := by simpa using List.find?_some hfound
  exact hid ▸ List.mem_map_of_mem (List.mem_of_find?_eq_some hfound)

theorem moveNewToCur_eq_none (h : id ∉ maildir.new.map Prod.fst) :
    maildir.moveNewToCur id = none := by
  rw [moveNewToCur, Option.map_eq_none_iff, List.find?_eq_none]
  intro entry hmem heq
  refine h ?_
  have hid : entry.1 = id := by simpa using heq
  exact hid ▸ List.mem_map_of_mem hmem

/-- The message that is moved is the one of that name. -/
theorem moveNewToCur_of_mem (h : (id, data) ∈ maildir.new) :
    ∃ maildir', maildir.moveNewToCur id = some maildir' ∧ (id, data) ∈ maildir'.cur := by
  have hsome : (maildir.new.find? fun entry => entry.1 = id).isSome := by
    rw [List.find?_isSome]
    exact ⟨(id, data), h, by simp⟩
  obtain ⟨entry, hfound⟩ := Option.isSome_iff_exists.mp hsome
  have hid : entry.1 = id := by simpa using List.find?_some hfound
  have heq : entry = (id, data) :=
    List.inj_on_of_nodup_map maildir.nodup (List.mem_of_find?_eq_some hfound) h hid
  refine ⟨_, by rw [moveNewToCur, hfound]; rfl, ?_⟩
  simp [heq]

/-- **Once.** A message that was moved is not there to be moved again. -/
theorem moveNewToCur_again (h : maildir.moveNewToCur id = some maildir') :
    maildir'.moveNewToCur id = none := by
  refine moveNewToCur_eq_none ?_
  rw [new_of_moveNewToCur h]
  rintro hmem
  obtain ⟨entry, hentry, hid⟩ := List.mem_map.mp hmem
  exact (mem_without.mp hentry).2 hid

end

end Maildir

end Batty
