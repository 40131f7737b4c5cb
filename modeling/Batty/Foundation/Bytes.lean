import Mathlib.Algebra.Order.Ring.Int
import Mathlib.Data.List.Basic
import Mathlib.Algebra.BigOperators.Group.List.Basic

/-!
# Texts as bytes

The source language keeps a text as its UTF-8 encoding and cuts it at a number of bytes, which only
goes well between two characters. `splitAtByte_eq_some_iff`: a text is cut into two parts of which
the first one has that many bytes, if there are such parts.
-/

namespace Batty

def byteLength (text : List Char) : Nat := (text.map Char.utf8Size).sum

/-- The characters of the first `n` bytes, and the others; nothing in the middle of a character. -/
def splitAtByte : Nat → List Char → Option (List Char × List Char)
  | 0, text => some ([], text)
  | _ + 1, [] => none
  | n + 1, c :: text =>
    if c.utf8Size ≤ n + 1 then
      (splitAtByte (n + 1 - c.utf8Size) text).map fun (before, after) => (c :: before, after)
    else none

section

variable {text before after : List Char} {n : Nat}

@[simp] theorem byteLength_nil : byteLength [] = 0 := rfl

@[simp] theorem byteLength_cons (c : Char) (text : List Char) :
    byteLength (c :: text) = c.utf8Size + byteLength text := by
  simp [byteLength]

@[simp] theorem byteLength_append (text text' : List Char) :
    byteLength (text ++ text') = byteLength text + byteLength text' := by
  simp [byteLength]

theorem length_le_byteLength (text : List Char) : text.length ≤ byteLength text := by
  induction text with
  | nil => exact le_rfl
  | cons c text ih =>
    have hc := c.utf8Size_pos
    rw [List.length_cons, byteLength_cons]
    omega

/-- As many bytes as characters: characters of one byte each. -/
theorem byteLength_eq_length_iff :
    byteLength text = text.length ↔ ∀ c ∈ text, c.utf8Size = 1 := by
  induction text with
  | nil => simp
  | cons c text ih =>
    have hc := c.utf8Size_pos
    have hlength := length_le_byteLength text
    rw [byteLength_cons, List.length_cons, List.forall_mem_cons, ← ih]
    omega

theorem splitAtByte_append (before after : List Char) :
    splitAtByte (byteLength before) (before ++ after) = some (before, after) := by
  induction before with
  | nil => cases after <;> rfl
  | cons c before ih =>
    obtain ⟨n, hn⟩ := Nat.exists_eq_succ_of_ne_zero (Nat.ne_of_gt c.utf8Size_pos)
    have hlength : byteLength (c :: before) = (n + byteLength before) + 1 := by
      rw [byteLength_cons]
      omega
    rw [hlength, List.cons_append, splitAtByte, if_pos (by omega)]
    have hrest : n + byteLength before + 1 - c.utf8Size = byteLength before := by omega
    rw [hrest, ih]
    rfl

theorem splitAtByte_eq_some_iff :
    splitAtByte n text = some (before, after) ↔ text = before ++ after ∧ byteLength before = n := by
  constructor
  · intro h
    induction text generalizing n before with
    | nil =>
      cases n with
      | zero =>
        cases h
        exact ⟨rfl, rfl⟩
      | succ n => cases h
    | cons c text ih =>
      cases n with
      | zero =>
        cases h
        exact ⟨rfl, rfl⟩
      | succ n =>
        rw [splitAtByte, Option.ite_none_right_eq_some] at h
        obtain ⟨hle, h⟩ := h
        obtain ⟨⟨before, after⟩, hrest, heq⟩ := Option.map_eq_some_iff.mp h
        cases heq
        obtain ⟨rfl, hbytes⟩ := ih hrest
        refine ⟨rfl, ?_⟩
        rw [byteLength_cons, hbytes]
        omega
  · rintro ⟨rfl, rfl⟩
    exact splitAtByte_append before after

end

end Batty
