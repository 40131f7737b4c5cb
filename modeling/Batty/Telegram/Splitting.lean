import Batty.Foundation.Bytes
import Batty.Foundation.Trimming

/-!
# Long messages

A message that is too long for one sending is cut into chunks, behind the last line feed within the
limit or else right at the limit. The limit is a number of bytes, and the text is looked at up to
that byte before anything else, so that a character across it ends the daemon's step.

* `SplitsInto`: the chunks make up the text, fit, and end with a line where one ends within the
  limit.
* `splitsMessage_iff`: for which texts that is what comes back, namely those in which every border
  falls between two characters.
-/

namespace Batty

namespace Splitting

open Text

/-- The slice is taken in the middle of a character, or the loop does not come to its end. -/
inductive SplitError where
  | panicked | exhausted
deriving DecidableEq

/-- The byte at which the last `c` begins. -/
def rfind (c : Char) (s : List Char) : Option Nat :=
  if c ∈ s then some (byteLength (trimEndMatches (· ≠ c) s).dropLast) else none

/-- Cut windows off the text until the rest fits. -/
def splitLoop (maxLen : Nat) : Nat → List Char → Except SplitError (List (List Char))
  | _, [] => .ok []
  | 0, _ :: _ => .error .exhausted
  | fuel + 1, remaining =>
    if byteLength remaining ≤ maxLen then .ok [remaining]
    else
      match splitAtByte maxLen remaining with
      | none => .error .panicked
      | some (window, _) =>
        let splitAt := ((rfind '\n' window).map (· + 1)).getD maxLen
        match splitAtByte splitAt remaining with
        | none => .error .panicked
        | some (chunk, rest) => (splitLoop maxLen fuel rest).map (chunk :: ·)

/-- A round takes at least one character, unless the limit is zero. -/
def splitMessage (text : List Char) (maxLen : Nat) : Except SplitError (List (List Char)) :=
  if byteLength text ≤ maxLen then .ok [text] else splitLoop maxLen text.length text

/-! ### What splitting is for -/

/-- The chunks make up the text; none is empty or too long, and one with more behind it ends with a
line if a line ends within the limit from where it begins. -/
structure SplitsInto (maxLen : Nat) (text : List Char) (chunks : List (List Char)) : Prop where
  flatten : chunks.flatten = text
  ne_nil : text ≠ [] → ∀ chunk ∈ chunks, chunk ≠ []
  fits : ∀ chunk ∈ chunks, byteLength chunk ≤ maxLen
  ended : ∀ before chunk after, chunks = before ++ chunk :: after → after ≠ [] →
    ∀ window rest, chunk ++ after.flatten = window ++ rest → byteLength window ≤ maxLen →
      '\n' ∈ window → chunk.getLast? = some '\n'

/-- The message comes back in such chunks. -/
def SplitsMessage (maxLen : Nat) (text : List Char) : Prop :=
  ∃ chunks, splitMessage text maxLen = .ok chunks ∧ SplitsInto maxLen text chunks

/-- What is cut off of all that lies within the limit: up to its last line feed, or all of it. -/
def Cuts (window chunk last : List Char) : Prop :=
  window = chunk ++ last ∧ '\n' ∉ last ∧ (chunk.getLast? = some '\n' ∨ '\n' ∉ chunk ∧ last = [])

/-- **Borders between characters**: the text fits, or its characters up to one of them make up the
limit to the byte, and what is behind the border after them is again such a text. -/
inductive Bordered (maxLen : Nat) : List Char → Prop where
  | short {text} : byteLength text ≤ maxLen → Bordered maxLen text
  | long {window chunk last rest} : rest ≠ [] → byteLength window = maxLen →
      Cuts window chunk last → Bordered maxLen (last ++ rest) → Bordered maxLen (window ++ rest)

section

variable {maxLen fuel : Nat} {text window chunk last rest : List Char} {chunks : List (List Char)}

/-! ### The cut -/

theorem trimEndMatches_of_getLast? {p : Char → Bool} (h : ∀ c ∈ text.getLast?, p c = false) :
    trimEndMatches p text = text := by
  rw [trimEndMatches, dropWhile_of_head (by rwa [List.head?_reverse]), List.reverse_reverse]

theorem exists_cuts (window : List Char) : ∃ chunk last, Cuts window chunk last := by
  by_cases hmem : '\n' ∈ window
  · obtain ⟨last, hwindow, hlast⟩ := eq_trimEndMatches_append (· ≠ '\n') window
    have hnewline : '\n' ∉ last := fun hc => by simpa using hlast _ hc
    refine ⟨trimEndMatches (· ≠ '\n') window, last, hwindow, hnewline, .inl ?_⟩
    have hne : (window.reverse.dropWhile (· ≠ '\n')) ≠ [] := fun hnil => by
      simpa using List.dropWhile_eq_nil_iff.mp hnil '\n' (List.mem_reverse.mpr hmem)
    obtain ⟨c, front, hcons⟩ := List.exists_cons_of_ne_nil hne
    have hc : c = '\n' := by
      simpa using head?_dropWhile (p := (· ≠ '\n')) (s := window.reverse) c (by rw [hcons]; rfl)
    rw [trimEndMatches, List.getLast?_reverse, hcons, hc]
    rfl
  · exact ⟨window, [], (List.append_nil _).symm, List.not_mem_nil, .inr ⟨hmem, rfl⟩⟩

/-- The byte at which the code cuts. -/
theorem splitAt_eq (h : Cuts window chunk last) :
    ((rfind '\n' window).map (· + 1)).getD (byteLength window) = byteLength chunk := by
  obtain ⟨rfl, hlast, hends | ⟨hchunk, rfl⟩⟩ := h
  · have hmem : '\n' ∈ chunk ++ last := List.mem_append_left _ (List.mem_of_getLast? hends)
    have hnone : trimEndMatches (· ≠ '\n') last = [] := by
      rw [trimEndMatches, List.reverse_eq_nil_iff, List.dropWhile_eq_nil_iff]
      exact fun c hc => decide_eq_true fun heq => hlast (heq ▸ List.mem_reverse.mp hc)
    have hself : trimEndMatches (· ≠ '\n') chunk = chunk :=
      trimEndMatches_of_getLast? fun c hc => by
        rw [hends] at hc
        simpa using hc.symm
    obtain ⟨front, rfl⟩ := List.getLast?_eq_some_iff.mp hends
    have hsize : Char.utf8Size '\n' = 1 := by decide
    rw [rfind, if_pos hmem, trimEndMatches_append, if_pos hnone, hself, List.dropLast_concat]
    simp [hsize]
  · rw [List.append_nil, rfind, if_neg hchunk]
    rfl

theorem Cuts.ne_nil (h : Cuts window chunk last) (hwindow : window ≠ []) : chunk ≠ [] := by
  rintro rfl
  obtain ⟨rfl, -, hends | ⟨-, rfl⟩⟩ := h
  · cases hends
  · exact hwindow rfl

/-! ### The loop -/

theorem ne_nil_of_byteLength (h : 0 < byteLength text) : text ≠ [] := by
  rintro rfl
  exact absurd h (Nat.lt_irrefl 0)

/-- **One round.** -/
theorem splitLoop_long (hlong : maxLen < byteLength (window ++ rest))
    (hwindow : byteLength window = maxLen) (hcuts : Cuts window chunk last) :
    splitLoop maxLen (fuel + 1) (window ++ rest) =
      (splitLoop maxLen fuel (last ++ rest)).map (chunk :: ·) := by
  have hlook : splitAtByte maxLen (window ++ rest) = some (window, rest) :=
    splitAtByte_eq_some_iff.mpr ⟨rfl, hwindow⟩
  have hcut : splitAtByte (byteLength chunk) (window ++ rest) = some (chunk, last ++ rest) :=
    splitAtByte_eq_some_iff.mpr ⟨by rw [hcuts.1, List.append_assoc], rfl⟩
  have hat := splitAt_eq hcuts
  rw [hwindow] at hat
  obtain ⟨c, remaining, hcons⟩ := List.exists_cons_of_ne_nil
    (ne_nil_of_byteLength (Nat.lt_of_le_of_lt (Nat.zero_le _) hlong))
  rw [hcons] at hlong hlook hcut ⊢
  simp only [splitLoop, if_neg (Nat.not_le.mpr hlong), hlook, hat, hcut]

theorem splitLoop_short (hne : text ≠ []) (hshort : byteLength text ≤ maxLen) :
    splitLoop maxLen (fuel + 1) text = .ok [text] := by
  obtain ⟨c, remaining, rfl⟩ := List.exists_cons_of_ne_nil hne
  simp only [splitLoop, if_pos hshort]

/-- What is behind the border of a long text is not empty, and shorter than the text. -/
theorem Cuts.shorter (hcuts : Cuts window chunk last) (hwindow : window ≠ []) :
    (last ++ rest).length < (window ++ rest).length := by
  have hpos := List.length_pos_of_ne_nil (hcuts.ne_nil hwindow)
  rw [hcuts.1]
  simp only [List.length_append]
  omega

theorem bordered_of_splitLoop (hloop : splitLoop maxLen fuel text = .ok chunks) :
    Bordered maxLen text := by
  induction fuel generalizing text chunks with
  | zero =>
    cases text with
    | nil => exact .short (Nat.zero_le _)
    | cons c text => cases hloop
  | succ fuel ih =>
    by_cases hshort : byteLength text ≤ maxLen
    · exact .short hshort
    · cases hlook : splitAtByte maxLen text with
      | none =>
        cases text with
        | nil => exact .short (Nat.zero_le _)
        | cons c text =>
          simp only [splitLoop, if_neg hshort, hlook] at hloop
          cases hloop
      | some cut =>
        obtain ⟨window, rest⟩ := cut
        obtain ⟨rfl, hwindow⟩ := splitAtByte_eq_some_iff.mp hlook
        obtain ⟨chunk, last, hcuts⟩ := exists_cuts window
        have hrest : rest ≠ [] := by
          rintro rfl
          rw [List.append_nil] at hshort
          exact hshort hwindow.le
        rw [splitLoop_long (Nat.not_le.mp hshort) hwindow hcuts] at hloop
        cases hnext : splitLoop maxLen fuel (last ++ rest) with
        | error error =>
          rw [hnext] at hloop
          cases hloop
        | ok chunks => exact .long hrest hwindow hcuts (ih hnext)

/-- A chunk in front of chunks that are split well. -/
theorem SplitsInto.cons (hcuts : Cuts window chunk last) (hwindow : byteLength window = maxLen)
    (hpos : 0 < maxLen) (hrest : rest ≠ []) (h : SplitsInto maxLen (last ++ rest) chunks) :
    SplitsInto maxLen (window ++ rest) (chunk :: chunks) := by
  have hchunk : chunk ≠ [] := hcuts.ne_nil (ne_nil_of_byteLength (hwindow ▸ hpos))
  have hmore : last ++ rest ≠ [] := by simp [hrest]
  obtain ⟨rfl, hlast, hends⟩ := hcuts
  rw [byteLength_append] at hwindow
  refine ⟨?_, fun _ => List.forall_mem_cons.mpr ⟨hchunk, h.ne_nil hmore⟩,
    List.forall_mem_cons.mpr ⟨by omega, h.fits⟩, ?_⟩
  · rw [List.flatten_cons, h.flatten, List.append_assoc]
  · intro before chunk' after heq hafter window' rest' htext hwindow' hmem
    cases before with
    | nil =>
      obtain ⟨rfl, rfl⟩ := List.cons.inj heq
      refine hends.resolve_right fun ⟨hnone, hnil⟩ => ?_
      -- All within the limit is the chunk, and there is no line feed in it.
      rw [hnil, byteLength_nil, Nat.add_zero] at hwindow
      rcases List.append_eq_append_iff.mp htext with ⟨beyond, hbeyond, -⟩ | ⟨beyond, hbeyond, -⟩
      · have hzero : beyond = [] := by
          by_contra hne
          obtain ⟨c, beyond, rfl⟩ := List.exists_cons_of_ne_nil hne
          have hc := c.utf8Size_pos
          rw [hbeyond, byteLength_append, byteLength_cons] at hwindow'
          omega
        rw [hbeyond, hzero, List.append_nil] at hmem
        exact hnone hmem
      · exact hnone (hbeyond ▸ List.mem_append_left _ hmem)
    | cons first before =>
      obtain ⟨rfl, hchunks⟩ := List.cons.inj heq
      exact h.ended before chunk' after hchunks hafter window' rest' htext hwindow' hmem

theorem splitsInto_singleton (hshort : byteLength text ≤ maxLen) :
    SplitsInto maxLen text [text] := by
  refine ⟨by simp, fun hne => by simpa using hne, by simpa using hshort, ?_⟩
  intro before chunk after heq hafter
  have hlength := congrArg List.length heq
  have hpos := List.length_pos_of_ne_nil hafter
  simp only [List.length_append, List.length_cons, List.length_nil] at hlength
  omega

theorem splitLoop_of_bordered (hpos : 0 < maxLen) (h : Bordered maxLen text) (hne : text ≠ [])
    (hfuel : text.length ≤ fuel) :
    ∃ chunks, splitLoop maxLen fuel text = .ok chunks ∧ SplitsInto maxLen text chunks := by
  induction h generalizing fuel with
  | @short text hshort =>
    have hlength := List.length_pos_of_ne_nil hne
    obtain ⟨fuel, rfl⟩ := Nat.exists_eq_succ_of_ne_zero (show fuel ≠ 0 by omega)
    exact ⟨[text], splitLoop_short hne hshort, splitsInto_singleton hshort⟩
  | @long window chunk last rest hrest hwindow hcuts _ ih =>
    have hwindow' : window ≠ [] := ne_nil_of_byteLength (hwindow ▸ hpos)
    have hlong : maxLen < byteLength (window ++ rest) := by
      obtain ⟨c, rest, rfl⟩ := List.exists_cons_of_ne_nil hrest
      have hc := c.utf8Size_pos
      rw [byteLength_append, byteLength_cons]
      omega
    have hshorter : (last ++ rest).length < (window ++ rest).length := hcuts.shorter hwindow'
    obtain ⟨fuel, rfl⟩ := Nat.exists_eq_succ_of_ne_zero (show fuel ≠ 0 by omega)
    have hless : (last ++ rest).length ≤ fuel := by omega
    obtain ⟨chunks, hloop, hsplits⟩ := ih (by simp [hrest]) hless
    refine ⟨chunk :: chunks, ?_, hsplits.cons hcuts hwindow hpos hrest⟩
    rw [splitLoop_long hlong hwindow hcuts, hloop]
    rfl

/-- **A message is split well** exactly if every border falls between two characters. -/
theorem splitsMessage_iff (hmax : 4 ≤ maxLen) (text : List Char) :
    SplitsMessage maxLen text ↔ Bordered maxLen text := by
  have hpos : 0 < maxLen := by omega
  rw [SplitsMessage, splitMessage]
  by_cases hshort : byteLength text ≤ maxLen
  · rw [if_pos hshort]
    exact ⟨fun _ => .short hshort, fun _ => ⟨[text], rfl, splitsInto_singleton hshort⟩⟩
  · have hne : text ≠ [] := ne_nil_of_byteLength (by omega)
    rw [if_neg hshort]
    exact ⟨fun ⟨chunks, hloop, _⟩ => bordered_of_splitLoop hloop,
      fun h => splitLoop_of_bordered hpos h hne le_rfl⟩

end

/-- Of two lines the second is cut once more, behind a character of two bytes. -/
theorem splitsMessage_iff_twoLines : SplitsMessage 4 "a\nüdefg".toList := by
  refine (splitsMessage_iff (by decide) _).mpr ?_
  have hlast : Bordered 4 ("".toList ++ "fg".toList) := .short (by decide)
  have hsecond : Bordered 4 ("ü".toList ++ "defg".toList) :=
    @Bordered.long _ "üde".toList "üde".toList _ _ (by decide) (by decide)
      ⟨rfl, by decide, .inr ⟨by decide, rfl⟩⟩ hlast
  exact @Bordered.long _ "a\nü".toList "a\n".toList _ _ (by decide) (by decide)
    ⟨rfl, by decide, .inl rfl⟩ hsecond

/-- The border falls into the last of three characters of two bytes each. -/
theorem not_splitsMessage : ¬ ∀ maxLen text, 4 ≤ maxLen → SplitsMessage maxLen text := by
  intro h
  obtain ⟨chunks, hchunks, -⟩ := h 5 "äöü".toList (by decide)
  have hpanics : splitMessage "äöü".toList 5 = .error .panicked := by decide
  rw [hpanics] at hchunks
  cases hchunks

end Splitting

end Batty
