import Batty.Board.Task
import Batty.Foundation.Bytes

/-!
# Timestamps in the frontmatter

Timestamps are read in the format of RFC 3339. An older spelling, whose offset lacks its colon, is
looked for in the last five bytes of a text and is rewritten in place.

The text is cut there whether or not a character begins at that byte. `parseFrontmatterTimestamp`
and `normalizeTimestampFrontmatterFields` come to an end exactly for the texts that `Probes`
describes, and there they take nothing for a timestamp that is none.

What the library for dates does is a parameter.
-/

namespace Batty

/-- How a function of the source ends without a result: by a panic or with an error. -/
inductive Failure where
  | panicked
  | error (message : String)
deriving DecidableEq

/-- Dates and times of the library: how they are read and written, and the instants they denote. -/
structure Chrono where
  DateTime : Type
  parseFromRfc3339 : List Char → Option DateTime
  toRfc3339 : DateTime → List Char
  instant : DateTime → Int

/-! ### Reading -/

/-- Cut a text at a byte; off the boundary of a character that is a panic. -/
def sliceAt (n : Nat) (text : List Char) : Except Failure (List Char × List Char) :=
  (splitAtByte n text).elim (.error .panicked) .ok

/-- The text with a colon in its offset, if its last five bytes are an offset without one. -/
def insertColon (trimmed : List Char) : List Char → Except Failure (Option (List Char))
  | sign :: digits =>
    if (sign = '+' || sign = '-') && digits.all Char.isDigit then do
      let (before, after) ← sliceAt (byteLength trimmed - 2) trimmed
      return some (before ++ ':' :: after)
    else return none
  | [] => return none

def legacyOffsetCandidate (value : List Char) : Except Failure (Option (List Char)) :=
  let trimmed := Text.trim value
  if byteLength trimmed < 5 then return none
  else do
    let (_, suffix) ← sliceAt (byteLength trimmed - 5) trimmed
    insertColon trimmed suffix

variable (chrono : Chrono)

def normalizeLegacyTimestampValue (value : List Char) : Except Failure (Option (List Char)) :=
  let trimmed := Text.trim value
  if trimmed.isEmpty || (chrono.parseFromRfc3339 trimmed).isSome then return none
  else do
    let candidate ← legacyOffsetCandidate trimmed
    return (candidate.bind chrono.parseFromRfc3339).map chrono.toRfc3339

def parseFrontmatterTimestamp (value : List Char) : Except Failure (Option chrono.DateTime) :=
  let trimmed := Text.trim value
  match chrono.parseFromRfc3339 trimmed with
  | some timestamp => return some timestamp
  | none => do
    let normalized ← normalizeLegacyTimestampValue chrono trimmed
    return normalized.bind chrono.parseFromRfc3339

/-- The task is scheduled for later than now. -/
def scheduledLater (now : Int) (task : Task) : Except Failure Bool :=
  match task.scheduledFor with
  | none => return false
  | some scheduled => do
    let timestamp ← parseFrontmatterTimestamp chrono scheduled.toList
    return timestamp.any fun timestamp => now < chrono.instant timestamp

/-! ### Rewriting -/

/-- The fields that hold timestamps, by their names. -/
def compatTimestampFields : List (String × Key) :=
  [("created", .other "created"), ("started", .other "started"), ("updated", .other "updated"),
    ("completed", .completed), ("claimed_at", .claimedAt), ("claim_expires_at", .claimExpiresAt),
    ("last_progress_at", .lastProgressAt), ("claim_warning_sent_at", .claimWarningSentAt),
    ("scheduled_for", .scheduledFor), ("cron_last_run", .cronLastRun),
    ("reviewed_at", .other "reviewed_at")]

/-- What is written to a field in place of its value, if anything is. -/
def renewed (value : Option Value) : Except Failure (Option (List Char)) :=
  match value.bind Value.asString with
  | none => return none
  | some raw => do
    let normalized ← normalizeLegacyTimestampValue chrono raw.toList
    return normalized.filter fun text => raw.toList ≠ text

def normalizeTimestampField (state : Mapping × List String) (field : String × Key) :
    Except Failure (Mapping × List String) := do
  match ← renewed chrono (state.1 field.2) with
  | none => return state
  | some text =>
    return (state.1.insert field.2 (.string (String.ofList text)), state.2 ++ [field.1])

def normalizeTimestampFrontmatterFields (mapping : Mapping) :
    Except Failure (Mapping × List String) :=
  compatTimestampFields.foldlM (normalizeTimestampField chrono) (mapping, [])

/-! ### What they make of a text -/

/-- The text can be read at once, or can be cut five bytes before its end or is too short for it. -/
def Probes (value : List Char) : Prop :=
  (chrono.parseFromRfc3339 (Text.trim value)).isSome ∨ byteLength (Text.trim value) < 5 ∨
    ∃ before after, Text.trim value = before ++ after ∧ byteLength after = 5

/-- The text ends in an offset without a colon; `candidate` has the colon. -/
structure Offset (value candidate : List Char) : Prop where
  parts : ∃ before sign digits, Text.trim value = before ++ sign :: digits ∧
    (sign = '+' ∨ sign = '-') ∧ (∀ c ∈ digits, c.isDigit = true) ∧ digits.length = 4 ∧
    candidate = before ++ sign :: (digits.take 2 ++ ':' :: digits.drop 2)

/-- With a colon in its offset the text can be read. -/
def IsLegacyTimestamp (value : List Char) : Prop :=
  ∃ candidate, Offset value candidate ∧ (chrono.parseFromRfc3339 candidate).isSome

def IsTimestamp (value : List Char) : Prop :=
  (chrono.parseFromRfc3339 (Text.trim value)).isSome ∨ IsLegacyTimestamp chrono value

section

variable {chrono} {value before after text : List Char} {sign : Char} {digits : List Char}

theorem sliceAt_append (before after : List Char) :
    sliceAt (byteLength before) (before ++ after) = .ok (before, after) := by
  rw [sliceAt, splitAtByte_append]
  rfl

theorem byteLength_digits (h : ∀ c ∈ digits, c.isDigit = true) :
    byteLength digits = digits.length := by
  induction digits with
  | nil => rfl
  | cons c digits ih =>
    obtain ⟨hc, hdigits⟩ := List.forall_mem_cons.mp h
    have hsize : c.utf8Size = 1 := by
      rw [Char.utf8Size_eq_one_iff]
      simp only [Char.isDigit, Bool.and_eq_true, decide_eq_true_eq, ge_iff_le] at hc
      exact UInt32.le_trans hc.2 (by decide)
    rw [byteLength_cons, hsize, ih hdigits, List.length_cons, Nat.add_comm]

theorem legacyOffsetCandidate_of_split {suffix : List Char}
    (htrim : Text.trim value = before ++ suffix) (hfive : byteLength suffix = 5) :
    legacyOffsetCandidate value = insertColon (Text.trim value) suffix := by
  have hlength : byteLength (Text.trim value) = byteLength before + 5 := by
    rw [htrim, byteLength_append, hfive]
  have hslice : sliceAt (byteLength (Text.trim value) - 5) (Text.trim value) =
      .ok (before, suffix) := by
    rw [hlength, htrim]
    exact sliceAt_append before suffix
  simp only [legacyOffsetCandidate, hslice]
  rw [if_neg (by omega)]
  rfl

/-- A signed number of five bytes has four digits, so that the colon finds its place. -/
theorem sliceAt_offset (htrim : Text.trim value = before ++ sign :: digits)
    (hdigits : ∀ c ∈ digits, c.isDigit = true)
    (hfour : digits.length = 4) :
    sliceAt (byteLength (Text.trim value) - 2) (Text.trim value) =
      .ok (before ++ sign :: digits.take 2, digits.drop 2) := by
  have hminutes : byteLength (digits.drop 2) = 2 := by
    rw [byteLength_digits fun c hc => hdigits c (List.mem_of_mem_drop hc), List.length_drop, hfour]
  have hsplit : Text.trim value = (before ++ sign :: digits.take 2) ++ digits.drop 2 := by
    rw [htrim, List.append_assoc, List.cons_append, List.take_append_drop]
  have hlength : byteLength (Text.trim value) - 2 =
      byteLength (before ++ sign :: digits.take 2) := by
    rw [hsplit, byteLength_append, hminutes, Nat.add_sub_cancel]
  rw [hlength, hsplit]
  exact sliceAt_append _ _

theorem byteLength_sign (hsign : sign = '+' ∨ sign = '-') : sign.utf8Size = 1 := by
  rcases hsign with rfl | rfl <;> rfl

/-- The colon goes in front of the minutes. -/
theorem legacyOffsetCandidate_of_offset (htrim : Text.trim value = before ++ sign :: digits)
    (hsign : sign = '+' ∨ sign = '-') (hdigits : ∀ c ∈ digits, c.isDigit = true)
    (hfour : digits.length = 4) :
    legacyOffsetCandidate value =
      .ok (some (before ++ sign :: (digits.take 2 ++ ':' :: digits.drop 2))) := by
  have hfive : byteLength (sign :: digits) = 5 := by
    rw [byteLength_cons, byteLength_sign hsign, byteLength_digits hdigits, hfour]
  have hall : digits.all Char.isDigit = true := List.all_eq_true.mpr hdigits
  have hplus : (decide (sign = '+') || decide (sign = '-')) = true := by simpa using hsign
  rw [legacyOffsetCandidate_of_split htrim hfive, insertColon]
  rw [if_pos (by rw [hplus, hall]; rfl), sliceAt_offset htrim hdigits hfour]
  simp [bind, Except.bind, pure, Except.pure]

/-- Where the text can be cut, an offset is found or there is none. -/
theorem exists_legacyOffsetCandidate (h : byteLength (Text.trim value) < 5 ∨
    ∃ before after, Text.trim value = before ++ after ∧ byteLength after = 5) :
    ∃ found, legacyOffsetCandidate value = .ok found ∧
      ∀ candidate ∈ found, Offset value candidate := by
  rcases h with hshort | ⟨before, suffix, htrim, hfive⟩
  · rw [legacyOffsetCandidate, if_pos hshort]
    exact ⟨none, rfl, nofun⟩
  · cases suffix with
    | nil => simp at hfive
    | cons sign digits =>
      by_cases hoffset : (sign = '+' ∨ sign = '-') ∧ ∀ c ∈ digits, c.isDigit = true
      · obtain ⟨hsign, hdigits⟩ := hoffset
        -- Signs and digits are single bytes, so that five bytes leave four digits.
        have hfour : digits.length = 4 := by
          rw [byteLength_cons, byteLength_sign hsign, byteLength_digits hdigits] at hfive
          omega
        refine ⟨_, legacyOffsetCandidate_of_offset htrim hsign hdigits hfour,
          fun candidate hcandidate => ?_⟩
        obtain rfl := Option.some.inj hcandidate
        exact ⟨before, sign, digits, htrim, hsign, hdigits, hfour, rfl⟩
      · rw [legacyOffsetCandidate_of_split htrim hfive, insertColon,
          if_neg (by simpa [List.all_eq_true] using hoffset)]
        exact ⟨none, rfl, nofun⟩

/-- Where a character straddles the fifth byte from the end, the probe panics. -/
theorem legacyOffsetCandidate_panics (hlong : ¬ byteLength (Text.trim value) < 5)
    (hcut : ¬ ∃ before after, Text.trim value = before ++ after ∧ byteLength after = 5) :
    legacyOffsetCandidate value = .error .panicked := by
  have hslice : sliceAt (byteLength (Text.trim value) - 5) (Text.trim value) = .error .panicked := by
    rw [sliceAt]
    cases hsplit : splitAtByte (byteLength (Text.trim value) - 5) (Text.trim value) with
    | none => rfl
    | some parts =>
      obtain ⟨htrim, hbytes⟩ := splitAtByte_eq_some_iff.mp hsplit
      have hlength := congrArg byteLength htrim
      rw [byteLength_append] at hlength
      exact absurd ⟨parts.1, parts.2, htrim, by omega⟩ hcut
  simp only [legacyOffsetCandidate, hslice]
  rw [if_neg hlong]
  rfl

/-- A text is rewritten only if it is in the older spelling. -/
theorem exists_normalizeLegacyTimestampValue (h : Probes chrono value) :
    ∃ normalized, normalizeLegacyTimestampValue chrono value = .ok normalized ∧
      ∀ text ∈ normalized, chrono.parseFromRfc3339 (Text.trim value) = none ∧
        ∃ candidate timestamp, Offset value candidate ∧
          chrono.parseFromRfc3339 candidate = some timestamp ∧ text = chrono.toRfc3339 timestamp := by
  by_cases hread : ((Text.trim value).isEmpty ||
      (chrono.parseFromRfc3339 (Text.trim value)).isSome) = true
  · rw [normalizeLegacyTimestampValue, if_pos hread]
    exact ⟨none, rfl, nofun⟩
  · have hnone : chrono.parseFromRfc3339 (Text.trim value) = none := by
      rw [Bool.or_eq_true, not_or, Bool.not_eq_true, Bool.not_eq_true] at hread
      exact Option.isSome_eq_false_iff.mp hread.2 |> Option.isNone_iff_eq_none.mp
    have hcut := h.resolve_left (by simp [hnone])
    rw [← Text.trim_trim] at hcut
    obtain ⟨found, hfound, hoffset⟩ := exists_legacyOffsetCandidate hcut
    simp only [normalizeLegacyTimestampValue, hfound]
    rw [if_neg hread]
    refine ⟨_, rfl, fun text htext => ⟨hnone, ?_⟩⟩
    obtain ⟨timestamp, hparse, rfl⟩ := Option.map_eq_some_iff.mp htext
    obtain ⟨candidate, rfl, htimestamp⟩ := Option.bind_eq_some_iff.mp hparse
    obtain ⟨parts⟩ := hoffset candidate rfl
    rw [Text.trim_trim] at parts
    exact ⟨candidate, timestamp, ⟨parts⟩, htimestamp, rfl⟩

theorem normalizeLegacyTimestampValue_panics (h : ¬ Probes chrono value) :
    normalizeLegacyTimestampValue chrono value = .error .panicked := by
  simp only [Probes, not_or] at h
  obtain ⟨hread, hlong, hcut⟩ := h
  have hempty : ¬ Text.trim value = [] := fun hnil => hlong (by simp [hnil])
  rw [← Text.trim_trim] at hlong hcut
  simp only [normalizeLegacyTimestampValue, legacyOffsetCandidate_panics hlong hcut]
  rw [if_neg (by simpa [hempty] using hread)]
  rfl

theorem probes_trim : Probes chrono (Text.trim value) ↔ Probes chrono value := by
  rw [Probes, Text.trim_trim, Probes]

/-- What is not a timestamp is not taken for one. -/
theorem exists_parseFrontmatterTimestamp (h : Probes chrono value) :
    ∃ timestamp, parseFrontmatterTimestamp chrono value = .ok timestamp ∧
      (¬ IsTimestamp chrono value → timestamp = none) := by
  rw [parseFrontmatterTimestamp]
  cases hparse : chrono.parseFromRfc3339 (Text.trim value) with
  | some timestamp => exact ⟨some timestamp, rfl, fun hnot => absurd (.inl (by simp [hparse])) hnot⟩
  | none =>
    obtain ⟨normalized, hnormalized, hlegacy⟩ :=
      exists_normalizeLegacyTimestampValue (probes_trim.mpr h)
    simp only [hnormalized]
    refine ⟨_, rfl, fun hnot => ?_⟩
    cases normalized with
    | none => rfl
    | some text =>
      obtain ⟨-, candidate, timestamp, ⟨parts⟩, hcandidate, -⟩ := hlegacy text rfl
      rw [Text.trim_trim] at parts
      exact absurd (.inr ⟨candidate, ⟨parts⟩, by simp [hcandidate]⟩) hnot

theorem parseFrontmatterTimestamp_panics (h : ¬ Probes chrono value) :
    parseFrontmatterTimestamp chrono value = .error .panicked := by
  have hnone : chrono.parseFromRfc3339 (Text.trim value) = none := by
    simpa using fun hsome => h (.inl hsome)
  simp only [parseFrontmatterTimestamp, hnone,
    normalizeLegacyTimestampValue_panics fun hprobes => h (probes_trim.mp hprobes)]
  rfl

end

/-! ### What they make of the fields -/

/-- The mapping with new texts in some of the fields. -/
def renewFields (fields : List (String × Key)) (renewal : Key → Option (List Char))
    (mapping : Mapping) : Mapping := fun key =>
  if key ∈ fields.map Prod.snd then
    ((renewal key).map fun text => Value.string (String.ofList text)).or (mapping key)
  else mapping key

section

variable {chrono} {value : Option Value} {mapping : Mapping}

theorem bind_asString_eq_some_iff {raw : String} :
    value.bind Value.asString = some raw ↔ value = some (.string raw) := by
  constructor
  · intro h
    obtain ⟨value, rfl, hstring⟩ := Option.bind_eq_some_iff.mp h
    cases value <;> simp_all [Value.asString]
  · rintro rfl
    rfl

theorem exists_renewed (h : ∀ raw, value = some (.string raw) → Probes chrono raw.toList) :
    ∃ renewal, renewed chrono value = .ok renewal ∧ ∀ text ∈ renewal,
      ∃ raw candidate timestamp, value = some (.string raw) ∧
        chrono.parseFromRfc3339 (Text.trim raw.toList) = none ∧ Offset raw.toList candidate ∧
        chrono.parseFromRfc3339 candidate = some timestamp ∧ text = chrono.toRfc3339 timestamp := by
  rw [renewed]
  cases hvalue : value.bind Value.asString with
  | none => exact ⟨none, rfl, nofun⟩
  | some raw =>
    have hraw := bind_asString_eq_some_iff.mp hvalue
    obtain ⟨normalized, hnormalized, hlegacy⟩ := exists_normalizeLegacyTimestampValue (h raw hraw)
    simp only [hnormalized]
    refine ⟨_, rfl, fun text htext => ?_⟩
    obtain ⟨hunread, candidate, timestamp, hoffset, hcandidate, htimestamp⟩ :=
      hlegacy text (Option.mem_filter_iff.mp htext).1
    exact ⟨raw, candidate, timestamp, hraw, hunread, hoffset, hcandidate, htimestamp⟩

theorem renewed_panics {raw : String} (h : ¬ Probes chrono raw.toList) :
    renewed chrono (some (.string raw)) = .error .panicked := by
  simp only [renewed, Option.bind_some, Value.asString, normalizeLegacyTimestampValue_panics h]
  rfl

theorem normalizeTimestampField_eq {field : String × Key} {renewal : Option (List Char)}
    (h : renewed chrono (mapping field.2) = .ok renewal) (repaired : List String) :
    normalizeTimestampField chrono (mapping, repaired) field =
      .ok (Function.update mapping field.2
          ((renewal.map fun text => Value.string (String.ofList text)).or (mapping field.2)),
        repaired ++ if renewal.isSome then [field.1] else []) := by
  simp only [normalizeTimestampField, h]
  cases renewal with
  | none => simp [bind, Except.bind, pure, Except.pure]
  | some text => simp [bind, Except.bind, pure, Except.pure, Mapping.insert]

/-- A field that is renewed has no effect on the others. -/
theorem foldlM_normalizeTimestampField {renewal : Key → Option (List Char)}
    {fields : List (String × Key)} (hnodup : (fields.map Prod.snd).Nodup) (repaired : List String)
    (h : ∀ field ∈ fields, renewed chrono (mapping field.2) = .ok (renewal field.2)) :
    fields.foldlM (normalizeTimestampField chrono) (mapping, repaired) =
      .ok (renewFields fields renewal mapping,
        repaired ++ (fields.filter fun field => (renewal field.2).isSome).map Prod.fst) := by
  induction fields generalizing mapping repaired with
  | nil =>
    have hnone : renewFields [] renewal mapping = mapping := by
      funext key
      simp [renewFields]
    simp [hnone, pure, Except.pure]
  | cons field fields ih =>
    obtain ⟨hother, hnodup⟩ := List.nodup_cons.mp hnodup
    obtain ⟨hfield, hfields⟩ := List.forall_mem_cons.mp h
    rw [List.foldlM_cons, normalizeTimestampField_eq hfield]
    refine (ih hnodup _ fun other hmem => ?_).trans ?_
    · have hne : other.2 ≠ field.2 := fun heq => hother (heq ▸ List.mem_map_of_mem hmem)
      rw [Function.update_of_ne hne]
      exact hfields other hmem
    · have hmapping : renewFields fields renewal (Function.update mapping field.2
          (((renewal field.2).map fun text => Value.string (String.ofList text)).or
            (mapping field.2))) = renewFields (field :: fields) renewal mapping := by
        funext key
        by_cases hkey : key = field.2
        · subst hkey
          simp only [renewFields, hother, if_false, Function.update_self, List.map_cons,
            List.mem_cons_self, if_true]
        · simp only [renewFields, Function.update_of_ne hkey, List.map_cons, List.mem_cons, hkey,
            false_or]
      rw [hmapping]
      cases hsome : (renewal field.2).isSome <;> simp [hsome]

theorem foldlM_normalizeTimestampField_panics {fields : List (String × Key)}
    (hnodup : (fields.map Prod.snd).Nodup) (repaired : List String)
    (h : ∃ field ∈ fields, ∃ raw, mapping field.2 = some (.string raw) ∧
      ¬ Probes chrono raw.toList) :
    fields.foldlM (normalizeTimestampField chrono) (mapping, repaired) = .error .panicked := by
  induction fields generalizing mapping repaired with
  | nil =>
    obtain ⟨field, hmem, -⟩ := h
    cases hmem
  | cons field fields ih =>
    obtain ⟨hother, hnodup⟩ := List.nodup_cons.mp hnodup
    rw [List.foldlM_cons]
    by_cases hprobes : ∀ raw, mapping field.2 = some (.string raw) → Probes chrono raw.toList
    · obtain ⟨renewal, hrenewal, -⟩ := exists_renewed hprobes
      obtain ⟨bad, hmem, raw, hraw, hpanics⟩ := h
      rw [normalizeTimestampField_eq hrenewal]
      refine ih hnodup _ ⟨bad, ?_, raw, ?_, hpanics⟩
      · exact (List.mem_cons.mp hmem).resolve_left fun heq =>
          hpanics (hprobes raw (heq ▸ hraw))
      · have hne : bad.2 ≠ field.2 := fun heq => hpanics (hprobes raw (heq ▸ hraw))
        rw [Function.update_of_ne hne]
        exact hraw
    · push Not at hprobes
      obtain ⟨raw, hraw, hpanics⟩ := hprobes
      simp only [normalizeTimestampField, hraw, renewed_panics hpanics]
      rfl

theorem nodup_compatTimestampFields : (compatTimestampFields.map Prod.snd).Nodup := by
  decide

/-- Every field is renewed or kept, if none of them makes the probe panic. -/
theorem exists_normalizeTimestampFrontmatterFields
    (h : ∀ field ∈ compatTimestampFields, ∀ raw, mapping field.2 = some (.string raw) →
      Probes chrono raw.toList) :
    ∃ renewal : Key → Option (List Char),
      (∀ field ∈ compatTimestampFields, renewed chrono (mapping field.2) = .ok (renewal field.2)) ∧
      normalizeTimestampFrontmatterFields chrono mapping =
        .ok (renewFields compatTimestampFields renewal mapping,
          (compatTimestampFields.filter fun field => (renewal field.2).isSome).map Prod.fst) := by
  have hall : ∀ key, ∃ renewal, (∃ name, (name, key) ∈ compatTimestampFields) →
      renewed chrono (mapping key) = .ok renewal := by
    intro key
    by_cases hkey : ∃ name, (name, key) ∈ compatTimestampFields
    · obtain ⟨name, hmem⟩ := hkey
      obtain ⟨renewal, hrenewal, -⟩ := exists_renewed (h (name, key) hmem)
      exact ⟨renewal, fun _ => hrenewal⟩
    · exact ⟨none, fun hmem => absurd hmem hkey⟩
  choose renewal hrenewal using hall
  have hfields : ∀ field ∈ compatTimestampFields,
      renewed chrono (mapping field.2) = .ok (renewal field.2) :=
    fun field hmem => hrenewal field.2 ⟨field.1, hmem⟩
  refine ⟨renewal, hfields, ?_⟩
  rw [normalizeTimestampFrontmatterFields,
    foldlM_normalizeTimestampField nodup_compatTimestampFields [] hfields, List.nil_append]

end

end Batty
