import Batty.Board.Fences
import Batty.Board.Timestamps
import Batty.Foundation.Trimming
import Mathlib.Data.List.Sort

/-!
# The repair of task files

Reading a task file first repairs its frontmatter: timestamps in an older spelling are rewritten,
and what is said about a block is brought into one shape. A file that was repaired is rendered anew.

* `neverCrashes_iff`: no reader of a frontmatter panics exactly if all its timestamps can be probed.
* `repairsSafely_iff`: for a file that holds a task, when what the repair leaves needs no further
  one, and apart from the spelling of timestamps and the shape of the block nothing is changed.

A frontmatter ends in front of the line break before its closing fence. If it ends with a text in
block style, the break is a part of the text, and a repair writes what is read again without it.

The library for YAML is a parameter, and the laws that the second result takes from it and from the
one for dates are `Yaml.RoundTrips` and `Chrono.RoundTrips`.
-/

namespace Batty

/-- The reading and the writing of YAML mappings, whose keys stand in an order. What is read of the
last value of a text without the line break at its end is `cut`. -/
structure Yaml where
  fromStr : List Char → Option Mapping
  keys : List Char → List Key
  toString : List Key → Mapping → Option (List Char)
  cut : Value → Value

/-! ### The repair -/

/-- What a repair reports: the fields it rewrote, and the reason it spelled out. -/
structure TaskFrontmatterCompatRepair where
  repairedFields : List String
  blockedReason : Option String

/-- The reason that the frontmatter gives for a block, wherever it stands. -/
def desiredReason (mapping : Mapping) : Option String :=
  let blockReason := (mapping .blockReason).bind Value.asString
  let blockedOn := (mapping .blockedOn).bind Value.asString
  match mapping .blocked with
  | some (.string reason) =>
    if Text.trim reason.toList = [] then blockReason.or blockedOn else some reason
  | some (.bool false) => none
  | _ => blockReason.or blockedOn

def sortedNames (names : List String) : List String := (names.insertionSort (· ≤ ·)).dedup

/-- The frontmatter as it is written back, if it needs a repair. -/
def normalizeFrontmatter (chrono : Chrono) (mapping : Mapping) :
    Except Failure (Option (Mapping × TaskFrontmatterCompatRepair)) := do
  let (mapping, repaired) ← normalizeTimestampFrontmatterFields chrono mapping
  match blockRepair mapping with
  | some (reason, blockedOn) =>
    return some (setBlockedReason reason blockedOn mapping, {
      repairedFields := sortedNames (repaired ++ ["blocked", "block_reason", "blocked_on"])
      blockedReason := desiredReason mapping })
  | none =>
    if repaired.isEmpty then return none
    else
      return some (mapping, {
        repairedFields := sortedNames repaired
        blockedReason := desiredReason mapping })

def withoutPrefix (start text : List Char) : List Char :=
  if start.isPrefixOf text then text.drop start.length else text

/-- The keys of a repaired mapping: what the repair inserts comes last, unless it was there. -/
def writtenKeys (keys : List Key) (mapping : Mapping) : List Key :=
  keys ++ [Key.blocked, .blockReason, .blockedOn].filter fun key =>
    decide (key ∉ keys) && (mapping key).isSome

def renderFrontmatterContent (yaml : Yaml) (keys : List Key) (mapping : Mapping)
    (body : List Char) : Except Failure (List Char) :=
  match yaml.toString keys mapping with
  | none => .error (.error "failed to serialize task frontmatter")
  | some rendered =>
    let updated := "---\n".toList ++ withoutPrefix "---\n".toList rendered
    let updated := if updated.getLast? = some '\n' then updated else updated ++ ['\n']
    .ok (updated ++ "---\n".toList ++ body)

def orFailure {α : Type} : Except String α → Except Failure α
  | .ok a => .ok a
  | .error message => .error (.error message)

variable (yaml : Yaml) (chrono : Chrono)

def normalizeTaskFrontmatterContent (content : List Char) :
    Except Failure (Option (List Char × TaskFrontmatterCompatRepair)) := do
  let (frontmatter, body) ← orFailure (splitFrontmatter content)
  match yaml.fromStr frontmatter with
  | none => .error (.error "failed to parse YAML frontmatter")
  | some mapping =>
    match ← normalizeFrontmatter chrono mapping with
    | none => return none
    | some (mapping, repair) => do
      let keys := writtenKeys (yaml.keys frontmatter) mapping
      let updated ← renderFrontmatterContent yaml keys mapping body
      return some (updated, repair)

/-- What a reader leaves in the file, and goes on with. -/
def repairedContent (content : List Char) : Except Failure (List Char) := do
  match ← normalizeTaskFrontmatterContent yaml chrono content with
  | some (updated, _) => return updated
  | none => return content

/-- `Task::from_file`, given what the file holds. -/
def taskFromContent (path : String) (content : List Char) : Except Failure Task := do
  let content ← repairedContent yaml chrono content
  let task ← orFailure (Task.parseContent yaml.fromStr content)
  return { task with sourcePath := path }

/-! ### No reader crashes -/

/-- **No crash.** Timestamps are read and rewritten without a panic, and what is no timestamp is not
read and is left alone; a file with this frontmatter can be read, and the schedule looked at. -/
structure NeverCrashes (chrono : Chrono) (mapping : Mapping) : Prop where
  reads : ∀ field ∈ compatTimestampFields, ∀ raw, mapping field.2 = some (.string raw) →
    ∃ timestamp, parseFrontmatterTimestamp chrono raw.toList = .ok timestamp ∧
      (¬ IsTimestamp chrono raw.toList → timestamp = none)
  normalizes : ∃ mapping' repaired,
    normalizeTimestampFrontmatterFields chrono mapping = .ok (mapping', repaired) ∧
      ∀ field ∈ compatTimestampFields, ∀ raw, mapping field.2 = some (.string raw) →
        ¬ IsTimestamp chrono raw.toList → mapping' field.2 = mapping field.2
  fromFile : ∀ yaml path content frontmatter body,
    splitFrontmatter content = .ok (frontmatter, body) → yaml.fromStr frontmatter = some mapping →
    taskFromContent yaml chrono path content ≠ .error .panicked
  schedule : ∀ now task, task.scheduledFor = (mapping .scheduledFor).bind Value.asString →
    scheduledLater chrono now task ≠ .error .panicked

section

variable {yaml} {chrono} {mapping : Mapping}

theorem normalizeFrontmatter_eq {mapping' : Mapping} {repaired : List String}
    (h : normalizeTimestampFrontmatterFields chrono mapping = .ok (mapping', repaired)) :
    normalizeFrontmatter chrono mapping = .ok (match blockRepair mapping' with
      | some (reason, blockedOn) => some (setBlockedReason reason blockedOn mapping', {
          repairedFields := sortedNames (repaired ++ ["blocked", "block_reason", "blocked_on"])
          blockedReason := desiredReason mapping' })
      | none =>
        if repaired.isEmpty then none
        else some (mapping', {
          repairedFields := sortedNames repaired
          blockedReason := desiredReason mapping' })) := by
  simp only [normalizeFrontmatter, h]
  cases hrepair : blockRepair mapping' with
  | some repair => simp [bind, Except.bind, pure, Except.pure, hrepair]
  | none =>
    cases hempty : repaired.isEmpty <;> simp [bind, Except.bind, pure, Except.pure, hrepair, hempty]

theorem bind_ne_panicked {α β : Type} {x : Except Failure α} {f : α → Except Failure β}
    (hx : x ≠ .error .panicked) (hf : ∀ a, x = .ok a → f a ≠ .error .panicked) :
    x >>= f ≠ .error .panicked := by
  cases x with
  | error failure => simpa [bind, Except.bind] using hx
  | ok a => exact hf a rfl

theorem orFailure_ne_panicked {α : Type} {x : Except String α} :
    orFailure x ≠ .error .panicked := by
  cases x <;> simp [orFailure]

theorem renderFrontmatterContent_ne_panicked {keys : List Key} {body : List Char} :
    renderFrontmatterContent yaml keys mapping body ≠ .error .panicked := by
  rw [renderFrontmatterContent]
  split <;> nofun

/-- Once the timestamps are dealt with, reading a file may fail but does not panic. -/
theorem taskFromContent_ne_panicked {path : String} {content frontmatter body : List Char}
    {state : Mapping × List String}
    (hsplit : splitFrontmatter content = .ok (frontmatter, body))
    (hyaml : yaml.fromStr frontmatter = some mapping)
    (h : normalizeTimestampFrontmatterFields chrono mapping = .ok state) :
    taskFromContent yaml chrono path content ≠ .error .panicked := by
  have hnormalize : normalizeTaskFrontmatterContent yaml chrono content ≠ .error .panicked := by
    rw [normalizeTaskFrontmatterContent, hsplit]
    refine bind_ne_panicked orFailure_ne_panicked fun parts hparts => ?_
    cases hparts
    simp only [hyaml, normalizeFrontmatter_eq h]
    refine bind_ne_panicked (by simp) fun result hresult => ?_
    cases result with
    | none => simp [pure, Except.pure]
    | some repaired =>
      exact bind_ne_panicked renderFrontmatterContent_ne_panicked fun _ _ => by
        simp [pure, Except.pure]
  rw [taskFromContent, repairedContent]
  refine bind_ne_panicked (bind_ne_panicked hnormalize fun result _ => ?_) fun content _ => ?_
  · cases result <;> simp [pure, Except.pure]
  · exact bind_ne_panicked orFailure_ne_panicked fun _ _ => by simp [pure, Except.pure]

/-- **Exactly where every timestamp can be probed**, nothing crashes. -/
theorem neverCrashes_iff (chrono : Chrono) (mapping : Mapping) :
    NeverCrashes chrono mapping ↔ ∀ field ∈ compatTimestampFields, ∀ raw,
      mapping field.2 = some (.string raw) → Probes chrono raw.toList := by
  constructor
  · intro h field hmem raw hraw
    by_contra hpanics
    obtain ⟨timestamp, hparse, -⟩ := h.reads field hmem raw hraw
    rw [parseFrontmatterTimestamp_panics hpanics] at hparse
    cases hparse
  · intro h
    obtain ⟨renewal, hrenewal, hnormalize⟩ := exists_normalizeTimestampFrontmatterFields h
    refine ⟨fun field hmem raw hraw => exists_parseFrontmatterTimestamp (h field hmem raw hraw),
      ⟨_, _, hnormalize, fun field hmem raw hraw hnot => ?_⟩,
      fun yaml path content frontmatter body hsplit hyaml =>
        taskFromContent_ne_panicked hsplit hyaml hnormalize, fun now task hscheduled => ?_⟩
    · have hkey : field.2 ∈ compatTimestampFields.map Prod.snd := List.mem_map_of_mem hmem
      obtain ⟨found, hfound, hlegacy⟩ := exists_renewed (h field hmem)
      obtain rfl := Except.ok.inj (hfound.symm.trans (hrenewal field hmem))
      rw [renewFields, if_pos hkey]
      cases hrenewed : renewal field.2 with
      | none => rfl
      | some text =>
        obtain ⟨raw', candidate, timestamp, hraw', -, hoffset, hcandidate, -⟩ :=
          hlegacy text hrenewed
        obtain rfl := Value.string.inj (Option.some.inj (hraw.symm.trans hraw'))
        exact absurd (.inr ⟨candidate, hoffset, by simp [hcandidate]⟩) hnot
    · rw [scheduledLater]
      cases hraw : task.scheduledFor with
      | none => simp [pure, Except.pure]
      | some raw =>
        rw [hraw, eq_comm, bind_asString_eq_some_iff] at hscheduled
        have hmem : ("scheduled_for", Key.scheduledFor) ∈ compatTimestampFields := by
          simp [compatTimestampFields]
        obtain ⟨timestamp, hparse, -⟩ := exists_parseFrontmatterTimestamp (h _ hmem raw hscheduled)
        refine bind_ne_panicked (by simp [hparse]) fun _ _ => by simp [pure, Except.pure]

end

/-- A library that takes nothing for a date. -/
def readsNoDate : Chrono where
  DateTime := Unit
  parseFromRfc3339 _ := none
  toRfc3339 _ := []
  instant _ := 0

/-- The minus sign of this offset is a dash, which has three bytes. -/
theorem not_neverCrashes : ¬ ∀ chrono mapping, NeverCrashes chrono mapping := by
  intro h
  obtain ⟨timestamp, hparse, -⟩ := (h readsNoDate
    (.ofList [(.scheduledFor, .string "2026-04-10T19:26:40–0400")])).reads
    ("scheduled_for", .scheduledFor) (by simp [compatTimestampFields]) _ rfl
  have hpanics : parseFrontmatterTimestamp readsNoDate "2026-04-10T19:26:40–0400".toList =
      .error .panicked := by rfl
  rw [hpanics] at hparse
  cases hparse

/-! ### The repair is safe -/

/-- What is written can be read, and denotes the same instant. -/
structure Chrono.RoundTrips (chrono : Chrono) : Prop where
  reads : ∀ timestamp, ∃ timestamp',
    chrono.parseFromRfc3339 (chrono.toRfc3339 timestamp) = some timestamp' ∧
      chrono.instant timestamp' = chrono.instant timestamp
  trims : ∀ timestamp, Text.trim (chrono.toRfc3339 timestamp) = chrono.toRfc3339 timestamp

/-- What is read of a written mapping without the line break at its end. -/
def Yaml.cutLast (yaml : Yaml) (keys : List Key) (mapping : Mapping) : Mapping := fun key =>
  if keys.getLast? = some key then (mapping key).map yaml.cut else mapping key

/-- What is written is the mapping, in lines that are ended and none of which is a fence. Of a text
at its end, if anything is lost with the last line break, it is this line break. -/
structure Yaml.RoundTrips (yaml : Yaml) (chrono : Chrono) : Prop where
  keys : ∀ text mapping, yaml.fromStr text = some mapping →
    ∀ key, key ∈ yaml.keys text ↔ (mapping key).isSome
  writes : ∀ text mapping mapping' repair, yaml.fromStr text = some mapping →
    normalizeFrontmatter chrono mapping = .ok (some (mapping', repair)) →
    ∃ rendered, yaml.toString (writtenKeys (yaml.keys text) mapping') mapping' = some rendered
  reads : ∀ keys mapping rendered, yaml.toString keys mapping = some rendered →
    ∃ text, withoutPrefix "---\n".toList rendered = text ++ ['\n'] ∧
      ¬ "\n---".toList <:+: text ∧ yaml.fromStr (text ++ ['\n']) = some mapping ∧
      yaml.fromStr text = some (yaml.cutLast keys mapping)
  cut_string : ∀ text, yaml.cut (.string text) = .string text ∨
    ∃ text', text.toList = text'.toList ++ ['\n'] ∧ yaml.cut (.string text) = .string text'
  cut_bool : ∀ value, yaml.cut (.bool value) = .bool value
  cut_null : yaml.cut .null = .null

/-- The text is in the older spelling, and is read with a colon in its offset. -/
def Respells (chrono : Chrono) (raw : String) (written : chrono.DateTime) : Prop :=
  chrono.parseFromRfc3339 (Text.trim raw.toList) = none ∧
    ∃ candidate, Offset raw.toList candidate ∧ chrono.parseFromRfc3339 candidate = some written

/-- The key holds a timestamp in the older spelling. -/
def IsLegacyKey (chrono : Chrono) (mapping : Mapping) (key : Key) : Prop :=
  key ∈ compatTimestampFields.map Prod.snd ∧
    ∃ raw written, mapping key = some (.string raw) ∧ Respells chrono raw written

/-- Other keys are as they were. Where a timestamp was rewritten, both texts are read as the same
one, whose instant is that of the old text with a colon in its offset. -/
structure ConservesKeys (chrono : Chrono) (mapping mapping' : Mapping) : Prop where
  others : ∀ key, ¬ key.IsBlockKey → ¬ IsLegacyKey chrono mapping key → mapping' key = mapping key
  instants : ∀ key ∈ compatTimestampFields.map Prod.snd, ∀ raw written,
    mapping key = some (.string raw) → Respells chrono raw written →
    ∃ raw' timestamp, mapping' key = some (.string raw') ∧
      parseFrontmatterTimestamp chrono raw.toList = .ok (some timestamp) ∧
      parseFrontmatterTimestamp chrono raw'.toList = .ok (some timestamp) ∧
      chrono.instant timestamp = chrono.instant written

/-- **A safe repair**: there is nothing left to repair, the body and the keys that the repair is not
about are kept, and the file holds a task that is blocked exactly if it was. -/
structure RepairsSafely (yaml : Yaml) (chrono : Chrono) (content updated : List Char) : Prop where
  settled : normalizeTaskFrontmatterContent yaml chrono updated = .ok none
  conserves : ∃ frontmatter frontmatter' body mapping mapping',
    splitFrontmatter content = .ok (frontmatter, body) ∧ yaml.fromStr frontmatter = some mapping ∧
    splitFrontmatter updated = .ok (frontmatter', body) ∧ yaml.fromStr frontmatter' = some mapping' ∧
    ConservesKeys chrono mapping mapping'
  blocked : ∀ task, Task.parseContent yaml.fromStr content = .ok task →
    ∃ task', Task.parseContent yaml.fromStr updated = .ok task' ∧
      (task'.blocked.isSome ↔ task.blocked.isSome)

/-- There is something to repair. -/
def NeedsRepair (chrono : Chrono) (mapping : Mapping) : Prop :=
  (blockRepair mapping).isSome ∨ ∃ key, IsLegacyKey chrono mapping key

/-- The file is repaired for another reason than its last value, which is read otherwise without
the line break at its end, and nothing is written behind it. -/
structure LosesBreak (yaml : Yaml) (chrono : Chrono) (keys : List Key) (mapping : Mapping) :
    Prop where
  due : NeedsRepair chrono mapping
  last : (blockRepair mapping).isSome → ∀ key : Key, key.IsBlockKey → key ∈ keys
  lost : ∃ key value, keys.getLast? = some key ∧ ¬ key.IsBlockKey ∧
    ¬ IsLegacyKey chrono mapping key ∧ mapping key = some value ∧ yaml.cut value ≠ value

section

variable {yaml : Yaml} {chrono : Chrono} {mapping mapping' : Mapping} {keys : List Key}

/-- A repair spells out a reason and a blocker. -/
theorem exists_of_blockRepair {repair : Option String × Option String}
    (h : blockRepair mapping = some repair) :
    ∃ reason blockedOn, repair = (some reason, some blockedOn) := by
  simp only [blockRepair, Option.ite_none_right_eq_some, Option.some.injEq] at h
  obtain ⟨hrepair, rfl⟩ := h
  generalize (mapping .blockReason).bind Value.asString = blockReason at *
  generalize (mapping .blockedOn).bind Value.asString = blockedOn at *
  rcases hblocked : mapping .blocked with _ | (_ | (_ | _) | _ | reason | _ | _)
  all_goals simp only [hblocked] at hrepair ⊢
  case some.string =>
    by_cases htrim : Text.trim reason.toList = []
    · cases blockReason <;> cases blockedOn <;> simp_all
    · cases blockedOn <;> simp_all
  all_goals cases blockReason <;> cases blockedOn <;> simp_all

theorem blockRepair_setBlockedReason (reason blockedOn : String) :
    blockRepair (setBlockedReason (some reason) (some blockedOn) mapping) = none := by
  simp [blockRepair, setBlockedReason, Mapping.setOptionalString, Value.asString]

/-- No repair is due if the flag and the texts of a block go together. -/
theorem blockRepair_eq_none_iff : blockRepair mapping = none ↔
    (∀ reason, mapping .blocked = some (.string reason) → Text.trim reason.toList = []) ∧
    (mapping .blocked = some (.bool true) → (((mapping .blockReason).bind Value.asString).isSome ↔
      ((mapping .blockedOn).bind Value.asString).isSome)) ∧
    ((mapping .status).bind Value.asString = some "blocked" →
      (∀ value, mapping .blocked ≠ some (.bool value)) →
      ((mapping .blockReason).bind Value.asString).isSome = false ∧
        ((mapping .blockedOn).bind Value.asString).isSome = false) := by
  simp only [blockRepair]
  generalize (mapping .blockReason).bind Value.asString = blockReason
  generalize (mapping .blockedOn).bind Value.asString = blockedOn
  rcases hblocked : mapping .blocked with _ | (_ | (_ | _) | _ | reason | _ | _)
  all_goals simp only
  case some.string =>
    by_cases htrim : Text.trim reason.toList = [] <;> cases blockReason <;> cases blockedOn <;>
      simp [htrim]
  all_goals cases blockReason <;> cases blockedOn <;> simp

/-- The values are the same, or texts that are blank together. -/
def SaysSame (value value' : Option Value) : Prop := value' = value ∨
  ∃ text text', value = some (.string text) ∧ value' = some (.string text') ∧
    (Text.trim text'.toList = [] ↔ Text.trim text.toList = [])

theorem SaysSame.isSome_bind {value value' : Option Value} (h : SaysSame value value') :
    (value'.bind Value.asString).isSome = (value.bind Value.asString).isSome := by
  rcases h with rfl | ⟨text, text', rfl, rfl, -⟩
  · rfl
  · rfl

theorem SaysSame.bool_iff {value value' : Option Value} (h : SaysSame value value') (flag : Bool) :
    value' = some (.bool flag) ↔ value = some (.bool flag) := by
  rcases h with rfl | ⟨text, text', rfl, rfl, -⟩
  · rfl
  · simp

/-- The mappings say the same about a block. -/
def BlocksAlike (mapping mapping' : Mapping) : Prop :=
  ∀ key : Key, key.IsBlockKey → SaysSame (mapping key) (mapping' key)

theorem BlocksAlike.blockRepair_eq_none (h : BlocksAlike mapping mapping')
    (hstatus : mapping' .status = mapping .status) (hnone : blockRepair mapping = none) :
    blockRepair mapping' = none := by
  obtain ⟨hhidden, htrue, hblocked⟩ := blockRepair_eq_none_iff.mp hnone
  have hflag := h .blocked (by decide)
  simp only [blockRepair_eq_none_iff, ne_eq, hflag.bool_iff, hstatus,
    (h .blockReason (by decide)).isSome_bind, (h .blockedOn (by decide)).isSome_bind]
  refine ⟨fun reason hreason => ?_, htrue, hblocked⟩
  rcases hflag with hsame | ⟨text, text', htext, htext', hblank⟩
  · exact hhidden reason (hsame ▸ hreason)
  · obtain rfl := Value.string.inj (Option.some.inj (htext'.symm.trans hreason))
    exact hblank.mpr (hhidden text htext)

theorem BlocksAlike.blockDecodes (h : BlocksAlike mapping mapping')
    (hdecodes : mapping.BlockDecodes) : mapping'.BlockDecodes := by
  have hoptional : ∀ key : Key, key.IsBlockKey → (mapping.optional key Value.asString).isSome →
      (mapping'.optional key Value.asString).isSome := fun key hkey hsome => by
    rcases h key hkey with hsame | ⟨text, text', -, htext', -⟩
    · rwa [Mapping.optional_congr hsame]
    · simp [Mapping.optional, htext', Value.asString]
  refine ⟨?_, hoptional _ (by decide) hdecodes.blockReason,
    hoptional _ (by decide) hdecodes.blockedOn⟩
  rcases h .blocked (by decide) with hsame | ⟨text, text', -, htext', -⟩
  · rw [Mapping.orDefault_congr hsame]
    exact hdecodes.blocked
  · simp [Mapping.orDefault, htext', Value.asBlocked]

/-- A block field that is a text, or is missing, is what its text says. -/
theorem bind_asString_of_optional {key : Key} {value : Option String}
    (h : mapping.optional key Value.asString = some value) :
    (mapping key).bind Value.asString = value := by
  rw [Mapping.optional] at h
  split at h
  · simp_all
  · simp_all [Value.asString]
  · obtain ⟨raw, hraw, rfl⟩ := Option.map_eq_some_iff.mp h
    simp_all

/-- What needs a repair is blocked. -/
theorem isSome_blocked_of_blockRepair {path body : String} {task : Task}
    (h : Task.Reads path mapping body task) (hrepair : (blockRepair mapping).isSome) :
    task.blocked.isSome := by
  obtain ⟨blocked, blockReason, hblocked, hblockReason, hblockedOn, hreason⟩ := h.block
  rw [hreason]
  by_contra hnone
  simp only [Option.not_isSome_iff_eq_none, Option.or_eq_none_iff] at hnone
  obtain ⟨⟨rfl, rfl⟩, hnone⟩ := hnone
  rw [hnone] at hblockedOn
  have hblockReason := bind_asString_of_optional hblockReason
  have hblockedOn := bind_asString_of_optional hblockedOn
  simp only [blockRepair, hblockReason, hblockedOn] at hrepair
  rw [Mapping.orDefault] at hblocked
  rcases hvalue : mapping .blocked with _ | (_ | (_ | _) | _ | reason | _ | _) <;>
    simp_all [Value.asBlocked]

/-- A repaired block can be read, as one that blocks. -/
theorem isSome_blocked_of_setBlockedReason {path body reason blockedOn : String} {task : Task}
    (h : Task.Reads path (setBlockedReason (some reason) (some blockedOn) mapping) body task) :
    task.blocked.isSome := by
  obtain ⟨blocked, blockReason, -, hblockReason, -, hreason⟩ := h.block
  have hblockReason := bind_asString_of_optional hblockReason
  rw [hreason, ← hblockReason]
  simp [setBlockedReason, Mapping.setOptionalString, Value.asString]

/-- A field that was renewed has nothing left to renew. -/
theorem renewed_toRfc3339 (hchrono : chrono.RoundTrips) (timestamp : chrono.DateTime) :
    renewed chrono (some (.string (String.ofList (chrono.toRfc3339 timestamp)))) = .ok none := by
  obtain ⟨timestamp', hreads, -⟩ := hchrono.reads timestamp
  simp only [renewed, Option.bind_some, Value.asString, String.toList_ofList,
    normalizeLegacyTimestampValue, hchrono.trims, hreads]
  rw [if_pos (by simp)]
  rfl

/-- The new text denotes what the old one did. -/
theorem parseFrontmatterTimestamp_renewed (hchrono : chrono.RoundTrips) {raw candidate : List Char}
    {timestamp : chrono.DateTime} (hraw : chrono.parseFromRfc3339 (Text.trim raw) = none)
    (hoffset : Offset raw candidate) (hcandidate : chrono.parseFromRfc3339 candidate = some timestamp) :
    ∃ timestamp', parseFrontmatterTimestamp chrono raw = .ok (some timestamp') ∧
      parseFrontmatterTimestamp chrono (chrono.toRfc3339 timestamp) = .ok (some timestamp') ∧
      chrono.instant timestamp' = chrono.instant timestamp := by
  obtain ⟨timestamp', hreads, hinstant⟩ := hchrono.reads timestamp
  refine ⟨timestamp', ?_, ?_, hinstant⟩
  · obtain ⟨before, sign, digits, htrim, hsign, hdigits, hfour, rfl⟩ := hoffset.parts
    have hempty : (Text.trim raw).isEmpty = false := by simp [htrim]
    have hfound : legacyOffsetCandidate (Text.trim raw) = .ok (some _) :=
      legacyOffsetCandidate_of_offset (by rw [Text.trim_trim, htrim]) hsign hdigits hfour
    simp only [parseFrontmatterTimestamp, hraw, normalizeLegacyTimestampValue, Text.trim_trim, hempty,
      Option.isSome_none, Bool.or_self, hfound]
    simp [bind, Except.bind, pure, Except.pure, hcandidate, hreads]
  · simp only [parseFrontmatterTimestamp, hchrono.trims, hreads]
    rfl

/-- What the renewal of the timestamps leaves: `mapping'` agrees with it on them. -/
theorem normalizeTimestampFrontmatterFields_settled (hchrono : chrono.RoundTrips)
    {renewal : Key → Option (List Char)} {mapping' : Mapping}
    (h : ∀ field ∈ compatTimestampFields,
      renewed chrono (mapping field.2) = .ok (renewal field.2))
    (hprobes : ∀ field ∈ compatTimestampFields, ∀ raw, mapping field.2 = some (.string raw) →
      Probes chrono raw.toList)
    (hagree : ∀ field ∈ compatTimestampFields,
      mapping' field.2 = renewFields compatTimestampFields renewal mapping field.2) :
    normalizeTimestampFrontmatterFields chrono mapping' = .ok (mapping', []) := by
  have hsettled : ∀ field ∈ compatTimestampFields,
      renewed chrono (mapping' field.2) = .ok none := by
    intro field hmem
    have hkey : field.2 ∈ compatTimestampFields.map Prod.snd := List.mem_map_of_mem hmem
    obtain ⟨found, hfound, hlegacy⟩ := exists_renewed (hprobes field hmem)
    obtain rfl := Except.ok.inj (hfound.symm.trans (h field hmem))
    rw [hagree field hmem, renewFields, if_pos hkey]
    cases hrenewal : renewal field.2 with
    | none => rw [Option.map_none, Option.none_or, h field hmem, hrenewal]
    | some text =>
      obtain ⟨-, -, timestamp, -, -, -, -, rfl⟩ := hlegacy text hrenewal
      exact renewed_toRfc3339 hchrono timestamp
  have hkept : renewFields compatTimestampFields (fun _ => none) mapping' = mapping' := by
    funext key
    simp [renewFields]
  rw [normalizeTimestampFrontmatterFields,
    @foldlM_normalizeTimestampField chrono mapping' (fun _ => none) _ nodup_compatTimestampFields []
      hsettled, hkept]
  simp

/-- What is in the older spelling is renewed. -/
theorem renewed_of_respells (hchrono : chrono.RoundTrips) {raw : String}
    {written : chrono.DateTime} (h : Respells chrono raw written) :
    renewed chrono (some (.string raw)) = .ok (some (chrono.toRfc3339 written)) := by
  obtain ⟨hunread, candidate, hoffset, hcandidate⟩ := h
  obtain ⟨timestamp, hreads, -⟩ := hchrono.reads written
  obtain ⟨before, sign, digits, htrim, hsign, hdigits, hfour, rfl⟩ := hoffset.parts
  have hempty : (Text.trim raw.toList).isEmpty = false := by simp [htrim]
  have hfound : legacyOffsetCandidate (Text.trim raw.toList) = .ok (some _) :=
    legacyOffsetCandidate_of_offset (by rw [Text.trim_trim, htrim]) hsign hdigits hfour
  -- The new text can be read as it is, which the old one cannot.
  have hne : raw.toList ≠ chrono.toRfc3339 written := fun heq => by
    rw [heq, hchrono.trims, hreads] at hunread
    cases hunread
  simp only [renewed, Option.bind_some, Value.asString, normalizeLegacyTimestampValue, hunread,
    hempty, Option.isSome_none, Bool.or_self, hfound]
  simp [bind, Except.bind, pure, Except.pure, hcandidate, hne]

theorem not_isBlockKey_of_timestamp : ∀ key ∈ compatTimestampFields.map Prod.snd,
    ¬ key.IsBlockKey := by
  decide

section

variable {renewal : Key → Option (List Char)}
  (h : ∀ field ∈ compatTimestampFields, renewed chrono (mapping field.2) = .ok (renewal field.2))

include h

/-- A field is renewed exactly if it is in the older spelling. -/
theorem isLegacyKey_of_renewal (hprobes : ∀ field ∈ compatTimestampFields, ∀ raw,
    mapping field.2 = some (.string raw) → Probes chrono raw.toList) {key : Key}
    (hkey : key ∈ compatTimestampFields.map Prod.snd) (hrenewal : (renewal key).isSome) :
    IsLegacyKey chrono mapping key := by
  obtain ⟨field, hmem, rfl⟩ := List.mem_map.mp hkey
  obtain ⟨found, hfound, hlegacy⟩ := exists_renewed (hprobes field hmem)
  obtain rfl := Except.ok.inj (hfound.symm.trans (h field hmem))
  obtain ⟨text, htext⟩ := Option.isSome_iff_exists.mp hrenewal
  obtain ⟨raw, candidate, written, hraw, hunread, hoffset, hcandidate, -⟩ := hlegacy text htext
  exact ⟨hkey, raw, written, hraw, hunread, candidate, hoffset, hcandidate⟩

theorem renewal_of_respells (hchrono : chrono.RoundTrips) {key : Key}
    (hkey : key ∈ compatTimestampFields.map Prod.snd) {raw : String} {written : chrono.DateTime}
    (hraw : mapping key = some (.string raw)) (hlegacy : Respells chrono raw written) :
    renewal key = some (chrono.toRfc3339 written) := by
  obtain ⟨field, hmem, rfl⟩ := List.mem_map.mp hkey
  have hfield := h field hmem
  rw [hraw, renewed_of_respells hchrono hlegacy] at hfield
  exact (Except.ok.inj hfield).symm

theorem conservesKeys_renewFields (hchrono : chrono.RoundTrips)
    (hprobes : ∀ field ∈ compatTimestampFields, ∀ raw, mapping field.2 = some (.string raw) →
      Probes chrono raw.toList) :
    ConservesKeys chrono mapping (renewFields compatTimestampFields renewal mapping) := by
  refine ⟨fun key _ hlegacy => ?_, fun key hkey raw written hraw hlegacy => ?_⟩
  · rw [renewFields]
    split
    · rename_i hkey
      cases hrenewal : renewal key with
      | none => rfl
      | some text =>
        exact absurd (isLegacyKey_of_renewal h hprobes hkey (by rw [hrenewal]; rfl)) hlegacy
    · rfl
  · obtain ⟨hunread, candidate, hoffset, hcandidate⟩ := id hlegacy
    obtain ⟨timestamp, hbefore, hafter, hinstant⟩ :=
      parseFrontmatterTimestamp_renewed hchrono hunread hoffset hcandidate
    refine ⟨String.ofList (chrono.toRfc3339 written), timestamp, ?_, hbefore, ?_, hinstant⟩
    · rw [renewFields, if_pos hkey, renewal_of_respells h hchrono hkey hraw hlegacy]
      rfl
    · rwa [String.toList_ofList]

end

/-- The file is rendered so that it is cut into the same parts, in front of its last line break. -/
theorem splitFrontmatter_of_render (hyaml : yaml.RoundTrips chrono) (body : List Char)
    {rendered : List Char}
    (hrendered : yaml.toString keys mapping = some rendered) :
    ∃ updated frontmatter, renderFrontmatterContent yaml keys mapping body = .ok updated ∧
      splitFrontmatter updated = .ok (frontmatter, body) ∧
      yaml.fromStr frontmatter = some (yaml.cutLast keys mapping) := by
  obtain ⟨text, htext, hfence, -, hreads⟩ := hyaml.reads keys mapping rendered hrendered
  have hended : ("---\n".toList ++ (text ++ ['\n'])).getLast? = some '\n' := by
    rw [← List.append_assoc, List.getLast?_concat]
  refine ⟨"---\n".toList ++ (text ++ ['\n']) ++ "---\n".toList ++ body, text,
    by simp only [renderFrontmatterContent, hrendered, htext, hended, if_true],
    splitAtFences_eq_ok_iff.mpr ⟨'\n' :: text ++ "\n---".toList ++ '\n' :: body, ?_,
      '\n' :: body, ?_, rfl⟩, hreads⟩
  · simp [Text.trimStartMatches, Text.isWhitespace]
  · exact splitOnce_append (by decide) hfence

/-- A text in place of a text can be read. -/
theorem exists_optional {mapping' : Mapping} {key : Key} {value : Option String}
    (h : mapping.optional key Value.asString = some value)
    (hkey : mapping' key = mapping key ∨ ∃ raw, mapping' key = some (.string raw)) :
    ∃ value', mapping'.optional key Value.asString = some value' := by
  rcases hkey with hsame | ⟨raw, hraw⟩
  · exact ⟨value, by rw [Mapping.optional_congr hsame, h]⟩
  · exact ⟨some raw, by simp [Mapping.optional, hraw, Value.asString]⟩

/-- The timestamps among the further fields may be any texts. -/
theorem accepts_string : ∀ field ∈ restFields, field.1 ∈ compatTimestampFields.map Prod.snd →
    ∀ raw, field.2 (.string raw) = true := by
  simp [restFields, compatTimestampFields, Value.asString]

/-- With new texts in its timestamps, and blocks that can be read, the mapping is still a task's. -/
theorem exists_reads {path body : String} {task : Task} {mapping' : Mapping}
    (h : Task.Reads path mapping body task) (hblock : mapping'.BlockDecodes)
    (hothers : ∀ key, ¬ key.IsBlockKey → key ∉ compatTimestampFields.map Prod.snd →
      mapping' key = mapping key)
    (htimestamps : ∀ field ∈ compatTimestampFields, mapping' field.2 = mapping field.2 ∨
      ∃ raw, mapping' field.2 = some (.string raw)) :
    ∃ task', Task.Reads path mapping' body task' := by
  have hclaimedAt : ∃ claimedAt, mapping'.optional .claimedAt Value.asString = some claimedAt :=
    exists_optional h.claimedAt (htimestamps ("claimed_at", .claimedAt) (by
      simp [compatTimestampFields]))
  have hscheduledFor : ∃ scheduledFor,
      mapping'.optional .scheduledFor Value.asString = some scheduledFor :=
    exists_optional h.scheduledFor (htimestamps ("scheduled_for", .scheduledFor) (by
      simp [compatTimestampFields]))
  obtain ⟨claimedAt, hclaimedAt⟩ := hclaimedAt
  obtain ⟨scheduledFor, hscheduledFor⟩ := hscheduledFor
  obtain ⟨blocked, blockedOn, hread⟩ := hblock.exists_block
  -- The fields that are only checked are as they were or hold a timestamp, which is a text.
  have hrest : mapping'.restDecodes = true := by
    have hbefore := h.rest
    rw [Mapping.restDecodes, List.all_eq_true] at hbefore ⊢
    rintro ⟨key, accepts⟩ hmem
    have hfield := hbefore (key, accepts) hmem
    dsimp only at hfield ⊢
    by_cases hkey : key ∈ compatTimestampFields.map Prod.snd
    · obtain ⟨timestamp, htimestamp, heq⟩ := List.mem_map.mp hkey
      rcases heq ▸ htimestamps timestamp htimestamp with hsame | ⟨raw, hraw⟩
      · rwa [hsame]
      · rw [hraw]
        exact accepts_string _ hmem hkey raw
    · rwa [hothers key (restFields_not_isBlockKey _ hmem) hkey]
  have hsame : ∀ {key : Key}, (¬ key.IsBlockKey ∧ key ∉ compatTimestampFields.map Prod.snd) →
      mapping' key = mapping key := fun hkey => hothers _ hkey.1 hkey.2
  exact ⟨{ task with claimedAt, scheduledFor, blocked, blockedOn }, {
    id := (Mapping.required_congr (hsame (by decide))).trans h.id
    title := (Mapping.required_congr (hsame (by decide))).trans h.title
    status := (Mapping.orDefault_congr (hsame (by decide))).trans h.status
    priority := (Mapping.orDefault_congr (hsame (by decide))).trans h.priority
    assignee := (Mapping.optional_congr (hsame (by decide))).trans h.assignee
    claimedBy := (Mapping.optional_congr (hsame (by decide))).trans h.claimedBy
    claimedAt := hclaimedAt
    block := hread
    tags := (Mapping.orDefault_congr (hsame (by decide))).trans h.tags
    dependsOn := (Mapping.orDefault_congr (hsame (by decide))).trans h.dependsOn
    reviewOwner := (Mapping.optional_congr (hsame (by decide))).trans h.reviewOwner
    worktreePath := (Mapping.optional_congr (hsame (by decide))).trans h.worktreePath
    branch := (Mapping.optional_congr (hsame (by decide))).trans h.branch
    scheduledFor := hscheduledFor
    rest := hrest
    description := h.description
    sourcePath := h.sourcePath }⟩

/-- Where the block fields say the same, so do the tasks. -/
theorem BlocksAlike.isSome_blocked {path body : String} {task task' : Task}
    (halike : BlocksAlike mapping mapping') (h : Task.Reads path mapping body task)
    (h' : Task.Reads path mapping' body task') : task'.blocked.isSome = task.blocked.isSome := by
  obtain ⟨blocked, blockReason, hblocked, hblockReason, hblockedOn, hreason⟩ := h.block
  obtain ⟨blocked', blockReason', hblocked', hblockReason', hblockedOn', hreason'⟩ := h'.block
  have hflag : blocked'.isSome = blocked.isSome := by
    rcases halike .blocked (by decide) with hsame | ⟨text, text', htext, htext', -⟩
    · rw [Mapping.orDefault_congr hsame, hblocked] at hblocked'
      rw [Option.some.inj hblocked']
    · simp only [Mapping.orDefault, htext, htext', Value.asBlocked, Option.some.injEq] at *
      rw [← hblocked, ← hblocked']
      rfl
  rw [hreason, hreason', ← bind_asString_of_optional hblockReason,
    ← bind_asString_of_optional hblockReason', ← bind_asString_of_optional hblockedOn,
    ← bind_asString_of_optional hblockedOn']
  simp only [Option.isSome_or, (halike .blockReason (by decide)).isSome_bind,
    (halike .blockedOn (by decide)).isSome_bind, hflag]

/-- What is done to the block fields does not show elsewhere. -/
theorem ConservesKeys.congr {mapping₁ : Mapping} (h : ConservesKeys chrono mapping mapping₁)
    (hagree : ∀ key : Key, ¬ key.IsBlockKey → mapping' key = mapping₁ key) :
    ConservesKeys chrono mapping mapping' := by
  refine ⟨fun key hblock hkey => (hagree key hblock).trans (h.others key hblock hkey),
    fun key hkey => ?_⟩
  rw [hagree key (not_isBlockKey_of_timestamp key hkey)]
  exact h.instants key hkey

theorem ConservesKeys.exists_reads {path body : String} {task : Task}
    (h : ConservesKeys chrono mapping mapping') (hreads : Task.Reads path mapping body task)
    (hblock : mapping'.BlockDecodes) : ∃ task', Task.Reads path mapping' body task' := by
  refine Batty.exists_reads hreads hblock
    (fun key hblock hkey => h.others key hblock fun hlegacy => hkey hlegacy.1) fun field hmem => ?_
  have hkey : field.2 ∈ compatTimestampFields.map Prod.snd := List.mem_map_of_mem hmem
  by_cases hlegacy : IsLegacyKey chrono mapping field.2
  · obtain ⟨-, raw, written, hraw, hrespells⟩ := hlegacy
    obtain ⟨raw', -, hraw', -⟩ := h.instants _ hkey raw written hraw hrespells
    exact .inr ⟨raw', hraw'⟩
  · exact .inl (h.others _ (not_isBlockKey_of_timestamp _ hkey) hlegacy)

/-- Where a frontmatter is repaired or needs no repair, no timestamp made the probe panic. -/
theorem probes_of_normalizeFrontmatter {result : Option (Mapping × TaskFrontmatterCompatRepair)}
    (h : normalizeFrontmatter chrono mapping = .ok result) :
    ∀ field ∈ compatTimestampFields, ∀ raw, mapping field.2 = some (.string raw) →
      Probes chrono raw.toList := by
  by_contra hpanics
  push Not at hpanics
  rw [normalizeFrontmatter, normalizeTimestampFrontmatterFields,
    foldlM_normalizeTimestampField_panics nodup_compatTimestampFields [] hpanics] at h
  cases h

/-- The spelling of timestamps has no part in what is due about a block. -/
theorem blockRepair_renewFields (renewal : Key → Option (List Char)) (mapping : Mapping) :
    blockRepair (renewFields compatTimestampFields renewal mapping) = blockRepair mapping := by
  simp [blockRepair, renewFields, compatTimestampFields]

/-- What comes of a frontmatter whose timestamps are renewed: its block is set as well, or at least
one of them was written anew, or it is left as it was. -/
inductive RepairOutcome (chrono : Chrono) (mapping renewed : Mapping) :
    Option (Mapping × TaskFrontmatterCompatRepair) → Prop
  | block {fields repair} : blockRepair mapping = some fields →
      RepairOutcome chrono mapping renewed
        (some (setBlockedReason fields.1 fields.2 renewed, repair))
  | timestamps {repair} : blockRepair mapping = none → (∃ key, IsLegacyKey chrono mapping key) →
      RepairOutcome chrono mapping renewed (some (renewed, repair))
  | nothing : blockRepair mapping = none → (¬ ∃ key, IsLegacyKey chrono mapping key) →
      RepairOutcome chrono mapping renewed none

/-- Off the block only timestamps are repaired. -/
theorem RepairOutcome.others {renewed : Mapping} {repair : TaskFrontmatterCompatRepair}
    (h : RepairOutcome chrono mapping renewed (some (mapping', repair))) {key : Key}
    (hkey : ¬ key.IsBlockKey) : mapping' key = renewed key := by
  cases h with
  | block => exact setBlockedReason_apply _ _ _ hkey
  | timestamps => rfl

theorem RepairOutcome.due {renewed : Mapping} {repair : TaskFrontmatterCompatRepair}
    (h : RepairOutcome chrono mapping renewed (some (mapping', repair))) :
    NeedsRepair chrono mapping := by
  cases h with
  | block hblock => exact .inl (by rw [hblock]; rfl)
  | timestamps _ hlegacy => exact .inr hlegacy

theorem RepairOutcome.exists_of_due {renewed : Mapping}
    {result : Option (Mapping × TaskFrontmatterCompatRepair)}
    (h : RepairOutcome chrono mapping renewed result) (hdue : NeedsRepair chrono mapping) :
    ∃ mapping' repair, result = some (mapping', repair) := by
  cases h with
  | block => exact ⟨_, _, rfl⟩
  | timestamps => exact ⟨_, _, rfl⟩
  | nothing hblock hlegacy => exact absurd (hdue.resolve_left (by simp [hblock])) hlegacy

/-- **What the repair of a frontmatter does.** -/
theorem normalizeFrontmatter_cases (hchrono : chrono.RoundTrips)
    {result : Option (Mapping × TaskFrontmatterCompatRepair)}
    (h : normalizeFrontmatter chrono mapping = .ok result) :
    ∃ renewed, ConservesKeys chrono mapping renewed ∧
      (∀ key : Key, key.IsBlockKey → renewed key = mapping key) ∧
      (∀ key, IsLegacyKey chrono mapping key →
        ∃ written, renewed key = some (.string (String.ofList (chrono.toRfc3339 written)))) ∧
      blockRepair renewed = blockRepair mapping ∧
      (∀ mapping', (∀ key : Key, ¬ key.IsBlockKey → mapping' key = renewed key) →
        normalizeTimestampFrontmatterFields chrono mapping' = .ok (mapping', [])) ∧
      RepairOutcome chrono mapping renewed result := by
  have hprobes := probes_of_normalizeFrontmatter h
  obtain ⟨renewal, hrenewal, hnormalize⟩ := exists_normalizeTimestampFrontmatterFields hprobes
  rw [normalizeFrontmatter_eq hnormalize, blockRepair_renewFields, Except.ok.injEq] at h
  refine ⟨renewFields compatTimestampFields renewal mapping,
    conservesKeys_renewFields hrenewal hchrono hprobes, fun key hblock => ?_, ?_,
    blockRepair_renewFields _ _, fun mapping' hagree => ?_, ?_⟩
  · rw [renewFields, if_neg fun hkey => not_isBlockKey_of_timestamp key hkey hblock]
  · rintro key ⟨hkey, raw, written, hraw, hlegacy⟩
    refine ⟨written, ?_⟩
    rw [renewFields, if_pos hkey, renewal_of_respells hrenewal hchrono hkey hraw hlegacy]
    rfl
  · refine normalizeTimestampFrontmatterFields_settled hchrono hrenewal hprobes fun field hmem => ?_
    exact hagree _ (not_isBlockKey_of_timestamp _ (List.mem_map_of_mem hmem))
  · cases hrepair : blockRepair mapping with
    | some fields =>
      rw [hrepair] at h
      exact h ▸ .block hrepair
    | none =>
      rw [hrepair] at h
      dsimp only at h
      split at h
      · rename_i hempty
        refine h ▸ .nothing hrepair ?_
        rintro ⟨key, hkey, raw, written, hraw, hlegacy⟩
        obtain ⟨field, hmem, rfl⟩ := List.mem_map.mp hkey
        have hrenewed := renewal_of_respells hrenewal hchrono hkey hraw hlegacy
        rw [List.isEmpty_iff, List.map_eq_nil_iff, List.filter_eq_nil_iff] at hempty
        exact hempty field hmem (by rw [hrenewed]; rfl)
      · rename_i hempty
        refine h ▸ .timestamps hrepair ?_
        obtain ⟨name, hname⟩ := List.exists_mem_of_ne_nil _ (List.isEmpty_eq_false_iff.mp
          (Bool.eq_false_iff.mpr hempty))
        obtain ⟨field, hfield, -⟩ := List.mem_map.mp hname
        obtain ⟨hmem, hsome⟩ := List.mem_filter.mp hfield
        exact ⟨field.2, isLegacyKey_of_renewal hrenewal hprobes (List.mem_map_of_mem hmem) hsome⟩

/-- **The repair of a frontmatter**, read back with block fields that say the same. -/
theorem normalizeFrontmatter_repairs (hchrono : chrono.RoundTrips) {path body : String}
    {task : Task} (hreads : Task.Reads path mapping body task)
    {repair : TaskFrontmatterCompatRepair} {mapping'' : Mapping}
    (h : normalizeFrontmatter chrono mapping = .ok (some (mapping', repair)))
    (halike : BlocksAlike mapping' mapping'')
    (hothers : ∀ key : Key, ¬ key.IsBlockKey → mapping'' key = mapping' key) :
    normalizeFrontmatter chrono mapping'' = .ok none ∧ ConservesKeys chrono mapping mapping'' ∧
      ∃ task', Task.Reads path mapping'' body task' ∧
        (task'.blocked.isSome ↔ task.blocked.isSome) := by
  obtain ⟨renewed, hconserves, hkept, -, hrenewedRepair, hsettled, houtcome⟩ :=
    normalizeFrontmatter_cases hchrono h
  have hagree : ∀ key : Key, ¬ key.IsBlockKey → mapping'' key = renewed key := fun key hkey =>
    (hothers key hkey).trans (houtcome.others hkey)
  have hconserves' := hconserves.congr hagree
  have hsettles (hnone : blockRepair mapping' = none) :
      normalizeFrontmatter chrono mapping'' = .ok none := by
    rw [normalizeFrontmatter_eq (hsettled mapping'' hagree),
      halike.blockRepair_eq_none (hothers _ (by decide)) hnone]
    rfl
  -- Either only timestamps were rewritten, or the block was set as well and needs no more repair.
  cases houtcome with
  | timestamps hrepair =>
    have hblocks : BlocksAlike mapping mapping'' := fun key hkey => hkept key hkey ▸ halike key hkey
    obtain ⟨task', htask'⟩ := hconserves'.exists_reads hreads (hblocks.blockDecodes hreads.blockDecodes)
    exact ⟨hsettles (hrenewedRepair.trans hrepair), hconserves', task', htask',
      by rw [hblocks.isSome_blocked hreads htask']⟩
  | block hrepair =>
    obtain ⟨reason, blockedOn, rfl⟩ := exists_of_blockRepair hrepair
    have hdecodes := blockDecodes_setBlockedReason (some reason) (some blockedOn) renewed
    obtain ⟨task₁, htask₁⟩ := (hconserves.congr fun key hkey =>
      setBlockedReason_apply (some reason) (some blockedOn) renewed hkey).exists_reads hreads hdecodes
    obtain ⟨task', htask'⟩ := hconserves'.exists_reads hreads (halike.blockDecodes hdecodes)
    refine ⟨hsettles (blockRepair_setBlockedReason _ _), hconserves', task', htask',
      iff_of_true ?_ ?_⟩
    · rw [halike.isSome_blocked htask₁ htask']
      exact isSome_blocked_of_setBlockedReason htask₁
    · exact isSome_blocked_of_blockRepair hreads (by rw [hrepair]; rfl)

/-! ### What is read again -/

theorem value_of_blockDecodes (h : mapping.BlockDecodes) {key : Key} (hkey : key.IsBlockKey)
    {value : Value} (hvalue : mapping key = some value) :
    value = .null ∨ (∃ flag, value = .bool flag) ∨ ∃ text, value = .string text := by
  obtain ⟨hblocked, hblockReason, hblockedOn⟩ := h
  rcases hkey with rfl | rfl | rfl
  · rw [Mapping.orDefault, hvalue] at hblocked
    cases value <;> simp_all [Value.asBlocked]
  · rw [Mapping.optional, hvalue] at hblockReason
    cases value <;> simp_all [Value.asString]
  · rw [Mapping.optional, hvalue] at hblockedOn
    cases value <;> simp_all [Value.asString]

/-- The last line break is of no account for a block. -/
theorem blocksAlike_cutLast (hyaml : yaml.RoundTrips chrono) (keys : List Key)
    (h : mapping.BlockDecodes) : BlocksAlike mapping (yaml.cutLast keys mapping) := by
  intro key hkey
  rw [Yaml.cutLast]
  split
  · cases hvalue : mapping key with
    | none => exact .inl rfl
    | some value =>
      rw [Option.map_some]
      rcases value_of_blockDecodes h hkey hvalue with rfl | ⟨flag, rfl⟩ | ⟨text, rfl⟩
      · exact .inl (congrArg some hyaml.cut_null)
      · exact .inl (congrArg some (hyaml.cut_bool flag))
      · rcases hyaml.cut_string text with hsame | ⟨text', htext, hcut⟩
        · exact .inl (congrArg some hsame)
        · refine .inr ⟨text, text', rfl, congrArg some hcut, ?_⟩
          rw [htext, Text.trim_append_blanks (List.all_eq_true.mp (by decide))]
  · exact .inl rfl

/-- A timestamp that is written has no line break at its end. -/
theorem cut_toRfc3339 (hyaml : yaml.RoundTrips chrono) (hchrono : chrono.RoundTrips)
    (timestamp : chrono.DateTime) :
    yaml.cut (.string (String.ofList (chrono.toRfc3339 timestamp))) =
      .string (String.ofList (chrono.toRfc3339 timestamp)) := by
  refine (hyaml.cut_string _).resolve_right fun ⟨text, htext, _⟩ => ?_
  rw [String.toList_ofList] at htext
  have hlength := congrArg List.length (hchrono.trims timestamp)
  rw [htext, Text.trim_append_blanks (List.all_eq_true.mp (by decide))] at hlength
  have hle : (Text.trim text.toList).length ≤ text.toList.length :=
    (Text.trimEndMatches_isPrefix _ _).length_le.trans (List.dropWhile_suffix _).length_le
  rw [List.length_append, List.length_singleton] at hlength
  omega

theorem writtenKeys_of_kept (h : ∀ key : Key, key.IsBlockKey → (mapping key).isSome → key ∈ keys) :
    writtenKeys keys mapping = keys := by
  have hnone : [Key.blocked, .blockReason, .blockedOn].filter
      (fun key => decide (key ∉ keys) && (mapping key).isSome) = [] := by
    refine List.filter_eq_nil_iff.mpr fun key hkey hadded => ?_
    simp only [Bool.and_eq_true, decide_eq_true_eq] at hadded
    exact hadded.1 (h key (by simpa [Key.IsBlockKey] using hkey) hadded.2)
  rw [writtenKeys, hnone, List.append_nil]

/-- A key that is added comes last. -/
theorem writtenKeys_of_added {key : Key} (hblock : key.IsBlockKey) (hnew : key ∉ keys)
    (hsome : (mapping key).isSome) {last : Key}
    (hlast : (writtenKeys keys mapping).getLast? = some last) : last.IsBlockKey := by
  have hmem : key ∈ [Key.blocked, .blockReason, .blockedOn].filter
      (fun key => decide (key ∉ keys) && (mapping key).isSome) :=
    List.mem_filter.mpr ⟨by simpa [Key.IsBlockKey] using hblock, by simp [hnew, hsome]⟩
  rw [writtenKeys, List.getLast?_append_of_ne_nil _ (List.ne_nil_of_mem hmem)] at hlast
  have hadded := (List.mem_filter.mp (List.mem_of_getLast? hlast)).1
  simpa [Key.IsBlockKey] using hadded

/-- **What a repaired file loses** with its last line break. -/
theorem cutLast_eq_iff (hyaml : yaml.RoundTrips chrono) (hchrono : chrono.RoundTrips)
    {text : List Char} (hmapping : yaml.fromStr text = some mapping)
    {repair : TaskFrontmatterCompatRepair}
    (h : normalizeFrontmatter chrono mapping = .ok (some (mapping', repair))) :
    (∀ key : Key, ¬ key.IsBlockKey → ¬ IsLegacyKey chrono mapping key →
        yaml.cutLast (writtenKeys (yaml.keys text) mapping') mapping' key = mapping key) ↔
      ¬ LosesBreak yaml chrono (yaml.keys text) mapping := by
  obtain ⟨renewed, hconserves, hkept, -, -, -, houtcome⟩ := normalizeFrontmatter_cases hchrono h
  -- Off the block the repair changed timestamps only, and on it nothing unless it was set.
  have hother : ∀ key : Key, ¬ key.IsBlockKey → ¬ IsLegacyKey chrono mapping key →
      mapping' key = mapping key := fun key hkey hlegacy =>
    (houtcome.others hkey).trans (hconserves.others key hkey hlegacy)
  have hblock : ∀ key : Key, key.IsBlockKey → ((mapping' key).isSome ↔
      (blockRepair mapping).isSome ∨ key ∈ yaml.keys text) := by
    intro key hkey
    rw [hyaml.keys text mapping hmapping]
    cases houtcome with
    | block hrepair =>
      obtain ⟨reason, blockedOn, rfl⟩ := exists_of_blockRepair hrepair
      rw [hrepair]
      rcases hkey with rfl | rfl | rfl <;> simp [setBlockedReason, Mapping.setOptionalString]
    | timestamps hrepair =>
      rw [hrepair, hkept key hkey]
      simp
  constructor
  · rintro hkeeps ⟨-, hlast, key, value, hkey, hnot, hlegacy, hvalue, hcut⟩
    have hwritten : writtenKeys (yaml.keys text) mapping' = yaml.keys text :=
      writtenKeys_of_kept fun key hkey hsome =>
        ((hblock key hkey).mp hsome).elim (hlast · key hkey) id
    have hsame := hkeeps key hnot hlegacy
    rw [Yaml.cutLast, hwritten, if_pos hkey, hother key hnot hlegacy, hvalue, Option.map_some,
      Option.some.injEq] at hsame
    exact hcut hsame
  · intro hkeeps key hnot hlegacy
    rw [Yaml.cutLast]
    split
    · rename_i hkey
      have hlast : (blockRepair mapping).isSome → ∀ key : Key, key.IsBlockKey →
          key ∈ yaml.keys text := by
        intro hset other hblockKey
        by_contra hnew
        exact hnot (writtenKeys_of_added hblockKey hnew ((hblock other hblockKey).mpr (.inl hset))
          hkey)
      rw [writtenKeys_of_kept fun key hkey hsome =>
        ((hblock key hkey).mp hsome).elim (hlast · key hkey) id] at hkey
      rw [hother key hnot hlegacy]
      cases hvalue : mapping key with
      | none => rfl
      | some value =>
        by_contra hcut
        exact hkeeps ⟨houtcome.due, hlast, key, value, hkey, hnot, hlegacy, hvalue, fun heq =>
          hcut (by rw [Option.map_some, heq])⟩
    · exact hother key hnot hlegacy

/-- What is normalised, once the file is cut and its frontmatter read. -/
theorem normalizeTaskFrontmatterContent_eq (chrono : Chrono) {content frontmatter body : List Char}
    (hsplit : splitFrontmatter content = .ok (frontmatter, body))
    (hyaml : yaml.fromStr frontmatter = some mapping) :
    normalizeTaskFrontmatterContent yaml chrono content =
      (do
        match ← normalizeFrontmatter chrono mapping with
        | none => return none
        | some (mapping, repair) => do
          let keys := writtenKeys (yaml.keys frontmatter) mapping
          let updated ← renderFrontmatterContent yaml keys mapping body
          return some (updated, repair)) := by
  simp only [normalizeTaskFrontmatterContent, hsplit, orFailure]
  simp [bind, Except.bind, hyaml]

/-- What is left of a repaired frontmatter is only off in legacy timestamps, which are kept. -/
theorem cutLast_of_not_losesBreak (hyaml : yaml.RoundTrips chrono) (hchrono : chrono.RoundTrips)
    {text : List Char} (hmapping : yaml.fromStr text = some mapping)
    {repair : TaskFrontmatterCompatRepair}
    (h : normalizeFrontmatter chrono mapping = .ok (some (mapping', repair)))
    (hkeeps : ¬ LosesBreak yaml chrono (yaml.keys text) mapping) {key : Key}
    (hkey : ¬ key.IsBlockKey) :
    yaml.cutLast (writtenKeys (yaml.keys text) mapping') mapping' key = mapping' key := by
  obtain ⟨renewed, hconserves, -, hrenewed, -, -, houtcome⟩ := normalizeFrontmatter_cases hchrono h
  have hother : mapping' key = renewed key := houtcome.others hkey
  by_cases hlegacy : IsLegacyKey chrono mapping key
  · obtain ⟨written, hwritten⟩ := hrenewed key hlegacy
    rw [Yaml.cutLast, hother, hwritten, Option.map_some, cut_toRfc3339 hyaml hchrono, ite_self]
  · rw [(cutLast_eq_iff hyaml hchrono hmapping h).mpr hkeeps key hkey hlegacy, hother,
      hconserves.others key hkey hlegacy]

section

variable {content frontmatter body : List Char}
  (hsplit : splitFrontmatter content = .ok (frontmatter, body))
  (hmapping : yaml.fromStr frontmatter = some mapping)

include hsplit hmapping

/-- A repair that is due is written, and then read without the last line break. -/
theorem exists_repairedContent (hyaml : yaml.RoundTrips chrono)
    {repair : TaskFrontmatterCompatRepair}
    (h : normalizeFrontmatter chrono mapping = .ok (some (mapping', repair))) :
    ∃ updated frontmatter', repairedContent yaml chrono content = .ok updated ∧
      splitFrontmatter updated = .ok (frontmatter', body) ∧ yaml.fromStr frontmatter' =
        some (yaml.cutLast (writtenKeys (yaml.keys frontmatter) mapping') mapping') := by
  obtain ⟨rendered, hrendered⟩ := hyaml.writes frontmatter mapping mapping' repair hmapping h
  obtain ⟨updated, frontmatter', hrender, hsplit', hread⟩ :=
    splitFrontmatter_of_render hyaml body hrendered
  refine ⟨updated, frontmatter', ?_, hsplit', hread⟩
  rw [repairedContent, normalizeTaskFrontmatterContent_eq _ hsplit hmapping, h]
  simp [bind, Except.bind, pure, Except.pure, hrender]

/-- With a safe repair nothing is lost. -/
theorem RepairsSafely.not_losesBreak (hyaml : yaml.RoundTrips chrono)
    (hchrono : chrono.RoundTrips) {updated : List Char}
    (hupdated : repairedContent yaml chrono content = .ok updated)
    {result : Option (Mapping × TaskFrontmatterCompatRepair)}
    (h : normalizeFrontmatter chrono mapping = .ok result)
    (hsafe : RepairsSafely yaml chrono content updated) :
    ¬ LosesBreak yaml chrono (yaml.keys frontmatter) mapping := by
  intro hloses
  obtain ⟨renewed, -, -, -, -, -, houtcome⟩ := normalizeFrontmatter_cases hchrono h
  obtain ⟨mapping', repair, rfl⟩ := houtcome.exists_of_due hloses.due
  obtain ⟨_, frontmatter', hupdated', hsplit', hread⟩ :=
    exists_repairedContent hsplit hmapping hyaml h
  cases hupdated.symm.trans hupdated'
  obtain ⟨_, _, _, _, mapping'', hsplit₁, hmapping₁, hsplit₂, hmapping₂, hconserves⟩ :=
    hsafe.conserves
  cases hsplit.symm.trans hsplit₁
  cases hmapping.symm.trans hmapping₁
  cases hsplit'.symm.trans hsplit₂
  cases hread.symm.trans hmapping₂
  exact (cutLast_eq_iff hyaml hchrono hmapping h).mp hconserves.others hloses

/-- A file that needs no repair is left as it is. -/
theorem repairsSafely_self (hchrono : chrono.RoundTrips)
    (h : normalizeFrontmatter chrono mapping = .ok none) :
    repairedContent yaml chrono content = .ok content ∧
      RepairsSafely yaml chrono content content := by
  have hcontent := normalizeTaskFrontmatterContent_eq chrono hsplit hmapping
  obtain ⟨renewed, -, -, -, -, -, houtcome⟩ := normalizeFrontmatter_cases hchrono h
  have hnone : ¬ ∃ key, IsLegacyKey chrono mapping key := by
    cases houtcome with
    | nothing _ hnone => exact hnone
  refine ⟨by rw [repairedContent, hcontent, h]; rfl, by rw [hcontent, h]; rfl,
    ⟨frontmatter, frontmatter, body, mapping, mapping, hsplit, hmapping, hsplit, hmapping,
      fun _ _ _ => rfl, fun key hkey raw written hraw hlegacy => ?_⟩,
    fun task htask => ⟨task, htask, Iff.rfl⟩⟩
  exact absurd ⟨key, hkey, raw, written, hraw, hlegacy⟩ hnone

/-- A repair that loses no line break is safe. -/
theorem exists_repairsSafely (hyaml : yaml.RoundTrips chrono) (hchrono : chrono.RoundTrips)
    {task : Task} (htask : Task.parseContent yaml.fromStr content = .ok task)
    {repair : TaskFrontmatterCompatRepair}
    (h : normalizeFrontmatter chrono mapping = .ok (some (mapping', repair)))
    (hkeeps : ¬ LosesBreak yaml chrono (yaml.keys frontmatter) mapping) :
    ∃ updated, repairedContent yaml chrono content = .ok updated ∧
      RepairsSafely yaml chrono content updated := by
  have hreads : Task.Reads "" mapping (String.ofList body) task := by
    obtain ⟨frontmatter', body', mapping₁, hsplit', hmapping', hparse⟩ :=
      Task.parseContent_eq_ok_iff.mp htask
    cases hsplit.symm.trans hsplit'
    cases hmapping.symm.trans hmapping'
    exact Task.parse_eq_some_iff.mp hparse
  obtain ⟨updated, frontmatter', hupdated, hsplit', hread⟩ :=
    exists_repairedContent hsplit hmapping hyaml h
  obtain ⟨-, -, task₁, htask₁, -⟩ := normalizeFrontmatter_repairs hchrono hreads h
    (fun _ _ => .inl rfl) fun _ _ => rfl
  obtain ⟨hsettled, hconserves, task', htask', hblocked⟩ :=
    normalizeFrontmatter_repairs hchrono hreads h (blocksAlike_cutLast hyaml _ htask₁.blockDecodes)
      fun key => cutLast_of_not_losesBreak hyaml hchrono hmapping h hkeeps
  refine ⟨updated, hupdated, ?_, ⟨frontmatter, frontmatter', body, mapping, _, hsplit, hmapping,
    hsplit', hread, hconserves⟩, fun other hother => ?_⟩
  · rw [normalizeTaskFrontmatterContent_eq _ hsplit' hread, hsettled]
    rfl
  · obtain rfl := Except.ok.inj (hother.symm.trans htask)
    exact ⟨task', Task.parseContent_eq_ok_iff.mpr
      ⟨frontmatter', body, _, hsplit', hread, Task.parse_eq_some_iff.mpr htask'⟩, hblocked⟩

end

/-- **A safe repair** needs timestamps that can be probed, and must not lose a line break at the end
of the frontmatter. -/
theorem repairsSafely_iff (hyaml : yaml.RoundTrips chrono) (hchrono : chrono.RoundTrips)
    {content frontmatter body : List Char} {task : Task}
    (hsplit : splitFrontmatter content = .ok (frontmatter, body))
    (hmapping : yaml.fromStr frontmatter = some mapping)
    (htask : Task.parseContent yaml.fromStr content = .ok task) :
    (∃ updated, repairedContent yaml chrono content = .ok updated ∧
      RepairsSafely yaml chrono content updated) ↔
      (∀ field ∈ compatTimestampFields, ∀ raw, mapping field.2 = some (.string raw) →
        Probes chrono raw.toList) ∧
      ¬ LosesBreak yaml chrono (yaml.keys frontmatter) mapping := by
  constructor
  · rintro ⟨updated, hupdated, hsafe⟩
    cases hnormalize : normalizeFrontmatter chrono mapping with
    | error failure =>
      rw [repairedContent, normalizeTaskFrontmatterContent_eq _ hsplit hmapping, hnormalize]
        at hupdated
      cases hupdated
    | ok result =>
      exact ⟨probes_of_normalizeFrontmatter hnormalize,
        hsafe.not_losesBreak hsplit hmapping hyaml hchrono hupdated hnormalize⟩
  · rintro ⟨hprobes, hkeeps⟩
    obtain ⟨renewal, -, hfields⟩ := exists_normalizeTimestampFrontmatterFields hprobes
    cases hnormalize : normalizeFrontmatter chrono mapping with
    | error failure =>
      rw [normalizeFrontmatter_eq hfields] at hnormalize
      cases hnormalize
    | ok result =>
      cases result with
      | none => exact ⟨content, repairsSafely_self hsplit hmapping hchrono hnormalize⟩
      | some repaired =>
        exact exists_repairsSafely hsplit hmapping hyaml hchrono htask hnormalize hkeeps

end

/-! ### A file that is repaired -/

/-- A library that knows one date, and writes it as it is given. -/
def knowsDate (date : String) : Chrono where
  DateTime := Unit
  parseFromRfc3339 text := if text = date.toList then some () else none
  toRfc3339 _ := date.toList
  instant _ := 1775863600

/-- The frontmatter of a scheduled task, with a text for its last value. -/
def scheduledText (scheduled nextAction : String) : List Char :=
  "id: 1\ntitle: base\nscheduled_for: ".toList ++ scheduled.toList ++
    "\nnext_action: ".toList ++ nextAction.toList

def scheduledFile (scheduled nextAction : String) : List Char :=
  "---\n".toList ++ scheduledText scheduled nextAction ++ "\n---\nBase.".toList

def scheduledMapping (scheduled nextAction : String) : Mapping :=
  .ofList [(.id, .number 1), (.title, .string "base"), (.scheduledFor, .string scheduled),
    (.nextAction, .string nextAction)]

/-- The mapping after the repair. -/
def rescheduledMapping (nextAction : String) : Mapping :=
  (scheduledMapping "2026-04-10T19:26:40-0400" nextAction).insert .scheduledFor
    (.string "2026-04-10T19:26:40-04:00")

/-- A text as it stands in a file, as the library writes it, and as it is read there without the
last line break. -/
structure Spelling where
  value : String
  quoted : String
  written : String
  cut : String
  cuts : cut = value ∨ value.toList = cut.toList ++ ['\n'] := by decide +kernel
  fence : ¬ "\n---".toList <:+: scheduledText "2026-04-10T19:26:40-04:00" written := by decide +kernel
  ended : scheduledText "2026-04-10T19:26:40-04:00" written ++ ['\n'] ≠
    scheduledText "2026-04-10T19:26:40-0400" quoted := by decide +kernel
  unended : scheduledText "2026-04-10T19:26:40-04:00" written ≠
    scheduledText "2026-04-10T19:26:40-0400" quoted := by decide +kernel

def scheduledKeys : List Key := [.id, .title, .scheduledFor, .nextAction]

open Classical in
/-- A library that knows the old and the new frontmatter of a file. -/
noncomputable def Spelling.library (spelling : Spelling) : Yaml where
  fromStr text :=
    if text = scheduledText "2026-04-10T19:26:40-0400" spelling.quoted then
      some (scheduledMapping "2026-04-10T19:26:40-0400" spelling.value)
    else if text = scheduledText "2026-04-10T19:26:40-04:00" spelling.written ++ ['\n'] then
      some (rescheduledMapping spelling.value)
    else if text = scheduledText "2026-04-10T19:26:40-04:00" spelling.written then
      some (rescheduledMapping spelling.cut)
    else none
  keys _ := scheduledKeys
  toString keys mapping :=
    if keys = scheduledKeys ∧ mapping = rescheduledMapping spelling.value then
      some (scheduledText "2026-04-10T19:26:40-04:00" spelling.written ++ ['\n'])
    else none
  cut value := if value = .string spelling.value then .string spelling.cut else value

theorem roundTrips_knowsDate (date : String) (h : Text.trim date.toList = date.toList) :
    (knowsDate date).RoundTrips where
  reads _ := ⟨(), if_pos rfl, rfl⟩
  trims _ := h

theorem isSome_scheduledMapping (scheduled nextAction : String) (key : Key) :
    (scheduledMapping scheduled nextAction key).isSome ↔ key ∈ scheduledKeys := by
  simp [scheduledMapping, scheduledKeys, Mapping.ofList, eq_comm (a := key)]

theorem isSome_rescheduledMapping (nextAction : String) (key : Key) :
    (rescheduledMapping nextAction key).isSome ↔ key ∈ scheduledKeys := by
  rw [rescheduledMapping]
  by_cases hkey : key = .scheduledFor
  · simp [hkey, scheduledKeys]
  · rw [Mapping.insert_of_ne _ _ hkey, isSome_scheduledMapping]

theorem normalizeFrontmatter_scheduled (nextAction : String) :
    ∃ repair, normalizeFrontmatter (knowsDate "2026-04-10T19:26:40-04:00")
      (scheduledMapping "2026-04-10T19:26:40-0400" nextAction) =
        .ok (some (rescheduledMapping nextAction, repair)) :=
  ⟨_, by rfl⟩

theorem normalizeFrontmatter_rescheduled (nextAction : String) :
    normalizeFrontmatter (knowsDate "2026-04-10T19:26:40-04:00") (rescheduledMapping nextAction) =
      .ok none := by
  rfl

theorem cutLast_rescheduled (spelling : Spelling) :
    spelling.library.cutLast scheduledKeys (rescheduledMapping spelling.value) =
      rescheduledMapping spelling.cut := by
  funext key
  by_cases hkey : key = .nextAction
  · subst hkey
    simp [Yaml.cutLast, scheduledKeys, rescheduledMapping, scheduledMapping, Mapping.ofList,
      Spelling.library, Mapping.insert]
  · have hlast : scheduledKeys.getLast? ≠ some key := fun h => hkey (Option.some.inj h).symm
    rw [Yaml.cutLast, if_neg hlast]
    by_cases hscheduled : key = .scheduledFor
    · simp [hscheduled, rescheduledMapping]
    · simp [rescheduledMapping, Mapping.insert_of_ne _ _ hscheduled, scheduledMapping,
        Mapping.ofList, List.find?_cons, Ne.symm hkey]

theorem Spelling.roundTrips (spelling : Spelling) :
    spelling.library.RoundTrips (knowsDate "2026-04-10T19:26:40-04:00") where
  keys text mapping h key := by
    simp only [Spelling.library] at h
    split_ifs at h
    · obtain rfl := Option.some.inj h
      exact (isSome_scheduledMapping _ _ key).symm
    · obtain rfl := Option.some.inj h
      exact (isSome_rescheduledMapping _ key).symm
    · obtain rfl := Option.some.inj h
      exact (isSome_rescheduledMapping _ key).symm
  writes text mapping mapping' repair h hnormalize := by
    simp only [Spelling.library] at h
    split_ifs at h
    · obtain rfl := Option.some.inj h
      obtain ⟨repair', hrepair⟩ := normalizeFrontmatter_scheduled spelling.value
      obtain ⟨rfl, -⟩ := Prod.mk.inj (Option.some.inj (Except.ok.inj (hrepair.symm.trans hnormalize)))
      have hkept : writtenKeys scheduledKeys (rescheduledMapping spelling.value) = scheduledKeys :=
        writtenKeys_of_kept fun key _ => (isSome_rescheduledMapping _ key).mp
      exact ⟨_, if_pos ⟨hkept, rfl⟩⟩
    · obtain rfl := Option.some.inj h
      rw [normalizeFrontmatter_rescheduled] at hnormalize
      cases hnormalize
    · obtain rfl := Option.some.inj h
      rw [normalizeFrontmatter_rescheduled] at hnormalize
      cases hnormalize
  reads keys mapping rendered h := by
    obtain ⟨⟨rfl, rfl⟩, hrendered⟩ := Option.ite_none_right_eq_some.mp h
    obtain rfl := Option.some.inj hrendered
    refine ⟨scheduledText "2026-04-10T19:26:40-04:00" spelling.written, by rfl, spelling.fence, ?_, ?_⟩
    · simp [Spelling.library, spelling.ended]
    · rw [cutLast_rescheduled]
      simp [Spelling.library, spelling.unended]
  cut_string text := by
    simp only [Spelling.library, Value.string.injEq]
    split
    · rename_i heq
      subst heq
      exact spelling.cuts.imp (fun h => by rw [h]) fun h => ⟨_, h, rfl⟩
    · exact .inl rfl
  cut_bool value := by simp [Spelling.library]
  cut_null := by simp [Spelling.library]

/-- What is known of the file before its repair. -/
theorem Spelling.read (spelling : Spelling)
    (hsplit : splitFrontmatter (scheduledFile "2026-04-10T19:26:40-0400" spelling.quoted) =
      .ok (scheduledText "2026-04-10T19:26:40-0400" spelling.quoted, "Base.".toList)) :
    spelling.library.fromStr (scheduledText "2026-04-10T19:26:40-0400" spelling.quoted) =
        some (scheduledMapping "2026-04-10T19:26:40-0400" spelling.value) ∧
      ∃ task, Task.parseContent spelling.library.fromStr
        (scheduledFile "2026-04-10T19:26:40-0400" spelling.quoted) = .ok task := by
  have hmapping : spelling.library.fromStr (scheduledText "2026-04-10T19:26:40-0400" spelling.quoted) =
      some (scheduledMapping "2026-04-10T19:26:40-0400" spelling.value) := if_pos rfl
  exact ⟨hmapping, _, Task.parseContent_eq_ok_iff.mpr ⟨_, _, _, hsplit, hmapping, by rfl⟩⟩

/-- A last value in one line. -/
def callSpelling : Spelling where
  value := "call"
  quoted := "call"
  written := "call"
  cut := "call"

/-- A last value that ends with a line break, which is written in block style. -/
def callLineSpelling : Spelling where
  value := "call\n"
  quoted := "\"call\\n\""
  written := "|\n  call"
  cut := "call"

/-- A date of the old form is rewritten, and the text behind it is kept. -/
theorem repairsSafely_iff_call : ∃ updated,
    repairedContent callSpelling.library (knowsDate "2026-04-10T19:26:40-04:00")
        (scheduledFile "2026-04-10T19:26:40-0400" "call") = .ok updated ∧
      RepairsSafely callSpelling.library (knowsDate "2026-04-10T19:26:40-04:00")
        (scheduledFile "2026-04-10T19:26:40-0400" "call") updated := by
  have hsplit : splitFrontmatter (scheduledFile "2026-04-10T19:26:40-0400" "call") =
      .ok (scheduledText "2026-04-10T19:26:40-0400" "call", "Base.".toList) := by rfl
  obtain ⟨hmapping, task, htask⟩ := callSpelling.read hsplit
  refine (repairsSafely_iff callSpelling.roundTrips (roundTrips_knowsDate _ (by decide)) hsplit
    hmapping htask).mpr ⟨probes_of_normalizeFrontmatter
      (normalizeFrontmatter_scheduled "call").choose_spec, fun hloses => ?_⟩
  obtain ⟨key, value, hkey, -, -, hvalue, hcut⟩ := hloses.lost
  obtain rfl : Key.nextAction = key := Option.some.inj hkey
  obtain rfl : Value.string "call" = value := Option.some.inj hvalue
  exact hcut (if_pos rfl)

/-- The repair of a timestamp takes the line break off another value. -/
theorem not_repairsSafely : ¬ ∀ (yaml : Yaml) (chrono : Chrono) content task,
    yaml.RoundTrips chrono → chrono.RoundTrips →
    Task.parseContent yaml.fromStr content = .ok task →
    ∃ updated, repairedContent yaml chrono content = .ok updated ∧
      RepairsSafely yaml chrono content updated := by
  intro hall
  have hsplit : splitFrontmatter (scheduledFile "2026-04-10T19:26:40-0400" "\"call\\n\"") =
      .ok (scheduledText "2026-04-10T19:26:40-0400" "\"call\\n\"", "Base.".toList) := by rfl
  obtain ⟨hmapping, task, htask⟩ := callLineSpelling.read hsplit
  have hchrono := roundTrips_knowsDate "2026-04-10T19:26:40-04:00" (by decide)
  obtain ⟨updated, hupdated, hsafe⟩ := hall _ _ _ _ callLineSpelling.roundTrips hchrono htask
  obtain ⟨repair, hrepair⟩ := normalizeFrontmatter_scheduled "call\n"
  obtain ⟨_, -, -, -, -, -, houtcome⟩ := normalizeFrontmatter_cases hchrono hrepair
  have hnone : blockRepair (scheduledMapping "2026-04-10T19:26:40-0400" "call\n") = none := by rfl
  refine hsafe.not_losesBreak hsplit hmapping callLineSpelling.roundTrips hchrono hupdated hrepair
    ⟨houtcome.due, fun hblock => absurd (hnone ▸ hblock) nofun, .nextAction, .string "call\n", rfl,
      by decide, fun h => absurd h.1 (by decide), rfl, ?_⟩
  rw [show callLineSpelling.library.cut (.string "call\n") = .string "call" from if_pos rfl]
  simp

end Batty
