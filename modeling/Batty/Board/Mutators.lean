import Mathlib.Data.List.Dedup
import Batty.Board.Board

/-!
# Edits of a task file

The pure edits behind the board commands: transitions, claims, releases, blocks, dependencies.
Each is a `Mapping → Mapping`. For each of them a theorem `task_update_…` says what the edited
file parses to, so that nothing later looks at frontmatter again.
-/

namespace Batty

/-! ### Mutators -/

def normalizeOptional (value : String) : Option String :=
  match Text.trim value.toList with
  | [] => none
  | trimmed => some (String.ofList trimmed)

/-- The effect of a transition: a task that is not blocked any more loses its block fields. -/
def transitionMutator (target : TaskState) (mapping : Mapping) : Mapping :=
  if target = .blocked then setStatus target mapping else clearBlocked (setStatus target mapping)

/-- The bookkeeping of a claim that a change of owner resets. -/
def resetClaimTracking (mapping : Mapping) : Mapping :=
  ((((mapping.setOptionalU64 .claimTtlSecs none).setOptionalString .claimExpiresAt none
    ).setOptionalString .claimWarningSentAt none).setOptionalU64 .claimExtensions none
    ).setOptionalU64 .lastOutputBytes none

/-- Set the owners that are given; a blank owner unsets the field. `now` is the time stamp of a
new claim. -/
def assignOwnersMutator (now : String) (execOwner reviewOwner : Option String)
    (mapping : Mapping) : Mapping :=
  let mapping := match execOwner with
    | none => mapping
    | some owner =>
      let normalizedOwner := normalizeOptional owner
      let stamp := normalizedOwner.map fun _ => now
      resetClaimTracking (((mapping.setOptionalString .claimedBy normalizedOwner
        ).setOptionalString .claimedAt stamp).setOptionalString .lastProgressAt stamp)
  match reviewOwner with
  | none => mapping
  | some owner => mapping.setOptionalString .reviewOwner (normalizeOptional owner)

/-- Drop the engineer's claim and keep everything else. -/
def releaseClaimMutator (mapping : Mapping) : Mapping :=
  resetClaimTracking (((mapping.setOptionalString .claimedBy none
    ).setOptionalString .claimedAt none).setOptionalString .lastProgressAt none)

/-- Drop the engineer's claim and the review owner. -/
def unclaimMutator (mapping : Mapping) : Mapping :=
  (releaseClaimMutator mapping).setOptionalString .reviewOwner none

def reclaimMutator (nextAction : String) (mapping : Mapping) : Mapping :=
  setStatus .todo ((unclaimMutator mapping).setOptionalString .nextAction (some nextAction))

def blockMutator (reason : String) (mapping : Mapping) : Mapping :=
  setBlockedReason (some reason) (some reason) (setStatus .blocked mapping)

/-- The ids in the dependency field, whatever else stands there. -/
def existingDependencies (mapping : Mapping) : List Nat :=
  match mapping .dependsOn with
  | some (.sequence values) => values.filterMap fun value => value.asU64.map (· % 2 ^ 32)
  | _ => []

/-- A set of ids as the sorted list without repetitions. -/
def sortedIds (ids : List Nat) : List Nat := (ids.insertionSort (· ≤ ·)).dedup

def appendDependenciesMutator (dependencyIds : List Nat) (mapping : Mapping) : Mapping :=
  match sortedIds (existingDependencies mapping ++ dependencyIds) with
  | [] => mapping.remove .dependsOn
  | merged => mapping.insert .dependsOn (.sequence (merged.map fun id : Nat => .number (id : Int)))

/-! ### What the mutators do to the task -/

/-- The unread fields still decode if each of them was left alone, dropped, or set to something
its reader accepts. -/
theorem restDecodes_of_edit {mapping mapping' : Mapping} (h : mapping.restDecodes = true)
    (hedit : ∀ field ∈ restFields, mapping' field.1 = mapping field.1 ∨
      mapping' field.1 = none ∨ ∃ value, mapping' field.1 = some value ∧ field.2 value = true) :
    mapping'.restDecodes = true := by
  rw [Mapping.restDecodes, List.all_eq_true] at h ⊢
  intro field hfield
  rcases hedit field hfield with hsame | hnone | ⟨value, hvalue, haccepts⟩
  · simp only [hsame]
    exact h field hfield
  · simp only [hnone]
  · cases value <;> simp_all

theorem restDecodes_of_agree {mapping mapping' : Mapping} (h : mapping.restDecodes = true)
    (hagree : ∀ field ∈ restFields, mapping' field.1 = mapping field.1) :
    mapping'.restDecodes = true :=
  restDecodes_of_edit h fun field hfield => .inl (hagree field hfield)

theorem transitionMutator_apply (target : TaskState) (mapping : Mapping) {key : Key}
    (hstatus : key ≠ .status) (hblock : ¬ key.IsBlockKey) :
    transitionMutator target mapping key = mapping key := by
  simp only [Key.IsBlockKey, not_or] at hblock
  unfold transitionMutator
  split <;> simp [setStatus, clearBlocked, hstatus, hblock]

theorem transitionMutator_status (target : TaskState) (mapping : Mapping) :
    transitionMutator target mapping .status = some (.string (stateName target)) := by
  unfold transitionMutator
  split <;> simp [setStatus, clearBlocked]

section

variable {file : TaskFile} {task : Task}

/-- Block fields that an edit leaves alone stay readable. -/
theorem blockDecodes_of_agree {mapping mapping' : Mapping} (h : mapping.BlockDecodes)
    (hagree : ∀ key : Key, key.IsBlockKey → mapping' key = mapping key) :
    mapping'.BlockDecodes where
  blocked := by
    rw [Mapping.orDefault_congr (hagree .blocked (by simp [Key.IsBlockKey]))]
    exact h.blocked
  blockReason := by
    rw [Mapping.optional_congr (hagree .blockReason (by simp [Key.IsBlockKey]))]
    exact h.blockReason
  blockedOn := by
    rw [Mapping.optional_congr (hagree .blockedOn (by simp [Key.IsBlockKey]))]
    exact h.blockedOn

/-- An edit of the status and the block fields. -/
theorem task_update_status (h : file.task = some task) {mutator : Mapping → Mapping}
    {status : String} (happly : ∀ key : Key, key ≠ .status → ¬ key.IsBlockKey →
      mutator file.mapping key = file.mapping key)
    (hstatus : mutator file.mapping .status = some (.string status))
    (hblock : (mutator file.mapping).BlockDecodes) :
    ∃ task', (file.update mutator).task = some task' ∧
      task.EditOf task' status task.claimedBy task.reviewOwner task.dependsOn := by
  have hreads := Task.parse_eq_some_iff.mp h
  refine TaskFile.task_update h task.claimedAt ?_ hblock ?_ ?_ ?_ ?_ ?_ ?_
  · exact fun key hkey => happly key (by rintro rfl; simp [Key.stable] at hkey)
      (by rintro (rfl | rfl | rfl) <;> simp [Key.stable] at hkey)
  · exact restDecodes_of_agree hreads.rest fun field hfield =>
      happly _ (by revert field; simp [restFields]) (restFields_not_isBlockKey field hfield)
  · simp [Mapping.orDefault, hstatus, Value.asString]
  · exact (Mapping.optional_congr (happly _ (by decide) (by decide))).trans hreads.claimedBy
  · exact (Mapping.optional_congr (happly _ (by decide) (by decide))).trans hreads.claimedAt
  · exact (Mapping.optional_congr (happly _ (by decide) (by decide))).trans hreads.reviewOwner
  · exact (Mapping.orDefault_congr (happly _ (by decide) (by decide))).trans hreads.dependsOn

theorem blockDecodes_setStatus (h : file.task = some task) (target : TaskState) :
    (setStatus target file.mapping).BlockDecodes :=
  blockDecodes_of_agree (Task.parse_eq_some_iff.mp h).blockDecodes fun key hkey =>
    Mapping.insert_of_ne _ _ (by rintro rfl; simp [Key.IsBlockKey] at hkey)

theorem task_update_transition (h : file.task = some task) (target : TaskState) :
    ∃ task', (file.update (transitionMutator target)).task = some task' ∧
      task.EditOf task' (stateName target) task.claimedBy task.reviewOwner task.dependsOn := by
  refine task_update_status h (fun key => transitionMutator_apply target file.mapping)
    (transitionMutator_status target _) ?_
  unfold transitionMutator
  split
  · exact blockDecodes_setStatus h target
  · exact blockDecodes_clearBlocked _

/-- A change of status that leaves the block fields alone. -/
theorem task_update_setStatus (h : file.task = some task) (target : TaskState) :
    ∃ task', (file.update (setStatus target)).task = some task' ∧
      task.EditOf task' (stateName target) task.claimedBy task.reviewOwner task.dependsOn :=
  task_update_status h (fun _ hkey _ => Mapping.insert_of_ne _ _ hkey) (Mapping.insert_self _ _ _)
    (blockDecodes_setStatus h target)

/-- The owner field after an assignment that may leave it alone. -/
def assignedOwner (current : Option String) : Option String → Option String
  | none => current
  | some owner => normalizeOptional owner

/-- The keys an assignment of owners leaves alone. -/
theorem assignOwnersMutator_apply (now : String) (execOwner reviewOwner : Option String)
    (mapping : Mapping) {key : Key}
    (h : key ∉ [Key.claimedBy, .claimedAt, .lastProgressAt, .claimTtlSecs, .claimExpiresAt,
      .claimWarningSentAt, .claimExtensions, .lastOutputBytes, .reviewOwner]) :
    assignOwnersMutator now execOwner reviewOwner mapping key = mapping key := by
  simp only [List.mem_cons, List.not_mem_nil, or_false, not_or] at h
  cases execOwner <;> cases reviewOwner <;> simp [assignOwnersMutator, resetClaimTracking, h]

theorem restDecodes_assignOwnersMutator {mapping : Mapping} (h : mapping.restDecodes = true)
    (now : String) (execOwner reviewOwner : Option String) :
    (assignOwnersMutator now execOwner reviewOwner mapping).restDecodes = true := by
  refine restDecodes_of_edit h ?_
  cases execOwner with
  | none => cases reviewOwner <;> simp [restFields, assignOwnersMutator]
  | some owner =>
    cases hnormalized : normalizeOptional owner <;> cases reviewOwner <;>
      simp [restFields, assignOwnersMutator, resetClaimTracking, hnormalized, Value.asString]

theorem task_update_assignOwners (h : file.task = some task) (now : String)
    (execOwner reviewOwner : Option String) :
    ∃ task', (file.update (assignOwnersMutator now execOwner reviewOwner)).task = some task' ∧
      task.EditOf task' task.status (assignedOwner task.claimedBy execOwner)
        (assignedOwner task.reviewOwner reviewOwner) task.dependsOn := by
  have hreads := Task.parse_eq_some_iff.mp h
  have hrest := restDecodes_assignOwnersMutator hreads.rest now execOwner reviewOwner
  have hstable : ∀ key ∈ Key.stable,
      assignOwnersMutator now execOwner reviewOwner file.mapping key = file.mapping key := by
    simp [Key.stable, assignOwnersMutator_apply]
  have hblock : (assignOwnersMutator now execOwner reviewOwner file.mapping).BlockDecodes := by
    refine blockDecodes_of_agree hreads.blockDecodes ?_
    rintro _ (rfl | rfl | rfl) <;> exact assignOwnersMutator_apply _ _ _ _ (by simp)
  have hclaimedAt : ∃ claimedAt, (assignOwnersMutator now execOwner reviewOwner
      file.mapping).optional .claimedAt Value.asString = some claimedAt := by
    cases execOwner with
    | none =>
      refine ⟨task.claimedAt, ?_⟩
      cases reviewOwner <;> simpa [assignOwnersMutator, Mapping.optional] using hreads.claimedAt
    | some owner =>
      refine ⟨(normalizeOptional owner).map fun _ => now, ?_⟩
      cases reviewOwner <;> cases hnormalized : normalizeOptional owner <;>
        simp [assignOwnersMutator, resetClaimTracking, Mapping.optional, Value.asString,
          hnormalized]
  obtain ⟨claimedAt, hclaimedAt⟩ := hclaimedAt
  refine TaskFile.task_update h _ hstable hblock hrest ?_ ?_ hclaimedAt ?_ ?_
  · exact (Mapping.orDefault_congr (assignOwnersMutator_apply _ _ _ _ (by simp))).trans
      hreads.status
  · cases execOwner with
    | none => cases reviewOwner <;>
      simpa [assignOwnersMutator, assignedOwner, Mapping.optional] using hreads.claimedBy
    | some owner => cases hnormalized : normalizeOptional owner <;> cases reviewOwner <;>
      simp [assignOwnersMutator, assignedOwner, resetClaimTracking, Mapping.optional,
        Value.asString, hnormalized]
  · cases reviewOwner with
    | none => cases execOwner <;> simpa [assignOwnersMutator, assignedOwner, resetClaimTracking,
        Mapping.optional] using hreads.reviewOwner
    | some reviewer => simp [assignOwnersMutator, assignedOwner]
  · exact (Mapping.orDefault_congr (assignOwnersMutator_apply _ _ _ _ (by simp))).trans
      hreads.dependsOn

/-- The keys a release drops. -/
theorem releaseClaimMutator_apply (mapping : Mapping) {key : Key}
    (h : key ∉ [Key.claimedBy, .claimedAt, .lastProgressAt, .claimTtlSecs, .claimExpiresAt,
      .claimWarningSentAt, .claimExtensions, .lastOutputBytes]) :
    releaseClaimMutator mapping key = mapping key := by
  simp only [List.mem_cons, List.not_mem_nil, or_false, not_or] at h
  simp [releaseClaimMutator, resetClaimTracking, h]

theorem restDecodes_releaseClaimMutator {mapping : Mapping} (h : mapping.restDecodes = true) :
    (releaseClaimMutator mapping).restDecodes = true :=
  restDecodes_of_edit h (by simp [restFields, releaseClaimMutator, resetClaimTracking])

theorem task_update_releaseClaim (h : file.task = some task) :
    ∃ task', (file.update releaseClaimMutator).task = some task' ∧
      task.EditOf task' task.status none task.reviewOwner task.dependsOn := by
  have hreads := Task.parse_eq_some_iff.mp h
  refine TaskFile.task_update h none ?_ ?_
    (restDecodes_releaseClaimMutator hreads.rest) ?_ ?_ ?_ ?_ ?_
  · simp [Key.stable, releaseClaimMutator_apply]
  · refine blockDecodes_of_agree hreads.blockDecodes ?_
    rintro _ (rfl | rfl | rfl) <;> exact releaseClaimMutator_apply _ (by simp)
  · exact (Mapping.orDefault_congr (releaseClaimMutator_apply _ (by simp))).trans hreads.status
  · simp [releaseClaimMutator, resetClaimTracking, Mapping.optional]
  · simp [releaseClaimMutator, resetClaimTracking, Mapping.optional]
  · exact (Mapping.optional_congr (releaseClaimMutator_apply _ (by simp))).trans
      hreads.reviewOwner
  · exact (Mapping.orDefault_congr (releaseClaimMutator_apply _ (by simp))).trans
      hreads.dependsOn

theorem task_update_unclaim (h : file.task = some task) :
    ∃ task', (file.update unclaimMutator).task = some task' ∧
      task.EditOf task' task.status none none task.dependsOn := by
  have hreads := Task.parse_eq_some_iff.mp h
  refine TaskFile.task_update h none ?_ ?_ ?_ ?_ ?_ ?_ ?_ ?_
  · simp [Key.stable, unclaimMutator, releaseClaimMutator_apply]
  · refine blockDecodes_of_agree hreads.blockDecodes ?_
    rintro _ (rfl | rfl | rfl) <;> simp [unclaimMutator, releaseClaimMutator_apply]
  · exact restDecodes_of_agree (restDecodes_releaseClaimMutator hreads.rest)
      (by simp [restFields, unclaimMutator])
  · simpa [unclaimMutator, releaseClaimMutator_apply, Mapping.orDefault] using hreads.status
  · simp [unclaimMutator, releaseClaimMutator, resetClaimTracking, Mapping.optional]
  · simp [unclaimMutator, releaseClaimMutator, resetClaimTracking, Mapping.optional]
  · simp [unclaimMutator]
  · simpa [unclaimMutator, releaseClaimMutator_apply, Mapping.orDefault] using hreads.dependsOn

theorem task_update_reclaim (h : file.task = some task) (nextAction : String) :
    ∃ task', (file.update (reclaimMutator nextAction)).task = some task' ∧
      task.EditOf task' "todo" none none task.dependsOn := by
  have hreads := Task.parse_eq_some_iff.mp h
  refine TaskFile.task_update h none ?_ ?_ ?_ ?_ ?_ ?_ ?_ ?_
  · simp [Key.stable, reclaimMutator, setStatus, unclaimMutator, releaseClaimMutator_apply]
  · refine blockDecodes_of_agree hreads.blockDecodes ?_
    rintro _ (rfl | rfl | rfl) <;>
      simp [reclaimMutator, setStatus, unclaimMutator, releaseClaimMutator_apply]
  · refine restDecodes_of_edit (restDecodes_releaseClaimMutator hreads.rest) ?_
    simp [restFields, reclaimMutator, setStatus, unclaimMutator, Value.asString]
  · simp [reclaimMutator, setStatus, stateName, Mapping.orDefault, Value.asString]
  · simp [reclaimMutator, setStatus, unclaimMutator, releaseClaimMutator, resetClaimTracking,
      Mapping.optional]
  · simp [reclaimMutator, setStatus, unclaimMutator, releaseClaimMutator, resetClaimTracking,
      Mapping.optional]
  · simp [reclaimMutator, setStatus, unclaimMutator, Mapping.optional]
  · simpa [reclaimMutator, setStatus, unclaimMutator, releaseClaimMutator_apply,
      Mapping.orDefault] using hreads.dependsOn

theorem task_update_block (h : file.task = some task) (reason : String) :
    ∃ task', (file.update (blockMutator reason)).task = some task' ∧
      task.EditOf task' "blocked" task.claimedBy task.reviewOwner task.dependsOn := by
  refine task_update_status h (fun key hkey hblock => ?_) ?_ (blockDecodes_setBlockedReason _ _ _)
  · rw [blockMutator, setBlockedReason_apply _ _ _ hblock]
    exact Mapping.insert_of_ne _ _ hkey
  · rw [blockMutator, setBlockedReason_apply _ _ _ (by decide)]
    exact Mapping.insert_self _ _ _

theorem mem_sortedIds {ids : List Nat} {id : Nat} : id ∈ sortedIds ids ↔ id ∈ ids := by
  rw [sortedIds, List.mem_dedup, List.mem_insertionSort]

theorem asU32_eq_some_iff {value : Value} {n : Nat} :
    value.asU32 = some n ↔ value = .number n ∧ n < 2 ^ 32 := by
  cases value with
  | number k =>
    simp only [Value.asU32, Value.asUnsigned, Value.number.injEq]
    split <;> simp <;> omega
  | _ => simp [Value.asU32, Value.asUnsigned]

theorem asVec_number {ids : List Nat} (h : ∀ id ∈ ids, id < 2 ^ 32) :
    (Value.sequence (ids.map fun id : Nat => .number (id : Int))).asVec Value.asU32 = some ids := by
  induction ids with
  | nil => rfl
  | cons id ids ih =>
    have hid : (Value.number (id : Int)).asU32 = some id :=
      asU32_eq_some_iff.mpr ⟨rfl, h id List.mem_cons_self⟩
    have hids := ih fun id hmem => h id (List.mem_cons_of_mem _ hmem)
    simp only [Value.asVec] at hids ⊢
    simp only [List.map_cons, List.mapM_cons, hid, hids]
    rfl

/-- A sequence of numbers is its own list of ids. -/
theorem filterMap_of_mapM_asU32 {values : List Value} {ids : List Nat}
    (h : values.mapM Value.asU32 = some ids) :
    (values.filterMap fun value => value.asU64.map (· % 2 ^ 32)) = ids ∧
      ∀ id ∈ ids, id < 2 ^ 32 := by
  induction values generalizing ids with
  | nil =>
    obtain rfl : ids = [] := by simpa using h.symm
    simp
  | cons value values ih =>
    simp only [List.mapM_cons, Option.bind_eq_bind, Option.bind_eq_some_iff, Option.pure_def,
      Option.some.injEq] at h
    obtain ⟨id, hid, rest, hrest, rfl⟩ := h
    obtain ⟨rfl, hlt⟩ := asU32_eq_some_iff.mp hid
    obtain ⟨hids, hall⟩ := ih hrest
    have hu64 : (Value.number (id : Int)).asU64 = some id := by
      simp only [Value.asU64, Value.asUnsigned]
      rw [if_pos (by omega)]
      simp
    have hhead : (fun value : Value => value.asU64.map (· % 2 ^ 32)) (.number id) = some id := by
      show (Value.number (id : Int)).asU64.map (· % 2 ^ 32) = some id
      rw [hu64, Option.map_some, Nat.mod_eq_of_lt hlt]
    have hcons := @List.filterMap_cons_some _ _ (fun value : Value => value.asU64.map (· % 2 ^ 32))
      _ values _ hhead
    refine ⟨by rw [hcons, hids], ?_⟩
    rintro id' (_ | ⟨_, hmem⟩)
    · exact hlt
    · exact hall id' hmem

/-- What is appended to is what the task depends on. -/
theorem existingDependencies_of_reads {path body : String} {mapping : Mapping}
    (h : Task.Reads path mapping body task) :
    existingDependencies mapping = task.dependsOn ∧ ∀ id ∈ task.dependsOn, id < 2 ^ 32 := by
  have hdependsOn := h.dependsOn
  unfold Mapping.orDefault at hdependsOn
  unfold existingDependencies
  split at hdependsOn
  · rename_i hnone
    have hnil : [] = task.dependsOn := by simpa using hdependsOn
    simp [hnone, ← hnil]
  · rename_i value hvalue
    rw [hvalue]
    cases value with
    | sequence values => exact filterMap_of_mapM_asU32 hdependsOn
    | null =>
      have hnil : [] = task.dependsOn := by simpa [Value.asVec] using hdependsOn
      simp [← hnil]
    | _ => simp [Value.asVec] at hdependsOn

theorem appendDependenciesMutator_apply (ids : List Nat) (mapping : Mapping) {key : Key}
    (h : key ≠ .dependsOn) : appendDependenciesMutator ids mapping key = mapping key := by
  unfold appendDependenciesMutator
  cases sortedIds (existingDependencies mapping ++ ids) with
  | nil => exact Mapping.remove_of_ne _ h
  | cons id rest => exact Mapping.insert_of_ne _ _ h

theorem task_update_appendDependencies (h : file.task = some task) {ids : List Nat}
    (hids : ∀ id ∈ ids, id < 2 ^ 32) :
    ∃ task', (file.update (appendDependenciesMutator ids)).task = some task' ∧
      task.EditOf task' task.status task.claimedBy task.reviewOwner
        (sortedIds (task.dependsOn ++ ids)) := by
  have hreads := Task.parse_eq_some_iff.mp h
  have happly : ∀ key : Key, key ≠ .dependsOn →
      appendDependenciesMutator ids file.mapping key = file.mapping key := fun key =>
    appendDependenciesMutator_apply ids file.mapping
  refine TaskFile.task_update h _ ?_ ?_ ?_ ((Mapping.orDefault_congr (happly _ ?_)).trans
    hreads.status) ((Mapping.optional_congr (happly _ ?_)).trans hreads.claimedBy)
    ((Mapping.optional_congr (happly _ ?_)).trans hreads.claimedAt)
    ((Mapping.optional_congr (happly _ ?_)).trans hreads.reviewOwner) ?_
  · exact fun key hkey => happly key (by rintro rfl; simp [Key.stable] at hkey)
  · exact blockDecodes_of_agree hreads.blockDecodes fun key hkey =>
      happly key (by rintro rfl; simp [Key.IsBlockKey] at hkey)
  · exact restDecodes_of_agree hreads.rest fun field hfield =>
      happly _ (by revert field; simp [restFields])
  iterate 4 simp
  · have hmerged : ∀ id ∈ sortedIds (task.dependsOn ++ ids), id < 2 ^ 32 := by
      intro id hid
      rcases List.mem_append.mp (mem_sortedIds.mp hid) with hid | hid
      · exact (existingDependencies_of_reads hreads).2 id hid
      · exact hids id hid
    simp only [appendDependenciesMutator, (existingDependencies_of_reads hreads).1]
    split
    · rename_i hnil
      simp [Mapping.orDefault, hnil]
    · simp only [Mapping.orDefault, Mapping.insert_self]
      exact asVec_number hmerged

end

/-! ### Every mutator edits tasks -/

/-- An edit of the block fields edits tasks. -/
theorem editsTasks_of_block {mutator : Mapping → Mapping}
    (hagree : ∀ mapping key, ¬ key.IsBlockKey → mutator mapping key = mapping key)
    (hblock : ∀ {mapping : Mapping}, mapping.BlockDecodes → (mutator mapping).BlockDecodes) :
    EditsTasks mutator := by
  intro file task htask
  have hreads := Task.parse_eq_some_iff.mp htask
  have happly : ∀ {key : Key}, ¬ key.IsBlockKey →
      mutator file.mapping key = file.mapping key := fun hkey => hagree _ _ hkey
  refine (TaskFile.task_update htask task.claimedAt ?_ (hblock hreads.blockDecodes) ?_
    ((Mapping.orDefault_congr (happly ?_)).trans hreads.status)
    ((Mapping.optional_congr (happly ?_)).trans hreads.claimedBy)
    ((Mapping.optional_congr (happly ?_)).trans hreads.claimedAt)
    ((Mapping.optional_congr (happly ?_)).trans hreads.reviewOwner)
    ((Mapping.orDefault_congr (happly ?_)).trans hreads.dependsOn)).imp
      fun _ h => ⟨h.1, h.2.toSameBrief⟩
  · exact fun key hkey => happly (by rintro (rfl | rfl | rfl) <;> simp [Key.stable] at hkey)
  · exact restDecodes_of_agree hreads.rest fun field hfield =>
      happly (restFields_not_isBlockKey field hfield)
  iterate 5 decide

theorem editsTasks_transition (target : TaskState) : EditsTasks (transitionMutator target) :=
  fun h => (task_update_transition h target).imp fun _ h => ⟨h.1, h.2.toSameBrief⟩

theorem editsTasks_setStatus (target : TaskState) : EditsTasks (setStatus target) :=
  fun h => (task_update_setStatus h target).imp fun _ h => ⟨h.1, h.2.toSameBrief⟩

theorem editsTasks_assignOwners (now : String) (execOwner reviewOwner : Option String) :
    EditsTasks (assignOwnersMutator now execOwner reviewOwner) :=
  fun h => (task_update_assignOwners h now execOwner reviewOwner).imp fun _ h =>
    ⟨h.1, h.2.toSameBrief⟩

theorem editsTasks_releaseClaim : EditsTasks releaseClaimMutator :=
  fun h => (task_update_releaseClaim h).imp fun _ h => ⟨h.1, h.2.toSameBrief⟩

theorem editsTasks_unclaim : EditsTasks unclaimMutator :=
  fun h => (task_update_unclaim h).imp fun _ h => ⟨h.1, h.2.toSameBrief⟩

theorem editsTasks_reclaim (nextAction : String) : EditsTasks (reclaimMutator nextAction) :=
  fun h => (task_update_reclaim h nextAction).imp fun _ h => ⟨h.1, h.2.toSameBrief⟩

theorem editsTasks_block (reason : String) : EditsTasks (blockMutator reason) :=
  fun h => (task_update_block h reason).imp fun _ h => ⟨h.1, h.2.toSameBrief⟩

theorem editsTasks_appendDependencies {ids : List Nat} (hids : ∀ id ∈ ids, id < 2 ^ 32) :
    EditsTasks (appendDependenciesMutator ids) :=
  fun h => (task_update_appendDependencies h hids).imp fun _ h => ⟨h.1, h.2.toSameBrief⟩

end Batty
