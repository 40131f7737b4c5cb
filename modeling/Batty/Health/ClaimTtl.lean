import Mathlib.Data.List.Chain
import Batty.Dispatch.Daemon
import Batty.Foundation.Text

/-!
# Claims that expire

A claim on a task under way runs out after a while, unless progress is seen before that. On every
tick the daemon looks whether a check for progress is due, and if the last check was an interval
ago it checks and extends the claim; when the claim has run out the task is taken back.

What the daemon keeps is not when it last checked but when it last looked whether to check. So
a check is passed over when ticks come more often than the interval. A task is taken back only
after it was checked in time, without progress, in every run whose ticks pass over no check
(`reclaims_justified_of_onTime`), and then a claim with progress at every check is kept.

A tick that does not come to the task, as its engineer is parked or unknown or as an error ends the
tick before, is no tick here.
-/

namespace Batty

/-- For how long a claim is held without progress. -/
structure ClaimTtlPolicy where
  defaultSecs : Nat
  criticalSecs : Nat
  maxExtensions : Nat
  progressCheckIntervalSecs : Nat
  warningSecs : Nat

def ClaimTtlPolicy.ttlSecs (policy : ClaimTtlPolicy) (priority : String) : Nat :=
  if Text.toAsciiLowercase priority.toList = "critical".toList then policy.criticalSecs
  else policy.defaultSecs

/-- The fields of a claim in the task file, once they are set. -/
structure ClaimFields where
  claimTtlSecs : Nat
  claimExpiresAt : Nat
  lastProgressAt : Nat
  claimWarningSentAt : Option Nat
  claimExtensions : Nat
  lastOutputBytes : Nat

/-- A task, and when the daemon last looked whether to check it. -/
structure ClaimState where
  /-- Under way and claimed. -/
  held : Bool
  fields : Option ClaimFields
  audit : Option Nat

/-- What a tick finds. -/
structure ClaimTick where
  now : Nat
  latestCommit : Option Nat
  dirty : Bool
  outputBytes : Nat
  /-- The task file can be written. -/
  writes : Bool
  /-- There is no worktree, or it was reset to its base branch. -/
  resets : Bool

/-- What a check found that was done for a claim. -/
inductive ClaimProgress where
  | commit | dirtyFiles | output
deriving DecidableEq

/-- What a check does with a claim. -/
inductive ClaimOutcome where
  | untouched | created | extended (progress : ClaimProgress) | failed | kept | reclaimed
deriving DecidableEq

def initializeTaskClaim (ttlSecs : Nat) (tick : ClaimTick) : ClaimFields where
  claimTtlSecs := ttlSecs
  claimExpiresAt := tick.now + fromSecs ttlSecs
  lastProgressAt := tick.now
  claimWarningSentAt := none
  claimExtensions := 0
  lastOutputBytes := tick.outputBytes

def refreshTaskClaimProgress (ttlSecs extensions : Nat) (tick : ClaimTick) : ClaimFields where
  claimTtlSecs := ttlSecs
  claimExpiresAt := tick.now + fromSecs ttlSecs
  lastProgressAt := tick.now
  claimWarningSentAt := none
  claimExtensions := extensions
  lastOutputBytes := tick.outputBytes

namespace ClaimState

variable (policy : ClaimTtlPolicy) (priority : String)

def shouldCheckProgress (state : ClaimState) (now : Nat) : Bool :=
  state.audit.all fun last => fromSecs policy.progressCheckIntervalSecs ≤ now - last

def progressType (fields : ClaimFields) (tick : ClaimTick) : Option ClaimProgress :=
  if tick.latestCommit.any fun commit => decide (fields.lastProgressAt < commit) then some .commit
  else if tick.dirty then some .dirtyFiles
  else if fields.lastOutputBytes < tick.outputBytes then some .output
  else none

/-- What a tick finds if it checks. -/
def finding (state : ClaimState) (fields : ClaimFields) (tick : ClaimTick) :
    Option ClaimProgress :=
  if state.shouldCheckProgress policy tick.now then progressType fields tick else none

/-- Once the claim has run out, changed files do not extend it. -/
def extending (state : ClaimState) (fields : ClaimFields) (tick : ClaimTick) :
    Option ClaimProgress :=
  (state.finding policy fields tick).filter fun progress =>
    !(decide (fields.claimExpiresAt ≤ tick.now) && decide (progress = .dirtyFiles))

/-- The tick goes on without an extension: a warning first, and the task is taken back if its
claim has run out. -/
def letRun (state : ClaimState) (fields : ClaimFields) (tick : ClaimTick) :
    ClaimOutcome × ClaimState :=
  let state := { state with audit := some tick.now }
  let warns := decide ((fields.claimExpiresAt - tick.now) / 1000000000 ≤ policy.warningSecs) &&
    fields.claimWarningSentAt.isNone
  if warns && !tick.writes then (.failed, state)
  else
    let state := if warns then
        { state with fields := some { fields with claimWarningSentAt := some tick.now } }
      else state
    if tick.now < fields.claimExpiresAt || !tick.resets then (.kept, state)
    else if tick.writes then (.reclaimed, { state with held := false, fields := none })
    else (.failed, state)

/-- A check on a claim: it is created, extended for progress, kept or reclaimed. -/
def manageClaim (state : ClaimState) (tick : ClaimTick) : ClaimOutcome × ClaimState :=
  if !state.held then (.untouched, state)
  else
    let ttlSecs := policy.ttlSecs priority
    match state.fields with
    | none =>
      if tick.writes then
        (.created, { state with fields := some (initializeTaskClaim ttlSecs tick) })
      else (.failed, state)
    | some fields =>
      match state.extending policy fields tick with
      | some progress =>
        if tick.writes then
          let extensions := min (fields.claimExtensions + 1) policy.maxExtensions
          (.extended progress, { state with
            fields := some (refreshTaskClaimProgress ttlSecs extensions tick)
            audit := some tick.now })
        else (.failed, state)
      | none => state.letRun policy fields tick

end ClaimState

/-! ### What is known of the checks -/

/-- What has happened since the claim was last extended: when it was last checked or extended,
whether a check that was due was passed over, and whether a check found progress of any kind. -/
structure ClaimRecord where
  lastLook : Nat
  overdue : Bool
  progressed : Bool

namespace ClaimRecord

variable (policy : ClaimTtlPolicy) (priority : String)

/-- At the beginning of a run: nothing is known but the time of the last extension. -/
def opened (state : ClaimState) : ClaimRecord where
  lastLook := (state.fields.map ClaimFields.lastProgressAt).getD 0
  overdue := false
  progressed := false

/-- A check is due an interval after the last one. -/
def due (record : ClaimRecord) (now : Nat) : Bool :=
  fromSecs policy.progressCheckIntervalSecs ≤ now - record.lastLook

def next (record : ClaimRecord) (state : ClaimState) (tick : ClaimTick) : ClaimRecord :=
  match (state.manageClaim policy priority tick).1, state.fields with
  | .created, _ | .extended _, _ => { lastLook := tick.now, overdue := false, progressed := false }
  | .untouched, _ | _, none => record
  | _, some fields =>
    let checks := state.shouldCheckProgress policy tick.now
    { lastLook := if checks then tick.now else record.lastLook
      overdue := record.overdue || !checks && record.due policy tick.now
      progressed := record.progressed || (state.finding policy fields tick).isSome }

end ClaimRecord

section

variable (policy : ClaimTtlPolicy) (priority : String)

/-- Whenever a task is taken back, every check since the last extension was made when it was due,
and none of them found progress. -/
def ReclaimsJustified (record : ClaimRecord) (state : ClaimState) : List ClaimTick → Prop
  | [] => True
  | tick :: ticks =>
    let record' := record.next policy priority state tick
    ((state.manageClaim policy priority tick).1 = .reclaimed →
      record'.overdue = false ∧ record'.progressed = false) ∧
      ReclaimsJustified record' (state.manageClaim policy priority tick).2 ticks

/-- A check that is due is made, that is, the last tick was an interval ago. Progress that is found
can be written down, and is more than changed files once the claim has run out. -/
def TickOnTime (record : ClaimRecord) (state : ClaimState) (tick : ClaimTick) : Prop :=
  (state.shouldCheckProgress policy tick.now = true ∨ record.due policy tick.now = false) ∧
    ∀ fields ∈ state.fields, ∀ progress ∈ state.finding policy fields tick,
      tick.writes = true ∧ (tick.now < fields.claimExpiresAt ∨ progress ≠ .dirtyFiles)

def OnTime (record : ClaimRecord) (state : ClaimState) : List ClaimTick → Prop
  | [] => True
  | tick :: ticks =>
    (state.held = true → TickOnTime policy record state tick) ∧
      OnTime (record.next policy priority state tick)
        (state.manageClaim policy priority tick).2 ticks

/-- Every check that is made finds progress. -/
def ProgressAtChecks (state : ClaimState) : List ClaimTick → Prop
  | [] => True
  | tick :: ticks =>
    (state.shouldCheckProgress policy tick.now = true →
      ∀ fields ∈ state.fields, ClaimState.progressType fields tick ≠ none) ∧
      ProgressAtChecks (state.manageClaim policy priority tick).2 ticks

/-- The task stays with its engineer. -/
def NeverReclaimed (state : ClaimState) : List ClaimTick → Prop
  | [] => True
  | tick :: ticks =>
    (state.manageClaim policy priority tick).1 ≠ .reclaimed ∧
      NeverReclaimed (state.manageClaim policy priority tick).2 ticks

end

/-! ### One tick -/

section

variable {policy : ClaimTtlPolicy} {priority : String} {record : ClaimRecord} {state : ClaimState}
  {tick : ClaimTick} {fields : ClaimFields}

theorem letRun_outcome : (state.letRun policy fields tick).1 = .kept ∨
    (state.letRun policy fields tick).1 = .reclaimed ∨
    (state.letRun policy fields tick).1 = .failed := by
  unfold ClaimState.letRun
  dsimp only
  split
  · exact .inr (.inr rfl)
  · split
    · exact .inl rfl
    · split
      · exact .inr (.inl rfl)
      · exact .inr (.inr rfl)

/-- A tick that does not extend the claim adds to the record what it found. -/
theorem record_next_of_letRun (hheld : state.held = true) (hfields : state.fields = some fields)
    (hextending : state.extending policy fields tick = none) :
    record.next policy priority state tick =
      { lastLook := if state.shouldCheckProgress policy tick.now then tick.now else record.lastLook
        overdue := record.overdue ||
          !state.shouldCheckProgress policy tick.now && record.due policy tick.now
        progressed := record.progressed || (state.finding policy fields tick).isSome } := by
  have hmanage : state.manageClaim policy priority tick = state.letRun policy fields tick := by
    simp [ClaimState.manageClaim, hheld, hfields, hextending]
  unfold ClaimRecord.next
  rw [hmanage, hfields]
  rcases @letRun_outcome policy state tick fields with hkept | hreclaimed | hfailed
  · rw [hkept]
  · rw [hreclaimed]
  · rw [hfailed]

/-- What a tick does with a claim whose fields are set, if it extends it. -/
theorem manageClaim_of_extending (hheld : state.held = true) (hfields : state.fields = some fields)
    {progress : ClaimProgress} (hextending : state.extending policy fields tick = some progress)
    (hwrites : tick.writes = true) : state.manageClaim policy priority tick =
      (.extended progress, { state with
        fields := some (refreshTaskClaimProgress (policy.ttlSecs priority)
          (min (fields.claimExtensions + 1) policy.maxExtensions) tick)
        audit := some tick.now }) := by
  simp [ClaimState.manageClaim, hheld, hfields, hextending, hwrites]

/-- What a tick on time finds extends the claim. -/
theorem extending_eq_finding (h : ∀ progress ∈ state.finding policy fields tick,
      tick.writes = true ∧ (tick.now < fields.claimExpiresAt ∨ progress ≠ .dirtyFiles)) :
    state.extending policy fields tick = state.finding policy fields tick := by
  rw [ClaimState.extending]
  cases hfinding : state.finding policy fields tick with
  | none => rfl
  | some progress =>
    rcases (h progress hfinding).2 with hlt | hne
    · simp [hlt]
    · simp [hne]

theorem record_next_of_created (hcreated : (state.manageClaim policy priority tick).1 = .created) :
    record.next policy priority state tick =
      { lastLook := tick.now, overdue := false, progressed := false } := by
  simp [ClaimRecord.next, hcreated]

/-- **One tick.** A tick on time passes over nothing and misses nothing. -/
theorem record_next_clean (hoverdue : record.overdue = false)
    (hprogressed : record.progressed = false)
    (h : state.held = true → TickOnTime policy record state tick) :
    (record.next policy priority state tick).overdue = false ∧
      (record.next policy priority state tick).progressed = false := by
  cases hheld : state.held with
  | false =>
    have huntouched : state.manageClaim policy priority tick = (.untouched, state) := by
      simp [ClaimState.manageClaim, hheld]
    simp [ClaimRecord.next, huntouched, hoverdue, hprogressed]
  | true =>
    obtain ⟨hdue, hfound⟩ := h hheld
    cases hfields : state.fields with
    | none =>
      by_cases hwritten : tick.writes = true
      · simp [ClaimRecord.next, ClaimState.manageClaim, hheld, hfields, hwritten]
      · simp [ClaimRecord.next, ClaimState.manageClaim, hheld, hfields, hwritten, hoverdue,
          hprogressed]
    | some fields =>
      have hextends := extending_eq_finding (hfound fields hfields)
      cases hextending : state.extending policy fields tick with
      | none =>
        rw [record_next_of_letRun hheld hfields hextending, hoverdue, hprogressed,
          ← hextends, hextending]
        refine ⟨?_, rfl⟩
        rcases hdue with hchecks | hnotDue
        · simp [hchecks]
        · simp [hnotDue]
      | some progress =>
        have hwritten : tick.writes = true :=
          (hfound fields hfields progress (hextends ▸ hextending)).1
        simp [ClaimRecord.next, manageClaim_of_extending hheld hfields hextending hwritten]

end

/-! ### Runs -/

section

variable {policy : ClaimTtlPolicy} {priority : String} {record : ClaimRecord} {state : ClaimState}

theorem reclaimsJustified_of_onTime {ticks : List ClaimTick} (hoverdue : record.overdue = false)
    (hprogressed : record.progressed = false) (h : OnTime policy priority record state ticks) :
    ReclaimsJustified policy priority record state ticks := by
  induction ticks generalizing record state with
  | nil => trivial
  | cons tick ticks ih =>
    obtain ⟨htick, hticks⟩ := h
    obtain ⟨hoverdue, hprogressed⟩ :=
      @record_next_clean policy priority _ _ _ hoverdue hprogressed htick
    exact ⟨fun _ => ⟨hoverdue, hprogressed⟩, ih hoverdue hprogressed hticks⟩

/-- The claim runs out a whole span after the last check. -/
structure RunsFromLook (policy : ClaimTtlPolicy) (priority : String) (record : ClaimRecord)
    (state : ClaimState) : Prop where
  held : state.held = true
  expires : ∀ fields ∈ state.fields,
    fields.claimExpiresAt = record.lastLook + fromSecs (policy.ttlSecs priority)

/-- A claim that has not run out is not taken back. -/
theorem letRun_of_lt {fields : ClaimFields} {tick : ClaimTick}
    (hlt : tick.now < fields.claimExpiresAt) (hfields : state.fields = some fields) :
    (state.letRun policy fields tick).1 ≠ .reclaimed ∧
      (state.letRun policy fields tick).2.held = state.held ∧
      ∀ fields' ∈ (state.letRun policy fields tick).2.fields,
        fields'.claimExpiresAt = fields.claimExpiresAt := by
  unfold ClaimState.letRun
  dsimp only
  split
  · simp [hfields]
  · rw [if_pos (by simp [hlt])]
    split <;> simp [hfields]

/-- **One tick with progress.** It comes before the claim runs out, and then so does the next. -/
theorem runsFromLook_next {gap : Nat} (hroom : fromSecs policy.progressCheckIntervalSecs + gap <
      fromSecs (policy.ttlSecs priority)) {tick : ClaimTick}
    (hruns : RunsFromLook policy priority record state)
    (htime : state.fields.isSome = true →
      tick.now ≤ record.lastLook + fromSecs policy.progressCheckIntervalSecs + gap)
    (honTime : TickOnTime policy record state tick)
    (hprogress : state.shouldCheckProgress policy tick.now = true →
      ∀ fields ∈ state.fields, ClaimState.progressType fields tick ≠ none) :
    (state.manageClaim policy priority tick).1 ≠ .reclaimed ∧
      RunsFromLook policy priority (record.next policy priority state tick)
        (state.manageClaim policy priority tick).2 ∧
      ((state.manageClaim policy priority tick).2.fields.isSome = true →
        tick.now ≤ (record.next policy priority state tick).lastLook +
          fromSecs policy.progressCheckIntervalSecs) := by
  obtain ⟨hheld, hexpires⟩ := hruns
  obtain ⟨hdue, hfound⟩ := honTime
  cases hfields : state.fields with
  | none =>
    by_cases hwritten : tick.writes = true
    · have hmanage : state.manageClaim policy priority tick = (.created, { state with
          fields := some (initializeTaskClaim (policy.ttlSecs priority) tick) }) := by
        simp [ClaimState.manageClaim, hheld, hfields, hwritten]
      have hrecord := @record_next_of_created policy priority record state tick (by rw [hmanage])
      rw [hrecord, hmanage]
      exact ⟨by simp, ⟨hheld, by simp [initializeTaskClaim]⟩, fun _ => Nat.le_add_right _ _⟩
    · have hmanage : state.manageClaim policy priority tick = (.failed, state) := by
        simp [ClaimState.manageClaim, hheld, hfields, hwritten]
      rw [hmanage]
      exact ⟨by simp, ⟨hheld, by simp [hfields]⟩, by simp [hfields]⟩
  | some fields =>
    have hexpiry := hexpires fields hfields
    have hnow := htime (by simp [hfields])
    have hlt : tick.now < fields.claimExpiresAt := by omega
    cases hchecks : state.shouldCheckProgress policy tick.now with
    | true =>
      -- what the check finds extends the claim, as it has not run out yet
      obtain ⟨progress, hsome⟩ := Option.ne_none_iff_exists'.mp (hprogress hchecks fields hfields)
      have hfinding : state.finding policy fields tick = some progress := by
        rw [ClaimState.finding, if_pos hchecks, hsome]
      have hextending : state.extending policy fields tick = some progress :=
        (extending_eq_finding (hfound fields hfields)).trans hfinding
      have hwritten : tick.writes = true := (hfound fields hfields progress hfinding).1
      have hmanage := @manageClaim_of_extending policy priority _ _ _ hheld hfields _ hextending
        hwritten
      have hrecord : record.next policy priority state tick =
          { lastLook := tick.now, overdue := false, progressed := false } := by
        simp [ClaimRecord.next, hmanage]
      rw [hrecord, hmanage]
      exact ⟨by simp, ⟨hheld, by simp [refreshTaskClaimProgress]⟩, fun _ => Nat.le_add_right _ _⟩
    | false =>
      have hextending : state.extending policy fields tick = none := by
        rw [ClaimState.extending, ClaimState.finding, hchecks, if_neg Bool.false_ne_true,
          Option.filter_none]
      have hmanage : state.manageClaim policy priority tick = state.letRun policy fields tick := by
        simp [ClaimState.manageClaim, hheld, hfields, hextending]
      have hnotDue : record.due policy tick.now = false := hdue.resolve_left (by simp [hchecks])
      obtain ⟨hnot, hheld', hfields'⟩ := @letRun_of_lt policy _ _ _ hlt hfields
      rw [record_next_of_letRun hheld hfields hextending, hmanage, hchecks,
        if_neg Bool.false_ne_true]
      refine ⟨hnot, ⟨hheld'.trans hheld, fun fields'' hmem => ?_⟩, fun _ => ?_⟩
      · exact (hfields' fields'' hmem).trans hexpiry
      · simp only [ClaimRecord.due, decide_eq_false_iff_not, not_le] at hnotDue
        show tick.now ≤ record.lastLook + fromSecs policy.progressCheckIntervalSecs
        omega

theorem neverReclaimed_of_onTime {gap : Nat} (hroom : fromSecs policy.progressCheckIntervalSecs +
      gap < fromSecs (policy.ttlSecs priority)) {ticks : List ClaimTick}
    (hruns : RunsFromLook policy priority record state)
    (hfirst : ∀ tick ∈ ticks.head?, state.fields.isSome = true →
      tick.now ≤ record.lastLook + fromSecs policy.progressCheckIntervalSecs + gap)
    (hgaps : (ticks.map ClaimTick.now).IsChain fun before after => after ≤ before + gap)
    (honTime : OnTime policy priority record state ticks)
    (hprogress : ProgressAtChecks policy priority state ticks) :
    NeverReclaimed policy priority state ticks := by
  induction ticks generalizing record state with
  | nil => trivial
  | cons tick ticks ih =>
    obtain ⟨hontick, honTime⟩ := honTime
    obtain ⟨hchecked, hprogress⟩ := hprogress
    obtain ⟨hnot, hruns', hnow⟩ := runsFromLook_next hroom hruns (hfirst tick rfl)
      (hontick hruns.held) hchecked
    refine ⟨hnot, ih hruns' (fun tick' hmem hsome => ?_) hgaps.tail honTime hprogress⟩
    cases ticks with
    | nil => cases hmem
    | cons next ticks =>
      obtain rfl := Option.some.inj hmem
      have hgap : next.now ≤ tick.now + gap := by
        simp only [List.map_cons, List.isChain_cons_cons] at hgaps
        exact hgaps.1
      have hle := hnow hsome
      omega

end

/-- **Expiring claims.** In a run that passes over no check, a task is taken back only if every
check since the last extension was made in time and found no progress. So a claim whose checks all
find progress is kept, if it lasts for longer than an interval and the time between two ticks. -/
theorem reclaims_justified_of_onTime (policy : ClaimTtlPolicy) (priority : String)
    (state : ClaimState) (ticks : List ClaimTick)
    (honTime : OnTime policy priority (.opened state) state ticks) :
    ReclaimsJustified policy priority (.opened state) state ticks ∧
      (state.held = true → state.fields = none → ∀ gap,
        fromSecs policy.progressCheckIntervalSecs + gap < fromSecs (policy.ttlSecs priority) →
        ((ticks.map ClaimTick.now).IsChain fun before after => after ≤ before + gap) →
        ProgressAtChecks policy priority state ticks →
          NeverReclaimed policy priority state ticks) := by
  refine ⟨reclaimsJustified_of_onTime rfl rfl honTime, fun hheld hfresh gap hroom hgaps => ?_⟩
  refine neverReclaimed_of_onTime hroom ⟨hheld, by simp [hfresh]⟩ ?_ hgaps honTime
  simp [hfresh]

/-! ### Dense ticks -/

section

variable (policy : ClaimTtlPolicy) (priority : String)

instance decidableReclaimsJustified : ∀ (record : ClaimRecord) (state : ClaimState)
    (ticks : List ClaimTick), Decidable (ReclaimsJustified policy priority record state ticks)
  | _, _, [] => inferInstanceAs (Decidable True)
  | record, state, tick :: ticks =>
    haveI := decidableReclaimsJustified (record.next policy priority state tick)
      (state.manageClaim policy priority tick).2 ticks
    inferInstanceAs (Decidable (_ ∧ _))

instance (record : ClaimRecord) (state : ClaimState) (tick : ClaimTick) :
    Decidable (TickOnTime policy record state tick) :=
  inferInstanceAs (Decidable (_ ∧ _))

instance decidableOnTime : ∀ (record : ClaimRecord) (state : ClaimState)
    (ticks : List ClaimTick), Decidable (OnTime policy priority record state ticks)
  | _, _, [] => inferInstanceAs (Decidable True)
  | record, state, tick :: ticks =>
    haveI := decidableOnTime (record.next policy priority state tick)
      (state.manageClaim policy priority tick).2 ticks
    inferInstanceAs (Decidable (_ ∧ _))

end

def defaultClaimTtl : ClaimTtlPolicy where
  defaultSecs := 1800
  criticalSecs := 900
  maxExtensions := 2
  progressCheckIntervalSecs := 120
  warningSecs := 300

def freshlyClaimed : ClaimState where
  held := true
  fields := none
  audit := none

/-- The engineer has written a line more on every tick. -/
def busyTicks (everySecs count : Nat) : List ClaimTick :=
  (List.range count).map fun index =>
    { now := fromSecs (everySecs * index), latestCommit := none, dirty := false,
      outputBytes := 80 * index, writes := true, resets := true }

/-- Twenty checks, one every interval. -/
theorem reclaims_justified_everyInterval :
    ReclaimsJustified defaultClaimTtl "high" (.opened freshlyClaimed) freshlyClaimed
      (busyTicks 120 20) :=
  (reclaims_justified_of_onTime defaultClaimTtl "high" freshlyClaimed (busyTicks 120 20)
    (by decide)).1

/-- With a tick every minute and a check every two minutes, the claim is checked once, a minute
after it was made, and then never again. -/
theorem not_reclaims_justified : ¬ ∀ (policy : ClaimTtlPolicy) (priority : String)
    (state : ClaimState) (ticks : List ClaimTick),
    (ticks.map ClaimTick.now).IsChain (· ≤ ·) →
      ReclaimsJustified policy priority (.opened state) state ticks := by
  intro h
  have hbusy := h defaultClaimTtl "critical" freshlyClaimed (busyTicks 60 17) (by decide)
  revert hbusy
  decide

end Batty
