import Batty.Foundation.Runs
import Batty.Health.Interventions

/-!
# Members who are idle on their tasks

A member who is idle and still has open tasks is asked to go on. When it has the same tasks in the
same states for long after that, its manager is told that it has been idle all the while.

How long is counted from when the member was asked; but a member who is at work is passed over
before anything is noted, and the manager is told of an hour's idleness though the member has worked
most of it (`not_truthful_busy`). What is said is true if nobody is found at work between being asked
and being reported (`truthful_of_minds`); and nobody is asked or reported twice in any case.
-/

namespace Batty

/-- What can be seen of a worktree. -/
structure WorktreeLook where
  currentBranch : Option String
  hasUserChanges : Bool
  commitsAheadOfMain : Nat

/-- What a pass over idle members with tasks sees. -/
structure OwnedTaskLook extends TeamLook where
  ownedTaskInterventionsEnabled : Bool := true
  nudgeDisabled : Bool := false
  paneMembers : List String
  nodup : paneMembers.Nodup
  escalationThresholdSecs : Nat := 3600
  interventionCooldownSecs : Nat := 120
  worktrees : String → Option WorktreeLook := fun _ => none

/-- What has been found and done, in order: a member was seen at work, was asked to go on, or was
reported to its manager with what was said of it and the threshold for that. -/
inductive Finding where
  | busy (member : String) (time : Nat)
  | nudged (member signature : String) (time : Nat)
  | escalated (member manager : String) (stuckAgeSecs thresholdSecs time : Nat)

def Finding.isNudge (name : String) : Finding → Bool
  | .nudged member _ _ => member = name
  | _ => false

def Finding.isEscalation (name : String) : Finding → Bool
  | .escalated member _ _ _ _ => member = name
  | _ => false

/-- What is said of a member in a report is not at odds with an earlier finding. -/
def Finding.Allows : Finding → Finding → Prop
  | .busy member seenAt, .escalated member' _ secs _ time =>
    member = member' → seenAt + fromSecs secs ≤ time
  | _, _ => True

/-- The memory of these passes, with all their findings. -/
structure OwnedTaskWatch where
  ownedTaskInterventions : String → Option OwnedTaskInterventionState := fun _ => none
  interventionCooldowns : String → Option Nat := fun _ => none
  findings : List Finding := []

namespace OwnedTaskWatch

def find (watch : OwnedTaskWatch) (finding : Finding) : OwnedTaskWatch :=
  { watch with findings := watch.findings ++ [finding] }

def setEntry (watch : OwnedTaskWatch) (name : String)
    (entry : Option OwnedTaskInterventionState) : OwnedTaskWatch :=
  { watch with
    ownedTaskInterventions := Function.update watch.ownedTaskInterventions name entry }

end OwnedTaskWatch

def ownedTaskInterventionSignature (tasks : List Task) : String :=
  "|".intercalate ((tasks.map fun task => s!"{task.id}:{task.status}").insertionSort (· ≤ ·))

def ownedTasks (tasks : List Task) (name : String) : List Task :=
  tasks.filter fun task => task.isOwnedBy name

namespace OwnedTaskLook

variable (look : OwnedTaskLook)

def member? (name : String) : Option MemberInstance :=
  look.members.find? fun member => member.name = name

def memberHasLocalTaskProgress (name : String) (ownedTasks : List Task) : Bool :=
  (look.worktrees name).any fun worktree =>
    (worktree.currentBranch.any fun branch => ownedTasks.any fun task => task.branch = some branch) &&
      (worktree.hasUserChanges || 0 < worktree.commitsAheadOfMain)

/-- The seconds since the member was asked. -/
def stuckAgeSecs (entry : OwnedTaskInterventionState) (turn : Nat) : Nat :=
  (look.checkedAt turn - entry.detectedAt) / fromSecs 1

def shouldEscalate (entry : OwnedTaskInterventionState) (turn : Nat) : Bool :=
  !entry.escalationSent && look.escalationThresholdSecs ≤ look.stuckAgeSecs entry turn

/-- The tasks are those that the member was asked about. -/
def escalate (watch : OwnedTaskWatch) (member : MemberInstance) (turn : Nat)
    (entry : OwnedTaskInterventionState) : OwnedTaskWatch :=
  let name := member.name
  let entry := { entry with idleEpoch := (look.triageIdleEpochs name).getD 0 }
  let watch := watch.setEntry name (some entry)
  if !look.shouldEscalate entry turn then watch
  else
    match member.reportsTo with
    | none => watch.setEntry name (some { entry with escalationSent := true })
    | some parent =>
      match look.deliver turn with
      | .error _ => watch
      | .ok _ =>
        (watch.setEntry name (some { entry with escalationSent := true })).find
          (.escalated name parent (look.stuckAgeSecs entry turn) look.escalationThresholdSecs
            (look.deliveredAt turn))

def onCooldown (watch : OwnedTaskWatch) (turn : Nat) (name : String) : Bool :=
  (watch.interventionCooldowns name).any fun firedAt =>
    decide (look.checkedAt turn - firedAt < fromSecs look.interventionCooldownSecs)

/-- The tasks are others, or the member was not asked yet. -/
def nudge (watch : OwnedTaskWatch) (name : String) (turn : Nat) (signature : String) :
    OwnedTaskWatch :=
  if look.onCooldown watch turn name then watch
  else if !look.readyForIdleAutomation turn name then watch
  else
    match look.deliver turn with
    | .error _ => watch
    | .ok _ =>
      { (watch.setEntry name (some
          { idleEpoch := (look.triageIdleEpochs name).getD 0
            signature
            detectedAt := look.firedAt turn
            escalationSent := false })).find (.nudged name signature (look.deliveredAt turn)) with
        interventionCooldowns :=
          Function.update watch.interventionCooldowns name (some (look.firedAt turn)) }

/-- One turn of the loop over the members that have a pane. -/
def intervene (tasks : List Task) (watch : OwnedTaskWatch) (turn : String × Nat) :
    OwnedTaskWatch :=
  match look.member? turn.1 with
  | none => watch
  | some member =>
    if !look.isMemberIdle turn.1 then watch.find (.busy turn.1 (look.checkedAt turn.2))
    else
      let owned := ownedTasks tasks turn.1
      if owned.isEmpty then watch.setEntry turn.1 none
      else if look.memberHasLocalTaskProgress turn.1 owned then
        (watch.setEntry turn.1 none).find (.busy turn.1 (look.checkedAt turn.2))
      else
        let signature := ownedTaskInterventionSignature owned
        match watch.ownedTaskInterventions turn.1 with
        | some entry =>
          if entry.signature = signature then look.escalate watch member turn.2 entry
          else look.nudge watch turn.1 turn.2 signature
        | none => look.nudge watch turn.1 turn.2 signature

/-- The board as the tick reads it, if it looks at all. -/
def board? : Option (List Task) :=
  if !look.ownedTaskInterventionsEnabled || look.paused || look.nudgeDisabled then none
  else look.tasks.toOption

end OwnedTaskLook

def OwnedTaskWatch.maybeInterveneOwnedTasks (watch : OwnedTaskWatch) (look : OwnedTaskLook) :
    OwnedTaskWatch :=
  match look.board? with
  | none => watch
  | some tasks => look.paneMembers.zipIdx.foldl (look.intervene tasks) watch

/-! ### What is to hold -/

namespace OwnedTaskWatch

/-- What a manager is told is true: the member has been idle for at least the threshold, and in all
the time that is named no tick has seen it at work. -/
def Truthful (watch : OwnedTaskWatch) : Prop :=
  watch.findings.Pairwise Finding.Allows ∧ ∀ member manager secs threshold time,
    Finding.escalated member manager secs threshold time ∈ watch.findings → threshold ≤ secs

def nudges (watch : OwnedTaskWatch) (name : String) : Nat :=
  watch.findings.countP (Finding.isNudge name)

def escalations (watch : OwnedTaskWatch) (name : String) : Nat :=
  watch.findings.countP (Finding.isEscalation name)

end OwnedTaskWatch

namespace OwnedTaskLook

/-- The tick, if it looks, finds a member with the same tasks in the same states as before, and does
not forget that it was asked about them. -/
def Keeps (look : OwnedTaskLook) (name signature : String) : Prop :=
  ∀ tasks, look.board? = some tasks →
    ownedTaskInterventionSignature (ownedTasks tasks name) = signature ∧
      (look.isMemberIdle name = true → ownedTasks tasks name ≠ [] ∧
        look.memberHasLocalTaskProgress name (ownedTasks tasks name) = false)

/-- The member is to be reported, and is: it is idle on the tasks that it was asked about and has
been asked long enough ago, and it has a manager who can be told. -/
structure Due (look : OwnedTaskLook) (tasks : List Task) (watch : OwnedTaskWatch) (name : String)
    (turn : Nat) (entry : OwnedTaskInterventionState) : Prop where
  idle : look.isMemberIdle name = true
  stuck : look.memberHasLocalTaskProgress name (ownedTasks tasks name) = false
  asked : watch.ownedTaskInterventions name = some entry
  same : entry.signature = ownedTaskInterventionSignature (ownedTasks tasks name)
  due : look.shouldEscalate entry turn = true
  managed : ((look.member? name).bind MemberInstance.reportsTo).isSome = true
  delivers : (look.deliver turn).isOk = true

/-- Who is to be reported has not been seen at work since it was asked. -/
def Minds (watch : OwnedTaskWatch) (look : OwnedTaskLook) : Prop :=
  ∀ tasks, look.board? = some tasks → ∀ name turn, (name, turn) ∈ look.paneMembers.zipIdx →
    ∀ entry, look.Due tasks watch name turn entry →
      ∀ seenAt, Finding.busy name seenAt ∈ watch.findings → seenAt ≤ entry.detectedAt

/-! ### What a turn does -/

/-- What a turn can come to. -/
inductive Intervenes (look : OwnedTaskLook) (tasks : List Task) (watch : OwnedTaskWatch)
    (name : String) (turn : Nat) : OwnedTaskWatch → Prop
  | quiet : Intervenes look tasks watch name turn watch
  | busy (hbusy : look.isMemberIdle name = false) :
    Intervenes look tasks watch name turn (watch.find (.busy name (look.checkedAt turn)))
  | cleared (hidle : look.isMemberIdle name = true) (hnone : ownedTasks tasks name = []) :
    Intervenes look tasks watch name turn (watch.setEntry name none)
  | progressed (hidle : look.isMemberIdle name = true)
    (hprogress : look.memberHasLocalTaskProgress name (ownedTasks tasks name) = true) :
    Intervenes look tasks watch name turn
      ((watch.setEntry name none).find (.busy name (look.checkedAt turn)))
  | kept (entry next : OwnedTaskInterventionState)
    (hentry : watch.ownedTaskInterventions name = some entry)
    (hdetected : next.detectedAt = entry.detectedAt)
    (hsignature : next.signature = entry.signature)
    (hsent : entry.escalationSent = true → next.escalationSent = true) :
    Intervenes look tasks watch name turn (watch.setEntry name (some next))
  | escalated (entry next : OwnedTaskInterventionState) (manager : String)
    (hdue : look.Due tasks watch name turn entry)
    (hdetected : next.detectedAt = entry.detectedAt)
    (hsignature : next.signature = entry.signature) (hsent : next.escalationSent = true) :
    Intervenes look tasks watch name turn ((watch.setEntry name (some next)).find
      (.escalated name manager (look.stuckAgeSecs entry turn) look.escalationThresholdSecs
        (look.deliveredAt turn)))
  | nudged (next : OwnedTaskInterventionState) (cooldowns : String → Option Nat)
    (hnew : ∀ entry, watch.ownedTaskInterventions name = some entry →
      entry.signature ≠ ownedTaskInterventionSignature (ownedTasks tasks name))
    (hdetected : next.detectedAt = look.firedAt turn)
    (hsignature : next.signature = ownedTaskInterventionSignature (ownedTasks tasks name))
    (hsent : next.escalationSent = false) :
    Intervenes look tasks watch name turn
      { (watch.setEntry name (some next)).find
          (.nudged name (ownedTaskInterventionSignature (ownedTasks tasks name))
            (look.deliveredAt turn)) with
        interventionCooldowns := cooldowns }

section

variable {look : OwnedTaskLook} {tasks : List Task} {watch next : OwnedTaskWatch} {name : String}
  {turn : Nat}

theorem intervenes_nudge (hnew : ∀ entry, watch.ownedTaskInterventions name = some entry →
      entry.signature ≠ ownedTaskInterventionSignature (ownedTasks tasks name)) :
    look.Intervenes tasks watch name turn
      (look.nudge watch name turn (ownedTaskInterventionSignature (ownedTasks tasks name))) := by
  unfold nudge
  split
  · exact .quiet
  · split
    · exact .quiet
    · cases look.deliver turn with
      | error error => exact .quiet
      | ok _ => exact .nudged _ _ hnew rfl rfl rfl

theorem intervenes_escalate {member : MemberInstance} {entry : OwnedTaskInterventionState}
    (hmember : look.member? name = some member) (hname : member.name = name)
    (hidle : look.isMemberIdle name = true)
    (hstuck : look.memberHasLocalTaskProgress name (ownedTasks tasks name) = false)
    (hentry : watch.ownedTaskInterventions name = some entry)
    (hsame : entry.signature = ownedTaskInterventionSignature (ownedTasks tasks name)) :
    look.Intervenes tasks watch name turn (look.escalate watch member turn entry) := by
  subst hname
  have htwice : ∀ first second : Option OwnedTaskInterventionState,
      (watch.setEntry member.name first).setEntry member.name second =
        watch.setEntry member.name second := fun first second => by
    simp [OwnedTaskWatch.setEntry]
  unfold escalate
  dsimp only
  rw [htwice]
  split
  · exact .kept entry _ hentry rfl rfl id
  · rename_i hnot
    have hdue : ¬ (!look.shouldEscalate entry turn) = true := hnot
    cases hparent : member.reportsTo with
    | none => exact .kept entry _ hentry rfl rfl fun _ => rfl
    | some parent =>
      cases hdeliver : look.deliver turn with
      | error error => exact .kept entry _ hentry rfl rfl id
      | ok _ =>
        refine .escalated entry _ parent
          ⟨hidle, hstuck, hentry, hsame, ?_, ?_, by rw [hdeliver]; rfl⟩ rfl rfl rfl
        · simpa only [Bool.not_eq_true', Bool.not_eq_false] using hdue
        · rw [hmember, Option.bind_some, hparent]
          rfl

/-- **A turn** of the loop. -/
theorem intervenes_intervene (look : OwnedTaskLook) (tasks : List Task) (watch : OwnedTaskWatch)
    (name : String) (turn : Nat) :
    look.Intervenes tasks watch name turn (look.intervene tasks watch (name, turn)) := by
  unfold intervene
  cases hmember : look.member? name with
  | none => exact .quiet
  | some member =>
    have hname : member.name = name := by
      simpa using List.find?_some hmember
    dsimp only
    cases hidle : look.isMemberIdle name with
    | false => exact .busy hidle
    | true =>
      rw [Bool.not_true, if_neg Bool.false_ne_true]
      -- From here on the member is idle; the checks come in the order of the loop.
      by_cases hnone : (ownedTasks tasks name).isEmpty = true
      · rw [if_pos hnone]
        exact .cleared hidle (List.isEmpty_iff.mp hnone)
      rw [if_neg hnone]
      by_cases hprogress : look.memberHasLocalTaskProgress name (ownedTasks tasks name) = true
      · rw [if_pos hprogress]
        exact .progressed hidle hprogress
      rw [if_neg hprogress]
      cases hentry : watch.ownedTaskInterventions name with
      | none =>
        exact intervenes_nudge fun entry hsome => absurd (hentry.symm.trans hsome) (by simp)
      | some entry =>
        dsimp only
        split
        · exact intervenes_escalate hmember hname hidle (Bool.eq_false_of_not_eq_true hprogress) hentry ‹_›
        · refine intervenes_nudge fun other hother => ?_
          obtain rfl := Option.some.inj (hentry.symm.trans hother)
          assumption

end

end OwnedTaskLook

/-! ### Asking and reporting once -/

namespace OwnedTaskWatch

/-- How often a member with this entry can still be asked about what it is asked about. -/
def nudgesLeft (entry : Option OwnedTaskInterventionState) (signature : String) : Nat :=
  if entry.any fun entry => entry.signature = signature then 0 else 1

def escalationsLeft (entry : Option OwnedTaskInterventionState) (signature : String) : Nat :=
  if entry.any fun entry => entry.signature = signature && entry.escalationSent then 0 else 1

/-- What is asked and reported was left to be. -/
structure Spends (watch : OwnedTaskWatch) (name signature : String) (next : OwnedTaskWatch) :
    Prop where
  asks : next.nudges name + nudgesLeft (next.ownedTaskInterventions name) signature ≤
    watch.nudges name + nudgesLeft (watch.ownedTaskInterventions name) signature
  reports : next.escalations name + escalationsLeft (next.ownedTaskInterventions name) signature ≤
    watch.escalations name + escalationsLeft (watch.ownedTaskInterventions name) signature

section

variable {watch middle next : OwnedTaskWatch} {look : OwnedTaskLook} {tasks : List Task}
  {name signature : String} {turn : Nat}

theorem Spends.refl : watch.Spends name signature watch := ⟨le_rfl, le_rfl⟩

theorem Spends.trans (h : watch.Spends name signature middle)
    (h' : middle.Spends name signature next) : watch.Spends name signature next :=
  ⟨h'.asks.trans h.asks, h'.reports.trans h.reports⟩

theorem nudges_append (watch : OwnedTaskWatch) {finding : Finding}
    (h : next.findings = watch.findings ++ [finding]) :
    next.nudges name = watch.nudges name + if finding.isNudge name then 1 else 0 := by
  rw [nudges, h, List.countP_append, List.countP_singleton]
  rfl

theorem escalations_append (watch : OwnedTaskWatch) {finding : Finding}
    (h : next.findings = watch.findings ++ [finding]) :
    next.escalations name = watch.escalations name + if finding.isEscalation name then 1 else 0 := by
  rw [escalations, h, List.countP_append, List.countP_singleton]
  rfl

theorem entry_setEntry_self (watch : OwnedTaskWatch) (name : String)
    (entry : Option OwnedTaskInterventionState) :
    (watch.setEntry name entry).ownedTaskInterventions name = entry := Function.update_self _ _ _

theorem entry_setEntry_of_ne (watch : OwnedTaskWatch) {other : String} (hne : name ≠ other)
    (entry : Option OwnedTaskInterventionState) :
    (watch.setEntry other entry).ownedTaskInterventions name = watch.ownedTaskInterventions name :=
  Function.update_of_ne hne _ _

/-- A new entry that leaves no more to be asked or reported. -/
theorem Spends.of_entry {entry : Option OwnedTaskInterventionState}
    (h : next.findings = watch.findings) (hentry : next.ownedTaskInterventions name = entry)
    (hasks : nudgesLeft entry signature ≤
      nudgesLeft (watch.ownedTaskInterventions name) signature)
    (hreports : escalationsLeft entry signature ≤
      escalationsLeft (watch.ownedTaskInterventions name) signature) :
    watch.Spends name signature next := by
  subst hentry
  constructor
  · rw [nudges, h]
    exact Nat.add_le_add_left hasks _
  · rw [escalations, h]
    exact Nat.add_le_add_left hreports _

/-- A finding that is paid for with what the new entry does not leave any more. -/
theorem Spends.of_paid {finding : Finding} {entry : Option OwnedTaskInterventionState}
    (h : next.findings = watch.findings ++ [finding])
    (hentry : next.ownedTaskInterventions name = entry)
    (hasks : (if finding.isNudge name then 1 else 0) + nudgesLeft entry signature ≤
      nudgesLeft (watch.ownedTaskInterventions name) signature)
    (hreports : (if finding.isEscalation name then 1 else 0) + escalationsLeft entry signature ≤
      escalationsLeft (watch.ownedTaskInterventions name) signature) :
    watch.Spends name signature next := by
  subst hentry
  constructor
  · rw [nudges_append watch h, Nat.add_assoc]
    exact Nat.add_le_add_left hasks _
  · rw [escalations_append watch h, Nat.add_assoc]
    exact Nat.add_le_add_left hreports _

theorem Spends.of_same (h : next.findings = watch.findings)
    (hentry : next.ownedTaskInterventions name = watch.ownedTaskInterventions name) :
    watch.Spends name signature next := .of_entry h hentry le_rfl le_rfl

/-- What is neither an asking nor a reporting of the member. -/
theorem Spends.of_find {finding : Finding} (h : next.findings = watch.findings ++ [finding])
    (hentry : next.ownedTaskInterventions name = watch.ownedTaskInterventions name)
    (hnudge : finding.isNudge name = false) (hescalation : finding.isEscalation name = false) :
    watch.Spends name signature next :=
  .of_paid h hentry (by simp [hnudge]) (by simp [hescalation])

/-- A turn of another member is nothing for this one. -/
theorem spends_of_ne {other : String} (hne : name ≠ other)
    (h : look.Intervenes tasks watch other turn next) : watch.Spends name signature next := by
  have hother := watch.entry_setEntry_of_ne hne
  cases h with
  | quiet => exact .refl
  | busy => exact .of_find rfl rfl rfl rfl
  | cleared => exact .of_same rfl (hother _)
  | progressed => exact .of_find rfl (hother _) rfl rfl
  | kept => exact .of_same rfl (hother _)
  | escalated => exact .of_find rfl (hother _) rfl (decide_eq_false hne.symm)
  | nudged => exact .of_find rfl (hother _) (decide_eq_false hne.symm) rfl

/-- **A turn** in which the tasks are the same as before: an asking is spent when the entry is made,
a reporting when it is marked. -/
theorem spends_of_keeps
    (hsignature : ownedTaskInterventionSignature (ownedTasks tasks name) = signature)
    (hkeeps : look.isMemberIdle name = true → ownedTasks tasks name ≠ [] ∧
      look.memberHasLocalTaskProgress name (ownedTasks tasks name) = false)
    (h : look.Intervenes tasks watch name turn next) : watch.Spends name signature next := by
  have hself := watch.entry_setEntry_self name
  cases h with
  | quiet => exact .refl
  | busy hbusy => exact .of_find rfl rfl rfl rfl
  | cleared hidle hnone => exact absurd hnone (hkeeps hidle).1
  | progressed hidle hprogress =>
    rw [(hkeeps hidle).2] at hprogress
    cases hprogress
  | kept entry next hentry hdetected hnext hsent =>
    refine .of_entry rfl (hself _) ?_ ?_
    · rw [hentry]
      simp [nudgesLeft, hnext]
    · rw [hentry]
      simp only [escalationsLeft, Option.any_some, hnext]
      split
      · omega
      · rename_i hnot
        rw [if_neg fun h => hnot ?_]
        simp only [Bool.and_eq_true] at h ⊢
        exact ⟨h.1, hsent h.2⟩
  | escalated entry next manager hdue hdetected hnext hsent =>
    have hknown : next.signature = signature := hnext.trans (hdue.same.trans hsignature)
    have hunsent : entry.escalationSent = false := by
      have := hdue.due
      simp only [OwnedTaskLook.shouldEscalate, Bool.and_eq_true, Bool.not_eq_true'] at this
      exact this.1
    refine .of_paid rfl (hself _) ?_ ?_
    · rw [hdue.asked]
      simp [nudgesLeft, hnext, Finding.isNudge]
    · -- The mark was not there yet, and is now.
      rw [hdue.asked]
      simp [escalationsLeft, hknown, hsent, hunsent, Finding.isEscalation]
  | nudged next cooldowns hnew hdetected hnext hsent =>
    -- There was no entry for these tasks, so one asking and one report were left.
    have hleft : nudgesLeft (watch.ownedTaskInterventions name) signature = 1 ∧
        escalationsLeft (watch.ownedTaskInterventions name) signature = 1 := by
      cases hentry : watch.ownedTaskInterventions name with
      | none => exact ⟨rfl, rfl⟩
      | some entry =>
        have hne := hnew entry hentry
        rw [hsignature] at hne
        simp [nudgesLeft, escalationsLeft, hne]
    refine .of_paid rfl (hself _) ?_ ?_
    · rw [hleft.1]
      simp [nudgesLeft, hnext, hsignature, Finding.isNudge]
    · rw [hleft.2]
      simp [escalationsLeft, hsent, Finding.isEscalation]

theorem spends_turns (hkeeps : look.Keeps name signature) (hboard : look.board? = some tasks)
    (turns : List (String × Nat)) :
    watch.Spends name signature (turns.foldl (look.intervene tasks) watch) := by
  induction turns generalizing watch with
  | nil => exact .refl
  | cons turn turns ih =>
    refine Spends.trans ?_ ih
    have hturn := look.intervenes_intervene tasks watch turn.1 turn.2
    rcases eq_or_ne name turn.1 with heq | hne
    · rw [← heq] at hturn
      have hturn' : look.Intervenes tasks watch name turn.2 (look.intervene tasks watch turn) := by
        have hpair : (name, turn.2) = turn := by rw [heq]
        rwa [hpair] at hturn
      exact spends_of_keeps (hkeeps tasks hboard).1 (hkeeps tasks hboard).2 hturn'
    · exact spends_of_ne hne hturn

theorem spends_tick (watch : OwnedTaskWatch) (hkeeps : look.Keeps name signature) :
    watch.Spends name signature (watch.maybeInterveneOwnedTasks look) := by
  unfold maybeInterveneOwnedTasks
  cases hboard : look.board? with
  | none => exact .refl
  | some tasks => exact spends_turns hkeeps hboard _

/-- **Over ticks that keep the signature** a member is asked at most once and reported at most once. -/
theorem once_of_keeps (watch : OwnedTaskWatch) {stretch : List OwnedTaskLook}
    (hkeeps : ∀ look ∈ stretch, look.Keeps name signature) :
    let after := stretch.foldl maybeInterveneOwnedTasks watch
    after.nudges name ≤ watch.nudges name + 1 ∧
      after.escalations name ≤ watch.escalations name + 1 := by
  have hspends : watch.Spends name signature (stretch.foldl maybeInterveneOwnedTasks watch) := by
    induction stretch generalizing watch with
    | nil => exact .refl
    | cons look stretch ih =>
      obtain ⟨hlook, hrest⟩ := List.forall_mem_cons.mp hkeeps
      exact (spends_tick watch hlook).trans (ih _ hrest)
  -- Of one signature there is one question and one report to be had.
  have hnudges : nudgesLeft (watch.ownedTaskInterventions name) signature ≤ 1 := by
    unfold nudgesLeft
    split <;> omega
  have hescalations : escalationsLeft (watch.ownedTaskInterventions name) signature ≤ 1 := by
    unfold escalationsLeft
    split <;> omega
  have hasks := hspends.asks
  have hreports := hspends.reports
  constructor <;> omega

/-! ### Reporting what is true -/

/-- What is known up to `time`. -/
structure Sound (watch : OwnedTaskWatch) (time : Nat) : Prop where
  truthful : watch.Truthful
  past : ∀ name seenAt, Finding.busy name seenAt ∈ watch.findings → seenAt ≤ time
  asked : ∀ name entry, watch.ownedTaskInterventions name = some entry → entry.detectedAt ≤ time

theorem sound_empty (time : Nat) : ({} : OwnedTaskWatch).Sound time := by
  constructor <;> simp [Truthful]

theorem Sound.mono {time later : Nat} (h : watch.Sound time) (hle : time ≤ later) :
    watch.Sound later where
  truthful := h.truthful
  past name seenAt hmem := (h.past name seenAt hmem).trans hle
  asked name entry hentry := (h.asked name entry hentry).trans hle

theorem Sound.setEntry {time : Nat} {entry : Option OwnedTaskInterventionState}
    (h : watch.Sound time) (hentry : ∀ state, entry = some state → state.detectedAt ≤ time) :
    (watch.setEntry name entry).Sound time := by
  refine ⟨h.truthful, h.past, fun other state hstate => ?_⟩
  rcases eq_or_ne other name with rfl | hne
  · exact hentry state ((watch.entry_setEntry_self other entry).symm.trans hstate)
  · exact h.asked other state ((watch.entry_setEntry_of_ne hne entry).symm.trans hstate)

theorem Sound.find {time : Nat} {finding : Finding} (h : watch.Sound time)
    (hallows : ∀ earlier ∈ watch.findings, earlier.Allows finding)
    (hthreshold : ∀ member manager secs threshold at_,
      finding = .escalated member manager secs threshold at_ → threshold ≤ secs)
    (hpast : ∀ name seenAt, finding = .busy name seenAt → seenAt ≤ time) :
    (watch.find finding).Sound time := by
  refine ⟨⟨?_, ?_⟩, ?_, h.asked⟩
  · refine List.pairwise_append.mpr ⟨h.truthful.1, List.pairwise_singleton _ _, ?_⟩
    intro earlier hearlier later hlater
    obtain rfl := List.mem_singleton.mp hlater
    exact hallows earlier hearlier
  · intro member manager secs threshold at_ hmem
    rcases List.mem_append.mp hmem with hmem | hmem
    · exact h.truthful.2 member manager secs threshold at_ hmem
    · exact hthreshold member manager secs threshold at_ (List.mem_singleton.mp hmem).symm
  · intro name seenAt hmem
    rcases List.mem_append.mp hmem with hmem | hmem
    · exact h.past name seenAt hmem
    · exact hpast name seenAt (List.mem_singleton.mp hmem).symm

/-- A finding that is no report is at odds with nothing. -/
theorem allows_of_not_escalated {earlier later : Finding}
    (h : ∀ member manager secs threshold time,
      later ≠ .escalated member manager secs threshold time) : earlier.Allows later := by
  cases earlier <;> cases later <;> first | exact trivial | exact absurd rfl (h _ _ _ _ _)

/-- **A turn** in which who is reported has not been seen at work since it was asked. -/
theorem Sound.intervenes (h : watch.Sound (look.checkedAt turn))
    (hminds : ∀ entry, look.Due tasks watch name turn entry →
      ∀ seenAt, Finding.busy name seenAt ∈ watch.findings → seenAt ≤ entry.detectedAt)
    (hturn : look.Intervenes tasks watch name turn next) : next.Sound (look.firedAt turn) := by
  have hchecked := look.checked_le turn
  have hdelivered := look.delivered_le turn
  have hlater := h.mono (hchecked.trans hdelivered)
  cases hturn with
  | quiet => exact hlater
  | busy hbusy =>
    refine hlater.find (fun _ _ => allows_of_not_escalated (by simp)) (by simp) ?_
    rintro _ _ heq
    cases heq
    exact hchecked.trans hdelivered
  | cleared hidle hnone => exact hlater.setEntry (by simp)
  | progressed hidle hprogress =>
    refine (hlater.setEntry (by simp)).find (fun _ _ => allows_of_not_escalated (by simp))
      (by simp) ?_
    rintro _ _ heq
    cases heq
    exact hchecked.trans hdelivered
  | kept entry next hentry hdetected hsignature hsent =>
    refine hlater.setEntry fun state hstate => ?_
    cases hstate
    exact hdetected.trans_le (hlater.asked name entry hentry)
  | escalated entry next manager hdue hdetected hsignature hsent =>
    have hasked := h.asked name entry hdue.asked
    have hage : fromSecs (look.stuckAgeSecs entry turn) ≤ look.checkedAt turn - entry.detectedAt := by
      have := Nat.div_mul_le_self (look.checkedAt turn - entry.detectedAt) (fromSecs 1)
      simpa [fromSecs, OwnedTaskLook.stuckAgeSecs] using this
    refine (hlater.setEntry fun state hstate => ?_).find (fun earlier hearlier => ?_) ?_ (by simp)
    · cases hstate
      exact hdetected.trans_le (hlater.asked name entry hdue.asked)
    · -- The member was last seen at work before it was asked.
      cases earlier with
      | busy member seenAt =>
        rintro rfl
        have hseen := hminds entry hdue seenAt hearlier
        show seenAt + fromSecs (look.stuckAgeSecs entry turn) ≤ look.deliveredAt turn
        omega
      | nudged => exact trivial
      | escalated => exact trivial
    · rintro _ _ _ _ _ heq
      cases heq
      have hreached := hdue.due
      simp only [OwnedTaskLook.shouldEscalate, Bool.and_eq_true, decide_eq_true_eq] at hreached
      exact hreached.2
  | nudged next cooldowns hnew hdetected hsignature hsent =>
    -- The new entry dates from this turn.
    have hset : (watch.setEntry name (some next)).Sound (look.firedAt turn) := by
      refine hlater.setEntry fun state hstate => ?_
      cases hstate
      exact hdetected.le
    have hfound : ((watch.setEntry name (some next)).find (.nudged name
        (ownedTaskInterventionSignature (ownedTasks tasks name)) (look.deliveredAt turn))).Sound
        (look.firedAt turn) :=
      hset.find (fun _ _ => allows_of_not_escalated (by simp)) (by simp) (by simp)
    exact ⟨hfound.truthful, hfound.past, hfound.asked⟩

/-- A turn of another member leaves what is known of this one. -/
theorem same_of_ne {other : String} (hne : name ≠ other)
    (h : look.Intervenes tasks watch other turn next) :
    next.ownedTaskInterventions name = watch.ownedTaskInterventions name ∧
      ∀ seenAt, Finding.busy name seenAt ∈ next.findings →
        Finding.busy name seenAt ∈ watch.findings := by
  have hother := watch.entry_setEntry_of_ne hne
  have hfind : ∀ (before : OwnedTaskWatch) (finding : Finding), before.findings = watch.findings →
      (∀ seenAt, finding ≠ .busy name seenAt) → ∀ seenAt,
      Finding.busy name seenAt ∈ (before.find finding).findings →
        Finding.busy name seenAt ∈ watch.findings := by
    intro before finding hbefore hfinding seenAt hmem
    rcases List.mem_append.mp hmem with hmem | hmem
    · exact hbefore ▸ hmem
    · exact absurd (List.mem_singleton.mp hmem).symm (hfinding seenAt)
  cases h with
  | quiet => exact ⟨rfl, fun _ => id⟩
  | busy => exact ⟨rfl, hfind watch _ rfl (by simp [hne.symm])⟩
  | cleared => exact ⟨hother _, fun _ => id⟩
  | progressed => exact ⟨hother _, hfind (watch.setEntry other none) _ rfl (by simp [hne.symm])⟩
  | kept => exact ⟨hother _, fun _ => id⟩
  | escalated => exact ⟨hother _, hfind (watch.setEntry other _) _ rfl (by simp)⟩
  | nudged => exact ⟨hother _, hfind (watch.setEntry other _) _ rfl (by simp)⟩

/-- **The loop** of a tick that minds. -/
theorem sound_turns {names : List String} (hnodup : names.Nodup)
    (hminds : ∀ name index, (name, index) ∈ names.zipIdx turn → ∀ entry,
      look.Due tasks watch name index entry →
        ∀ seenAt, Finding.busy name seenAt ∈ watch.findings → seenAt ≤ entry.detectedAt)
    (h : watch.Sound (look.checkedAt turn)) :
    ((names.zipIdx turn).foldl (look.intervene tasks) watch).Sound look.endedAt := by
  induction names generalizing watch turn with
  | nil => exact h.mono (look.checked_le_ended turn)
  | cons first names ih =>
    obtain ⟨hfirst, hrest⟩ := List.nodup_cons.mp hnodup
    rw [List.zipIdx_cons, List.foldl_cons]
    rw [List.zipIdx_cons] at hminds
    have hturn := look.intervenes_intervene tasks watch first turn
    refine ih hrest (fun name index hmem entry hdue seenAt hseen => ?_)
      ((h.intervenes (hminds first turn List.mem_cons_self) hturn).mono (look.fired_le turn))
    -- The other members are as they were.
    have hne : name ≠ first := fun heq => by
      have hname : name ∈ names := List.fst_mem_of_mem_zipIdx hmem
      exact hfirst (heq ▸ hname)
    obtain ⟨hentry, hbusy⟩ := same_of_ne hne hturn
    exact hminds name index (List.mem_cons_of_mem _ hmem) entry
      { hdue with asked := hentry ▸ hdue.asked } seenAt (hbusy seenAt hseen)

theorem Sound.tick (h : watch.Sound look.startedAt) (hminds : look.Minds watch) :
    (watch.maybeInterveneOwnedTasks look).Sound look.endedAt := by
  unfold maybeInterveneOwnedTasks
  cases hboard : look.board? with
  | none => exact h.mono look.started_le_ended
  | some tasks => exact sound_turns look.nodup (hminds tasks hboard) (h.mono look.started_le)

/-- **What managers are told is true** all along a run in which nobody is reported who has been seen
at work since it was asked. -/
theorem truthful_of_minds {looks : List OwnedTaskLook}
    (h : InterventionWatch.Chronological OwnedTaskLook.toTeamLook looks)
    (hminds : EachStep maybeInterveneOwnedTasks (fun watch look => look.Minds watch) {} looks) :
    Always maybeInterveneOwnedTasks Truthful {} looks := by
  suffices hfrom : ∀ watch time, watch.Sound time → (∀ look ∈ looks, time ≤ look.startedAt) →
      EachStep maybeInterveneOwnedTasks (fun watch look => look.Minds watch) watch looks →
      Always maybeInterveneOwnedTasks Truthful watch looks from
    hfrom {} 0 (sound_empty 0) (fun look _ => Nat.zero_le _) hminds
  clear hminds
  induction looks with
  | nil => exact fun watch time hsound _ _ => always_nil.mpr hsound.truthful
  | cons look looks ih =>
    rintro watch time hsound hlater ⟨hlook, hrest⟩
    obtain ⟨hnext, hchronological⟩ := List.pairwise_cons.mp h
    refine always_cons.mpr ⟨hsound.truthful, ih hchronological _ look.endedAt ?_ hnext hrest⟩
    exact (hsound.mono (hlater look List.mem_cons_self)).tick hlook

/-- **Members are asked once and reported once** while their tasks stay as they are, in every run; and
**what is reported is true** in a run in which nobody is reported who has been seen at work since it
was asked. -/
theorem reports_once_truthful {looks : List OwnedTaskLook}
    (h : InterventionWatch.Chronological OwnedTaskLook.toTeamLook looks) :
    (∀ before stretch after name signature, looks = before ++ stretch ++ after →
        (∀ look ∈ stretch, OwnedTaskLook.Keeps look name signature) →
        let start := before.foldl maybeInterveneOwnedTasks {}
        let done := (before ++ stretch).foldl maybeInterveneOwnedTasks {}
        done.nudges name ≤ start.nudges name + 1 ∧
          done.escalations name ≤ start.escalations name + 1) ∧
      (EachStep maybeInterveneOwnedTasks (fun watch look => look.Minds watch) {} looks →
        Always maybeInterveneOwnedTasks Truthful {} looks) := by
  refine ⟨fun before stretch after name signature _ hkeeps => ?_, truthful_of_minds h⟩
  dsimp only
  rw [List.foldl_append]
  exact once_of_keeps _ hkeeps

end

/-- A look at an engineer who has one task under way. -/
def engineerLook (secs : Nat) (state : Option WatcherState) : OwnedTaskLook where
  members := [⟨"lead", "manager", .manager, none, false⟩,
    ⟨"eng-1", "engineer", .engineer, some "lead", false⟩]
  tasks := .ok [{
    id := 1, title := "task", status := "in-progress", priority := "high", assignee := none,
    claimedBy := some "eng-1", claimedAt := none, blocked := none, tags := [], dependsOn := [],
    reviewOwner := none, blockedOn := none, worktreePath := none, branch := none,
    scheduledFor := none, description := "", sourcePath := "001-task.md" }]
  watchers := fun _ => state
  idleStartedAt := fun _ => some 0
  startedAt := fromSecs secs
  paneMembers := ["eng-1"]
  nodup := List.nodup_singleton _

/-- The engineer is asked, works for an hour, and is reported as idle all the while when it comes to
rest. -/
theorem not_truthful_busy :
    let looks := [engineerLook 100 (some .idle), engineerLook 200 (some .active),
      engineerLook 3700 (some .active), engineerLook 3800 (some .idle)]
    InterventionWatch.Chronological OwnedTaskLook.toTeamLook looks ∧
      ¬ Always maybeInterveneOwnedTasks Truthful {} looks := by
  intro looks
  refine ⟨by unfold InterventionWatch.Chronological; decide, fun h => ?_⟩
  have hfindings : (looks.foldl maybeInterveneOwnedTasks {}).findings =
      [.nudged "eng-1" "1:in-progress" (fromSecs 100), .busy "eng-1" (fromSecs 200),
        .busy "eng-1" (fromSecs 3700), .escalated "eng-1" "lead" 3700 3600 (fromSecs 3800)] := rfl
  have htruthful := (h looks List.prefix_rfl).1
  rw [hfindings] at htruthful
  simp [Finding.Allows, fromSecs] at htruthful

theorem keeps_engineerLook (secs : Nat) (state : Option WatcherState) :
    (engineerLook secs state).Keeps "eng-1" "1:in-progress" := by
  intro tasks htasks
  cases htasks
  exact ⟨rfl, fun _ => ⟨by simp [ownedTasks, Task.isOwnedBy, taskNeedsOwnedIntervention], rfl⟩⟩

/-- The engineer is asked, stays idle, and is reported, both once. -/
theorem reports_once_truthful_idle :
    let looks := [engineerLook 100 (some .idle), engineerLook 3800 (some .idle)]
    let done := looks.foldl maybeInterveneOwnedTasks {}
    (done.nudges "eng-1" ≤ 1 ∧ done.escalations "eng-1" ≤ 1) ∧
      Always maybeInterveneOwnedTasks Truthful {} looks := by
  intro looks done
  have h := @reports_once_truthful looks (by unfold InterventionWatch.Chronological; decide)
  refine ⟨h.1 [] looks [] "eng-1" "1:in-progress" rfl fun look hlook => ?_, h.2 ⟨?_, ?_, trivial⟩⟩
  · rcases List.mem_pair.mp hlook with rfl | rfl <;> exact keeps_engineerLook _ _
  · intro tasks _ name turn _ entry hdue
    cases hdue.asked
  · intro tasks _ name turn _ entry _ seenAt hseen
    have hfindings : (({} : OwnedTaskWatch).maybeInterveneOwnedTasks
        (engineerLook 100 (some .idle))).findings =
        [.nudged "eng-1" "1:in-progress" (fromSecs 100)] := rfl
    rw [hfindings] at hseen
    cases List.mem_singleton.mp hseen

end OwnedTaskWatch

end Batty
