import Batty.Dispatch.Reconcile

/-!
# Interventions

When a member is idle who should not be, the daemon tells somebody so. What it has told of is
remembered under a key, with a signature of what it saw, and the time is remembered apart from that,
so that nobody is told too often.

* `InterventionWatch.Spaced`: interventions under one key are a cooldown apart; `Spaced.attempt` and
  `Spaced.setEntry` are what keeps them so.
-/

namespace Batty

/-- What is remembered of an intervention. -/
structure OwnedTaskInterventionState where
  idleEpoch : Nat
  signature : String
  detectedAt : Nat
  escalationSent : Bool

/-- What a pane shows. -/
inductive WatcherState where
  | active
  | ready
  | idle
  | paneDead
  | contextExhausted
deriving DecidableEq

/-- What a tick sees of the team: the board as it is read, the states of the members, and for each
turn of its loop the times at which the clock is read and a message is delivered, and whether it is.
What a delivery does to the state of a member, the next tick sees. -/
structure TeamLook where
  members : List MemberInstance
  paused : Bool := false
  tasks : Except String (List Task)
  watchers : String → Option WatcherState := fun _ => none
  states : String → Option MemberState := fun _ => none
  idleStartedAt : String → Option Nat := fun _ => none
  triageIdleEpochs : String → Option Nat := fun _ => none
  interventionIdleGraceSecs : Nat := 60
  memberHasPendingInbox : String → Bool := fun _ => false
  deliver : Nat → Except String Unit := fun _ => .ok ()
  startedAt : Nat
  checkedAt : Nat → Nat := fun _ => startedAt
  deliveredAt : Nat → Nat := fun _ => startedAt
  firedAt : Nat → Nat := fun _ => startedAt
  endedAt : Nat := startedAt
  started_le : startedAt ≤ checkedAt 0 := by simp
  checked_le : ∀ turn, checkedAt turn ≤ deliveredAt turn := by simp
  delivered_le : ∀ turn, deliveredAt turn ≤ firedAt turn := by simp
  fired_le : ∀ turn, firedAt turn ≤ checkedAt (turn + 1) := by simp
  ended_le : ∀ turn, firedAt turn ≤ endedAt := by simp

namespace TeamLook

variable (look : TeamLook)

theorem checked_le_ended (turn : Nat) : look.checkedAt turn ≤ look.endedAt :=
  (look.checked_le turn).trans ((look.delivered_le turn).trans (look.ended_le turn))

theorem started_le_ended : look.startedAt ≤ look.endedAt :=
  look.started_le.trans (look.checked_le_ended 0)

def isMemberIdle (name : String) : Bool :=
  match look.watchers name with
  | some state => state = .ready || state = .idle
  | none => look.states name = some .idle || look.states name = none

def automationIdleGraceElapsed (turn : Nat) (name : String) : Bool :=
  (look.idleStartedAt name).any fun startedAt =>
    decide (fromSecs look.interventionIdleGraceSecs ≤ look.checkedAt turn - startedAt)

def readyForIdleAutomation (turn : Nat) (name : String) : Bool :=
  look.automationIdleGraceElapsed turn name && !look.memberHasPendingInbox name

def engineerNames : List String :=
  (look.members.filter fun member => member.roleType = .engineer).map MemberInstance.name

def architects : List MemberInstance :=
  look.members.filter fun member => member.roleType = .architect

end TeamLook

def allEngineersHaveActiveTasks (engineerNames : List String) (tasks : List Task) : Bool :=
  !engineerNames.isEmpty && engineerNames.all fun name => tasks.any fun task =>
    task.claimedBy = some name && (task.status = "in-progress" || task.status = "in_progress")

/-- Idle engineers without a task that is open. -/
def TeamLook.idleUnassignedEngineers (look : TeamLook) (tasks : List Task) : List String :=
  look.engineerNames.filter fun name => look.isMemberIdle name &&
    !tasks.any fun task => task.isOwnedBy name

/-- What a tick finds: it cannot or need not look, there is no gap, or there is one. -/
inductive GapCheck (α : Type) where
  | quiet
  | noGap
  | gap (found : α)

/-! ### What is remembered -/

/-- An attempt to tell somebody, and the cooldown that was asked for. -/
structure Attempt where
  key : String
  cooldown : Nat
  time : Nat
  delivered : Bool

/-- The memory of the interventions, with the attempts that were made. -/
structure InterventionWatch where
  ownedTaskInterventions : String → Option OwnedTaskInterventionState := fun _ => none
  interventionCooldowns : String → Option Nat := fun _ => none
  attempts : List Attempt := []

namespace InterventionWatch

def onCooldown (watch : InterventionWatch) (key : String) (cooldown now : Nat) : Bool :=
  (watch.interventionCooldowns key).any fun firedAt => decide (now - firedAt < cooldown)

def setEntry (watch : InterventionWatch) (key : String)
    (entry : Option OwnedTaskInterventionState) : InterventionWatch :=
  { watch with
    ownedTaskInterventions := Function.update watch.ownedTaskInterventions key entry }

/-- Deliver a message in a turn of the loop; if it arrives, what was seen and the time are noted. -/
def attempt (watch : InterventionWatch) (look : TeamLook) (turn : Nat) (key : String)
    (cooldown : Nat) (entry : OwnedTaskInterventionState) : InterventionWatch :=
  match look.deliver turn with
  | .error _ =>
    { watch with attempts := watch.attempts ++
        [{ key, cooldown, time := look.deliveredAt turn, delivered := false }] }
  | .ok _ =>
    { watch.setEntry key (some entry) with
      interventionCooldowns :=
        Function.update watch.interventionCooldowns key (some (look.firedAt turn))
      attempts := watch.attempts ++
        [{ key, cooldown, time := look.deliveredAt turn, delivered := true }] }

/-- How often it was tried to tell somebody under a key. -/
def triesOf (watch : InterventionWatch) (key : String) : Nat :=
  (watch.attempts.filter fun attempt => attempt.key = key).length

/-- Interventions under one key are apart. -/
def Apart (watch : InterventionWatch) : Prop :=
  watch.attempts.Pairwise fun attempt attempt' =>
    attempt.delivered = true → attempt'.delivered = true → attempt.key = attempt'.key →
      attempt.time + attempt'.cooldown ≤ attempt'.time

/-! ### Keeping interventions apart -/

/-- Up to `time` interventions were apart, and each is remembered. -/
structure Spaced (watch : InterventionWatch) (time : Nat) : Prop where
  apart : watch.Apart
  past : ∀ attempt ∈ watch.attempts, attempt.time ≤ time
  noted : ∀ attempt ∈ watch.attempts, attempt.delivered = true →
    ∃ firedAt, watch.interventionCooldowns attempt.key = some firedAt ∧ attempt.time ≤ firedAt

section

variable {watch : InterventionWatch} {look : TeamLook} {key : String}
  {entry : Option OwnedTaskInterventionState} {time turn cooldown : Nat}

theorem spaced_empty : ({} : InterventionWatch).Spaced time := by
  constructor <;> simp [Apart]

theorem Spaced.mono {later : Nat} (h : watch.Spaced time) (hle : time ≤ later) :
    watch.Spaced later :=
  { h with past := fun attempt hmem => (h.past attempt hmem).trans hle }

theorem Spaced.setEntry (h : watch.Spaced time) :
    (watch.setEntry key entry).Spaced time := ⟨h.1, h.2, h.3⟩

/-- **An intervention that waits for the cooldown** is apart from those before. -/
theorem Spaced.attempt {entry : OwnedTaskInterventionState} (h : watch.Spaced (look.checkedAt turn))
    (hcooldown : watch.onCooldown key cooldown (look.checkedAt turn) = false) :
    (watch.attempt look turn key cooldown entry).Spaced (look.firedAt turn) := by
  have hchecked := look.checked_le turn
  have hdelivered := look.delivered_le turn
  have hpast : ∀ attempt ∈ watch.attempts, attempt.time ≤ look.firedAt turn :=
    fun attempt hmem => (h.past attempt hmem).trans (hchecked.trans hdelivered)
  unfold InterventionWatch.attempt
  cases look.deliver turn with
  | error error =>
    refine ⟨?_, ?_, ?_⟩
    · refine List.pairwise_append.mpr ⟨h.apart, List.pairwise_singleton _ _, ?_⟩
      intro attempt _ attempt' hmem' _ hdelivered'
      obtain rfl := List.mem_singleton.mp hmem'
      cases hdelivered'
    · intro attempt hmem
      rcases List.mem_append.mp hmem with hmem | hmem
      · exact hpast attempt hmem
      · obtain rfl := List.mem_singleton.mp hmem
        exact hdelivered
    · intro attempt hmem hdelivered'
      rcases List.mem_append.mp hmem with hmem | hmem
      · exact h.noted attempt hmem hdelivered'
      · obtain rfl := List.mem_singleton.mp hmem
        cases hdelivered'
  | ok _ =>
    refine ⟨?_, ?_, ?_⟩
    · refine List.pairwise_append.mpr ⟨h.apart, List.pairwise_singleton _ _, ?_⟩
      intro attempt hmem attempt' hmem' hdelivered' _ hkey
      obtain rfl := List.mem_singleton.mp hmem'
      -- The attempt before under this key is remembered, and the cooldown since then is over.
      obtain ⟨firedAt, hfired, hle⟩ := h.noted attempt hmem hdelivered'
      have hpastNow := h.past attempt hmem
      rw [hkey] at hfired
      simp only [onCooldown, hfired, Option.any_some, decide_eq_false_iff_not, not_lt] at hcooldown
      show attempt.time + cooldown ≤ look.deliveredAt turn
      omega
    · intro attempt hmem
      rcases List.mem_append.mp hmem with hmem | hmem
      · exact hpast attempt hmem
      · obtain rfl := List.mem_singleton.mp hmem
        exact hdelivered
    · intro attempt hmem hdelivered'
      rcases List.mem_append.mp hmem with hmem | hmem
      · by_cases hkey : attempt.key = key
        · exact ⟨look.firedAt turn, by simp [hkey], hpast attempt hmem⟩
        · obtain ⟨firedAt, hfired, hle⟩ := h.noted attempt hmem hdelivered'
          exact ⟨firedAt, by simpa [Function.update_of_ne hkey] using hfired, hle⟩
      · obtain rfl := List.mem_singleton.mp hmem
        exact ⟨look.firedAt turn, by simp, hdelivered⟩

/-! ### What an attempt changes -/

theorem triesOf_attempt {entry : OwnedTaskInterventionState} (other : String) :
    (watch.attempt look turn key cooldown entry).triesOf other =
      watch.triesOf other + if other = key then 1 else 0 := by
  unfold InterventionWatch.attempt triesOf
  by_cases hkey : other = key
  · subst hkey
    cases look.deliver turn <;> simp
  · cases look.deliver turn <;> simp [hkey, Ne.symm hkey]

/-- What is remembered under other keys stays. -/
theorem attempt_of_ne {entry : OwnedTaskInterventionState} {other : String} (h : other ≠ key) :
    (watch.attempt look turn key cooldown entry).ownedTaskInterventions other =
        watch.ownedTaskInterventions other ∧
      (watch.attempt look turn key cooldown entry).interventionCooldowns other =
        watch.interventionCooldowns other := by
  unfold InterventionWatch.attempt
  cases look.deliver turn <;> simp [setEntry, h]

theorem setEntry_of_ne {other : String} (h : other ≠ key) :
    (watch.setEntry key entry).ownedTaskInterventions other =
      watch.ownedTaskInterventions other := Function.update_of_ne h _ _

/-- Nothing changes under a key. -/
structure SameUnder (key : String) (watch next : InterventionWatch) : Prop where
  entry : next.ownedTaskInterventions key = watch.ownedTaskInterventions key
  cooldown : next.interventionCooldowns key = watch.interventionCooldowns key
  tries : next.triesOf key = watch.triesOf key

theorem SameUnder.refl (key : String) (watch : InterventionWatch) : SameUnder key watch watch :=
  ⟨rfl, rfl, rfl⟩

theorem SameUnder.trans {middle next : InterventionWatch} (h : SameUnder key watch middle)
    (h' : SameUnder key middle next) : SameUnder key watch next :=
  ⟨h'.entry.trans h.entry, h'.cooldown.trans h.cooldown, h'.tries.trans h.tries⟩

theorem SameUnder.onCooldown {next : InterventionWatch} (h : SameUnder key watch next)
    (cooldown now : Nat) : next.onCooldown key cooldown now = watch.onCooldown key cooldown now := by
  rw [InterventionWatch.onCooldown, h.cooldown]
  rfl

theorem sameUnder_attempt {entry : OwnedTaskInterventionState} {other : String} (h : other ≠ key) :
    SameUnder other watch (watch.attempt look turn key cooldown entry) :=
  ⟨(attempt_of_ne h).1, (attempt_of_ne h).2, by rw [triesOf_attempt, if_neg h, Nat.add_zero]⟩

theorem sameUnder_setEntry {other : String} (h : other ≠ key) :
    SameUnder other watch (watch.setEntry key entry) :=
  ⟨setEntry_of_ne h, rfl, rfl⟩

end

/-! ### Whole ticks and runs -/

section

variable {τ α : Type}

/-- **The loop of a tick** keeps interventions apart if each of its turns does. -/
theorem Spaced.turns {watch : InterventionWatch} {look : TeamLook}
    {tell : InterventionWatch → String × Nat → InterventionWatch}
    (htell : ∀ watch name turn, watch.Spaced (look.checkedAt turn) →
      (tell watch (name, turn)).Spaced (look.firedAt turn))
    (h : watch.Spaced look.startedAt) (names : List String) :
    (names.zipIdx.foldl tell watch).Spaced look.endedAt := by
  suffices hfrom : ∀ turn watch, watch.Spaced (look.checkedAt turn) →
      ((names.zipIdx turn).foldl tell watch).Spaced look.endedAt from
    hfrom 0 watch (h.mono look.started_le)
  induction names with
  | nil => exact fun turn watch hspaced => hspaced.mono (look.checked_le_ended turn)
  | cons name names ih =>
    intro turn watch hspaced
    rw [List.zipIdx_cons, List.foldl_cons]
    exact ih (turn + 1) _ ((htell watch name turn hspaced).mono (look.fired_le turn))

/-- What is tried is not taken back. -/
theorem triesOf_le_foldl {key : String} {tick : InterventionWatch → τ → InterventionWatch}
    (hmono : ∀ watch look, watch.triesOf key ≤ (tick watch look).triesOf key) (looks : List τ)
    (watch : InterventionWatch) : watch.triesOf key ≤ (looks.foldl tick watch).triesOf key := by
  induction looks generalizing watch with
  | nil => exact le_rfl
  | cons look looks ih => exact (hmono watch look).trans (ih _)

/-- **A member who has a turn** is told in the loop, if it is told in a turn of its own whenever what
is remembered of it is what was remembered before the loop. -/
theorem triesOf_lt_foldl {key name : String} {watch : InterventionWatch}
    {tell : InterventionWatch → String × Nat → InterventionWatch}
    (hmono : ∀ watch turn, watch.triesOf key ≤ (tell watch turn).triesOf key)
    (hothers : ∀ (watch : InterventionWatch) (turn : String × Nat), name ≠ turn.1 →
      watch.SameUnder key (tell watch turn))
    {turns : List (String × Nat)} (hmem : name ∈ turns.map Prod.fst)
    (hown : ∀ now turn, watch.SameUnder key now → (name, turn) ∈ turns →
      now.triesOf key < (tell now (name, turn)).triesOf key) :
    watch.triesOf key < (turns.foldl tell watch).triesOf key := by
  induction turns generalizing watch with
  | nil => cases hmem
  | cons turn turns ih =>
    rw [List.foldl_cons]
    rcases eq_or_ne name turn.1 with rfl | hne
    · exact (hown watch turn.2 (.refl _ _) List.mem_cons_self).trans_le
        (triesOf_le_foldl hmono turns _)
    · have hsame := hothers watch turn hne
      rw [← hsame.tries]
      exact ih ((List.mem_cons.mp hmem).resolve_left hne) fun now number hnow hnumber =>
        hown now number (hsame.trans hnow) (List.mem_cons_of_mem _ hnumber)

/-- The ticks are in the order of time. -/
def Chronological (team : τ → TeamLook) (looks : List τ) : Prop :=
  looks.Pairwise fun look look' => (team look).endedAt ≤ (team look').startedAt

/-- **A run** keeps interventions apart if each of its ticks does. -/
theorem apart_of_ticks {team : τ → TeamLook} {tick : InterventionWatch → τ → InterventionWatch}
    (htick : ∀ watch look, watch.Spaced (team look).startedAt →
      (tick watch look).Spaced (team look).endedAt)
    {looks : List τ} (h : Chronological team looks) : (looks.foldl tick {}).Apart := by
  suffices hfrom : ∀ watch time, watch.Spaced time → (∀ look ∈ looks, time ≤ (team look).startedAt) →
      (looks.foldl tick watch).Apart from
    hfrom {} 0 spaced_empty fun look _ => Nat.zero_le _
  induction looks with
  | nil => exact fun watch time hspaced _ => hspaced.apart
  | cons look looks ih =>
    intro watch time hspaced hlater
    obtain ⟨hnext, hrest⟩ := List.pairwise_cons.mp h
    exact ih hrest _ _ (htick watch look (hspaced.mono (hlater look List.mem_cons_self))) hnext

/-- A gap that was gone at one tick, and is there again at two ticks that follow each other, in which
somebody can be told. -/
structure ComesBack (tick : InterventionWatch → τ → InterventionWatch) (check : τ → GapCheck α)
    (free : InterventionWatch → τ → Prop) (looks : List τ) where
  before : List τ
  recovered : τ
  between : List τ
  first : τ
  second : τ
  after : List τ
  found : α
  found' : α
  split : looks = before ++ recovered :: between ++ first :: second :: after
  gone : check recovered = .noGap
  there : check first = .gap found
  stays : check second = .gap found'
  free_first : free ((before ++ recovered :: between).foldl tick {}) first
  free_second : free ((before ++ recovered :: between).foldl tick {}) second

namespace ComesBack

variable {tick : InterventionWatch → τ → InterventionWatch} {check : τ → GapCheck α}
  {free : InterventionWatch → τ → Prop} {looks : List τ}

/-- What is remembered when the gap is gone. -/
def start (back : ComesBack tick check free looks) : InterventionWatch :=
  back.before.foldl tick {}

/-- What is remembered when it comes back. -/
def watch (back : ComesBack tick check free looks) : InterventionWatch :=
  (back.before ++ back.recovered :: back.between).foldl tick {}

/-- Since the gap was gone it was tried to tell of one. -/
def Fires (back : ComesBack tick check free looks) (key : String) : Prop :=
  back.start.triesOf key <
    (tick (tick back.watch back.first) back.second).triesOf key

/-- It was tried before the gap came back. -/
def Fired (back : ComesBack tick check free looks) (key : String) : Prop :=
  back.start.triesOf key < back.watch.triesOf key

theorem start_le {key : String} (back : ComesBack tick check free looks)
    (hmono : ∀ watch look, watch.triesOf key ≤ (tick watch look).triesOf key) :
    back.start.triesOf key ≤ back.watch.triesOf key := by
  rw [watch, List.foldl_append]
  exact triesOf_le_foldl hmono _ _

end ComesBack

end

end InterventionWatch

end Batty
