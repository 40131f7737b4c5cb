import Batty.Dispatch.Pass

/-!
# Alerts of a starving pipeline

When there are fewer open tasks than idle engineers, the architects are told so. Two fields of the
daemon keep the alerts apart: a latch that is set with an alert and released when the pipeline has
recovered, and the time of the last alert, which is to keep alerts apart even then.

Two alerts can be too close nevertheless. Releasing the latch forgets the time of the last alert,
and an alert that cannot be delivered to one architect ends the tick before either field is set,
although the architects before have got theirs (`not_rateLimited_recovered`). Ticks that do neither
keep alerts apart (`rateLimited_of_keepsCooldown`).
-/

namespace Batty

def starvationCooldown : Nat := fromSecs 300

def managerWorkingGraceSecs : Nat := 600

/-- An alert that was delivered. -/
structure StarvationAlert where
  architect : String
  sender : String
  message : String
  time : Nat

/-- What the daemon keeps about alerts, and those that were delivered. -/
structure StarvationWatch where
  fired : Bool := false
  lastFired : Option Nat := none
  alerts : List StarvationAlert := []

abbrev StarvationAction := EStateM String StarvationWatch

/-- What one tick sees: the rest of the daemon, the board each time it is read, whether a delivery
succeeds, and the times at which the clock is read and messages are delivered. -/
structure StarvationLook where
  threshold : Option Nat
  daemon : Daemon
  automationSender : Option String
  /-- The seconds since the state of the member's shim changed, if there is a shim. -/
  secsSinceStateChange : String → Option Nat
  latchTasks : Except String (List Task)
  tasks : Except String (List Task)
  deliver : String → Except String Unit
  checkedAt : Nat
  deliveredAt : String → Nat
  firedAt : Nat
  checked_le : ∀ architect, checkedAt ≤ deliveredAt architect
  delivered_le : ∀ architect, deliveredAt architect ≤ firedAt
  checked_le_fired : checkedAt ≤ firedAt

/-- Idle engineers who have no task that is open, under way or in review. -/
def Daemon.trulyIdleEngineerCount (daemon : Daemon) (tasks : List Task) : Nat :=
  let engineersWithActiveItems := (tasks.filter fun task =>
      task.status = "todo" || task.status = "in-progress" || task.status = "review").filterMap
    fun task => task.claimedBy.map fun name =>
      String.ofList (Text.trimStartMatches (· = '@') name.toList)
  (daemon.idleEngineerNames.filter fun name => !engineersWithActiveItems.contains name).length

def unclaimedTodoCount (tasks : List Task) : Nat :=
  (tasks.filter fun task =>
    (task.status = "todo" || task.status = "backlog") && task.claimedBy.isNone).length

def Daemon.automationSenderFor (daemon : Daemon) (automationSender : Option String)
    (recipient : String) : String :=
  (((daemon.config.member? recipient).bind MemberInstance.reportsTo).or automationSender).getD
    "daemon"

namespace StarvationLook

variable (look : StarvationLook)

def managerRecentlyWorking : Bool :=
  look.daemon.config.members.any fun member =>
    member.roleType = .manager && look.daemon.states member.name = some .working &&
      match look.secsSinceStateChange member.name with
      | some secs => secs < managerWorkingGraceSecs
      | none => (look.daemon.idleStartedAt member.name).isNone

def architects : List String :=
  (look.daemon.config.members.filter fun member => member.roleType = .architect).map
    MemberInstance.name

/-- There is work for all idle engineers again, as far as these tasks go. -/
def recovered (tasks : List Task) : Bool :=
  let trulyIdle := look.daemon.trulyIdleEngineerCount tasks
  trulyIdle = 0 || trulyIdle < unclaimedTodoCount tasks

/-- An alert has been given; unless the pipeline has recovered, there is no other one. -/
def staysSuppressed : StarvationAction Bool := do
  if (← get).fired then
    if look.recovered (← orFail look.latchTasks) then
      modify fun watch => { watch with fired := false, lastFired := none }
      return false
    else return true
  else return false

def onCooldown (watch : StarvationWatch) : Bool :=
  watch.lastFired.any fun last => look.checkedAt - last < starvationCooldown

def deliverAlert (message architect : String) : StarvationAction Unit := do
  orFail (look.deliver architect)
  let sender := look.daemon.automationSenderFor look.automationSender architect
  modify fun watch => { watch with
    alerts := watch.alerts ++ [{ architect, sender, message, time := look.deliveredAt architect }] }

def alertArchitects (idleCount todoCount : Nat) : StarvationAction Unit := do
  look.architects.forM <| look.deliverAlert
    s!"Pipeline running dry: {idleCount} idle engineers, {todoCount} todo tasks."
  modify fun watch => { watch with fired := true, lastFired := some look.firedAt }

/-- Compare the idle engineers with the open tasks. -/
def countTasks (threshold : Nat) : StarvationAction Unit := do
  let tasks ← orFail look.tasks
  let idleCount := look.daemon.trulyIdleEngineerCount tasks
  let todoCount := unclaimedTodoCount tasks
  if idleCount = 0 then return ()
  else if todoCount ≥ idleCount || idleCount - todoCount < threshold then return ()
  else if look.architects = [] then return ()
  else look.alertArchitects idleCount todoCount

def maybeDetectPipelineStarvation : StarvationAction Unit :=
  match look.threshold with
  | none => modify fun watch => { watch with fired := false }
  | some threshold => do
    if ← look.staysSuppressed then return ()
    else if look.onCooldown (← get) then return ()
    else if look.managerRecentlyWorking then return ()
    else look.countTasks threshold

end StarvationLook

/-! ### Runs -/

/-- One tick after another; an error ends a tick, and what it did stays done. -/
def StarvationWatch.through (watch : StarvationWatch) : List StarvationLook → StarvationWatch
  | [] => watch
  | look :: looks => (endState look.maybeDetectPipelineStarvation watch).through looks

/-- The ticks are in the order of time. -/
def Chronological (looks : List StarvationLook) : Prop :=
  looks.Pairwise fun look look' => look.firedAt ≤ look'.checkedAt

/-- Alerts to the same architect are apart. -/
def StarvationWatch.RateLimited (watch : StarvationWatch) : Prop :=
  watch.alerts.Pairwise fun alert alert' => alert.architect = alert'.architect →
    alert.time + starvationCooldown ≤ alert'.time

/-- The tick does not forget an alert that must keep others away: the latch is released only when
the cooldown is over, and a delivery fails only when nobody has been told. Nobody is told twice. -/
structure StarvationLook.KeepsCooldown (look : StarvationLook) (watch : StarvationWatch) :
    Prop where
  released : look.threshold.isSome → watch.fired = true → ∀ tasks, look.latchTasks = .ok tasks →
    look.recovered tasks = true → look.onCooldown watch = false
  delivers : ∀ architect ∈ look.architects.tail, look.deliver architect = .ok ()
  distinct : look.architects.Nodup

/-- Every tick of the run keeps the cooldown. -/
def StarvationWatch.KeepsCooldown (watch : StarvationWatch) : List StarvationLook → Prop
  | [] => True
  | look :: looks => look.KeepsCooldown watch ∧
      (endState look.maybeDetectPipelineStarvation watch).KeepsCooldown looks

/-! ### What a tick keeps -/

/-- Up to `time` alerts were apart, and the next one will be if it waits for the cooldown. -/
structure StarvationWatch.Spaced (watch : StarvationWatch) (time : Nat) : Prop where
  rateLimited : watch.RateLimited
  past : ∀ alert ∈ watch.alerts, alert.time ≤ time
  last : ∀ last ∈ watch.lastFired, ∀ alert ∈ watch.alerts, alert.time ≤ last
  elapsed : watch.lastFired = none → ∀ alert ∈ watch.alerts, alert.time + starvationCooldown ≤ time

section

variable {look : StarvationLook} {watch : StarvationWatch} {time : Nat}

theorem StarvationWatch.Spaced.mono {later : Nat} (h : watch.Spaced time) (hle : time ≤ later) :
    watch.Spaced later :=
  ⟨h.rateLimited, fun alert hmem => (h.past alert hmem).trans hle, h.last,
    fun hnone alert hmem => (h.elapsed hnone alert hmem).trans hle⟩

/-- After the cooldown all alerts are long ago. -/
theorem StarvationWatch.Spaced.elapsed_of_not_onCooldown (h : watch.Spaced look.checkedAt)
    (hcooldown : look.onCooldown watch = false) :
    ∀ alert ∈ watch.alerts, alert.time + starvationCooldown ≤ look.checkedAt := by
  intro alert hmem
  cases hlast : watch.lastFired with
  | none => exact h.elapsed hlast alert hmem
  | some last =>
    have hpast := h.last last hlast alert hmem
    simp only [StarvationLook.onCooldown, hlast, Option.any_some,
      decide_eq_false_iff_not] at hcooldown
    have hpos : 0 < starvationCooldown := by decide
    omega

/-- The alerts of a tick, delivered one by one. -/
theorem after_deliverAlerts (message : String) {architects : List String}
    (hnodup : architects.Nodup)
    (hdelivers : ∀ architect ∈ architects, look.deliver architect = .ok ()) :
    After (architects.forM (look.deliverAlert message)) watch
      (fun _ watch' => watch'.lastFired = watch.lastFired ∧ ∃ alerts,
        watch'.alerts = watch.alerts ++ alerts ∧ alerts.map StarvationAlert.architect = architects ∧
          ∀ alert ∈ alerts, alert.time = look.deliveredAt alert.architect)
      (fun _ _ => False) := by
  induction architects generalizing watch with
  | nil => exact ⟨rfl, [], by simp, rfl, by simp⟩
  | cons architect architects ih =>
    rw [List.nodup_cons] at hnodup
    rw [List.forall_mem_cons] at hdelivers
    simp only [List.forM_eq_forM, List.forM_cons, StarvationLook.deliverAlert, after_bind,
      hdelivers.1, after_orFail_ok, after_modify]
    refine (ih hnodup.2 hdelivers.2).mono ?_ fun _ _ h => h
    rintro _ watch' ⟨hlast, alerts, halerts, harchitects, htimes⟩
    refine ⟨hlast, _ :: alerts, by rw [halerts, List.append_assoc]; rfl, ?_, ?_⟩
    · rw [List.map_cons, harchitects]
    · exact List.forall_mem_cons.mpr ⟨rfl, htimes⟩

/-- New alerts do not come close to old ones, nor to each other. -/
theorem StarvationWatch.RateLimited.append (h : watch.RateLimited) {alerts : List StarvationAlert}
    (hover : ∀ alert ∈ watch.alerts, alert.time + starvationCooldown ≤ look.checkedAt)
    (hnodup : (alerts.map StarvationAlert.architect).Nodup)
    (htimes : ∀ alert ∈ alerts, alert.time = look.deliveredAt alert.architect) :
    (watch.alerts ++ alerts).Pairwise fun alert alert' => alert.architect = alert'.architect →
      alert.time + starvationCooldown ≤ alert'.time := by
  refine List.pairwise_append.mpr ⟨h, ?_, fun alert hmem alert' hmem' _ => ?_⟩
  · exact (List.pairwise_map.mp hnodup).imp fun hne hsame => absurd hsame hne
  · rw [htimes alert' hmem']
    exact (hover alert hmem).trans (look.checked_le _)

/-- An alert that is due leaves the alerts apart. -/
theorem after_alertArchitects (idleCount todoCount : Nat) (h : watch.Spaced look.checkedAt)
    (hover : ∀ alert ∈ watch.alerts, alert.time + starvationCooldown ≤ look.checkedAt)
    (hdelivers : ∀ architect ∈ look.architects.tail, look.deliver architect = .ok ())
    (hdistinct : look.architects.Nodup) : After (look.alertArchitects idleCount todoCount) watch
      (fun _ watch' => watch'.Spaced look.firedAt)
      (fun _ watch' => watch'.Spaced look.firedAt) := by
  rw [StarvationLook.alertArchitects, after_bind]
  have hfailed : (∃ error, ∃ architect ∈ look.architects.head?,
        look.deliver architect = .error error) ∨
      ∀ architect ∈ look.architects, look.deliver architect = .ok () := by
    cases harchitects : look.architects with
    | nil => exact .inr (by simp)
    | cons architect rest =>
      rw [harchitects] at hdelivers
      cases hdeliver : look.deliver architect with
      | error error => exact .inl ⟨error, architect, rfl, hdeliver⟩
      | ok _ => exact .inr (List.forall_mem_cons.mpr ⟨hdeliver, hdelivers⟩)
  rcases hfailed with ⟨error, architect, hhead, hdeliver⟩ | hall
  · -- nobody has been told
    obtain ⟨rest, harchitects⟩ := List.head?_eq_some_iff.mp hhead
    simp only [harchitects, List.forM_eq_forM, List.forM_cons, StarvationLook.deliverAlert,
      after_bind, hdeliver, after_orFail_error]
    exact h.mono look.checked_le_fired
  · refine (after_deliverAlerts _ hdistinct hall).mono ?_ fun _ _ h => h.elim
    rintro _ watch' ⟨-, alerts, halerts, harchitects, htimes⟩
    rw [after_modify]
    have hpast : ∀ alert ∈ watch'.alerts, alert.time ≤ look.firedAt := by
      intro alert hmem
      rw [halerts, List.mem_append] at hmem
      rcases hmem with hmem | hmem
      · exact (h.past alert hmem).trans look.checked_le_fired
      · rw [htimes alert hmem]
        exact look.delivered_le _
    refine ⟨?_, hpast, ?_, by rintro ⟨⟩⟩
    · rw [StarvationWatch.RateLimited, halerts]
      exact h.rateLimited.append hover (harchitects ▸ hdistinct) htimes
    · rintro _ ⟨⟩
      exact hpast

/-- **One tick** that keeps the cooldown keeps the alerts apart. -/
theorem StarvationLook.KeepsCooldown.spaced (hkeeps : look.KeepsCooldown watch)
    (h : watch.Spaced look.checkedAt) :
    (endState look.maybeDetectPipelineStarvation watch).Spaced look.firedAt := by
  refine (after_iff_endState (P := fun next : StarvationWatch => next.Spaced look.firedAt)).mp ?_
  have hlater := h.mono look.checked_le_fired
  unfold maybeDetectPipelineStarvation
  cases hthreshold : look.threshold with
  | none => exact ⟨h.rateLimited, hlater.past, h.last, hlater.elapsed⟩
  | some threshold =>
    -- what follows when the tick is not held back by the latch
    have hgo : ∀ watch' : StarvationWatch, watch'.Spaced look.checkedAt →
        After (do
            if look.onCooldown (← get) then return ()
            else if look.managerRecentlyWorking then return ()
            else look.countTasks threshold : StarvationAction Unit) watch'
          (fun _ watch'' => watch''.Spaced look.firedAt)
          (fun _ watch'' => watch''.Spaced look.firedAt) := by
      intro watch' h'
      have hlater' := h'.mono look.checked_le_fired
      rw [after_bind, after_get]
      split
      · exact hlater'
      · rename_i hcooldown
        have hover := h'.elapsed_of_not_onCooldown (Bool.eq_false_iff.mpr hcooldown)
        split
        · exact hlater'
        · rw [countTasks, after_bind]
          cases look.tasks with
          | error error => exact hlater'
          | ok tasks =>
            rw [after_orFail_ok]
            dsimp only
            split
            · exact hlater'
            · split
              · exact hlater'
              · split
                · exact hlater'
                · exact after_alertArchitects _ _ h' hover hkeeps.delivers hkeeps.distinct
    simp only [staysSuppressed, after_bind, after_get]
    split
    · rename_i hfired
      rw [after_bind]
      cases htasks : look.latchTasks with
      | error error => exact hlater
      | ok tasks =>
        rw [after_orFail_ok]
        split
        · rename_i hrecovered
          rw [after_bind, after_modify, after_pure]
          have hcooldown := hkeeps.released (by rw [hthreshold]; rfl) hfired tasks htasks hrecovered
          have hover := h.elapsed_of_not_onCooldown hcooldown
          exact hgo _ ⟨h.rateLimited, h.past, fun _ => by rintro ⟨⟩, fun _ => hover⟩
        · exact hlater
    · exact hgo watch h

end

/-- **Alerts are apart** in every run of ticks that keep the cooldown. -/
theorem rateLimited_of_keepsCooldown {looks : List StarvationLook}
    (hchronological : Chronological looks)
    (hkeeps : ({} : StarvationWatch).KeepsCooldown looks) :
    (({} : StarvationWatch).through looks).RateLimited := by
  have hstart : ∀ time, ({} : StarvationWatch).Spaced time := fun time =>
    ⟨List.Pairwise.nil, by simp, by simp, by simp⟩
  have hrun : ∀ (looks : List StarvationLook) (watch : StarvationWatch) (time : Nat),
      watch.Spaced time → (∀ look ∈ looks, time ≤ look.checkedAt) → Chronological looks →
        watch.KeepsCooldown looks → (watch.through looks).RateLimited := by
    intro looks
    induction looks with
    | nil => exact fun _ _ hspaced _ _ _ => hspaced.rateLimited
    | cons look looks ih =>
      intro watch time hspaced htime hchronological hkeeps
      rw [List.forall_mem_cons] at htime
      obtain ⟨hlook, hlooks⟩ := List.pairwise_cons.mp hchronological
      exact ih _ look.firedAt (hkeeps.1.spaced (hspaced.mono htime.1)) hlook hlooks hkeeps.2
  exact hrun looks _ 0 (hstart 0) (fun _ _ => Nat.zero_le _) hchronological hkeeps

/-! ### Two ticks too close -/

/-- An architect and an engineer, who has no work or is at it, on an empty board. -/
def starvingLook (time : Nat) (state : MemberState) : StarvationLook where
  threshold := some 1
  daemon :=
    { config := { plainTeam ["eng-1"] with
        members := [
          { name := "arch-1", roleName := "architect", roleType := .architect, reportsTo := none,
            useWorktrees := false },
          { name := "eng-1", roleName := "engineer", roleType := .engineer,
            reportsTo := some "arch-1", useWorktrees := false }] }
      disk := emptyDisk
      outside := calmOutside time
      activeTasks := if state = .working then ⟨[⟨"eng-1", 7⟩], by simp [List.NodupKeys]⟩ else ∅
      states := fun _ => some state }
  automationSender := none
  secsSinceStateChange := fun _ => none
  latchTasks := .ok []
  tasks := .ok []
  deliver := fun _ => .ok ()
  checkedAt := time
  deliveredAt := fun _ => time
  firedAt := time
  checked_le := fun _ => le_rfl
  delivered_le := fun _ => le_rfl
  checked_le_fired := le_rfl

/-- An engineer starts work between two alerts, and has finished ten seconds later. -/
def recoveredLooks : List StarvationLook :=
  [starvingLook 0 .idle, starvingLook (fromSecs 10) .working, starvingLook (fromSecs 20) .idle]

/-- The alerts are twenty seconds apart. -/
theorem not_rateLimited_recovered : Chronological recoveredLooks ∧
    ¬ (({} : StarvationWatch).through recoveredLooks).RateLimited := by
  refine ⟨by simp [Chronological, recoveredLooks, starvingLook, fromSecs], fun h => ?_⟩
  have halerts : (({} : StarvationWatch).through recoveredLooks).alerts.map
      (fun alert => (alert.architect, alert.time)) =
        [("arch-1", 0), ("arch-1", fromSecs 20)] := by decide +kernel
  have hpairs : ((({} : StarvationWatch).through recoveredLooks).alerts.map fun alert =>
      (alert.architect, alert.time)).Pairwise fun alert alert' => alert.1 = alert'.1 →
        alert.2 + starvationCooldown ≤ alert'.2 := List.pairwise_map.mpr h
  rw [halerts] at hpairs
  exact absurd hpairs (by decide)

/-- Two looks at a starving pipeline within the cooldown. -/
theorem rateLimited_of_keepsCooldown_starving :
    (({} : StarvationWatch).through
      [starvingLook 0 .idle, starvingLook (fromSecs 10) .idle]).RateLimited := by
  refine rateLimited_of_keepsCooldown (by simp [Chronological, starvingLook]) ⟨?_, ?_, trivial⟩
  · exact ⟨fun _ h => absurd h (by decide), by decide, by decide⟩
  · refine ⟨fun _ _ tasks htasks hrecovered => ?_, by decide, by decide⟩
    obtain rfl : [] = tasks := Except.ok.inj htasks
    exact absurd hrecovered (by decide +kernel)

end Batty
