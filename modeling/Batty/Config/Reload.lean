import Batty.Dispatch.Daemon
import Batty.Foundation.Runs

/-!
# Reloading the team configuration

The daemon looks at `team.yaml` every few seconds and reloads the topology when the file has changed
or a marker asks for it. It keeps the modification time and the length that it has last seen, and
not more than one attempt is made in ten seconds.

What a check finds is taken note of before it is known whether an attempt may be made: the file's new
fingerprint is kept and the marker is removed first. A change that is found too soon after an
attempt is so never reloaded, and a request is lost if the file cannot be looked at
(`not_settled_editedTwice`).

* `WatchedTopology.Settled`: what the daemon has not reloaded, it will still find.
* `always_settled_iff`: the runs in which that is always so.
-/

namespace Batty

def configReloadCheckInterval : Nat := fromSecs 5

def configReloadMinInterval : Nat := fromSecs 10

/-- What the file system tells of a file. -/
structure Fingerprint where
  modified : Nat
  len : Nat
deriving DecidableEq

/-- What the monitor remembers: the file it has loaded, its last look and its last attempt. -/
structure ConfigReloadMonitor where
  last : Fingerprint
  lastChecked : Nat
  lastReloadAttempt : Option Nat := none

namespace ConfigReloadMonitor

variable (monitor : ConfigReloadMonitor)

def shouldCheck (now : Nat) : Bool := configReloadCheckInterval ≤ now - monitor.lastChecked

/-- Whether the file has changed, and from now on it has not. -/
def hasChanged (now : Nat) (metadata : Except String Fingerprint) :
    Except String Bool × ConfigReloadMonitor :=
  let monitor := { monitor with lastChecked := now }
  match metadata with
  | .error error => (.error error, monitor)
  | .ok found =>
    if found ≠ monitor.last then (.ok true, { monitor with last := found }) else (.ok false, monitor)

def canAttemptReload (now : Nat) : Bool :=
  monitor.lastReloadAttempt.all fun instant => configReloadMinInterval ≤ now - instant

def markReloadAttempt (now : Nat) : ConfigReloadMonitor :=
  { monitor with lastReloadAttempt := some now }

end ConfigReloadMonitor

/-- The file, the marker, and what the daemon knows of them. -/
structure Topology where
  config : Fingerprint
  marker : Bool
  monitor : ConfigReloadMonitor

/-- A tick: when the clock is read, and which accesses to the disk fail. -/
structure ReloadTick where
  now : Nat
  checkedAt : Nat
  triedAt : Nat
  markedAt : Nat
  removal : Except String Unit := .ok ()
  stat : Except String Unit := .ok ()

namespace Topology

/-- Whether there was a request, which is one no longer. -/
def consumeTopologyReloadRequest (topology : Topology) (removal : Except String Unit) :
    Except String Bool × Topology :=
  if !topology.marker then (.ok false, topology)
  else
    match removal with
    | .error error => (.error error, topology)
    | .ok _ => (.ok true, { topology with marker := false })

/-- Whether the tick gets as far as loading the configuration. -/
def maybeHotReloadConfig (topology : Topology) (tick : ReloadTick) : Bool × Topology :=
  if !topology.monitor.shouldCheck tick.now then (false, topology)
  else
    let (consumed, topology) := topology.consumeTopologyReloadRequest tick.removal
    let forced := consumed.toOption.getD false
    let (checked, monitor) :=
      topology.monitor.hasChanged tick.checkedAt (tick.stat.map fun _ => topology.config)
    let topology := { topology with monitor }
    match checked with
    | .error _ => (false, topology)
    | .ok changed =>
      if !changed && !forced then (false, topology)
      else if !monitor.canAttemptReload tick.triedAt then (false, topology)
      else (true, { topology with monitor := monitor.markReloadAttempt tick.markedAt })

end Topology

/-! ### Runs -/

/-- What happens to a daemon that watches its configuration. -/
inductive ReloadEvent where
  /-- The file is edited. -/
  | edit (config : Fingerprint)
  /-- A reload is asked for. -/
  | request
  | tick (tick : ReloadTick)

/-- The topology, and whether an edit or a request has come since the last attempt. -/
structure WatchedTopology extends Topology where
  owed : Bool

namespace WatchedTopology

/-- The daemon has just started; a request from before may be waiting. -/
def fresh (config : Fingerprint) (marker : Bool) (now : Nat) : WatchedTopology where
  config
  marker
  monitor := { last := config, lastChecked := now }
  owed := marker

def step (watched : WatchedTopology) : ReloadEvent → WatchedTopology
  | .edit config => { watched with config, owed := true }
  | .request => { watched with marker := true, owed := true }
  | .tick tick =>
    let (attempted, topology) := watched.maybeHotReloadConfig tick
    { topology with owed := watched.owed && !attempted }

/-- If there is nothing for the daemon to find, it has made an attempt since. -/
def Settled (watched : WatchedTopology) : Prop :=
  watched.config = watched.monitor.last → watched.marker = false → watched.owed = false

/-- The next event leaves something to find of what is not reloaded: an edit does not bring back
the fingerprint that the daemon knows, unless a request is waiting; and a check for which something
is left to reload either may make an attempt, or does not get to remove the marker, or finds no
marker and cannot look at the file, or cannot look at a file that has changed. -/
def Minds (watched : WatchedTopology) : ReloadEvent → Prop
  | .edit config => config = watched.monitor.last → watched.marker = true
  | .request => True
  | .tick tick => watched.owed = true → watched.monitor.shouldCheck tick.now = true →
      match tick.stat with
      | .ok _ => watched.monitor.canAttemptReload tick.triedAt = true ∨
          watched.marker = true ∧ tick.removal.isOk = false
      | .error _ => watched.config ≠ watched.monitor.last ∨
          watched.marker = true ∧ tick.removal.isOk = false

/-- A check that is due and gets to the marker and to the file leaves nothing owed: there has been
an attempt since the last edit and the last request. -/
def FollowsUp (watched : WatchedTopology) (events : List ReloadEvent) : Prop :=
  ∀ before tick, before ++ [.tick tick] <+: events →
    (before.foldl step watched).monitor.shouldCheck tick.now = true → tick.removal.isOk = true →
    tick.stat.isOk = true → ((before ++ [.tick tick]).foldl step watched).owed = false

end WatchedTopology

/-! ### What a tick does -/

/-- A tick that is due makes an attempt if there is something to reload and it is not too soon. -/
def Topology.attempts (topology : Topology) (tick : ReloadTick) : Bool :=
  tick.stat.isOk && (topology.config ≠ topology.monitor.last ||
    topology.marker && tick.removal.isOk) && topology.monitor.canAttemptReload tick.triedAt

/-- **A check** takes note of the file and removes the marker, whether or not it makes an attempt. -/
theorem Topology.maybeHotReloadConfig_due {topology : Topology} {tick : ReloadTick}
    (hdue : topology.monitor.shouldCheck tick.now = true) :
    topology.maybeHotReloadConfig tick = (topology.attempts tick,
      { config := topology.config
        marker := topology.marker && !tick.removal.isOk
        monitor :=
          { last := if tick.stat.isOk then topology.config else topology.monitor.last
            lastChecked := tick.checkedAt
            lastReloadAttempt :=
              if topology.attempts tick then some tick.markedAt
              else topology.monitor.lastReloadAttempt } }) := by
  -- Every outcome of the three accesses is gone through, with what was noted before.
  obtain ⟨config, marker, last, lastChecked, lastReloadAttempt⟩ := topology
  obtain ⟨now, checkedAt, triedAt, markedAt, removal, stat⟩ := tick
  rw [maybeHotReloadConfig, hdue]
  unfold attempts
  generalize hcan : ConfigReloadMonitor.canAttemptReload ⟨last, lastChecked, lastReloadAttempt⟩
    triedAt = can
  rw [ConfigReloadMonitor.canAttemptReload] at hcan
  cases marker <;> cases removal <;> cases stat <;> by_cases hsame : config = last <;> cases can <;>
    simp [consumeTopologyReloadRequest, ConfigReloadMonitor.hasChanged, Except.toOption,
      Except.isOk, Except.toBool, Except.map, ConfigReloadMonitor.canAttemptReload,
      ConfigReloadMonitor.markReloadAttempt, hsame, hcan]

namespace WatchedTopology

variable {watched : WatchedTopology} {events : List ReloadEvent}

theorem settled_due_iff {tick : ReloadTick} (hsettled : watched.Settled)
    (hdue : watched.monitor.shouldCheck tick.now = true) :
    Settled { config := watched.config
              marker := watched.marker && !tick.removal.isOk
              monitor :=
                { last := if tick.stat.isOk then watched.config else watched.monitor.last
                  lastChecked := tick.checkedAt
                  lastReloadAttempt :=
                    if watched.attempts tick then some tick.markedAt
                    else watched.monitor.lastReloadAttempt }
              owed := watched.owed && !watched.attempts tick } ↔ watched.Minds (.tick tick) := by
  simp only [Settled, Minds, Topology.attempts] at hsettled ⊢
  cases howed : watched.owed with
  | false => simp
  | true =>
    simp only [howed, reduceCtorEq, imp_false, Bool.not_eq_false] at hsettled
    -- whether the request is removed, and whether it is too soon for an attempt
    generalize tick.removal.isOk = removed
    generalize watched.monitor.canAttemptReload tick.triedAt = can
    cases tick.stat with
    | error error =>
      have hfails : (Except.error error : Except String Unit).isOk = false := rfl
      by_cases hsame : watched.config = watched.monitor.last
      · simp [hfails, hdue, hsame, hsettled hsame]
      · simp [hfails, hdue, hsame]
    | ok _ =>
      have hworks : ∀ done, (Except.ok done : Except String Unit).isOk = true := fun _ => rfl
      by_cases hsame : watched.config = watched.monitor.last
      · cases removed <;> simp [hworks, hdue, hsame, hsettled hsame]
      · cases removed <;> cases watched.marker <;> simp [hworks, hdue, hsame]

/-- **One event** keeps the law exactly if it leaves what it should to be found. -/
theorem settled_step_iff (hsettled : watched.Settled) (event : ReloadEvent) :
    (watched.step event).Settled ↔ watched.Minds event := by
  cases event with
  | edit config =>
    simp only [Settled, step, Minds, reduceCtorEq, imp_false, Bool.not_eq_false]
  | request =>
    simp only [Settled, step, Minds, reduceCtorEq, false_implies, implies_true]
  | tick tick =>
    by_cases hdue : watched.monitor.shouldCheck tick.now = true
    · have hstep : watched.step (.tick tick) =
          { (watched.maybeHotReloadConfig tick).2 with
            owed := watched.owed && !(watched.maybeHotReloadConfig tick).1 } := rfl
      rw [hstep, Topology.maybeHotReloadConfig_due hdue]
      exact settled_due_iff hsettled hdue
    · have hstep : watched.step (.tick tick) = watched := by
        simp only [step, Topology.maybeHotReloadConfig, hdue, Bool.not_false, if_true,
          Bool.and_true]
      rw [hstep]
      exact iff_of_true hsettled fun _ h => absurd h hdue

/-- What is still to be found is found by a check that gets to both files. -/
theorem followsUp_of_always (h : Always step Settled watched events) : watched.FollowsUp events := by
  intro before tick hprefix hdue hremoval hstat
  have hafter := h _ hprefix
  simp only [List.foldl_append, List.foldl_cons, List.foldl_nil] at hafter ⊢
  rw [step] at hafter ⊢
  rw [Topology.maybeHotReloadConfig_due hdue] at hafter ⊢
  refine hafter ?_ ?_
  · simp only [hstat, if_true]
  · simp only [hremoval, Bool.not_true, Bool.and_false]

/-- **Reloading.** What the daemon has not reloaded is always still to be found, and so is found by
the next check that gets to both files, exactly if no event hides it. -/
theorem always_settled_iff (config : Fingerprint) (marker : Bool) (now : Nat)
    (events : List ReloadEvent) :
    (Always step Settled (fresh config marker now) events ∧
        (fresh config marker now).FollowsUp events) ↔
      EachStep step Minds (fresh config marker now) events := by
  have hiff : Always step Settled (fresh config marker now) events ↔
      EachStep step Minds (fresh config marker now) events :=
    always_iff_eachStep (fun _ event hsettled => settled_step_iff hsettled event) fun _ => id
  exact ⟨fun h => hiff.mp h.1, fun h => ⟨hiff.mpr h, followsUp_of_always (hiff.mpr h)⟩⟩

/-- The check at one second. -/
def tickAt (secs : Nat) : ReloadTick where
  now := fromSecs secs
  checkedAt := fromSecs secs
  triedAt := fromSecs secs
  markedAt := fromSecs secs

/-- Two edits, each before one of two checks. -/
def editedTwice : List ReloadEvent :=
  [.edit ⟨1, 10⟩, .tick (tickAt 5), .edit ⟨2, 20⟩, .tick (tickAt 10)]

/-- The second edit is found too soon after the attempt for the first. -/
theorem not_settled_editedTwice : ¬ ∀ config marker now events,
    Always step Settled (fresh config marker now) events := by
  intro h
  have hlast := h ⟨0, 10⟩ false 0 editedTwice editedTwice List.prefix_rfl (by decide) (by decide)
  exact absurd hlast (by decide)

end WatchedTopology

end Batty
