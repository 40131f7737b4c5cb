import Mathlib.Algebra.Order.Ring.Int
import Mathlib.Data.List.TakeDrop
import Batty.Dispatch.Rounds

/-!
# Rescues and releases that come again

A task that was rescued, and a task with the engineer who gave it up, are held back from dispatch
for a while, the longer the more often it has happened in a row. The records of this are thrown
away by enqueue passes once they no longer count, and saved and restored when the daemon restarts.

`Recurrence` is the record as it would be if nothing were ever thrown away. Between restarts it is
the plain fold over the occurrences. A restart saves how many whole seconds ago the last one was,
and counts them back from when it restores them: it so moves the last occurrence forward, by
the time in between and the part of a second that was cut off, which holds the task back for longer
and lets the next occurrence find it sooner. What the daemon stores is exactly that record, or
nothing when the next occurrence would start from one again (`backoff_of_run`).
-/

namespace Batty

/-! ### Saving and restoring -/

/-- A record in the state file, with the time that had passed when it was written. -/
structure PersistedRecord where
  lastElapsedSecs : Nat
  count : Nat

def BackoffRecord.persist (record : BackoffRecord) (now : Nat) : PersistedRecord where
  lastElapsedSecs := (now - record.lastAt) / 1000000000
  count := record.count

/-- A time before the clock's first counts as now. -/
def PersistedRecord.restore (persisted : PersistedRecord) (now : Nat) : BackoffRecord where
  lastAt := if fromSecs persisted.lastElapsedSecs ≤ now then now - fromSecs persisted.lastElapsedSecs
    else now
  count := persisted.count

/-- The key under which a release is saved. -/
def releaseKey (taskId : Nat) (engineer : String) : String := s!"{taskId}:{engineer}"

/-- What comes before the first colon is the task, and what comes after it the engineer. -/
def splitReleaseKey (key : String) : Option (Nat × String) :=
  match key.toList.span (· ≠ ':') with
  | (digits, ':' :: engineer) => (Text.parseU32 digits).map fun taskId => (taskId, .ofList engineer)
  | _ => none

def mapRecords {V W : Type} (f : V → W) (records : AList fun _ : Nat => V) :
    AList fun _ : Nat => W where
  entries := records.entries.map (Sigma.map id fun _ => f)
  nodupKeys := by
    have hnodup := records.nodupKeys
    rwa [List.NodupKeys, List.keys, List.map_map]

/-- The records in the state file. -/
structure PersistedRecords where
  recentlyRescuedTasks : AList fun _ : Nat => PersistedRecord
  recentlyReleasedBy : String → Option PersistedRecord

def persistRecords : Action PersistedRecords := do
  let time ← now
  let daemon ← get
  return {
    recentlyRescuedTasks :=
      mapRecords (fun record => record.persist time) daemon.recentlyRescuedTasks
    recentlyReleasedBy := fun key =>
      (splitReleaseKey key).bind fun pair =>
        if releaseKey pair.1 pair.2 = key then
          (daemon.recentlyReleasedBy pair).map fun record => record.persist time
        else none }

def restoreRecords (persisted : PersistedRecords) : Action Unit := do
  let time ← now
  modify fun daemon => { daemon with
    recentlyRescuedTasks :=
      mapRecords (fun record => record.restore time) persisted.recentlyRescuedTasks
    recentlyReleasedBy := fun pair =>
      if splitReleaseKey (releaseKey pair.1 pair.2) = some pair then
        (persisted.recentlyReleasedBy (releaseKey pair.1 pair.2)).map fun record =>
          record.restore time
      else none }

/-- The key of a release is read back as it was written. -/
theorem splitReleaseKey_releaseKey {taskId : Nat} (h : taskId < 2 ^ 32) (engineer : String) :
    splitReleaseKey (releaseKey taskId engineer) = some (taskId, engineer) := by
  have hkey : (releaseKey taskId engineer).toList =
      (toString taskId).toList ++ ':' :: engineer.toList := by
    rw [releaseKey]
    simp
    rfl
  have hdigits : ∀ c ∈ (toString taskId).toList, decide (c ≠ ':') = true := by
    intro c hc
    rw [Nat.toString_eq_repr, Nat.toList_repr] at hc
    have hdigit : c.isDigit := Nat.isDigit_of_mem_toDigits (by decide) (by decide) hc
    exact decide_eq_true fun heq => absurd (heq ▸ hdigit) (by decide)
  have hspan : (releaseKey taskId engineer).toList.span (· ≠ ':') =
      ((toString taskId).toList, ':' :: engineer.toList) := by
    rw [hkey, List.span_eq_takeWhile_dropWhile, List.takeWhile_append_of_pos hdigits,
      List.dropWhile_append_of_pos hdigits]
    simp
  rw [splitReleaseKey, hspan]
  simp only [Text.parseU32_repr h, Option.map_some, String.ofList_toList]

theorem lookup_mapRecords {V W : Type} (f : V → W) (records : AList fun _ : Nat => V) (key : Nat) :
    (mapRecords f records).lookup key = (records.lookup key).map f :=
  List.dlookup_map₂ key

theorem dlookup_filter {V : Type} {entries : List (Σ _ : Nat, V)} (hnodup : entries.NodupKeys)
    (p : V → Bool) (key : Nat) :
    (entries.filter fun entry => p entry.2).dlookup key = (entries.dlookup key).filter p := by
  induction entries with
  | nil => rfl
  | cons entry entries ih =>
    obtain ⟨key', value⟩ := entry
    obtain ⟨hfresh, hrest⟩ := List.nodupKeys_cons.mp hnodup
    by_cases hkey : key' = key
    · subst hkey
      rw [List.dlookup_cons_eq, Option.filter_some, List.filter_cons]
      split
      · rw [List.dlookup_cons_eq]
      · rw [ih hrest, List.dlookup_eq_none.mpr hfresh, Option.filter_none]
    · rw [List.dlookup_cons_ne _ _ (Ne.symm hkey), ← ih hrest, List.filter_cons]
      split
      · rw [List.dlookup_cons_ne _ _ (Ne.symm hkey)]
      · rfl

/-! ### The record that is never thrown away -/

/-- Something happens, or the daemon is restarted: its records are saved and then restored. -/
inductive Occasion where
  | occurred (time : Nat)
  | restarted (savedAt restoredAt : Nat)

/-- When something happened last, at what time it is said to have happened since, and how often in
a row. -/
structure Recurrence where
  lastEvent : Nat
  lastAt : Nat
  count : Nat

def Recurrence.window (recurrence : Recurrence) (base : Nat) : Nat :=
  base * 2 ^ min (recurrence.count - 1) 4

/-- It counts as the next in a row if less than two windows have passed. A restart counts back from
its end the whole seconds that had passed before it. -/
def Recurrence.next (base : Nat) : Option Recurrence → Occasion → Option Recurrence
  | none, .occurred time => some { lastEvent := time, lastAt := time, count := 1 }
  | some recurrence, .occurred time => some {
      lastEvent := time
      lastAt := time
      count := if time - recurrence.lastAt < 2 * recurrence.window base then recurrence.count + 1
        else 1 }
  | none, .restarted _ _ => none
  | some recurrence, .restarted savedAt restoredAt => some { recurrence with
      lastAt := restoredAt - fromSecs ((savedAt - recurrence.lastAt) / 1000000000) }

def recurrence (base : Nat) (occasions : List Occasion) : Option Recurrence :=
  occasions.foldl (Recurrence.next base) none

/-- The fold over the occurrences alone, for which a restart is nothing. -/
def plainRecurrence (base : Nat) (occasions : List Occasion) : Option Recurrence :=
  recurrence base (occasions.filter fun
    | .occurred _ => true
    | .restarted _ _ => false)

theorem recurrence_concat (base : Nat) (occasions : List Occasion) (occasion : Occasion) :
    recurrence base (occasions ++ [occasion]) =
      Recurrence.next base (recurrence base occasions) occasion := by
  rw [recurrence, recurrence, List.foldl_append, List.foldl_cons, List.foldl_nil]

/-- **What is stored is the record itself**, up to the bound of its counter, unless the next
occurrence starts from one again anyway. -/
structure Follows (base time : Nat) (stored : Option BackoffRecord)
    (reference : Option Recurrence) : Prop where
  kept : ∀ record ∈ stored, ∃ recurrence ∈ reference, record.lastAt = recurrence.lastAt ∧
    record.count = min recurrence.count (2 ^ 32 - 1)
  dropped : stored = none → ∀ recurrence ∈ reference,
    recurrence.lastAt + 2 * recurrence.window base ≤ time
  past : ∀ recurrence ∈ reference,
    recurrence.lastEvent ≤ recurrence.lastAt ∧ recurrence.lastAt ≤ time

section

variable {base time later : Nat} {stored : Option BackoffRecord} {reference : Option Recurrence}
  {record : BackoffRecord} {recurrence : Recurrence}

theorem min_succ_min (count bound : Nat) : min (min count bound + 1) bound = min (count + 1) bound := by
  omega

theorem min_pred_min {count bound : Nat} (h : 5 ≤ bound) :
    min (min count bound - 1) 4 = min (count - 1) 4 := by
  omega

theorem fromSecs_div_le (time : Nat) : fromSecs (time / 1000000000) ≤ time :=
  Nat.div_mul_le_self _ _

theorem fromSecs_le_div {secs time : Nat} (h : fromSecs secs ≤ time) :
    fromSecs secs ≤ fromSecs (time / 1000000000) :=
  Nat.mul_le_mul_right _ ((Nat.le_div_iff_mul_le (Nat.succ_pos _)).mpr h)

theorem effectiveWindow_eq (h : record.count = min recurrence.count (2 ^ 32 - 1)) :
    record.effectiveWindow base = min durationMax (recurrence.window base) := by
  rw [BackoffRecord.effectiveWindow, Recurrence.window, h, min_pred_min (by decide)]

/-- No time that passes reaches the greatest duration, so its bound on windows is not felt. -/
theorem inCascadeWindow_eq (h : record.count = min recurrence.count (2 ^ 32 - 1))
    (hlast : record.lastAt = recurrence.lastAt) (hrepresentable : time < durationMax) :
    record.inCascadeWindow base time =
      decide (time - recurrence.lastAt < 2 * recurrence.window base) := by
  rw [BackoffRecord.inCascadeWindow, BackoffRecord.cascadeWindow, effectiveWindow_eq h, hlast,
    decide_eq_decide]
  omega

theorem dispatchBlocked_eq (h : record.count = min recurrence.count (2 ^ 32 - 1))
    (hlast : record.lastAt = recurrence.lastAt) (hrepresentable : time < durationMax) :
    record.dispatchBlocked base time =
      decide (time - recurrence.lastAt < recurrence.window base) := by
  rw [BackoffRecord.dispatchBlocked, effectiveWindow_eq h, hlast, decide_eq_decide]
  omega

theorem Follows.mono (h : Follows base time stored reference) (hle : time ≤ later) :
    Follows base later stored reference :=
  ⟨h.kept, fun hnone recurrence hmem => (h.dropped hnone recurrence hmem).trans hle,
    fun recurrence hmem => ⟨(h.past recurrence hmem).1, (h.past recurrence hmem).2.trans hle⟩⟩

/-- Another occurrence is counted alike. -/
theorem Follows.next_occurred (h : Follows base time stored reference) (hle : time ≤ later)
    (hrepresentable : later < durationMax) :
    Follows base later (some (.again stored base later))
      (Recurrence.next base reference (.occurred later)) := by
  have hcount : ∃ recurrence ∈ Recurrence.next base reference (.occurred later),
      recurrence.lastEvent = later ∧ recurrence.lastAt = later ∧
      (BackoffRecord.again stored base later).lastAt = later ∧
      (BackoffRecord.again stored base later).count = min recurrence.count (2 ^ 32 - 1) := by
    have hone : 1 = min 1 (2 ^ 32 - 1) := by decide
    cases stored with
    | none =>
      cases reference with
      | none => exact ⟨_, rfl, rfl, rfl, rfl, hone⟩
      | some recurrence =>
        have hdropped := h.dropped rfl recurrence rfl
        have hreset : ¬ later - recurrence.lastAt < 2 * recurrence.window base := by omega
        refine ⟨_, rfl, rfl, rfl, rfl, ?_⟩
        rw [if_neg hreset]
        exact hone
    | some record =>
      obtain ⟨recurrence, hmem, hlast, hcount⟩ := h.kept record rfl
      obtain rfl := Option.mem_def.mp hmem
      refine ⟨_, rfl, rfl, rfl, rfl, ?_⟩
      simp only [BackoffRecord.again, inCascadeWindow_eq hcount hlast hrepresentable,
        decide_eq_true_eq]
      split
      · rw [hcount, min_succ_min]
      · exact hone
  obtain ⟨recurrence, hmem, hevent, hlast, hlast', hcount⟩ := hcount
  refine ⟨fun record hrecord => ?_, fun hnone => (by cases hnone), fun recurrence' hmem' => ?_⟩
  · obtain rfl := Option.some.inj hrecord
    exact ⟨recurrence, hmem, hlast'.trans hlast.symm, hcount⟩
  · obtain rfl := Option.some.inj (hmem.symm.trans hmem')
    omega

/-- What the cascade window has run out for may be thrown away. -/
theorem Follows.lapse (h : Follows base time (some record) reference) (hle : time ≤ later)
    (hrepresentable : later < durationMax) (hlapsed : record.inCascadeWindow base later = false) :
    Follows base later none reference := by
  refine ⟨fun record hrecord => (by cases hrecord), fun _ recurrence hmem => ?_,
    (h.mono hle).past⟩
  obtain ⟨recurrence', hmem', hlast, hcount⟩ := h.kept record rfl
  obtain rfl := Option.some.inj (hmem.symm.trans hmem')
  rw [inCascadeWindow_eq hcount hlast hrepresentable, decide_eq_false_iff_not] at hlapsed
  have hpast := (h.past recurrence hmem).2
  omega

theorem Recurrence.window_lastAt (recurrence : Recurrence) (lastAt base : Nat) :
    { recurrence with lastAt }.window base = recurrence.window base := rfl

theorem eq_of_next_restarted {savedAt restoredAt : Nat} {recurrence' : Recurrence}
    (h : recurrence' ∈ Recurrence.next base (some recurrence) (.restarted savedAt restoredAt)) :
    recurrence' = { recurrence with
      lastAt := restoredAt - fromSecs ((savedAt - recurrence.lastAt) / 1000000000) } :=
  (Option.some.inj h).symm

/-- What is restored is as old as whole seconds say it was when it was saved. -/
theorem restore_persist {savedAt restoredAt : Nat} (h : savedAt ≤ restoredAt) :
    (record.persist savedAt).restore restoredAt = { record with
      lastAt := restoredAt - fromSecs ((savedAt - record.lastAt) / 1000000000) } := by
  have hback : fromSecs ((savedAt - record.lastAt) / 1000000000) ≤ restoredAt :=
    (fromSecs_div_le _).trans ((Nat.sub_le _ _).trans h)
  rw [PersistedRecord.restore, BackoffRecord.persist, if_pos hback]

/-- A restart moves the record and what is stored alike. That what was thrown away still does not
count is because windows are whole seconds. -/
theorem Follows.next_restarted {secs restoredAt : Nat} (h : Follows (fromSecs secs) time stored reference)
    (hsaved : time ≤ later) (hrestored : later ≤ restoredAt) :
    Follows (fromSecs secs) restoredAt
      (stored.map fun record => (record.persist later).restore restoredAt)
      (Recurrence.next (fromSecs secs) reference (.restarted later restoredAt)) := by
  cases reference with
  | none =>
    cases stored with
    | none => exact ⟨fun _ hrecord => (by cases hrecord), fun _ _ hmem => (by cases hmem),
        fun _ hmem => (by cases hmem)⟩
    | some record =>
      obtain ⟨recurrence, hmem, -⟩ := h.kept record rfl
      cases hmem
  | some recurrence =>
    obtain ⟨hevent, hpast⟩ := h.past recurrence rfl
    have hback := fromSecs_div_le (later - recurrence.lastAt)
    have hmoved : recurrence.lastEvent ≤
        restoredAt - fromSecs ((later - recurrence.lastAt) / 1000000000) ∧
          restoredAt - fromSecs ((later - recurrence.lastAt) / 1000000000) ≤ restoredAt := by omega
    refine ⟨fun record' hrecord' => ?_, fun hnone recurrence' hmem' => ?_, fun recurrence' hmem' => ?_⟩
    · obtain ⟨record, hrecord, hrestore⟩ := Option.map_eq_some_iff.mp hrecord'
      obtain ⟨recurrence', hmem, hlast, hcount⟩ := h.kept record hrecord
      obtain rfl := Option.some.inj hmem
      rw [restore_persist hrestored] at hrestore
      refine ⟨_, rfl, ?_, ?_⟩
      · rw [← hrestore, hlast]
      · rw [← hrestore]
        exact hcount
    · have hdropped := h.dropped (Option.map_eq_none_iff.mp hnone) recurrence rfl
      have hwhole : 2 * recurrence.window (fromSecs secs) =
          fromSecs (2 * secs * 2 ^ min (recurrence.count - 1) 4) := by
        rw [Recurrence.window, fromSecs, fromSecs]
        ac_rfl
      have hwindow : 2 * recurrence.window (fromSecs secs) ≤
          fromSecs ((later - recurrence.lastAt) / 1000000000) := by
        rw [hwhole] at hdropped ⊢
        exact fromSecs_le_div (by omega)
      have hover : restoredAt - fromSecs ((later - recurrence.lastAt) / 1000000000) +
          2 * recurrence.window (fromSecs secs) ≤ restoredAt := by omega
      rw [eq_of_next_restarted hmem', Recurrence.window_lastAt]
      exact hover
    · rw [eq_of_next_restarted hmem']
      exact hmoved

/-- **The gate.** Dispatch is blocked until the window of the record is over. -/
theorem Follows.blocked_iff (h : Follows base time stored reference)
    (hrepresentable : time < durationMax) :
    (∃ record ∈ stored, record.dispatchBlocked base time = true) ↔
      ∃ recurrence ∈ reference, time < recurrence.lastAt + recurrence.window base := by
  constructor
  · rintro ⟨record, hrecord, hblocked⟩
    obtain ⟨recurrence, hmem, hlast, hcount⟩ := h.kept record hrecord
    rw [dispatchBlocked_eq hcount hlast hrepresentable, decide_eq_true_eq] at hblocked
    have hpast := (h.past recurrence hmem).2
    exact ⟨recurrence, hmem, by omega⟩
  · rintro ⟨recurrence, hmem, hblocked⟩
    cases stored with
    | none =>
      have hdropped := h.dropped rfl recurrence hmem
      omega
    | some record =>
      obtain ⟨recurrence', hmem', hlast, hcount⟩ := h.kept record rfl
      obtain rfl := Option.some.inj (hmem.symm.trans hmem')
      refine ⟨record, rfl, ?_⟩
      rw [dispatchBlocked_eq hcount hlast hrepresentable, decide_eq_true_eq]
      have hpast := (h.past recurrence hmem).2
      omega

end

/-! ### What enqueue passes throw away -/

/-- A record stays, or it is thrown away at a time at which its cascade window is over. -/
def Lapses (base : Nat) (daemon daemon' : Daemon) (stored stored' : Option BackoffRecord) : Prop :=
  stored' = stored ∨ stored' = none ∧ ∃ record ∈ stored, ∃ question, daemon.asked ≤ question ∧
    question < daemon'.asked ∧
    record.inCascadeWindow base (daemon.outside.clock question) = false

/-- What an enqueue pass does to the records of rescues and releases. -/
structure Daemon.Expires (daemon daemon' : Daemon) : Prop where
  config : daemon'.config = daemon.config
  outside : daemon'.outside = daemon.outside
  asked : daemon.asked ≤ daemon'.asked
  rescued : ∀ taskId, Lapses daemon.rescueBase daemon daemon'
    (daemon.recentlyRescuedTasks.lookup taskId) (daemon'.recentlyRescuedTasks.lookup taskId)
  released : ∀ pair, Lapses daemon.releaseExclusionWindow daemon daemon'
    (daemon.recentlyReleasedBy pair) (daemon'.recentlyReleasedBy pair)

section

variable {daemon daemon' mid : Daemon} {α : Type} {m : Action α}

theorem Lapses.trans {base : Nat} {stored stored' stored'' : Option BackoffRecord}
    (houtside : mid.outside = daemon.outside) (hasked : daemon.asked ≤ mid.asked)
    (hasked' : mid.asked ≤ daemon'.asked) (h : Lapses base daemon mid stored stored')
    (h' : Lapses base mid daemon' stored' stored'') : Lapses base daemon daemon' stored stored'' := by
  rcases h with rfl | ⟨rfl, record, hrecord, question, hfrom, hto, hlapsed⟩
  · rcases h' with rfl | ⟨rfl, record, hrecord, question, hfrom, hto, hlapsed⟩
    · exact .inl rfl
    · rw [houtside] at hlapsed
      exact .inr ⟨rfl, record, hrecord, question, hasked.trans hfrom, hto, hlapsed⟩
  · rcases h' with rfl | ⟨-, _, hnone, -⟩
    · exact .inr ⟨rfl, record, hrecord, question, hfrom, hto.trans_le hasked', hlapsed⟩
    · cases hnone

instance : IsPreorder Daemon Daemon.Expires where
  refl _ := ⟨rfl, rfl, le_rfl, fun _ => .inl rfl, fun _ => .inl rfl⟩
  trans daemon mid _ h h' := by
    have hrescued := h'.rescued
    have hreleased := h'.released
    rw [Daemon.rescueBase, h.config] at hrescued
    rw [Daemon.releaseExclusionWindow, h.config] at hreleased
    exact ⟨h'.config.trans h.config, h'.outside.trans h.outside, h.asked.trans h'.asked,
      fun taskId => (h.rescued taskId).trans h.outside h.asked h'.asked (hrescued taskId),
      fun pair => (h.released pair).trans h.outside h.asked h'.asked (hreleased pair)⟩

theorem Daemon.Stays.expires (h : daemon.Stays daemon') : daemon.Expires daemon' where
  config := h.config
  outside := h.outside
  asked := h.asked
  rescued taskId := .inl (by rw [h.recentlyRescuedTasks])
  released pair := .inl (by rw [h.recentlyReleasedBy])

theorem Moves.toExpires (h : Moves Daemon.Reads m) : Moves Daemon.Expires m := fun daemon =>
  (h daemon).mono (fun _ _ h => h.toStays.expires) fun _ _ h => h.toStays.expires

theorem lapses_filter (base : Nat) (hasked : daemon'.asked = daemon.asked + 1)
    (stored : Option BackoffRecord) :
    Lapses base daemon daemon' stored (stored.filter fun record =>
      record.inCascadeWindow base (daemon.outside.clock daemon.asked)) := by
  cases stored with
  | none => exact .inl rfl
  | some record =>
    rw [Option.filter_some]
    split
    · exact .inl rfl
    · rename_i hlapsed
      exact .inr ⟨rfl, record, rfl, daemon.asked, le_rfl, by omega, Bool.eq_false_of_not_eq_true hlapsed⟩

theorem moves_expire : Moves Daemon.Expires expireRecords := by
  intro daemon
  refine ⟨rfl, rfl, Nat.le_succ _, fun taskId => ?_, fun pair => lapses_filter _ rfl _⟩
  have hlookup := dlookup_filter daemon.recentlyRescuedTasks.nodupKeys
    (fun record : BackoffRecord => record.inCascadeWindow daemon.rescueBase
      (daemon.outside.clock daemon.asked)) taskId
  have hlapses : Lapses daemon.rescueBase daemon { daemon with asked := daemon.asked + 1 } _ _ :=
    lapses_filter daemon.rescueBase rfl (daemon.recentlyRescuedTasks.lookup taskId)
  rw [AList.lookup, ← hlookup] at hlapses
  exact hlapses

theorem moves_refresh : Moves Daemon.Expires refreshRecords :=
  moves_loadTasks.toExpires.bind fun _ => moves_benchedEngineerNames.toExpires.bind fun _ =>
    moves_expire.bind fun _ => moves_rescuedTaskIds.toExpires.bind fun _ =>
      (moves_ask _).toExpires.bind fun _ => (moves_orFail _).bind fun _ => moves_pure _

theorem moves_availableTasks (unavailable rescued retries : List Nat) :
    Moves Daemon.Reads (availableTasks unavailable rescued retries) := fun _ =>
  (after_availableTasks _ _ _).mono (fun _ _ h => h.1) fun _ _ h => h

theorem moves_prepareEnqueue : Moves Daemon.Expires prepareEnqueue :=
  moves_refresh.bind fun _ => moves_get.bind fun _ =>
    (moves_availableTasks _ _ _).toExpires.bind fun _ => moves_get.bind fun _ => moves_pure _

/-- **An enqueue pass throws records away when their cascade window is over**, and does nothing else
to them. -/
theorem expires_enqueueDispatchCandidates (rounds : Nat) :
    daemon.Expires (endState (enqueueDispatchCandidates rounds) daemon) := by
  refine after_iff_endState.mp ?_
  rw [enqueueDispatchCandidates, after_bind]
  refine (moves_prepareEnqueue daemon).mono ?_ fun _ _ h => h
  rintro ⟨pass, enqueued⟩ mid hmid
  have hreads : ∀ {first second : Daemon}, first.Reads second → daemon.Expires first →
      daemon.Expires second := fun hreads h => trans_of Daemon.Expires h hreads.toStays.expires
  have hround : ∀ {enqueued enqueued' : Enqueued} {first second : Daemon}, daemon.Expires first →
      RoundTaken pass enqueued first (some enqueued') second → daemon.Expires second := by
    intro enqueued enqueued' first second h htaken
    cases htaken with
    | left hleft _ _ => exact hreads hleft h
    | serialized hstays _ _ _ _ => exact trans_of Daemon.Expires h hstays.expires
    | queued hqueued _ _ _ =>
      have hkept := hreads hqueued h
      exact ⟨hkept.config, hkept.outside, hkept.asked, hkept.rescued, hkept.released⟩
  exact (after_enqueueLoop (I := fun _ mid => daemon.Expires mid) (fun h => hreads h) hround rounds
    hmid).mono
    (fun _ _ h => h.choose_spec) fun _ _ h => h.choose_spec

end

/-! ### Histories -/

/-- Something that happens to the records of rescues and releases. -/
inductive BackoffEvent where
  | rescued (taskId time : Nat)
  | released (taskId : Nat) (engineer : String) (time : Nat)
  | restarted (savedAt restoredAt : Nat)

/-- What the event is for the rescues of a task. -/
def BackoffEvent.ofTask (taskId : Nat) : BackoffEvent → Option Occasion
  | .rescued other time => if other = taskId then some (.occurred time) else none
  | .released _ _ _ => none
  | .restarted savedAt restoredAt => some (.restarted savedAt restoredAt)

/-- What the event is for the releases of a task by an engineer. -/
def BackoffEvent.ofPair (pair : Nat × String) : BackoffEvent → Option Occasion
  | .rescued _ _ => none
  | .released taskId engineer time => if (taskId, engineer) = pair then some (.occurred time) else none
  | .restarted savedAt restoredAt => some (.restarted savedAt restoredAt)

/-- A history of a daemon that began with no records. A restart saves the records of one daemon and
restores them in the next, which has the same team and the same clock; other steps leave the
records alone. -/
inductive BackoffRun : List BackoffEvent → Daemon → Prop where
  | start {daemon} : daemon.recentlyRescuedTasks = ∅ →
      daemon.recentlyReleasedBy = (fun _ => none) → BackoffRun [] daemon
  | rescue {events daemon daemon'} (taskId : Nat) : BackoffRun events daemon →
      recordTaskRescue taskId daemon = .ok () daemon' →
      BackoffRun (events ++ [.rescued taskId (daemon.outside.clock daemon.asked)]) daemon'
  | release {events daemon daemon'} (taskId : Nat) (engineer : String) : BackoffRun events daemon →
      recordTaskReleaseBy taskId engineer daemon = .ok () daemon' →
      BackoffRun (events ++ [.released taskId engineer (daemon.outside.clock daemon.asked)]) daemon'
  | enqueue {events daemon} (rounds : Nat) : BackoffRun events daemon →
      BackoffRun events (endState (enqueueDispatchCandidates rounds) daemon)
  | restart {events daemon persisted mid fresh daemon'} : BackoffRun events daemon →
      persistRecords daemon = .ok persisted mid → fresh.config = mid.config →
      fresh.outside = mid.outside → mid.asked ≤ fresh.asked →
      restoreRecords persisted fresh = .ok () daemon' →
      BackoffRun (events ++ [.restarted (daemon.outside.clock daemon.asked)
        (fresh.outside.clock fresh.asked)]) daemon'
  | other {events daemon daemon'} : BackoffRun events daemon →
      daemon'.config = daemon.config → daemon'.outside = daemon.outside →
      daemon.asked ≤ daemon'.asked → daemon'.recentlyRescuedTasks = daemon.recentlyRescuedTasks →
      daemon'.recentlyReleasedBy = daemon.recentlyReleasedBy → BackoffRun events daemon'

/-- **The record of a key is exact**: what is stored, and what is held back at `time`. -/
structure BackoffExact (base time : Nat) (stored : Option BackoffRecord)
    (reference : Option Recurrence) (heldBack : Prop) : Prop where
  count : ∀ record ∈ stored, ∃ recurrence ∈ reference,
    record.count = min recurrence.count (2 ^ 32 - 1) ∧
    record.effectiveWindow base = min durationMax (recurrence.window base)
  startsAgain : stored = none → ∀ recurrence ∈ reference, ∀ later, time ≤ later →
    ∀ recurrence' ∈ Recurrence.next base (some recurrence) (.occurred later), recurrence'.count = 1
  gate : heldBack ↔ ∃ recurrence ∈ reference, time < recurrence.lastAt + recurrence.window base
  notEarly : ∀ recurrence ∈ reference, time < recurrence.lastEvent + recurrence.window base → heldBack

theorem Follows.exact {base time : Nat} {stored : Option BackoffRecord}
    {reference : Option Recurrence} {heldBack : Prop} (h : Follows base time stored reference)
    (hrepresentable : time < durationMax)
    (hheldBack : heldBack ↔ ∃ record ∈ stored, record.dispatchBlocked base time = true) :
    BackoffExact base time stored reference heldBack := by
  rw [h.blocked_iff hrepresentable] at hheldBack
  refine ⟨fun record hrecord => ?_, fun hnone recurrence hmem later hle recurrence' hmem' => ?_,
    hheldBack, fun recurrence hmem hearly => ?_⟩
  · obtain ⟨recurrence, hmem, -, hcount⟩ := h.kept record hrecord
    exact ⟨recurrence, hmem, hcount, effectiveWindow_eq hcount⟩
  · have hdropped := h.dropped hnone recurrence hmem
    obtain rfl := Option.some.inj hmem'
    exact if_neg (by omega)
  · have hpast := (h.past recurrence hmem).1
    exact hheldBack.mpr ⟨recurrence, hmem, by omega⟩

section

variable {daemon daemon' : Daemon} {events : List BackoffEvent}

/-- Every key is followed. -/
structure Daemon.FollowsAll (daemon : Daemon) (events : List BackoffEvent) : Prop where
  rescued : ∀ taskId, Follows daemon.rescueBase (daemon.outside.clock daemon.asked)
    (daemon.recentlyRescuedTasks.lookup taskId)
    (recurrence daemon.rescueBase (events.filterMap (BackoffEvent.ofTask taskId)))
  released : ∀ taskId < 2 ^ 32, ∀ engineer, Follows daemon.releaseExclusionWindow
    (daemon.outside.clock daemon.asked) (daemon.recentlyReleasedBy (taskId, engineer))
    (recurrence daemon.releaseExclusionWindow
      (events.filterMap (BackoffEvent.ofPair (taskId, engineer))))

theorem filterMap_concat_some {α β : Type} {f : α → Option β} {xs : List α} {x : α} {y : β}
    (h : f x = some y) : (xs ++ [x]).filterMap f = xs.filterMap f ++ [y] := by
  rw [List.filterMap_append, List.filterMap_cons_some h, List.filterMap_nil]

theorem filterMap_concat_none {α β : Type} {f : α → Option β} {xs : List α} {x : α}
    (h : f x = none) : (xs ++ [x]).filterMap f = xs.filterMap f := by
  rw [List.filterMap_append, List.filterMap_cons_none h, List.filterMap_nil, List.append_nil]

theorem Follows.lapses {base : Nat} {stored stored' : Option BackoffRecord}
    {reference : Option Recurrence}
    (h : Follows base (daemon.outside.clock daemon.asked) stored reference)
    (hlapses : Lapses base daemon daemon' stored stored') (houtside : daemon'.outside = daemon.outside)
    (hasked : daemon.asked ≤ daemon'.asked)
    (hrepresentable : ∀ question, daemon.outside.clock question < durationMax) :
    Follows base (daemon'.outside.clock daemon'.asked) stored' reference := by
  rw [houtside]
  have hclock := daemon.outside.clock.monotone
  rcases hlapses with rfl | ⟨rfl, record, hrecord, question, hfrom, hto, hlapsed⟩
  · exact h.mono (hclock hasked)
  · obtain rfl := Option.mem_def.mp hrecord
    exact (h.lapse (hclock hfrom) (hrepresentable question) hlapsed).mono (hclock hto.le)

theorem Daemon.Expires.followsAll (h : daemon.Expires daemon') (hfollows : daemon.FollowsAll events)
    (hrepresentable : ∀ question, daemon.outside.clock question < durationMax) :
    daemon'.FollowsAll events := by
  refine ⟨fun taskId => ?_, fun taskId hid engineer => ?_⟩
  · rw [Daemon.rescueBase, h.config]
    exact (hfollows.rescued taskId).lapses (h.rescued taskId) h.outside h.asked hrepresentable
  · rw [Daemon.releaseExclusionWindow, h.config]
    exact (hfollows.released taskId hid engineer).lapses (h.released (taskId, engineer)) h.outside
      h.asked hrepresentable

/-- The clock is read once, and nothing else changes but the records. -/
structure Daemon.Ticks (daemon daemon' : Daemon) : Prop where
  config : daemon'.config = daemon.config
  outside : daemon'.outside = daemon.outside
  asked : daemon'.asked = daemon.asked + 1

theorem Follows.tick {base : Nat} {stored : Option BackoffRecord} {reference : Option Recurrence}
    (h : Follows base (daemon.outside.clock daemon.asked) stored reference)
    (hticks : daemon.Ticks daemon') :
    Follows base (daemon'.outside.clock daemon'.asked) stored reference := by
  rw [hticks.outside, hticks.asked]
  exact h.mono (daemon.outside.clock.monotone (Nat.le_succ _))

theorem recordTaskRescue_returns {taskId : Nat}
    (h : recordTaskRescue taskId daemon = .ok () daemon') : daemon.Ticks daemon' ∧
      daemon'.recentlyReleasedBy = daemon.recentlyReleasedBy ∧
      daemon'.recentlyRescuedTasks = daemon.recentlyRescuedTasks.insert taskId
        (.again (daemon.recentlyRescuedTasks.lookup taskId) daemon.rescueBase
          (daemon.outside.clock daemon.asked)) := by
  cases h
  exact ⟨⟨rfl, rfl, rfl⟩, rfl, rfl⟩

theorem recordTaskReleaseBy_returns {taskId : Nat} {engineer : String}
    (h : recordTaskReleaseBy taskId engineer daemon = .ok () daemon') : daemon.Ticks daemon' ∧
      daemon'.recentlyRescuedTasks = daemon.recentlyRescuedTasks ∧
      daemon'.recentlyReleasedBy = Function.update daemon.recentlyReleasedBy (taskId, engineer)
        (some (.again (daemon.recentlyReleasedBy (taskId, engineer)) daemon.releaseExclusionWindow
          (daemon.outside.clock daemon.asked))) := by
  cases h
  exact ⟨⟨rfl, rfl, rfl⟩, rfl, rfl⟩

theorem persistRecords_returns {persisted : PersistedRecords}
    (h : persistRecords daemon = .ok persisted daemon') : daemon.Ticks daemon' ∧
      persisted.recentlyRescuedTasks = mapRecords
        (fun record => record.persist (daemon.outside.clock daemon.asked))
        daemon.recentlyRescuedTasks ∧
      ∀ taskId < 2 ^ 32, ∀ engineer, persisted.recentlyReleasedBy (releaseKey taskId engineer) =
        (daemon.recentlyReleasedBy (taskId, engineer)).map fun record =>
          record.persist (daemon.outside.clock daemon.asked) := by
  cases h
  refine ⟨⟨rfl, rfl, rfl⟩, rfl, fun taskId hid engineer => ?_⟩
  simp only [splitReleaseKey_releaseKey hid engineer, Option.bind_some, if_true]

theorem restoreRecords_returns {persisted : PersistedRecords}
    (h : restoreRecords persisted daemon = .ok () daemon') : daemon.Ticks daemon' ∧
      daemon'.recentlyRescuedTasks = mapRecords
        (fun record => record.restore (daemon.outside.clock daemon.asked))
        persisted.recentlyRescuedTasks ∧
      ∀ taskId < 2 ^ 32, ∀ engineer, daemon'.recentlyReleasedBy (taskId, engineer) =
        (persisted.recentlyReleasedBy (releaseKey taskId engineer)).map fun record =>
          record.restore (daemon.outside.clock daemon.asked) := by
  cases h
  refine ⟨?_, ?_, ?_⟩
  · exact ⟨rfl, rfl, rfl⟩
  · rfl
  · intro taskId hid engineer
    exact if_pos (splitReleaseKey_releaseKey hid engineer)

/-! ### One event after the other -/

theorem Daemon.FollowsAll.rescue {taskId : Nat} (h : daemon.FollowsAll events)
    (hrun : recordTaskRescue taskId daemon = .ok () daemon')
    (hrepresentable : ∀ question, daemon.outside.clock question < durationMax) :
    daemon'.FollowsAll (events ++ [.rescued taskId (daemon.outside.clock daemon.asked)]) := by
  obtain ⟨hticks, hreleased, hrescued⟩ := recordTaskRescue_returns hrun
  refine ⟨fun other => ?_, fun other hid engineer => ?_⟩
  · rw [Daemon.rescueBase, hticks.config, ← Daemon.rescueBase, hrescued]
    by_cases hother : taskId = other
    · subst hother
      have hoccurred : BackoffEvent.ofTask taskId
          (.rescued taskId (daemon.outside.clock daemon.asked)) =
            some (.occurred (daemon.outside.clock daemon.asked)) := if_pos rfl
      rw [filterMap_concat_some hoccurred, recurrence_concat, AList.lookup_insert]
      exact ((h.rescued taskId).next_occurred le_rfl (hrepresentable _)).tick hticks
    · -- The other tasks do not see the event.
      have hnone : BackoffEvent.ofTask other
          (.rescued taskId (daemon.outside.clock daemon.asked)) = none := if_neg hother
      rw [filterMap_concat_none hnone, AList.lookup_insert_ne (Ne.symm hother)]
      exact (h.rescued other).tick hticks
  · rw [filterMap_concat_none rfl, hreleased, Daemon.releaseExclusionWindow, hticks.config]
    exact (h.released other hid engineer).tick hticks

theorem Daemon.FollowsAll.release {taskId : Nat} {engineer : String} (h : daemon.FollowsAll events)
    (hrun : recordTaskReleaseBy taskId engineer daemon = .ok () daemon')
    (hrepresentable : ∀ question, daemon.outside.clock question < durationMax) :
    daemon'.FollowsAll
      (events ++ [.released taskId engineer (daemon.outside.clock daemon.asked)]) := by
  obtain ⟨hticks, hrescued, hreleased⟩ := recordTaskReleaseBy_returns hrun
  refine ⟨fun other => ?_, fun other hid name => ?_⟩
  · rw [filterMap_concat_none rfl, hrescued, Daemon.rescueBase, hticks.config]
    exact (h.rescued other).tick hticks
  · rw [Daemon.releaseExclusionWindow, hticks.config, ← Daemon.releaseExclusionWindow, hreleased]
    by_cases hpair : (taskId, engineer) = (other, name)
    · obtain ⟨rfl, rfl⟩ := Prod.mk.inj hpair
      have hoccurred : BackoffEvent.ofPair (taskId, engineer)
          (.released taskId engineer (daemon.outside.clock daemon.asked)) =
            some (.occurred (daemon.outside.clock daemon.asked)) := if_pos rfl
      rw [filterMap_concat_some hoccurred, recurrence_concat, Function.update_self]
      exact ((h.released taskId hid engineer).next_occurred le_rfl (hrepresentable _)).tick hticks
    · have hnone : BackoffEvent.ofPair (other, name)
          (.released taskId engineer (daemon.outside.clock daemon.asked)) = none := if_neg hpair
      rw [filterMap_concat_none hnone, Function.update_of_ne (Ne.symm hpair)]
      exact (h.released other hid name).tick hticks

/-- A restart stores the records and reads them back, as old as they are by then. -/
theorem Daemon.FollowsAll.restart {persisted : PersistedRecords} {mid fresh : Daemon}
    (h : daemon.FollowsAll events) (hpersist : persistRecords daemon = .ok persisted mid)
    (hconfig : fresh.config = mid.config) (houtside : fresh.outside = mid.outside)
    (hasked : mid.asked ≤ fresh.asked) (hrestore : restoreRecords persisted fresh = .ok () daemon') :
    daemon'.FollowsAll (events ++ [.restarted (daemon.outside.clock daemon.asked)
      (fresh.outside.clock fresh.asked)]) := by
  obtain ⟨hmid, hrescued, hreleased⟩ := persistRecords_returns hpersist
  obtain ⟨hlast, hrescued', hreleased'⟩ := restoreRecords_returns hrestore
  have hconfig' : daemon'.config = daemon.config := hlast.config.trans (hconfig.trans hmid.config)
  have hasked' : daemon.asked ≤ fresh.asked := by
    have hnext := hmid.asked
    omega
  have hclock : daemon.outside.clock daemon.asked ≤ fresh.outside.clock fresh.asked := by
    rw [houtside.trans hmid.outside]
    exact daemon.outside.clock.monotone hasked'
  refine ⟨fun taskId => ?_, fun taskId hid engineer => ?_⟩
  · have hlookup : daemon'.recentlyRescuedTasks.lookup taskId =
        (daemon.recentlyRescuedTasks.lookup taskId).map fun record =>
          (record.persist (daemon.outside.clock daemon.asked)).restore
            (fresh.outside.clock fresh.asked) := by
      rw [hrescued', hrescued, lookup_mapRecords, lookup_mapRecords, Option.map_map]
      rfl
    have hrestarted : BackoffEvent.ofTask taskId (.restarted
        (daemon.outside.clock daemon.asked) (fresh.outside.clock fresh.asked)) =
          some (.restarted _ _) := rfl
    rw [filterMap_concat_some hrestarted, recurrence_concat, hlookup, Daemon.rescueBase, hconfig']
    exact ((h.rescued taskId).next_restarted le_rfl hclock).tick hlast
  · have hlookup : daemon'.recentlyReleasedBy (taskId, engineer) =
        (daemon.recentlyReleasedBy (taskId, engineer)).map fun record =>
          (record.persist (daemon.outside.clock daemon.asked)).restore
            (fresh.outside.clock fresh.asked) := by
      rw [hreleased' taskId hid, hreleased taskId hid, Option.map_map]
      rfl
    have hrestarted : BackoffEvent.ofPair (taskId, engineer) (.restarted
        (daemon.outside.clock daemon.asked) (fresh.outside.clock fresh.asked)) =
          some (.restarted _ _) := rfl
    rw [filterMap_concat_some hrestarted, recurrence_concat, hlookup,
      Daemon.releaseExclusionWindow, hconfig']
    exact ((h.released taskId hid engineer).next_restarted le_rfl hclock).tick hlast

theorem Daemon.followsAll_start (hrescued : daemon.recentlyRescuedTasks = ∅)
    (hreleased : daemon.recentlyReleasedBy = fun _ => none) : daemon.FollowsAll [] := by
  refine ⟨fun taskId => ?_, fun taskId _ engineer => ?_⟩
  · rw [hrescued]
    exact ⟨fun _ hrecord => (by cases hrecord), fun _ _ hmem => (by cases hmem),
      fun _ hmem => (by cases hmem)⟩
  · rw [hreleased]
    exact ⟨fun _ hrecord => (by cases hrecord), fun _ _ hmem => (by cases hmem),
      fun _ hmem => (by cases hmem)⟩

theorem BackoffRun.followsAll (run : BackoffRun events daemon)
    (hrepresentable : ∀ question, daemon.outside.clock question < durationMax) :
    daemon.FollowsAll events := by
  induction run with
  | start hrescued hreleased => exact Daemon.followsAll_start hrescued hreleased
  | rescue taskId _ hrun ih =>
    obtain ⟨hticks, -⟩ := recordTaskRescue_returns hrun
    rw [hticks.outside] at hrepresentable
    exact (ih hrepresentable).rescue hrun hrepresentable
  | release taskId engineer _ hrun ih =>
    obtain ⟨hticks, -⟩ := recordTaskReleaseBy_returns hrun
    rw [hticks.outside] at hrepresentable
    exact (ih hrepresentable).release hrun hrepresentable
  | @enqueue events daemon rounds _ ih =>
    have hexpires : daemon.Expires _ := expires_enqueueDispatchCandidates rounds
    rw [hexpires.outside] at hrepresentable
    exact hexpires.followsAll (ih hrepresentable) hrepresentable
  | restart _ hpersist hconfig houtside hasked hrestore ih =>
    have hmid := (persistRecords_returns hpersist).1.outside
    have hlast := (restoreRecords_returns hrestore).1.outside
    rw [hlast, houtside, hmid] at hrepresentable
    exact (ih hrepresentable).restart hpersist hconfig houtside hasked hrestore
  | @other events daemon daemon' _ hconfig houtside hasked hrescued hreleased ih =>
    rw [houtside] at hrepresentable
    have hexpires : daemon.Expires daemon' := ⟨hconfig, houtside, hasked,
      fun taskId => .inl (by rw [hrescued]), fun pair => .inl (by rw [hreleased])⟩
    exact hexpires.followsAll (ih hrepresentable) hrepresentable

theorem mem_rescuedTaskIds_iff {taskId : Nat} {time : Nat} :
    taskId ∈ (daemon.recentlyRescuedTasks.entries.filter fun entry =>
        entry.2.dispatchBlocked daemon.rescueBase time).map Sigma.fst ↔
      ∃ record ∈ daemon.recentlyRescuedTasks.lookup taskId,
        record.dispatchBlocked daemon.rescueBase time = true := by
  simp only [List.mem_map, List.mem_filter, AList.mem_lookup_iff]
  constructor
  · rintro ⟨⟨taskId, record⟩, ⟨hmem, hblocked⟩, rfl⟩
    exact ⟨record, hmem, hblocked⟩
  · rintro ⟨record, hmem, hblocked⟩
    exact ⟨⟨taskId, record⟩, ⟨hmem, hblocked⟩, rfl⟩

/-- **Backoff through pruning and restarts.** Whatever the enqueue passes have thrown away and
however often the daemon was restarted, every key has the record it would have otherwise, and is
held back as that record says. -/
theorem backoffExact_of_run (run : BackoffRun events daemon)
    (hrepresentable : ∀ question, daemon.outside.clock question < durationMax) :
    After rescuedTaskIds daemon (fun rescued _ => ∀ taskId,
        BackoffExact daemon.rescueBase (daemon.outside.clock daemon.asked)
          (daemon.recentlyRescuedTasks.lookup taskId)
          (recurrence daemon.rescueBase (events.filterMap (BackoffEvent.ofTask taskId)))
          (taskId ∈ rescued))
      (fun _ _ => False) ∧
    ∀ taskId < 2 ^ 32, ∀ engineer, After (isReleaseExcluded taskId engineer) daemon
      (fun excluded _ =>
        BackoffExact daemon.releaseExclusionWindow (daemon.outside.clock daemon.asked)
          (daemon.recentlyReleasedBy (taskId, engineer))
          (recurrence daemon.releaseExclusionWindow
            (events.filterMap (BackoffEvent.ofPair (taskId, engineer))))
          (excluded = true))
      (fun _ _ => False) := by
  have hfollows := run.followsAll hrepresentable
  refine ⟨?_, fun taskId hid engineer => ?_⟩
  · intro taskId
    exact (hfollows.rescued taskId).exact (hrepresentable _) mem_rescuedTaskIds_iff
  · refine (hfollows.released taskId hid engineer).exact (hrepresentable _) ?_
    exact Option.any_eq_true _ _

end

/-! ### A restart between two rescues -/

/-- Rescues hold a task back for a second at first. The clock shows nothing, then twice nine tenths
of a second, and then two seconds and a half. -/
def rescuingDaemon : Daemon where
  config := { plainTeam ["eng-1"] with orphanRescueCooldownSecs := 1 }
  disk := emptyDisk
  outside := { calmOutside 0 with
    clock := ⟨fun question => if question = 0 then 0 else if question ≤ 2 then 900000000
      else 2500000000, by
        intro question later hle
        simp only
        (repeat' split) <;> omega⟩ }

def restartedEvents : List BackoffEvent :=
  [.rescued 7 0, .restarted 900000000 900000000, .rescued 7 2500000000]

theorem restartedEvents_run : ∃ daemon, BackoffRun restartedEvents daemon ∧
    daemon.outside = rescuingDaemon.outside ∧ daemon.rescueBase = fromSecs 1 ∧
    (daemon.recentlyRescuedTasks.lookup 7).map BackoffRecord.count = some 2 := by
  have hstart : BackoffRun [] rescuingDaemon := .start rfl rfl
  have hrescue := BackoffRun.rescue 7 hstart rfl
  have hrestart := BackoffRun.restart hrescue rfl rfl rfl le_rfl rfl
  have hagain := BackoffRun.rescue 7 hrestart rfl
  exact ⟨_, hagain, rfl, rfl, by decide +kernel⟩

/-- What the restart cut off makes the second rescue count as the next in a row, although the
cascade window has passed. -/
theorem not_plainCount_restarted : ∃ daemon, BackoffRun restartedEvents daemon ∧
    (daemon.recentlyRescuedTasks.lookup 7).map BackoffRecord.count = some 2 ∧
    (plainRecurrence daemon.rescueBase
      (restartedEvents.filterMap (BackoffEvent.ofTask 7))).map Recurrence.count = some 1 := by
  obtain ⟨daemon, hrun, -, hbase, hcount⟩ := restartedEvents_run
  refine ⟨daemon, hrun, hcount, ?_⟩
  rw [hbase]
  decide +kernel

theorem backoffExact_of_run_restarted : ∃ daemon, BackoffRun restartedEvents daemon ∧
    After rescuedTaskIds daemon (fun rescued _ =>
        BackoffExact daemon.rescueBase (daemon.outside.clock daemon.asked)
          (daemon.recentlyRescuedTasks.lookup 7)
          (recurrence daemon.rescueBase (restartedEvents.filterMap (BackoffEvent.ofTask 7)))
          (7 ∈ rescued))
      (fun _ _ => False) := by
  obtain ⟨daemon, hrun, houtside, -, -⟩ := restartedEvents_run
  have hrepresentable : ∀ question, daemon.outside.clock question < durationMax := by
    intro question
    rw [houtside]
    have hclock : rescuingDaemon.outside.clock question ≤ 2500000000 := by
      show (if question = 0 then 0 else if question ≤ 2 then 900000000 else 2500000000) ≤ 2500000000
      (repeat' split) <;> omega
    exact hclock.trans_lt (by decide)
  exact ⟨daemon, hrun, (backoffExact_of_run hrun hrepresentable).1.mono (fun _ _ h => h 7)
    fun _ _ h => h⟩

end Batty
