import Mathlib.Data.List.Induction
import Batty.Dispatch.Pass

/-!
# Escalations that are held back

An escalation under a key is held back while an earlier one is recent, and each caller says how
long that is. All callers share one map of the times at which escalations went out, and every call
first drops from it what is not recent *by its own window* (`suppressRecentEscalation`). A caller
with a short window so drops what a caller with a long one would still have held back.

`noted` is the map as it would be if every key were judged by its own callers alone. The calls of
a history are answered as they should be (`HonoursWindows`) exactly if no call drops a time that
the next call under its key would still have found recent (`SparesNotes`).
-/

namespace Batty

/-- A call of `suppressRecentEscalation` at a time, and its answer. -/
structure EscalationCall where
  key : String
  window : Nat
  time : Nat
  suppressed : Bool

/-- A history of a daemon that began with no escalation noted. Between the calls it does anything
else. -/
inductive EscalationRun : List EscalationCall → Daemon → Prop where
  | start {daemon} : daemon.recentEscalations = (fun _ => none) → EscalationRun [] daemon
  | call {calls daemon daemon'} (key : String) (window : Nat) (suppressed : Bool) :
      EscalationRun calls daemon →
      suppressRecentEscalation key window daemon = .ok suppressed daemon' →
      EscalationRun (calls ++ [⟨key, window, daemon.outside.clock daemon.asked, suppressed⟩]) daemon'
  | other {calls daemon daemon'} : EscalationRun calls daemon →
      daemon'.recentEscalations = daemon.recentEscalations → daemon'.outside = daemon.outside →
      daemon.asked ≤ daemon'.asked → EscalationRun calls daemon'

/-- **Each call holds its escalation back exactly if one under the same key went out less than its
window ago.** -/
def HonoursWindows : List EscalationCall → Prop :=
  EachAfter fun before call => call.suppressed = true ↔ ∃ earlier ∈ before,
    earlier.key = call.key ∧ earlier.suppressed = false ∧ call.time - earlier.time < call.window

/-! ### Each key by itself -/

/-- An escalation that went out at `time` is recent for the call. -/
def EscalationCall.finds (call : EscalationCall) (time : Nat) : Bool :=
  call.time - time < call.window

/-- Note the time of a call unless an escalation under its key is recent. -/
def noteCall (times : String → Option Nat) (call : EscalationCall) : String → Option Nat :=
  if (times call.key).any call.finds then times
  else Function.update times call.key (some call.time)

/-- When the last escalation under each key goes out, judged by the windows of its own callers. -/
def noted (calls : List EscalationCall) : String → Option Nat :=
  calls.foldl noteCall fun _ => none

/-- The call finds the last escalation under its key recent. -/
def findsNoted (before : List EscalationCall) (call : EscalationCall) : Bool :=
  (noted before call.key).any call.finds

/-- Since the last call under the key a call under another key has found what is noted under it,
namely `time`, to be recent no longer. -/
def DropsNote (calls : List EscalationCall) (key : String) (time : Nat) : Prop :=
  ∃ before other after, calls = before ++ other :: after ∧ other.key ≠ key ∧
    (∀ call ∈ after, call.key ≠ key) ∧ noted before key = some time ∧ other.finds time = false

/-- **No call drops what the next call under the key would have found recent.** -/
def SparesNotes : List EscalationCall → Prop :=
  EachAfter fun before call => ∀ time, DropsNote before call.key time → call.finds time = false

section

variable {calls : List EscalationCall} {call : EscalationCall} {key : String} {time : Nat}

theorem noted_concat : noted (calls ++ [call]) = noteCall (noted calls) call := by
  rw [noted, noted, List.foldl_append, List.foldl_cons, List.foldl_nil]

theorem noteCall_of_ne {times : String → Option Nat} (h : call.key ≠ key) :
    noteCall times call key = times key := by
  rw [noteCall]
  split
  · rfl
  · exact Function.update_of_ne h.symm _ _

theorem noteCall_of_not_any {times : String → Option Nat}
    (h : (times call.key).any call.finds = false) : noteCall times call call.key = some call.time := by
  rw [noteCall, h, if_neg Bool.false_ne_true, Function.update_self]

theorem noteCall_of_any {times : String → Option Nat}
    (h : (times call.key).any call.finds = true) : noteCall times call = times := by
  rw [noteCall, if_pos h]

theorem dropsNote_concat : DropsNote (calls ++ [call]) key time ↔ call.key ≠ key ∧
    (DropsNote calls key time ∨ noted calls key = some time ∧ call.finds time = false) := by
  constructor
  · rintro ⟨before, other, after, hsplit, hother, hafter, hnoted, hdrops⟩
    rcases List.eq_nil_or_concat after with rfl | ⟨after, last, rfl⟩
    · obtain ⟨rfl, hsingle⟩ := List.append_inj' hsplit rfl
      obtain rfl := List.singleton_inj.mp hsingle
      exact ⟨hother, .inr ⟨hnoted, hdrops⟩⟩
    · rw [List.concat_eq_append] at hsplit hafter
      rw [← List.cons_append, ← List.append_assoc] at hsplit
      obtain ⟨rfl, hsingle⟩ := List.append_inj' hsplit rfl
      obtain rfl := List.singleton_inj.mp hsingle
      refine ⟨hafter call (by simp), .inl ⟨before, other, after, rfl, hother, ?_, hnoted, hdrops⟩⟩
      exact fun later hmem => hafter later (by simp [hmem])
  · rintro ⟨hkey, ⟨before, other, after, rfl, hother, hafter, hnoted, hdrops⟩ | ⟨hnoted, hdrops⟩⟩
    · refine ⟨before, other, after ++ [call], by simp, hother, ?_, hnoted, hdrops⟩
      intro later hmem
      rcases List.mem_append.mp hmem with hmem | hmem
      · exact hafter later hmem
      · obtain rfl := List.mem_singleton.mp hmem
        exact hkey
    · exact ⟨calls, call, [], rfl, hkey, by simp, hnoted, hdrops⟩

/-- What was dropped is noted still, judged by the key alone. -/
theorem DropsNote.noted_eq (h : DropsNote calls key time) : noted calls key = some time := by
  obtain ⟨before, other, after, rfl, hother, hafter, hnoted, -⟩ := h
  have hrest : ∀ later : List EscalationCall, (∀ call ∈ later, call.key ≠ key) →
      noted (before ++ later) key = some time := by
    intro later hlater
    induction later using List.reverseRecOn with
    | nil => rwa [List.append_nil]
    | append_singleton later call ih =>
      rw [← List.append_assoc, noted_concat, noteCall_of_ne (hlater call (by simp))]
      exact ih fun call hmem => hlater call (by simp [hmem])
  exact hrest (other :: after) (List.forall_mem_cons.mpr ⟨hother, hafter⟩)

/-! ### The shared map -/

/-- The map after a call, in the daemon: all of it is judged by the window of the call. -/
def pruneAndNote (times : String → Option Nat) (call : EscalationCall) : String → Option Nat :=
  let times := fun key => (times key).filter call.finds
  if (times call.key).isSome then times else Function.update times call.key (some call.time)

def recentAfter (calls : List EscalationCall) : String → Option Nat :=
  calls.foldl pruneAndNote fun _ => none

theorem recentAfter_concat :
    recentAfter (calls ++ [call]) = pruneAndNote (recentAfter calls) call := by
  rw [recentAfter, recentAfter, List.foldl_append, List.foldl_cons, List.foldl_nil]

theorem pruneAndNote_of_ne {times : String → Option Nat} (h : call.key ≠ key) :
    pruneAndNote times call key = (times key).filter call.finds := by
  simp only [pruneAndNote]
  split
  · rfl
  · exact Function.update_of_ne h.symm _ _

theorem pruneAndNote_of_not_any {times : String → Option Nat}
    (h : (times call.key).any call.finds = false) :
    pruneAndNote times call call.key = some call.time := by
  simp only [pruneAndNote, Option.isSome_filter, h, Bool.false_eq_true, if_false,
    Function.update_self]

theorem pruneAndNote_of_any {times : String → Option Nat}
    (h : (times call.key).any call.finds = true) :
    pruneAndNote times call call.key = times call.key := by
  simp only [pruneAndNote, Option.isSome_filter, h, if_true]
  cases htime : times call.key with
  | none => rfl
  | some time =>
    rw [htime, Option.any_some] at h
    rw [Option.filter_some, if_pos h]

/-- What a call answers and leaves behind. -/
theorem suppressRecentEscalation_eq (daemon : Daemon) (call : EscalationCall)
    (htime : call.time = daemon.outside.clock daemon.asked) :
    suppressRecentEscalation call.key call.window daemon =
      .ok ((daemon.recentEscalations call.key).any call.finds)
        { daemon with
          asked := daemon.asked + 1
          recentEscalations := pruneAndNote daemon.recentEscalations call } := by
  have hfinds : call.finds = fun time =>
      decide (daemon.outside.clock daemon.asked - time < call.window) := by
    funext time
    rw [EscalationCall.finds, htime]
  have hanswer : ((daemon.recentEscalations call.key).filter call.finds).isSome =
      (daemon.recentEscalations call.key).any call.finds := Option.isSome_filter
  have hstep : suppressRecentEscalation call.key call.window daemon =
      (if ((daemon.recentEscalations call.key).filter call.finds).isSome then pure true
      else do
        modify fun daemon => { daemon with
          recentEscalations := Function.update daemon.recentEscalations call.key (some call.time) }
        return false : Action Bool) { daemon with
          asked := daemon.asked + 1
          recentEscalations := fun key => (daemon.recentEscalations key).filter call.finds } := by
    rw [hfinds, htime]
    rfl
  rw [hstep, pruneAndNote, hanswer]
  split
  · rename_i hrecent
    rw [hrecent]
    rfl
  · rename_i hrecent
    rw [Bool.eq_false_of_not_eq_true hrecent]
    rfl

/-! ### Histories -/

variable {daemon : Daemon}

theorem EscalationRun.recentEscalations (run : EscalationRun calls daemon) :
    daemon.recentEscalations = recentAfter calls := by
  induction run with
  | start hnone => exact hnone
  | @call calls daemon daemon' key window suppressed _ hrun ih =>
    let call : EscalationCall := ⟨key, window, daemon.outside.clock daemon.asked, suppressed⟩
    have heq := suppressRecentEscalation_eq daemon call rfl
    obtain ⟨-, rfl⟩ := EStateM.Result.ok.inj (hrun.symm.trans heq)
    rw [recentAfter_concat, ← ih]
  | other _ hrecent _ _ ih => exact hrecent.trans ih

/-- The shared map answers. -/
theorem EscalationRun.answers (run : EscalationRun calls daemon) :
    EachAfter (fun before call => call.suppressed = (recentAfter before call.key).any call.finds)
      calls := by
  induction run with
  | start => exact eachAfter_nil _
  | @call calls daemon daemon' key window suppressed hrest hrun ih =>
    let call : EscalationCall := ⟨key, window, daemon.outside.clock daemon.asked, suppressed⟩
    have heq := suppressRecentEscalation_eq daemon call rfl
    obtain ⟨hanswer, -⟩ := EStateM.Result.ok.inj (hrun.symm.trans heq)
    rw [hrest.recentEscalations] at hanswer
    exact eachAfter_concat.mpr ⟨ih, hanswer⟩
  | other _ _ _ _ ih => exact ih

/-- The calls come in the order of their times. -/
theorem EscalationRun.ordered (run : EscalationRun calls daemon) :
    EachAfter (fun before call => ∀ earlier ∈ before, earlier.time ≤ call.time) calls ∧
      ∀ call ∈ calls, call.time ≤ daemon.outside.clock daemon.asked := by
  induction run with
  | start => exact ⟨eachAfter_nil _, by simp⟩
  | @call calls daemon daemon' key window suppressed _ hrun ih =>
    let call : EscalationCall := ⟨key, window, daemon.outside.clock daemon.asked, suppressed⟩
    have heq := suppressRecentEscalation_eq daemon call rfl
    obtain ⟨-, rfl⟩ := EStateM.Result.ok.inj (hrun.symm.trans heq)
    have hclock : daemon.outside.clock daemon.asked ≤ daemon.outside.clock (daemon.asked + 1) :=
      daemon.outside.clock.monotone (Nat.le_succ _)
    refine ⟨eachAfter_concat.mpr ⟨ih.1, ih.2⟩, fun earlier hmem => ?_⟩
    rcases List.mem_append.mp hmem with hmem | hmem
    · exact (ih.2 earlier hmem).trans hclock
    · obtain rfl := List.mem_singleton.mp hmem
      exact hclock
  | @other calls daemon daemon' _ _ houtside hasked ih =>
    refine ⟨ih.1, fun call hmem => (ih.2 call hmem).trans ?_⟩
    rw [houtside]
    exact daemon.outside.clock.monotone hasked

/-- Where every call is answered by what is noted under its key, that is the last of the times at
which an escalation under the key went out. -/
theorem noted_is_last
    (hordered : EachAfter (fun before call => ∀ earlier ∈ before, earlier.time ≤ call.time) calls)
    (hanswers : EachAfter (fun before call => call.suppressed = findsNoted before call) calls)
    (key : String) :
    (∀ time ∈ noted calls key, ∃ earlier ∈ calls, earlier.key = key ∧
      earlier.suppressed = false ∧ earlier.time = time) ∧
    ∀ earlier ∈ calls, earlier.key = key → earlier.suppressed = false →
      ∃ time ∈ noted calls key, earlier.time ≤ time := by
  induction calls using List.reverseRecOn with
  | nil => simp [noted]
  | append_singleton calls last ih =>
    rw [eachAfter_concat] at hordered hanswers
    obtain ⟨hfound, hlast⟩ := ih hordered.1 hanswers.1
    have hfound' : ∀ time ∈ noted calls key, ∃ earlier ∈ calls ++ [last], earlier.key = key ∧
        earlier.suppressed = false ∧ earlier.time = time := by
      intro time hnoted
      obtain ⟨earlier, hmem, hearlier⟩ := hfound time hnoted
      exact ⟨earlier, List.mem_append_left _ hmem, hearlier⟩
    rw [noted_concat]
    by_cases hkey : last.key = key
    · subst hkey
      have hanswer : last.suppressed = (noted calls last.key).any last.finds := hanswers.2
      cases hsuppressed : last.suppressed with
      | true =>
        rw [hsuppressed] at hanswer
        rw [noteCall_of_any hanswer.symm]
        refine ⟨hfound', fun earlier hmem hsame hsent => ?_⟩
        rcases List.mem_append.mp hmem with hmem | hmem
        · exact hlast earlier hmem hsame hsent
        · obtain rfl := List.mem_singleton.mp hmem
          rw [hsuppressed] at hsent
          cases hsent
      | false =>
        rw [hsuppressed] at hanswer
        rw [noteCall_of_not_any hanswer.symm]
        refine ⟨fun time htime => ⟨last, by simp, rfl, hsuppressed, Option.some.inj htime⟩, ?_⟩
        intro earlier hmem _ _
        refine ⟨last.time, rfl, ?_⟩
        rcases List.mem_append.mp hmem with hmem | hmem
        · exact hordered.2 earlier hmem
        · obtain rfl := List.mem_singleton.mp hmem
          exact le_rfl
    · rw [noteCall_of_ne hkey]
      refine ⟨hfound', fun earlier hmem hsame hsent => ?_⟩
      rcases List.mem_append.mp hmem with hmem | hmem
      · exact hlast earlier hmem hsame hsent
      · obtain rfl := List.mem_singleton.mp hmem
        exact absurd hsame hkey

/-- The windows are honoured if every call is answered by what is noted under its key. -/
theorem honoursWindows_iff_answers
    (hordered : EachAfter (fun before call => ∀ earlier ∈ before, earlier.time ≤ call.time) calls) :
    HonoursWindows calls ↔
      EachAfter (fun before call => call.suppressed = findsNoted before call) calls := by
  induction calls using List.reverseRecOn with
  | nil => exact iff_of_true (eachAfter_nil _) (eachAfter_nil _)
  | append_singleton calls last ih =>
    rw [HonoursWindows, eachAfter_concat, eachAfter_concat]
    rw [eachAfter_concat] at hordered
    refine (and_congr_left' (ih hordered.1)).trans (and_congr_right fun hanswers => ?_)
    obtain ⟨hfound, hlast⟩ := noted_is_last hordered.1 hanswers last.key
    have hiff : (∃ earlier ∈ calls, earlier.key = last.key ∧ earlier.suppressed = false ∧
        last.time - earlier.time < last.window) ↔ findsNoted calls last = true := by
      rw [findsNoted, Option.any_eq_true]
      constructor
      · rintro ⟨earlier, hmem, hkey, hsent, hrecent⟩
        obtain ⟨time, hnoted, hle⟩ := hlast earlier hmem hkey hsent
        refine ⟨time, hnoted, decide_eq_true ?_⟩
        omega
      · rintro ⟨time, hnoted, hfinds⟩
        obtain ⟨earlier, hmem, hkey, hsent, rfl⟩ := hfound time hnoted
        exact ⟨earlier, hmem, hkey, hsent, of_decide_eq_true hfinds⟩
    rw [hiff, ← Bool.eq_iff_iff]

/-- As long as the answers agree, the shared map has what is noted under a key unless it has been
dropped since. -/
theorem recentAfter_of_agree (hagree : EachAfter (fun before call =>
      (recentAfter before call.key).any call.finds = findsNoted before call) calls)
    (key : String) :
    (∃ time, DropsNote calls key time ∧ recentAfter calls key = none) ∨
      (∀ time, ¬ DropsNote calls key time) ∧ recentAfter calls key = noted calls key := by
  induction calls using List.reverseRecOn with
  | nil => exact .inr ⟨fun time ⟨_, _, _, hsplit, _⟩ => by simp at hsplit, rfl⟩
  | append_singleton calls last ih =>
    rw [eachAfter_concat] at hagree
    rw [recentAfter_concat, noted_concat]
    simp only [dropsNote_concat]
    by_cases hkey : last.key = key
    · subst hkey
      refine .inr ⟨fun time hdrops => hdrops.1 rfl, ?_⟩
      have hanswer : _ = (noted calls last.key).any last.finds := hagree.2
      cases hfinds : (noted calls last.key).any last.finds with
      | false =>
        rw [pruneAndNote_of_not_any (hanswer.trans hfinds), noteCall_of_not_any hfinds]
      | true =>
        rw [pruneAndNote_of_any (hanswer.trans hfinds), noteCall_of_any hfinds]
        rcases ih hagree.1 with ⟨_, _, hnone⟩ | ⟨_, heq⟩
        · rw [hnone, hfinds] at hanswer
          cases hanswer
        · exact heq
    · rw [pruneAndNote_of_ne hkey, noteCall_of_ne hkey]
      rcases ih hagree.1 with ⟨time, hdrops, hnone⟩ | ⟨hkept, heq⟩
      · exact .inl ⟨time, ⟨hkey, .inl hdrops⟩, by rw [hnone, Option.filter_none]⟩
      · rw [heq]
        cases hnoted : noted calls key with
        | none => exact .inr ⟨by simp [hkept], Option.filter_none _⟩
        | some time =>
          rw [Option.filter_some]
          cases hfinds : last.finds time with
          | false => exact .inl ⟨time, ⟨hkey, .inr ⟨rfl, hfinds⟩⟩, by simp⟩
          | true =>
            refine .inr ⟨?_, by simp⟩
            rintro time' ⟨-, hdrops | ⟨hsome, hdrops⟩⟩
            · exact hkept time' hdrops
            · obtain rfl := Option.some.inj hsome
              rw [hfinds] at hdrops
              cases hdrops

/-- The answers of the shared map are those of each key by itself exactly if no note is dropped too
early. -/
theorem answers_iff_sparesNotes (hanswers : EachAfter (fun before call =>
      call.suppressed = (recentAfter before call.key).any call.finds) calls) :
    EachAfter (fun before call => call.suppressed = findsNoted before call) calls ↔
      SparesNotes calls := by
  induction calls using List.reverseRecOn with
  | nil => exact iff_of_true (eachAfter_nil _) (eachAfter_nil _)
  | append_singleton calls last ih =>
    rw [eachAfter_concat] at hanswers
    rw [SparesNotes, eachAfter_concat, eachAfter_concat]
    refine (and_congr_right fun hown => ?_).trans (and_congr_left' (ih hanswers.1))
    have hagree : EachAfter (fun before call =>
        (recentAfter before call.key).any call.finds = findsNoted before call) calls :=
      fun before call after hsplit =>
        (hanswers.1 before call after hsplit).symm.trans (hown before call after hsplit)
    rw [hanswers.2]
    rcases recentAfter_of_agree hagree last.key with ⟨time, hdrops, hnone⟩ | ⟨hkept, heq⟩
    · have hnoted := hdrops.noted_eq
      rw [hnone, findsNoted, hnoted, Option.any_none, Option.any_some]
      refine ⟨fun hfinds time' hdrops' => ?_, fun hspares => (hspares time hdrops).symm⟩
      obtain rfl := Option.some.inj (hdrops'.noted_eq.symm.trans hnoted)
      exact hfinds.symm
    · rw [heq]
      exact iff_of_true rfl fun time hdrops => absurd hdrops (hkept time)

/-- **Windows honoured.** The calls of a history are answered as they should be exactly if none of
them drops a time too early. -/
theorem honoursWindows_iff_sparesNotes (run : EscalationRun calls daemon) :
    HonoursWindows calls ↔ SparesNotes calls := by
  rw [honoursWindows_iff_answers run.ordered.1, answers_iff_sparesNotes run.answers]

/-- A history goes on with a call that the shared map answers. -/
theorem EscalationRun.append (run : EscalationRun calls daemon) (call : EscalationCall)
    (htime : call.time = daemon.outside.clock daemon.asked)
    (hanswer : call.suppressed = (recentAfter calls call.key).any call.finds) :
    ∃ daemon', EscalationRun (calls ++ [call]) daemon' ∧ daemon'.outside = daemon.outside ∧
      daemon'.asked = daemon.asked + 1 := by
  have heq := suppressRecentEscalation_eq daemon call htime
  rw [run.recentEscalations, ← hanswer] at heq
  have hcall := EscalationRun.call call.key call.window call.suppressed run heq
  rw [← htime] at hcall
  exact ⟨_, hcall, rfl, rfl⟩

end

/-! ### Two callers -/

/-- The clock reads nothing at first, then 700 and then 800 seconds. -/
def quietDaemon : Daemon where
  config := plainTeam ["eng-1", "eng-2"]
  disk := emptyDisk
  outside := { calmOutside 0 with
    clock := ⟨fun question => fromSecs (min (700 * question) 800), by
      intro question later hle
      simp only [fromSecs]
      omega⟩ }

/-- A dispatch failed, which is to be heard of once in a quarter of an hour; then work could not be
saved, which is to be heard of once in ten minutes; then the dispatch failed again. -/
def mixedCalls : List EscalationCall := [
  ⟨"dispatch-fail:7:eng-1", fromSecs 900, 0, false⟩,
  ⟨"preserve:eng-2:8:dispatch:0", fromSecs 600, fromSecs 700, false⟩,
  ⟨"dispatch-fail:7:eng-1", fromSecs 900, fromSecs 800, false⟩]

/-- These calls are a history, each at the time that the clock shows. -/
theorem mixedCalls_run : ∃ daemon, EscalationRun mixedCalls daemon := by
  have hstart : EscalationRun [] quietDaemon := .start rfl
  obtain ⟨first, hfirst, houtside, hasked⟩ := hstart.append
    ⟨"dispatch-fail:7:eng-1", fromSecs 900, 0, false⟩ rfl rfl
  obtain ⟨second, hsecond, houtside', hasked'⟩ := hfirst.append
    ⟨"preserve:eng-2:8:dispatch:0", fromSecs 600, fromSecs 700, false⟩
    (by rw [houtside, hasked]; rfl) (by decide +kernel)
  obtain ⟨third, hthird, -, -⟩ := hsecond.append
    ⟨"dispatch-fail:7:eng-1", fromSecs 900, fromSecs 800, false⟩
    (by rw [houtside', houtside, hasked', hasked]; rfl) (by decide +kernel)
  exact ⟨third, hthird⟩

/-- The third call finds that the second has dropped the first. -/
theorem not_honoursWindows_mixedCalls :
    (∃ daemon, EscalationRun mixedCalls daemon) ∧ ¬ HonoursWindows mixedCalls := by
  refine ⟨mixedCalls_run, fun hhonours => ?_⟩
  have hthird := hhonours (mixedCalls.take 2) _ [] rfl
  have hearlier : ∃ earlier ∈ mixedCalls.take 2, earlier.key = "dispatch-fail:7:eng-1" ∧
      earlier.suppressed = false ∧ fromSecs 800 - earlier.time < fromSecs 900 := by decide +kernel
  exact absurd (hthird.mpr hearlier) (by decide)

/-- Calls of several kinds, one after the other. -/
theorem honoursWindows_iff_sparesNotes_mixedCalls :
    HonoursWindows mixedCalls ↔ SparesNotes mixedCalls := by
  obtain ⟨daemon, hrun⟩ := mixedCalls_run
  exact honoursWindows_iff_sparesNotes hrun

end Batty
