import Batty.Merge.GitErrors

/-!
# Waits between attempts

Before each further attempt an operation waits, twice as long each time up to a limit, and with
jitter up to a quarter less or more.
-/

namespace Batty

namespace GitErrors

def saturate (n : Nat) : Nat := min n (2 ^ 64 - 1)

def jitterDelayMs (delayMs nanos : Nat) : Nat :=
  let jitterSpan := delayMs / 4
  if jitterSpan = 0 then delayMs
  else saturate (delayMs - jitterSpan + nanos % (saturate (jitterSpan * 2) + 1))

def nextDelayMs (config : RetryConfig) (retryIndex nanos : Nat) : Nat :=
  let multiplier := if retryIndex < 64 then 2 ^ retryIndex else 2 ^ 64 - 1
  let cappedDelay := min (saturate (config.baseDelayMs * multiplier)) config.maxDelayMs
  if config.jitter then jitterDelayMs cappedDelay nanos else cappedDelay

variable {ε α : Type} [Retryable ε] (config : RetryConfig) (operation : Nat → Except ε α)
  (nanos : Nat → Nat)

/-- The attempts after some retries, with so many left, and the waits between them. The clock shows
`nanos` before each retry. -/
def waitsFrom (retries : Nat) : Nat → Retried ε α × List Nat
  | 0 => (⟨operation retries, retries + 1⟩, [])
  | left + 1 => match operation retries with
    | .ok value => (⟨.ok value, retries + 1⟩, [])
    | .error error =>
      if !Retryable.isTransient error then (⟨.error error, retries + 1⟩, [])
      else
        let (retried, waits) := waitsFrom (retries + 1) left
        (retried, nextDelayMs config retries (nanos retries) :: waits)

def retrySyncWithSleep : Retried ε α × List Nat :=
  waitsFrom config operation nanos 0 config.maxRetries

/-- The delay is the doubled one up to the limit, or near it if there is jitter. -/
def Near (retryIndex delay : Nat) : Prop :=
  let doubled := min (config.baseDelayMs * 2 ^ retryIndex) config.maxDelayMs
  if config.jitter then doubled - doubled / 4 ≤ delay ∧ delay ≤ doubled + doubled / 4
  else delay = doubled

variable {config}

theorem near_nextDelayMs (hmax : config.maxDelayMs < 2 ^ 64) (retryIndex nanos : Nat) :
    Near config retryIndex (nextDelayMs config retryIndex nanos) := by
  have hcapped : min (saturate (config.baseDelayMs *
      if retryIndex < 64 then 2 ^ retryIndex else 2 ^ 64 - 1)) config.maxDelayMs =
        min (config.baseDelayMs * 2 ^ retryIndex) config.maxDelayMs := by
    unfold saturate
    split_ifs with hlt
    · omega
    · have hpow : 2 ^ 64 ≤ 2 ^ retryIndex := Nat.pow_le_pow_right (by decide) (by omega)
      rcases Nat.eq_zero_or_pos config.baseDelayMs with hzero | hpos
      · simp [hzero]
      · have hlarge := Nat.le_mul_of_pos_left (2 ^ retryIndex) hpos
        have hlarge' := Nat.le_mul_of_pos_left (2 ^ 64 - 1) hpos
        omega
  simp only [Near, nextDelayMs, hcapped]
  have hle := min_le_right (config.baseDelayMs * 2 ^ retryIndex) config.maxDelayMs
  generalize min (config.baseDelayMs * 2 ^ retryIndex) config.maxDelayMs = doubled at *
  have hmod : nanos % (saturate (doubled / 4 * 2) + 1) < saturate (doubled / 4 * 2) + 1 :=
    Nat.mod_lt _ (Nat.succ_pos _)
  split_ifs
  · simp only [jitterDelayMs, saturate] at *
    split_ifs <;> omega
  · rfl

theorem spec_waitsFrom (hmax : config.maxDelayMs < 2 ^ 64) (retries left : Nat) :
    ∃ waits, waitsFrom config operation nanos retries left =
        (retryFrom operation retries left, waits) ∧
      retries + waits.length + 1 = (retryFrom operation retries left).attempts ∧
      ∀ i delay, waits[i]? = some delay → i < left ∧ Near config (retries + i) delay := by
  induction left generalizing retries with
  | zero => exact ⟨[], rfl, rfl, by simp⟩
  | succ left ih =>
    rw [waitsFrom, retryFrom]
    cases operation retries with
    | ok value => exact ⟨[], rfl, rfl, by simp⟩
    | error error =>
      dsimp only
      split_ifs
      · exact ⟨[], rfl, rfl, by simp⟩
      · obtain ⟨waits, hwaits, hlength, hnear⟩ := ih (retries + 1)
        rw [hwaits]
        refine ⟨_ :: waits, rfl, by rw [List.length_cons]; omega, fun i delay hdelay => ?_⟩
        cases i with
        | zero =>
          cases hdelay
          exact ⟨by omega, near_nextDelayMs hmax retries _⟩
        | succ i =>
          obtain ⟨hi, hdelay⟩ := hnear i delay hdelay
          exact ⟨by omega, by rwa [← Nat.add_right_comm, Nat.add_assoc] at hdelay⟩

/-- **The waits of a run**: one before each further attempt, at most as many as there are retries,
and each near the doubled delay. -/
theorem retrySyncWithSleep_spec (hmax : config.maxDelayMs < 2 ^ 64) :
    ∃ waits, retrySyncWithSleep config operation nanos = (retrySync config operation, waits) ∧
      waits.length + 1 = (retrySync config operation).attempts ∧
      ∀ i delay, waits[i]? = some delay → i < config.maxRetries ∧ Near config i delay := by
  simpa [retrySyncWithSleep, retrySync] using
    spec_waitsFrom operation nanos hmax 0 config.maxRetries

/-- A lock that stays taken. -/
theorem retrySyncWithSleep_spec_fast : ∃ waits, retrySyncWithSleep .fast
    (fun _ => (.error (.transient "lock" "") : Except GitError Unit)) id =
      (⟨.error (.transient "lock" ""), 3⟩, waits) ∧ waits.length + 1 = 3 :=
  have ⟨waits, hrun, hlength, _⟩ := retrySyncWithSleep_spec _ _ (by decide)
  ⟨waits, hrun, hlength⟩

end GitErrors

end Batty
