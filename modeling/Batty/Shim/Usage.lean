import Mathlib.Algebra.Order.BigOperators.Group.List
import Batty.Foundation.Json
import Batty.Shim.Common

/-!
# The context in use

At the end of a turn the agent reports how many tokens went in and out. Their sum is set against
the limit of the model, and from four fifths of it on a warning is sent. A model whose usage was
once above its limit is taken for the variant with the large one, for as long as the shim lives.

`computesUsage_iff`: the sum is right and the warning comes when it should if the sum is below
2 560 000, that is, below 256 percent of the large limit; beyond that the percentage, which is kept
in eight bits, starts again at zero.

The counters have 64 bits. A build with overflow checks panics where one without them goes on with
the rest of the sum.
-/

namespace Batty

/-! ### Counters -/

/-- The tokens that a result reports. -/
structure SdkTokenUsage where
  inputTokens : Nat
  cachedInputTokens : Nat
  cacheCreationInputTokens : Nat
  cacheReadInputTokens : Nat
  outputTokens : Nat
  reasoningOutputTokens : Nat

/-- A line of the agent, as far as usage goes. -/
structure SdkOutput where
  message : Option Json
  usage : Option Json
  modelUsage : Option Json

/-- `none` is a panic. -/
def addU64 (checks : Bool) (a b : Nat) : Option Nat :=
  if a + b < 2 ^ 64 then some (a + b) else if checks then none else some ((a + b) % 2 ^ 64)

def jsonU64 (value : Option Json) : Nat := (value.bind Json.asU64).getD 0

/-- A field of the usage that holds a counter. -/
def counter (usage : Json) (key : String) : Nat := jsonU64 (usage.get? key)

/-- A counter of the tokens that went into the cache, by how long they are kept. -/
def cacheCounter (usage : Json) (key : String) : Nat :=
  jsonU64 ((usage.get? "cache_creation").bind (Json.get? key))

/-- The two names of the cached tokens are counted once. -/
def SdkTokenUsage.totalTokens (checks : Bool) (usage : SdkTokenUsage) : Option Nat :=
  [max usage.cachedInputTokens usage.cacheReadInputTokens, usage.cacheCreationInputTokens,
    usage.outputTokens, usage.reasoningOutputTokens].foldlM (addU64 checks) usage.inputTokens

namespace SdkOutput

/-- The tokens in a usage object, under any of their names. -/
def tokenUsage (checks : Bool) (msg : SdkOutput) : Option (Option SdkTokenUsage) :=
  match msg.usage with
  | none => some none
  | some usage => do
    let cacheCreationClassified ← addU64 checks (cacheCounter usage "ephemeral_5m_input_tokens")
      (cacheCounter usage "ephemeral_1h_input_tokens")
    return some {
      inputTokens := counter usage "input_tokens"
      cachedInputTokens := counter usage "cached_input_tokens"
      cacheCreationInputTokens :=
        max (counter usage "cache_creation_input_tokens") cacheCreationClassified
      cacheReadInputTokens := counter usage "cache_read_input_tokens"
      outputTokens := counter usage "output_tokens"
      reasoningOutputTokens := counter usage "reasoning_output_tokens" }

def usageTotalTokens (checks : Bool) (msg : SdkOutput) : Option Nat := do
  match ← msg.tokenUsage checks with
  | none => return 0
  | some usage => usage.totalTokens checks

def modelName (msg : SdkOutput) : Option String :=
  ((msg.message.bind (Json.get? "model")).bind Json.asStr).or
    ((msg.modelUsage.bind (Json.get? "model")).bind Json.asStr)

end SdkOutput

/-! ### Limits -/

def defaultContextLimitTokens : Nat := 128000

def resolvedModelContextLimitTokens : Option String → Nat
  | none => defaultContextLimitTokens
  | some model =>
    let normalized := Text.toAsciiLowercase model.toList
    if Text.contains normalized "1m".toList then 1000000
    else if "claude-".toList.isPrefixOf normalized || Text.contains normalized "claude".toList then
      200000
    else defaultContextLimitTokens

/-- The limit, and whether the large one stays. -/
def effectiveContextLimitTokens (model : Option String) (usedTokens : Nat) (latched : Bool) :
    Nat × Bool :=
  let bumped := 1000000
  let nominal := resolvedModelContextLimitTokens model
  if latched then (bumped, latched)
  else if usedTokens ≤ nominal then (nominal, latched)
  else (bumped, latched || nominal < bumped)

/-! ### The warning -/

/-- The warning of a context that is nearly full. -/
structure ProactiveContextWarning where
  model : Option String
  usage : SdkTokenUsage
  outputBytes : Nat
  uptimeSecs : Nat
  usedTokens : Nat
  contextLimitTokens : Nat
  usagePct : Nat

def proactiveContextWarningPct : Nat := 80

/-- The multiplication stops at the greatest number of 64 bits; of the quotient eight bits are
kept. -/
def usagePct (usedTokens contextLimitTokens : Nat) : Nat :=
  min (usedTokens * 100) (2 ^ 64 - 1) / max contextLimitTokens 1 % 2 ^ 8

/-- The warning, if there is one, and whether the large limit stays. -/
def proactiveContextWarning (checks : Bool) (msg : SdkOutput) (lastModelName : Option String)
    (outputBytes uptimeSecs : Nat) (latched : Bool) :
    Option (Option ProactiveContextWarning × Bool) := do
  match ← msg.tokenUsage checks with
  | none => return (none, latched)
  | some usage =>
    let usedTokens ← msg.usageTotalTokens checks
    if usedTokens = 0 then return (none, latched)
    let model := msg.modelName.or lastModelName
    let (contextLimitTokens, latched) := effectiveContextLimitTokens model usedTokens latched
    let usagePct := usagePct usedTokens contextLimitTokens
    if usagePct < proactiveContextWarningPct then return (none, latched)
    return (some {
      model, usage, outputBytes, uptimeSecs, usedTokens, contextLimitTokens, usagePct }, latched)

/-! ### What is to be computed -/

/-- The sum of the counters, without any bound. -/
def exactTotal (usage : Json) : Nat :=
  counter usage "input_tokens" +
    max (counter usage "cached_input_tokens") (counter usage "cache_read_input_tokens") +
    max (counter usage "cache_creation_input_tokens")
      (cacheCounter usage "ephemeral_5m_input_tokens" +
        cacheCounter usage "ephemeral_1h_input_tokens") +
    counter usage "output_tokens" + counter usage "reasoning_output_tokens"

/-- The exact number, or the greatest of 64 bits if it is beyond that. -/
def saturated (n : Nat) : Nat := min n (2 ^ 64 - 1)

/-- The large limit if it was taken before or the usage is above that of the model. -/
def contextLimit (msg : SdkOutput) (lastModelName : Option String) (latched : Bool) (used : Nat) :
    Nat :=
  let nominal := resolvedModelContextLimitTokens (msg.modelName.or lastModelName)
  if latched ∨ nominal < used then 1000000 else nominal

/-- **Usage.** In every build the sum is exact, or stops at the greatest number; a warning comes
exactly from four fifths of the limit on; and its percentage is no less than eighty, and no less
than that of any lower usage under the same limit. -/
structure ComputesUsage (msg : SdkOutput) (lastModelName : Option String) (latched : Bool) :
    Prop where
  total : ∀ checks, msg.usageTotalTokens checks = some ((msg.usage.map fun usage =>
    saturated (exactTotal usage)).getD 0)
  warns : ∀ checks outputBytes uptimeSecs, ∃ warning latched',
    proactiveContextWarning checks msg lastModelName outputBytes uptimeSecs latched =
        some (warning, latched') ∧
      (warning.isSome ↔ ∃ usage ∈ msg.usage, let used := saturated (exactTotal usage)
        0 < used ∧ 80 * contextLimit msg lastModelName latched used ≤ 100 * used)
  reported : ∀ {checks outputBytes uptimeSecs warning latched'},
    proactiveContextWarning checks msg lastModelName outputBytes uptimeSecs latched =
        some (some warning, latched') →
      80 ≤ warning.usagePct ∧ warning.contextLimitTokens =
          contextLimit msg lastModelName latched warning.usedTokens ∧
        ∀ {checks msg' lastModelName' outputBytes uptimeSecs latched warning' latched'},
          proactiveContextWarning checks msg' lastModelName' outputBytes uptimeSecs latched =
            some (some warning', latched') →
          warning'.contextLimitTokens = warning.contextLimitTokens →
          warning'.usedTokens ≤ warning.usedTokens → warning'.usagePct ≤ warning.usagePct

/-- The percentage fits in eight bits, or what is left of it is the greatest there is. -/
def UsageFits (msg : SdkOutput) : Prop :=
  ∀ usage ∈ msg.usage, exactTotal usage < 2560000 ∨
    exactTotal usage * 100 < 2 ^ 64 ∧ exactTotal usage / 10000 % 256 = 255

section

variable {checks latched latched' : Bool} {msg : SdkOutput} {usage : Json}
  {lastModelName : Option String} {outputBytes uptimeSecs used : Nat}
  {warning : ProactiveContextWarning}

/-! ### Sums -/

theorem addU64_of_lt {a b : Nat} (h : a + b < 2 ^ 64) : addU64 checks a b = some (a + b) :=
  if_pos h

theorem foldlM_addU64 {counts : List Nat} {a : Nat} (h : a + counts.sum < 2 ^ 64) :
    counts.foldlM (addU64 checks) a = some (a + counts.sum) := by
  induction counts generalizing a with
  | nil => rfl
  | cons count counts ih =>
    rw [List.sum_cons, ← Nat.add_assoc] at h ⊢
    rw [List.foldlM_cons, addU64_of_lt (Nat.lt_of_le_of_lt (Nat.le_add_right _ _) h)]
    exact ih h

/-- With overflow checks, a sum that is returned has not overflown. -/
theorem foldlM_addU64_checked {counts : List Nat} {a total : Nat}
    (h : counts.foldlM (addU64 true) a = some total) : total = a + counts.sum := by
  induction counts generalizing a with
  | nil => exact (Option.some.inj h).symm
  | cons count counts ih =>
    rw [List.foldlM_cons] at h
    obtain ⟨next, hnext, h⟩ := Option.bind_eq_some_iff.mp h
    unfold addU64 at hnext
    split at hnext
    · obtain rfl := Option.some.inj hnext
      rw [ih h, List.sum_cons, Nat.add_assoc]
    · simp at hnext

theorem tokenUsage_eq (husage : msg.usage = some usage) (h : exactTotal usage < 2 ^ 64) :
    ∃ counts, msg.tokenUsage checks = some (some counts) ∧
      counts.totalTokens checks = some (exactTotal usage) := by
  unfold exactTotal at h
  have hclassified := @addU64_of_lt checks (cacheCounter usage "ephemeral_5m_input_tokens")
    (cacheCounter usage "ephemeral_1h_input_tokens") (by omega)
  simp only [SdkOutput.tokenUsage, husage, hclassified]
  refine ⟨_, rfl, ?_⟩
  unfold SdkTokenUsage.totalTokens
  rw [foldlM_addU64 (by simp; omega)]
  simp [exactTotal, Nat.add_assoc]

theorem usageTotalTokens_eq (husage : msg.usage = some usage) (h : exactTotal usage < 2 ^ 64) :
    msg.usageTotalTokens checks = some (exactTotal usage) := by
  obtain ⟨counts, hcounts, htotal⟩ := @tokenUsage_eq checks msg usage husage h
  simp only [SdkOutput.usageTotalTokens, hcounts]
  exact htotal

/-- With overflow checks the sum is exact, or there is none. -/
theorem exactTotal_of_checked (husage : msg.usage = some usage) {total : Nat}
    (h : msg.usageTotalTokens true = some total) : total = exactTotal usage := by
  simp only [SdkOutput.usageTotalTokens, SdkOutput.tokenUsage, husage] at h
  obtain ⟨counts, hcounts, htotal⟩ := Option.bind_eq_some_iff.mp h
  obtain ⟨classified, hclassified, hsome⟩ := Option.bind_eq_some_iff.mp hcounts
  obtain rfl := Option.some.inj hsome
  have hexact : classified = cacheCounter usage "ephemeral_5m_input_tokens" +
      cacheCounter usage "ephemeral_1h_input_tokens" := by
    unfold addU64 at hclassified
    split at hclassified
    · exact (Option.some.inj hclassified).symm
    · simp at hclassified
  have hsum := foldlM_addU64_checked htotal
  simp only [List.sum_cons, List.sum_nil, hexact] at hsum
  unfold exactTotal
  omega

/-! ### Percentages -/

theorem effectiveContextLimitTokens_fst :
    (effectiveContextLimitTokens (msg.modelName.or lastModelName) used latched).1 =
      contextLimit msg lastModelName latched used := by
  unfold effectiveContextLimitTokens contextLimit
  cases latched with
  | true => rfl
  | false =>
    by_cases hle : used ≤ resolvedModelContextLimitTokens (msg.modelName.or lastModelName)
    · simp [hle]
    · simp [hle]

theorem resolvedModelContextLimitTokens_mem (model : Option String) :
    resolvedModelContextLimitTokens model ∈ [128000, 200000, 1000000] := by
  unfold resolvedModelContextLimitTokens defaultContextLimitTokens
  split
  · simp
  · dsimp only
    split
    · simp
    · split <;> simp

/-- The limit is positive, and only a usage below it keeps a smaller one. -/
theorem contextLimit_cases (msg : SdkOutput) (lastModelName : Option String) (latched : Bool)
    (used : Nat) : contextLimit msg lastModelName latched used = 1000000 ∨
      used ≤ contextLimit msg lastModelName latched used ∧
        0 < contextLimit msg lastModelName latched used ∧
        contextLimit msg lastModelName latched used < 1000000 := by
  have hmem := resolvedModelContextLimitTokens_mem (msg.modelName.or lastModelName)
  simp only [List.mem_cons, List.not_mem_nil, or_false] at hmem
  unfold contextLimit
  dsimp only
  split
  · exact .inl rfl
  · rename_i hsmall
    rw [not_or] at hsmall
    omega

/-- What the percentage is taken from. -/
def rawPct (used limit : Nat) : Nat := min (used * 100) (2 ^ 64 - 1) / max limit 1

theorem usagePct_lt (used limit : Nat) : usagePct used limit < 256 := Nat.mod_lt _ (by decide)

theorem rawPct_le_rawPct {used' limit : Nat} (h : used' ≤ used) :
    rawPct used' limit ≤ rawPct used limit :=
  Nat.div_le_div_right (by omega)

theorem usagePct_of_rawPct {limit : Nat} (h : rawPct used limit < 256) :
    usagePct used limit = rawPct used limit :=
  Nat.mod_eq_of_lt h

/-- Below 256 percent of the large limit nothing is lost. -/
theorem rawPct_lt (h : used < 2560000) :
    rawPct used (contextLimit msg lastModelName latched used) < 256 ∧
      (80 ≤ rawPct used (contextLimit msg lastModelName latched used) ↔
        80 * contextLimit msg lastModelName latched used ≤ 100 * used) := by
  have hmin : min (used * 100) (2 ^ 64 - 1) = used * 100 := by omega
  have hlimit := contextLimit_cases msg lastModelName latched used
  generalize contextLimit msg lastModelName latched used = limit at hlimit ⊢
  have hpos : 0 < limit := by omega
  rw [rawPct, hmin, Nat.max_eq_left hpos, Nat.div_lt_iff_lt_mul hpos, Nat.le_div_iff_mul_le hpos]
  omega

/-- A usage beyond the large limit has that one. -/
theorem contextLimit_of_le (h : 1000000 ≤ used) :
    contextLimit msg lastModelName latched used = 1000000 := by
  have hlimit := contextLimit_cases msg lastModelName latched used
  omega

theorem usagePct_million (h : used * 100 < 2 ^ 64) :
    usagePct used 1000000 = used / 10000 % 2 ^ 8 := by
  have hmin : min (used * 100) (2 ^ 64 - 1) = used * 100 := by omega
  rw [usagePct, hmin, show max 1000000 1 = 10000 * 100 by rfl,
    Nat.mul_div_mul_right _ _ (by decide)]

theorem usagePct_million_saturated (h : 2 ^ 64 ≤ used * 100) : usagePct used 1000000 = 237 := by
  have hmin : min (used * 100) (2 ^ 64 - 1) = 2 ^ 64 - 1 := by omega
  rw [usagePct, hmin]
  decide

theorem proactiveContextWarning_of_none (husage : msg.usage = none) :
    proactiveContextWarning checks msg lastModelName outputBytes uptimeSecs latched =
      some (none, latched) := by
  simp only [proactiveContextWarning, SdkOutput.tokenUsage, husage]
  rfl

/-- What is found of a usage. -/
theorem proactiveContextWarning_of_some (husage : msg.usage = some usage)
    (h : exactTotal usage < 2 ^ 64) : ∃ warning latched',
      proactiveContextWarning checks msg lastModelName outputBytes uptimeSecs latched =
          some (warning, latched') ∧
        (warning.isSome ↔ 0 < exactTotal usage ∧ 80 ≤ usagePct (exactTotal usage)
          (contextLimit msg lastModelName latched (exactTotal usage))) := by
  obtain ⟨counts, hcounts, -⟩ := @tokenUsage_eq checks msg usage husage h
  have htotal := @usageTotalTokens_eq checks msg usage husage h
  have hlimit := @effectiveContextLimitTokens_fst latched msg lastModelName (exactTotal usage)
  simp only [proactiveContextWarning, hcounts, htotal, Option.bind_eq_bind, Option.bind_some,
    Option.pure_def, hlimit]
  by_cases hzero : exactTotal usage = 0
  · rw [if_pos hzero]
    exact ⟨none, latched, rfl, by simp [hzero]⟩
  · rw [if_neg hzero]
    split
    · rename_i hlow
      exact ⟨none, _, rfl, by simpa [proactiveContextWarningPct] using fun _ => hlow⟩
    · rename_i hhigh
      refine ⟨_, _, rfl, ?_⟩
      have hpos : 0 < exactTotal usage := Nat.pos_of_ne_zero hzero
      simpa [proactiveContextWarningPct, hpos] using hhigh

/-- What a warning says. -/
theorem usagePct_of_warning (h : proactiveContextWarning checks msg lastModelName outputBytes
      uptimeSecs latched = some (some warning, latched')) :
    80 ≤ warning.usagePct ∧
      warning.usagePct = usagePct warning.usedTokens warning.contextLimitTokens ∧
      warning.contextLimitTokens = contextLimit msg lastModelName latched warning.usedTokens ∧
      msg.usageTotalTokens checks = some warning.usedTokens := by
  unfold proactiveContextWarning at h
  obtain ⟨counts, hcounts, h⟩ := Option.bind_eq_some_iff.mp h
  cases counts with
  | none => simp at h
  | some counts =>
    obtain ⟨total, htotal, h⟩ := Option.bind_eq_some_iff.mp h
    split at h
    · simp at h
    · dsimp only at h
      split at h
      · simp at h
      · rename_i hhigh
        simp only [Option.pure_def, Option.some.injEq, Prod.mk.injEq] at h
        obtain ⟨rfl, -⟩ := h
        exact ⟨Nat.le_of_not_lt hhigh, rfl, effectiveContextLimitTokens_fst, htotal⟩

end

/-! ### When it is computed so -/

/-- A report of so many tokens that went in. -/
def reportOf (tokens : Nat) : SdkOutput where
  message := none
  usage := some (.object [("input_tokens", .integer tokens)])
  modelUsage := none

theorem exactTotal_reportOf {tokens : Nat} (h : tokens < 2 ^ 64) :
    exactTotal (.object [("input_tokens", .integer tokens)]) = tokens := by
  have hread : (Json.integer tokens).asU64 = some tokens := by
    rw [Json.asU64, Int.toNat_natCast, if_pos ⟨Int.natCast_nonneg _, h⟩]
  simp [exactTotal, counter, cacheCounter, jsonU64, Json.get?, hread]

theorem saturated_of_lt {n : Nat} (h : n < 2 ^ 64) : saturated n = n := by
  unfold saturated
  omega

/-- A percentage that no lower usage exceeds is below 256, or one that ends in all eight bits. -/
theorem usagePct_of_monotone (h : ∀ {warning' : ProactiveContextWarning} {latched'},
    proactiveContextWarning true (reportOf 2550000) none 0 0 false =
      some (some warning', latched') → warning'.contextLimitTokens = 1000000 →
    warning'.usedTokens = 2550000 → warning'.usagePct ≤ usagePct used 1000000) :
    usagePct used 1000000 = 255 := by
  have hexact := exactTotal_reportOf (show 2550000 < 2 ^ 64 by decide)
  have hused := @usageTotalTokens_eq true (reportOf 2550000) _ rfl (by rw [hexact]; decide)
  obtain ⟨warning', latched', hwarning', hsome⟩ :=
    @proactiveContextWarning_of_some true false (reportOf 2550000) _ none 0 0 rfl
      (by rw [hexact]; decide)
  rw [hexact, contextLimit_of_le (by decide)] at hsome
  obtain ⟨warning', rfl⟩ := Option.isSome_iff_exists.mp (hsome.mpr (by decide))
  obtain ⟨-, hpct, hlimit, htotal⟩ := usagePct_of_warning hwarning'
  have husedEq : warning'.usedTokens = 2550000 := by
    rw [hused, hexact] at htotal
    exact (Option.some.inj htotal).symm
  rw [husedEq, contextLimit_of_le (by decide)] at hlimit
  have hle := h hwarning' hlimit husedEq
  rw [hpct, husedEq, hlimit] at hle
  have hlow : usagePct 2550000 1000000 = 255 := by decide
  have hlt := usagePct_lt used 1000000
  omega

section

variable {msg : SdkOutput} {lastModelName : Option String} {latched : Bool}

theorem usageFits_of_computesUsage (h : ComputesUsage msg lastModelName latched) :
    UsageFits msg := by
  intro usage husage
  -- A build with overflow checks only returns sums that are exact.
  have htotal := h.total true
  rw [Option.mem_def.mp husage] at htotal
  have hexact := exactTotal_of_checked husage htotal
  simp only [Option.map_some, Option.getD_some] at hexact
  have hfits : exactTotal usage < 2 ^ 64 := by
    unfold saturated at hexact
    omega
  rcases Nat.lt_or_ge (exactTotal usage) 2560000 with hsmall | hlarge
  · exact .inl hsmall
  · refine .inr ?_
    obtain ⟨warning, latched', hwarning, hsome⟩ := h.warns true 0 0
    have hdue : warning.isSome := by
      refine hsome.mpr ⟨usage, husage, ?_⟩
      dsimp only
      rw [saturated_of_lt hfits, contextLimit_of_le (le_trans (by decide) hlarge)]
      omega
    obtain ⟨warning, rfl⟩ := Option.isSome_iff_exists.mp hdue
    obtain ⟨-, hpct, hlimit, hused⟩ := usagePct_of_warning hwarning
    rw [exactTotal_of_checked husage hused] at hpct hlimit
    rw [contextLimit_of_le (by omega)] at hlimit
    rw [hlimit] at hpct
    -- A usage of 255 percent is reported as that.
    have hall : usagePct (exactTotal usage) 1000000 = 255 := by
      refine usagePct_of_monotone fun hwarning' hlimit' hused' => ?_
      rw [← hpct]
      refine (h.reported hwarning).2.2 hwarning' (hlimit'.trans hlimit.symm) ?_
      rw [hused', exactTotal_of_checked husage hused]
      omega
    rcases Nat.lt_or_ge (exactTotal usage * 100) (2 ^ 64) with hlt | hge
    · rw [usagePct_million hlt] at hall
      exact ⟨hlt, hall⟩
    · rw [usagePct_million_saturated hge] at hall
      cases hall

theorem computesUsage_of_usageFits (h : UsageFits msg) :
    ComputesUsage msg lastModelName latched := by
  have hfits : ∀ usage ∈ msg.usage, exactTotal usage < 2 ^ 64 := fun usage husage => by
    have hcases := h usage husage
    omega
  -- The percentage that is kept is the one that is meant, or the greatest.
  have hkeeps : ∀ usage ∈ msg.usage, ∀ latched,
      usagePct (exactTotal usage) (contextLimit msg lastModelName latched (exactTotal usage)) =
          255 ∧ 2560000 ≤ exactTotal usage ∨ exactTotal usage < 2560000 := by
    intro usage husage latched
    rcases Nat.lt_or_ge (exactTotal usage) 2560000 with hsmall | hlarge
    · exact .inr hsmall
    · obtain ⟨hlt, hall⟩ := (h usage husage).resolve_left (by omega)
      rw [contextLimit_of_le (by omega), usagePct_million hlt]
      exact .inl ⟨hall, hlarge⟩
  refine ⟨fun checks => ?_, fun checks outputBytes uptimeSecs => ?_, fun {checks _ _ warning _}
    hwarning => ?_⟩
  · cases husage : msg.usage with
    | none => simp [SdkOutput.usageTotalTokens, SdkOutput.tokenUsage, husage]
    | some usage =>
      rw [usageTotalTokens_eq husage (hfits usage husage), Option.map_some, Option.getD_some,
        saturated_of_lt (hfits usage husage)]
  · cases husage : msg.usage with
    | none => exact ⟨none, latched, proactiveContextWarning_of_none husage, by simp⟩
    | some usage =>
      obtain ⟨warning, latched', hwarning, hsome⟩ :=
        @proactiveContextWarning_of_some checks latched msg usage lastModelName outputBytes
          uptimeSecs husage (hfits usage husage)
      refine ⟨warning, latched', hwarning, hsome.trans ?_⟩
      simp only [Option.mem_def, Option.some.injEq, exists_eq_left',
        saturated_of_lt (hfits usage husage)]
      refine and_congr_right fun _ => ?_
      rcases hkeeps usage husage latched with ⟨hall, hlarge⟩ | hsmall
      · rw [hall, contextLimit_of_le (by omega)]
        omega
      · obtain ⟨hlt, hiff⟩ := @rawPct_lt latched msg lastModelName _ hsmall
        rw [← hiff, usagePct_of_rawPct hlt]
  · obtain ⟨heighty, hpct, hlimit, hused⟩ := usagePct_of_warning hwarning
    refine ⟨heighty, hlimit, fun {_ _ _ _ _ _ warning' _} hwarning' hlimit' hle => ?_⟩
    obtain ⟨-, hpct', -, -⟩ := usagePct_of_warning hwarning'
    have hlt' : warning.usagePct = 255 ∨
        rawPct warning.usedTokens warning.contextLimitTokens < 256 := by
      rw [hpct, hlimit]
      cases husage : msg.usage with
      | none =>
        rw [proactiveContextWarning_of_none husage] at hwarning
        cases hwarning
      | some usage =>
        rw [usageTotalTokens_eq husage (hfits usage husage)] at hused
        obtain hused := Option.some.inj hused
        rw [← hused]
        exact (hkeeps usage husage _).imp And.left fun hsmall => (rawPct_lt hsmall).1
    rcases hlt' with hall | hlt'
    · have hbyte := usagePct_lt warning'.usedTokens warning'.contextLimitTokens
      omega
    · -- Both percentages are kept whole.
      have hmono := @rawPct_le_rawPct warning.usedTokens _ warning.contextLimitTokens hle
      rw [hpct, hpct', hlimit', usagePct_of_rawPct hlt', usagePct_of_rawPct (hmono.trans_lt hlt')]
      exact hmono

/-- **Usage** is computed as it should be exactly below 256 percent of the large limit, and where
the eight bits happen to be all set. -/
theorem computesUsage_iff : ComputesUsage msg lastModelName latched ↔ UsageFits msg :=
  ⟨usageFits_of_computesUsage, computesUsage_of_usageFits⟩

end

/-- With 260 percent of the large limit in use, no warning comes. -/
theorem not_computesUsage : ¬ ∀ (msg : SdkOutput) (lastModelName : Option String) (latched : Bool),
    ComputesUsage msg lastModelName latched := by
  intro h
  have hfits := usageFits_of_computesUsage (h (reportOf 2600000) none false) _ rfl
  rw [exactTotal_reportOf (by decide)] at hfits
  exact absurd hfits (by decide)

end Batty
