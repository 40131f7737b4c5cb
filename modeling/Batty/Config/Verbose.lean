import Batty.Config.Validate

/-!
# The verbose checks of the configuration

`batty validate --verbose` does not run the checks of the daemon but a list of its own, in which
each check is reported as passed or failed. Some rules stand in both lists (`SharedRules`), others
only in that of the daemon (`OwnRules`): a branch, a role without a name, a user with an agent, the
authentication and the clean room are never looked at. So the two agree just where a shared rule is
broken or none of the others is (`agreesVerbose_iff`).

Both lists end with the widths of the layout, which are added up in 32 bits: one build panics where
the sum leaves them, the other one wraps.
-/

namespace Batty

namespace Config

/-! ### Sums of 32 bits -/

/-- The sum of the widths. Where it leaves the 32 bits, a build with overflow checks (`checks`)
panics, and one without them goes on with what is left of it. -/
def totalPct (checks : Bool) (widths : List Nat) : Option Nat :=
  widths.foldlM (fun total width =>
    if total + width < 2 ^ 32 then some (total + width)
    else if checks then none else some ((total + width) % 2 ^ 32)) 0

theorem totalPct_checked (widths : List Nat) :
    totalPct true widths = if widths.sum < 2 ^ 32 then some widths.sum else none := by
  have hstep : ∀ total, total < 2 ^ 32 → widths.foldlM (fun total width =>
      if total + width < 2 ^ 32 then some (total + width)
      else if true then none else some ((total + width) % 2 ^ 32)) total =
        if total + widths.sum < 2 ^ 32 then some (total + widths.sum) else none := by
    induction widths with
    | nil =>
      intro total htotal
      rw [List.foldlM_nil, List.sum_nil, Nat.add_zero, if_pos htotal]
      rfl
    | cons width widths ih =>
      intro total htotal
      rw [List.foldlM_cons, List.sum_cons, ← Nat.add_assoc]
      by_cases hfits : total + width < 2 ^ 32
      · rw [if_pos hfits, Option.bind_eq_bind, Option.bind_some, ih _ hfits]
      · rw [if_neg hfits, if_neg fun hsum => hfits ((Nat.le_add_right _ _).trans_lt hsum)]
        rfl
  rw [totalPct, hstep 0 (by decide), Nat.zero_add]

theorem totalPct_wrapping (widths : List Nat) :
    totalPct false widths = some (widths.sum % 2 ^ 32) := by
  have hstep : ∀ total, widths.foldlM (fun total width =>
      if total + width < 2 ^ 32 then some (total + width)
      else if false then none else some ((total + width) % 2 ^ 32)) (total % 2 ^ 32) =
        some ((total + widths.sum) % 2 ^ 32) := by
    induction widths with
    | nil => exact fun total => rfl
    | cons width widths ih =>
      intro total
      have hwrap : (if total % 2 ^ 32 + width < 2 ^ 32 then some (total % 2 ^ 32 + width)
          else if false then none else some ((total % 2 ^ 32 + width) % 2 ^ 32)) =
            some ((total + width) % 2 ^ 32) := by
        have hmod : (total % 2 ^ 32 + width) % 2 ^ 32 = (total + width) % 2 ^ 32 :=
          Nat.mod_add_mod _ _ _
        split_ifs with hfits
        · rw [← hmod, Nat.mod_eq_of_lt hfits]
        · contradiction
        · rw [hmod]
      rw [List.foldlM_cons, List.sum_cons, ← Nat.add_assoc, hwrap, Option.bind_eq_bind,
        Option.bind_some, ih]
  rw [totalPct, ← Nat.zero_mod, hstep, Nat.zero_add]

/-! ### The checks of the daemon -/

/-- The checks in front of that of the layout. -/
def TeamConfig.validateRules (config : TeamConfig) : Except String Unit := do
  ensure (config.name ≠ "") "team name cannot be empty"
  ensure (Text.trim config.trunkBranch.toList ≠ []) "trunk_branch cannot be empty"
  ensure (!config.trunkBranch.toList.any Text.isWhitespace)
    (s!"trunk_branch '{config.trunkBranch}' is invalid: branch names cannot contain " ++
      "whitespace")
  ensure (!config.roles.isEmpty) "team must have at least one role"
  validateTeamAgent config
  validateRoles config [] config.roles
  validateCleanRoom config
  validateReferences config

/-- What the checks come to when the widths are added up in 32 bits: nothing if that panics. -/
def TeamConfig.validateRun (checks : Bool) (config : TeamConfig) : Option (Except String Unit) :=
  match config.validateRules, config.layout with
  | .error message, _ => some (.error message)
  | .ok (), none => some (.ok ())
  | .ok (), some zones => (totalPct checks zones).map fun total =>
      ensure (total ≤ 100) s!"layout zone widths sum to {total}%, exceeds 100%"

/-! ### The verbose list -/

/-- What the probe of a backend answers. -/
inductive BackendHealth where
  | healthy | degraded | unreachable | quotaExhausted | authRequired
deriving DecidableEq

def BackendHealth.asStr : BackendHealth → String
  | .healthy => "healthy"
  | .degraded => "degraded"
  | .quotaExhausted => "quota_exhausted"
  | .authRequired => "auth_required"
  | .unreachable => "unreachable"

/-- A line of the verbose report. -/
structure ValidationCheck where
  name : String
  passed : Bool
  detail : String

namespace TeamConfig

def teamNameCheck (config : TeamConfig) : ValidationCheck where
  name := "team_name"
  passed := config.name ≠ ""
  detail := if config.name ≠ "" then s!"team name: '{config.name}'" else "team name is empty"

def rolesPresentCheck (config : TeamConfig) : ValidationCheck where
  name := "roles_present"
  passed := !config.roles.isEmpty
  detail := if !config.roles.isEmpty then s!"{config.roles.length} role(s) defined"
    else "no roles defined"

def teamAgentCheck (config : TeamConfig) : ValidationCheck where
  name := "team_agent"
  passed := config.agent.all adapterFromName
  detail := match config.agent with
    | some name => if adapterFromName name then s!"team agent: '{name}'"
      else s!"unknown team agent: '{name}'"
    | none => "no team-level agent (roles must set their own)"

def overrideCheck (role : RoleDef) (entry : String × RoleInstanceOverride) :
    List ValidationCheck :=
  match entry.2.agent with
  | some agentName => [{
      name := s!"role_instance_agent_valid:{role.name}:{entry.1}"
      passed := isKnownInstanceOverrideBackend agentName
      detail := if isKnownInstanceOverrideBackend agentName then
          s!"role '{role.name}' instance override '{entry.1}' agent '{agentName}' is valid"
        else s!"role '{role.name}' instance override '{entry.1}' uses unknown agent '{agentName}'" }]
  | none => []

def roleAgentValidCheck (role : RoleDef) : List ValidationCheck :=
  match role.agent with
  | some agentName => [{
      name := s!"role_agent_valid:{role.name}"
      passed := adapterFromName agentName
      detail := if adapterFromName agentName then s!"role '{role.name}' agent '{agentName}' is valid"
        else s!"role '{role.name}' uses unknown agent '{agentName}'" }]
  | none => []

def hasAgent (config : TeamConfig) (role : RoleDef) : Bool :=
  role.roleType = .user || role.agent.isSome || config.agent.isSome

def roleUniqueCheck (names : List String) (role : RoleDef) : ValidationCheck where
  name := s!"role_unique:{role.name}"
  passed := role.name ∉ names
  detail := if role.name ∉ names then s!"role '{role.name}' is unique"
    else s!"duplicate role name: '{role.name}'"

def roleAgentCheck (config : TeamConfig) (role : RoleDef) : ValidationCheck where
  name := s!"role_agent:{role.name}"
  passed := config.hasAgent role
  detail := if config.hasAgent role then
      s!"role '{role.name}' agent: " ++ (role.agent.or config.agent).getD "(user)"
    else s!"role '{role.name}' has no agent"

def roleInstancesCheck (role : RoleDef) : ValidationCheck where
  name := s!"role_instances:{role.name}"
  passed := 0 < role.instances
  detail := s!"role '{role.name}' instances: {role.instances}"

/-- The checks of one role. `names` are the names of the roles before it. -/
def roleChecks (config : TeamConfig) (names : List String) (role : RoleDef) :
    List ValidationCheck :=
  [roleUniqueCheck names role] ++ [config.roleAgentCheck role] ++ roleAgentValidCheck role ++
    role.instanceOverrides.flatMap (overrideCheck role) ++ [roleInstancesCheck role]

def rolesChecks (config : TeamConfig) (names : List String) : List RoleDef → List ValidationCheck
  | [] => []
  | role :: roles => config.roleChecks names role ++ config.rolesChecks (names ++ [role.name]) roles

def talksToCheck (config : TeamConfig) (role : RoleDef) (target : String) : ValidationCheck where
  name := s!"talks_to:{role.name}→{target}"
  passed := target ∈ config.roles.map RoleDef.name
  detail := if target ∈ config.roles.map RoleDef.name then s!"role '{role.name}' → '{target}' is valid"
    else s!"role '{role.name}' references unknown role '{target}' in talks_to"

def automationSenderCheck (config : TeamConfig) : List ValidationCheck :=
  match config.automationSender with
  | some sender => [{
      name := "automation_sender"
      passed := sender ∈ config.roles.map RoleDef.name || sender = "human"
      detail := if sender ∈ config.roles.map RoleDef.name || sender = "human" then
          s!"automation_sender '{sender}' is valid"
        else s!"automation_sender references unknown role '{sender}'" }]
  | none => []

def layoutCheck (checks : Bool) (config : TeamConfig) : Option (List ValidationCheck) :=
  match config.layout with
  | some zones => (totalPct checks zones).map fun total => [{
      name := "layout_zones"
      passed := total ≤ 100
      detail := if total ≤ 100 then s!"layout zones sum to {total}%"
        else s!"layout zones sum to {total}%, exceeds 100%" }]
  | none => some []

/-- The backends of the roles, each of them once. -/
def backendNames (config : TeamConfig) : List String :=
  (config.roles.filterMap config.resolveAgent).eraseDups

def healthCheck (health : String → BackendHealth) (agentName : String) : ValidationCheck where
  name := s!"backend_health:{agentName}"
  passed := health agentName = .healthy
  detail := if health agentName = .healthy then s!"backend '{agentName}' is available"
    else s!"backend '{agentName}' binary not found on PATH (status: {(health agentName).asStr})"

/-- The verbose list, unless the widths cannot be added up. `health` is how the backends do. -/
def validateVerbose (checks : Bool) (config : TeamConfig) (health : String → BackendHealth) :
    Option (List ValidationCheck) :=
  let first := [config.teamNameCheck, config.rolesPresentCheck]
  if config.roles.isEmpty then some first
  else (config.layoutCheck checks).map fun layout =>
    first ++ [config.teamAgentCheck] ++ config.rolesChecks [] config.roles ++
      config.roles.flatMap (fun role => role.talksTo.map (config.talksToCheck role)) ++
      config.automationSenderCheck ++ layout ++ config.backendNames.map (healthCheck health)

end TeamConfig

/-! ### The rules of the two lists -/

/-- What both lists ask of a role. -/
structure RoleDef.Shared (config : TeamConfig) (role : RoleDef) : Prop where
  agent : config.hasAgent role = true
  known : ∀ agentName ∈ role.agent, adapterFromName agentName = true
  overrides : ∀ entry ∈ role.instanceOverrides, ∀ agentName ∈ entry.2.agent,
    isKnownInstanceOverrideBackend agentName = true
  instances : 0 < role.instances

/-- What the daemon alone asks of a role. -/
structure RoleDef.Own (config : TeamConfig) (role : RoleDef) : Prop where
  name : role.name ≠ ""
  user : ¬ (role.roleType = .user ∧ role.agent.isSome = true)
  auth : role.authMode.isSome = true ∨ role.authEnv ≠ [] →
    role.agent.or config.agent = some "claude" ∨ role.agent.or config.agent = some "claude-code"
  authEnv : role.authEnv ≠ [] → role.authMode = some .custom
  envNames : ∀ envName ∈ role.authEnv, isValidEnvName envName = true

/-- The rules that both validations enforce. -/
structure TeamConfig.SharedRules (config : TeamConfig) : Prop where
  name : config.name ≠ ""
  roles : config.roles ≠ []
  agent : ∀ agentName ∈ config.agent, adapterFromName agentName = true
  unique : (config.roles.map RoleDef.name).Nodup
  each : ∀ role ∈ config.roles, role.Shared config
  talksTo : ∀ role ∈ config.roles, ∀ target ∈ role.talksTo, target ∈ config.roles.map RoleDef.name
  sender : ∀ sender ∈ config.automationSender,
    sender ∈ config.roles.map RoleDef.name ∨ sender = "human"

/-- What is asked of the clean room. -/
structure WorkflowPolicy.CleanRoom (policy : WorkflowPolicy) (roles : List RoleDef) : Prop where
  handoff : Text.trim policy.handoffDirectory.toList ≠ []
  named : ∀ group ∈ policy.barrierGroups, Text.trim group.1.toList ≠ []
  members : ∀ group ∈ policy.barrierGroups, ∀ roleName ∈ group.2,
    roleName ∈ roles.map RoleDef.name
  groups : policy.barrierGroups ≠ [] → ∀ role ∈ roles, ∀ group ∈ role.barrierGroup,
    group ∈ policy.barrierGroups.map Prod.fst

/-- The rules that only `validate` enforces. -/
structure TeamConfig.OwnRules (config : TeamConfig) : Prop where
  branch : Text.trim config.trunkBranch.toList ≠ []
  branchWord : ∀ c ∈ config.trunkBranch.toList, Text.isWhitespace c = false
  each : ∀ role ∈ config.roles, role.Own config
  cleanRoom : config.workflowPolicy.cleanRoomMode = true →
    config.workflowPolicy.CleanRoom config.roles

section

variable {checks : Bool} {config : TeamConfig} {names : List String} {role : RoleDef}
  {roles : List RoleDef}

/-! ### The daemon's list -/

theorem seq_eq_ok {first next : Except String Unit} :
    (first >>= fun _ => next) = .ok () ↔ first = .ok () ∧ next = .ok () := by
  rw [bind_eq_ok]
  constructor
  · rintro ⟨⟨⟩, hfirst, hnext⟩
    exact ⟨hfirst, hnext⟩
  · exact fun h => ⟨(), h⟩

theorem forM_eq_ok {α : Type} {f : α → Except String Unit} {entries : List α} :
    entries.forM f = .ok () ↔ ∀ a ∈ entries, f a = .ok () := by
  induction entries with
  | nil => exact iff_of_true rfl fun _ h => absurd h List.not_mem_nil
  | cons head entries ih =>
    show (f head >>= fun _ => entries.forM f) = .ok () ↔ _
    rw [seq_eq_ok, ih, List.forall_mem_cons]

theorem validateTeamAgent_eq_ok : validateTeamAgent config = .ok () ↔
    ∀ agentName ∈ config.agent, adapterFromName agentName = true := by
  rw [validateTeamAgent]
  cases config.agent <;> simp [ensure_eq_ok]

theorem validateAgent_eq_ok : validateAgent role = .ok () ↔
    ∀ agentName ∈ role.agent, adapterFromName agentName = true := by
  rw [validateAgent]
  cases role.agent <;> simp [ensure_eq_ok]

theorem validateOverride_eq_ok {entry : String × RoleInstanceOverride} :
    validateOverride role entry = .ok () ↔
      ∀ agentName ∈ entry.2.agent, isKnownInstanceOverrideBackend agentName = true := by
  rw [validateOverride]
  cases entry.2.agent <;> simp [ensure_eq_ok]

theorem not_and_eq_true_iff {p q : Bool} : (!(p && q)) = true ↔ (p = true → q = false) := by
  cases p <;> cases q <;> simp

theorem hasAgent_eq : config.hasAgent role =
    !(role.roleType ≠ .user && role.agent.isNone && config.agent.isNone) := by
  rw [TeamConfig.hasAgent]
  cases role.agent <;> cases config.agent <;> simp

theorem validateRole_eq_ok : validateRole config names role = .ok () ↔
    role.name ∉ names ∧ role.Shared config ∧ role.Own config := by
  simp only [validateRole, seq_eq_ok, forM_eq_ok, validateAgent_eq_ok, validateOverride_eq_ok,
    ensure_eq_ok, ← hasAgent_eq]
  constructor
  · rintro ⟨hname, hnew, hagent, huser, hinstances, hknown, hoverrides, hauth, henv, hnames⟩
    rw [not_and_eq_true_iff] at huser hauth henv
    refine ⟨of_decide_eq_true hnew, ⟨hagent, hknown, hoverrides, ?_⟩, of_decide_eq_true hname, ?_,
      ?_, ?_, hnames⟩
    · exact Nat.pos_of_ne_zero (of_decide_eq_true hinstances)
    · rintro ⟨huserRole, hsome⟩
      exact Bool.eq_false_iff.mp (huser (decide_eq_true huserRole)) hsome
    · intro hsets
      have hclaude := hauth (by simpa using hsets)
      rwa [Bool.not_eq_false', Bool.or_eq_true, decide_eq_true_eq, decide_eq_true_eq] at hclaude
    · intro hne
      by_contra hmode
      simpa [hne] using henv (decide_eq_true hmode)
  · rintro ⟨hnew, hshared, hown⟩
    refine ⟨decide_eq_true hown.name, decide_eq_true hnew, hshared.agent, ?_,
      decide_eq_true hshared.instances.ne', hshared.known, hshared.overrides, ?_, ?_, hown.envNames⟩
    · rw [not_and_eq_true_iff]
      exact fun huserRole => Bool.eq_false_iff.mpr fun hsome =>
        hown.user ⟨of_decide_eq_true huserRole, hsome⟩
    · rw [not_and_eq_true_iff]
      intro hsets
      rw [Bool.not_eq_false', Bool.or_eq_true, decide_eq_true_eq, decide_eq_true_eq]
      exact hown.auth (by simpa using hsets)
    · rw [not_and_eq_true_iff]
      intro hmode
      by_contra hne
      exact of_decide_eq_true hmode (hown.authEnv (by simpa using hne))

/-- The names of the roles differ from each other and from those before them. -/
def NewNames (names : List String) (roles : List RoleDef) : Prop :=
  (roles.map RoleDef.name).Nodup ∧ ∀ role ∈ roles, role.name ∉ names

theorem newNames_nil : NewNames names [] := ⟨List.nodup_nil, fun _ h => by cases h⟩

theorem newNames_cons : NewNames names (role :: roles) ↔
    role.name ∉ names ∧ NewNames (names ++ [role.name]) roles := by
  have hnew : role.name ∉ roles.map RoleDef.name ↔ ∀ other ∈ roles, other.name ≠ role.name := by
    simp only [List.mem_map, not_exists, not_and]
  simp only [NewNames, List.map_cons, List.nodup_cons, hnew, List.forall_mem_cons,
    List.mem_append, List.mem_singleton, not_or]
  constructor
  · rintro ⟨⟨hothers, hnodup⟩, hname, hnames⟩
    exact ⟨hname, hnodup, fun other hother => ⟨hnames other hother, hothers other hother⟩⟩
  · rintro ⟨hname, hnodup, hnames⟩
    exact ⟨⟨fun other hother => (hnames other hother).2, hnodup⟩, hname,
      fun other hother => (hnames other hother).1⟩

/-- By induction on the roles, each name is new after those before it. -/
theorem validateRoles_eq_ok : validateRoles config names roles = .ok () ↔
    NewNames names roles ∧ ∀ role ∈ roles, role.Shared config ∧ role.Own config := by
  induction roles generalizing names with
  | nil => simp [validateRoles, newNames_nil]
  | cons role roles ih =>
    rw [validateRoles, seq_eq_ok, validateRole_eq_ok, ih, newNames_cons, List.forall_mem_cons]
    tauto

theorem validateCleanRoom_eq_ok : validateCleanRoom config = .ok () ↔
    (config.workflowPolicy.cleanRoomMode = true →
      config.workflowPolicy.CleanRoom config.roles) := by
  have hgroups : ∀ role : RoleDef, (match role.barrierGroup with
      | some group => ensure (config.workflowPolicy.barrierGroups.isEmpty ||
            config.workflowPolicy.barrierGroups.any fun entry => entry.1 = group)
          s!"role '{role.name}' references unknown barrier_group '{group}'"
      | none => Except.ok ()) = .ok () ↔ (config.workflowPolicy.barrierGroups ≠ [] →
        ∀ group ∈ role.barrierGroup, group ∈ config.workflowPolicy.barrierGroups.map Prod.fst) := by
    intro role
    cases role.barrierGroup with
    | none => simp
    | some group =>
      simp only [ensure_eq_ok, Bool.or_eq_true, List.isEmpty_iff, List.any_eq_true,
        decide_eq_true_eq, Option.mem_some_iff, forall_eq', List.mem_map, ne_eq]
      exact or_iff_not_imp_left
  cases hmode : config.workflowPolicy.cleanRoomMode with
  | false => simp [validateCleanRoom, hmode, pure, Except.pure]
  | true =>
    simp only [validateCleanRoom, hmode, if_true, forall_const]
    rw [seq_eq_ok, seq_eq_ok, seq_eq_ok, forM_eq_ok, forM_eq_ok, forM_eq_ok]
    simp only [forM_eq_ok, ensure_eq_ok, decide_eq_true_eq]
    constructor
    · rintro ⟨hhandoff, hnamed, hmembers, hroles⟩
      exact ⟨hhandoff, hnamed, hmembers,
        fun hne role hrole => (hgroups role).mp (hroles role hrole) hne⟩
    · rintro ⟨hhandoff, hnamed, hmembers, hroles⟩
      exact ⟨hhandoff, hnamed, hmembers,
        fun role hrole => (hgroups role).mpr fun hne => hroles hne role hrole⟩

theorem validateReferences_eq_ok : validateReferences config = .ok () ↔
    (∀ role ∈ config.roles, ∀ target ∈ role.talksTo, target ∈ config.roles.map RoleDef.name) ∧
      ∀ sender ∈ config.automationSender,
        sender ∈ config.roles.map RoleDef.name ∨ sender = "human" := by
  have hsender : validateAutomationSender config = .ok () ↔ ∀ sender ∈ config.automationSender,
      sender ∈ config.roles.map RoleDef.name ∨ sender = "human" := by
    rw [validateAutomationSender]
    cases config.automationSender <;> simp [ensure_eq_ok]
  simp only [validateReferences, seq_eq_ok, forM_eq_ok, ensure_eq_ok, decide_eq_true_eq, hsender]

/-- **The daemon's list** asks for both kinds of rules. -/
theorem validateRules_eq_ok :
    config.validateRules = .ok () ↔ config.SharedRules ∧ config.OwnRules := by
  simp only [TeamConfig.validateRules, seq_eq_ok, ensure_eq_ok, validateTeamAgent_eq_ok,
    validateRoles_eq_ok, validateCleanRoom_eq_ok, validateReferences_eq_ok, decide_eq_true_eq,
    Bool.not_eq_true', List.isEmpty_eq_false_iff, List.any_eq_false, Bool.not_eq_true]
  constructor
  · rintro ⟨hname, hbranch, hword, hroles, hagent, ⟨⟨hunique, -⟩, heach⟩, hclean, htalks, hsender⟩
    exact ⟨⟨hname, hroles, hagent, hunique, fun role hrole => (heach role hrole).1, htalks,
        hsender⟩,
      ⟨hbranch, hword, fun role hrole => (heach role hrole).2, hclean⟩⟩
  · rintro ⟨hshared, hown⟩
    exact ⟨hshared.name, hown.branch, hown.branchWord, hshared.roles, hshared.agent,
      ⟨⟨hshared.unique, fun _ _ => List.not_mem_nil⟩,
        fun role hrole => ⟨hshared.each role hrole, hown.each role hrole⟩⟩,
      hown.cleanRoom, hshared.talksTo, hshared.sender⟩

/-! ### The verbose list -/

def ValidationCheck.IsHealth (check : ValidationCheck) : Prop :=
  "backend_health:".toList <+: check.name.toList

/-- Every check that is not about a backend has passed. -/
def ChecksPass (checks : List ValidationCheck) : Prop :=
  ∀ check ∈ checks, ¬ check.IsHealth → check.passed = true

theorem checksPass_append {checks checks' : List ValidationCheck} :
    ChecksPass (checks ++ checks') ↔ ChecksPass checks ∧ ChecksPass checks' := by
  simp [ChecksPass, or_imp, forall_and]

theorem checksPass_singleton {check : ValidationCheck} (h : ¬ check.IsHealth) :
    ChecksPass [check] ↔ check.passed = true := by
  simp [ChecksPass, h]

theorem checksPass_flatMap {α : Type} {f : α → List ValidationCheck} {entries : List α} :
    ChecksPass (entries.flatMap f) ↔ ∀ a ∈ entries, ChecksPass (f a) := by
  simp only [ChecksPass, List.mem_flatMap]
  exact ⟨fun h a ha check hcheck => h check ⟨a, ha, hcheck⟩,
    fun h check ⟨a, ha, hcheck⟩ => h a ha check hcheck⟩

/-- A check whose name begins with another letter is not about a backend. -/
theorem not_isHealth {check : ValidationCheck} {c : Char}
    (hname : check.name.toList.head? = some c) (hc : c ≠ 'b') : ¬ check.IsHealth := by
  rintro ⟨rest, hrest⟩
  rw [← hrest] at hname
  exact hc (Option.some.inj hname).symm

theorem head?_toList_append {begin rest : String} {c : Char} (h : begin.toList.head? = some c) :
    (begin ++ rest).toList.head? = some c := by
  rw [String.toList_append, List.head?_append, h]
  rfl

theorem checksPass_teamAgentCheck : ChecksPass [config.teamAgentCheck] ↔
    ∀ agentName ∈ config.agent, adapterFromName agentName = true := by
  have hname : config.teamAgentCheck.name.toList.head? = some 't' := by
    show "team_agent".toList.head? = some 't'
    decide
  rw [checksPass_singleton (not_isHealth hname (by decide)), TeamConfig.teamAgentCheck]
  cases config.agent <;> simp

theorem checksPass_overrideCheck {entry : String × RoleInstanceOverride} :
    ChecksPass (TeamConfig.overrideCheck role entry) ↔
      ∀ agentName ∈ entry.2.agent, isKnownInstanceOverrideBackend agentName = true := by
  rw [TeamConfig.overrideCheck]
  cases entry.2.agent with
  | none => simp [ChecksPass]
  | some agentName =>
    rw [checksPass_singleton (not_isHealth (c := 'r') ?_ (by decide))]
    · simp
    · exact head?_toList_append (head?_toList_append (head?_toList_append rfl))

theorem checksPass_roleAgentValidCheck : ChecksPass (TeamConfig.roleAgentValidCheck role) ↔
    ∀ agentName ∈ role.agent, adapterFromName agentName = true := by
  rw [TeamConfig.roleAgentValidCheck]
  cases role.agent with
  | none => simp [ChecksPass]
  | some agentName =>
    rw [checksPass_singleton (not_isHealth (c := 'r') ?_ (by decide))]
    · simp
    · exact head?_toList_append rfl

theorem checksPass_roleUniqueCheck :
    ChecksPass [TeamConfig.roleUniqueCheck names role] ↔ role.name ∉ names := by
  have hname : (TeamConfig.roleUniqueCheck names role).name.toList.head? = some 'r' :=
    head?_toList_append rfl
  rw [checksPass_singleton (not_isHealth hname (by decide))]
  exact decide_eq_true_iff

theorem checksPass_roleAgentCheck :
    ChecksPass [config.roleAgentCheck role] ↔ config.hasAgent role = true := by
  have hname : (config.roleAgentCheck role).name.toList.head? = some 'r' :=
    head?_toList_append rfl
  exact checksPass_singleton (not_isHealth hname (by decide))

theorem checksPass_roleInstancesCheck :
    ChecksPass [TeamConfig.roleInstancesCheck role] ↔ 0 < role.instances := by
  have hname : (TeamConfig.roleInstancesCheck role).name.toList.head? = some 'r' :=
    head?_toList_append rfl
  rw [checksPass_singleton (not_isHealth hname (by decide))]
  exact decide_eq_true_iff

theorem checksPass_roleChecks :
    ChecksPass (config.roleChecks names role) ↔ role.name ∉ names ∧ role.Shared config := by
  simp only [TeamConfig.roleChecks, checksPass_append, checksPass_flatMap,
    checksPass_roleUniqueCheck, checksPass_roleAgentCheck, checksPass_roleAgentValidCheck,
    checksPass_overrideCheck, checksPass_roleInstancesCheck]
  constructor
  · rintro ⟨⟨⟨⟨hnew, hagent⟩, hknown⟩, hoverrides⟩, hinstances⟩
    exact ⟨hnew, hagent, hknown, hoverrides, hinstances⟩
  · rintro ⟨hnew, h⟩
    exact ⟨⟨⟨⟨hnew, h.agent⟩, h.known⟩, h.overrides⟩, h.instances⟩

theorem checksPass_rolesChecks : ChecksPass (config.rolesChecks names roles) ↔
    NewNames names roles ∧ ∀ role ∈ roles, role.Shared config := by
  induction roles generalizing names with
  | nil => simp [TeamConfig.rolesChecks, ChecksPass, newNames_nil]
  | cons role roles ih =>
    rw [TeamConfig.rolesChecks, checksPass_append, checksPass_roleChecks, ih, newNames_cons,
      List.forall_mem_cons]
    tauto

theorem checksPass_talksToCheck {target : String} : ChecksPass [config.talksToCheck role target] ↔
    target ∈ config.roles.map RoleDef.name := by
  have hname : (config.talksToCheck role target).name.toList.head? = some 't' :=
    head?_toList_append (head?_toList_append (head?_toList_append rfl))
  rw [checksPass_singleton (not_isHealth hname (by decide))]
  exact decide_eq_true_iff

theorem checksPass_automationSenderCheck : ChecksPass config.automationSenderCheck ↔
    ∀ sender ∈ config.automationSender,
      sender ∈ config.roles.map RoleDef.name ∨ sender = "human" := by
  have hname : "automation_sender".toList.head? = some 'a' := by decide
  rw [TeamConfig.automationSenderCheck]
  cases config.automationSender with
  | none => simp [ChecksPass]
  | some sender =>
    rw [checksPass_singleton (not_isHealth (c := 'a') ?_ (by decide))]
    · simp
    · exact hname

theorem checksPass_healthChecks {health : String → BackendHealth} {agentNames : List String} :
    ChecksPass (agentNames.map (TeamConfig.healthCheck health)) := by
  intro check hcheck hnot
  obtain ⟨agentName, -, rfl⟩ := List.mem_map.mp hcheck
  exact absurd ⟨agentName.toList, (String.toList_append ..).symm⟩ hnot

/-- The widths of the layout come to no more than all there is, as the build adds them up. -/
def TeamConfig.WithinLayout (checks : Bool) (config : TeamConfig) : Prop :=
  ∀ zones ∈ config.layout, (if checks then zones.sum else zones.sum % 2 ^ 32) ≤ 100

/-- The widths of the layout can be added up. -/
def TeamConfig.FitsLayout (config : TeamConfig) : Prop := ∀ zones ∈ config.layout, zones.sum < 2 ^ 32

/-- The widths can be added up, and come to no more than all there is. -/
theorem exists_totalPct_iff {zones : List Nat} :
    (∃ total, totalPct checks zones = some total ∧ total ≤ 100) ↔
      (if checks then zones.sum else zones.sum % 2 ^ 32) ≤ 100 := by
  cases checks with
  | false => simp [totalPct_wrapping]
  | true =>
    rw [totalPct_checked, if_pos rfl]
    split_ifs with hfits
    · simp
    · simp only [false_and, exists_false, false_iff]
      omega

theorem checksPass_layoutCheck :
    (∃ list, config.layoutCheck checks = some list ∧ ChecksPass list) ↔
      config.WithinLayout checks := by
  have hname : "layout_zones".toList.head? = some 'l' := by decide
  rw [TeamConfig.layoutCheck, TeamConfig.WithinLayout]
  cases config.layout with
  | none => simp [ChecksPass]
  | some zones =>
    simp only [Option.mem_some_iff, forall_eq', Option.map_eq_some_iff, exists_exists_and_eq_and,
      ← exists_totalPct_iff]
    refine exists_congr fun total => and_congr_right' ?_
    rw [checksPass_singleton (not_isHealth (c := 'l') ?_ (by decide)), decide_eq_true_eq]
    exact hname

/-- The verbose list comes out, and all that is not about a backend has passed. -/
def TeamConfig.PassesVerbose (checks : Bool) (config : TeamConfig)
    (health : String → BackendHealth) : Prop :=
  ∃ list, config.validateVerbose checks health = some list ∧ ChecksPass list

/-- **The verbose list** asks for the shared rules alone. -/
theorem passesVerbose_iff {health : String → BackendHealth} :
    config.PassesVerbose checks health ↔ config.SharedRules ∧ config.WithinLayout checks := by
  have hteam : "team_name".toList.head? = some 't' := by decide
  have hpresent : "roles_present".toList.head? = some 'r' := by decide
  have hfirst : ChecksPass [config.teamNameCheck, config.rolesPresentCheck] ↔
      config.name ≠ "" ∧ config.roles ≠ [] := by
    rw [← List.singleton_append, checksPass_append,
      checksPass_singleton (not_isHealth (c := 't') ?_ (by decide)),
      checksPass_singleton (not_isHealth (c := 'r') ?_ (by decide)),
      TeamConfig.teamNameCheck, TeamConfig.rolesPresentCheck, decide_eq_true_eq,
      Bool.not_eq_true', List.isEmpty_eq_false_iff]
    · exact hpresent
    · exact hteam
  rw [TeamConfig.PassesVerbose, TeamConfig.validateVerbose]
  by_cases hroles : config.roles = []
  · rw [if_pos (List.isEmpty_iff.mpr hroles)]
    simp only [Option.some.injEq, exists_eq_left', hfirst]
    exact ⟨fun h => absurd hroles h.2, fun h => absurd hroles h.1.roles⟩
  · rw [if_neg (by simpa using hroles), ← checksPass_layoutCheck]
    simp only [Option.map_eq_some_iff, exists_exists_and_eq_and, checksPass_append, hfirst,
      checksPass_teamAgentCheck, checksPass_rolesChecks, checksPass_flatMap,
      checksPass_automationSenderCheck, checksPass_healthChecks, and_true]
    have htalks : (∀ role ∈ config.roles,
        ChecksPass (role.talksTo.map (config.talksToCheck role))) ↔ ∀ role ∈ config.roles,
          ∀ target ∈ role.talksTo, target ∈ config.roles.map RoleDef.name := by
      refine forall₂_congr fun role _ => ?_
      rw [List.map_eq_flatMap, checksPass_flatMap]
      exact forall₂_congr fun target _ => checksPass_talksToCheck
    rw [htalks]
    constructor
    · rintro ⟨layout, hlayout, ⟨⟨⟨⟨⟨hname, -⟩, hagent⟩, ⟨hunique, -⟩, heach⟩, htalks⟩, hsender⟩,
        hpass⟩
      exact ⟨⟨hname, hroles, hagent, hunique, heach, htalks, hsender⟩, layout, hlayout, hpass⟩
    · rintro ⟨h, layout, hlayout, hpass⟩
      exact ⟨layout, hlayout, ⟨⟨⟨⟨⟨h.name, hroles⟩, h.agent⟩,
        ⟨h.unique, fun _ _ => List.not_mem_nil⟩, h.each⟩, h.talksTo⟩, h.sender⟩, hpass⟩

/-- **The daemon's checks** pass just if both kinds of rules are kept. -/
theorem validateRun_eq_ok : config.validateRun checks = some (.ok ()) ↔
    (config.SharedRules ∧ config.OwnRules) ∧ config.WithinLayout checks := by
  rw [← validateRules_eq_ok, TeamConfig.validateRun, TeamConfig.WithinLayout]
  cases config.validateRules with
  | error message => simp
  | ok done =>
    cases config.layout with
    | none => simp
    | some zones =>
      simp only [Option.mem_some_iff, forall_eq', true_and, Option.map_eq_some_iff, ensure_eq_ok,
        decide_eq_true_eq, exists_totalPct_iff]

end

/-- The checks come to the widths, and the sum of these leaves the 32 bits. -/
def TeamConfig.Overflows (config : TeamConfig) : Prop :=
  config.validateRules = .ok () ∧ ¬ config.FitsLayout

/-- The verbose list finds fault just where the daemon does, and nothing overflows in the daemon's
checks. -/
def TeamConfig.AgreesVerbose (checks : Bool) (config : TeamConfig)
    (health : String → BackendHealth) : Prop :=
  (config.validateRun checks = some (.ok ()) ↔ config.PassesVerbose checks health) ∧
    ¬ config.Overflows

/-- **The two lists agree**, in either build, just if a rule that both know is broken or none that
the daemon alone knows is, and if a rule is broken before the widths are added up or they can be. -/
theorem agreesVerbose_iff (checks : Bool) (config : TeamConfig) (health : String → BackendHealth) :
    config.AgreesVerbose checks health ↔
      (config.SharedRules → config.WithinLayout checks → config.OwnRules) ∧
        (config.SharedRules → config.OwnRules → config.FitsLayout) := by
  rw [TeamConfig.AgreesVerbose, validateRun_eq_ok, passesVerbose_iff, TeamConfig.Overflows,
    validateRules_eq_ok]
  tauto

/-- One engineer, on a branch of no name. -/
def branchlessTeam : TeamConfig where
  name := "team"
  trunkBranch := ""
  agent := some "claude"
  automationSender := none
  workflowPolicy := { cleanRoomMode := false, handoffDirectory := "", barrierGroups := [] }
  layout := none
  roles := [{
    name := "engineer", roleType := .engineer, agent := none, model := none, authMode := none,
    authEnv := [], instances := 1, prompt := none, posture := none, modelClass := none,
    providerOverlay := none, instanceOverrides := [], talksTo := [], barrierGroup := none,
    useWorktrees := true }]

theorem sharedRules_branchlessTeam : branchlessTeam.SharedRules where
  name := by decide
  roles := by decide
  agent := by decide
  unique := by decide
  each role hrole := by
    rw [List.mem_singleton.mp hrole]
    exact ⟨by decide, nofun, nofun, by decide⟩
  talksTo role hrole := by
    rw [List.mem_singleton.mp hrole]
    exact nofun
  sender := nofun

/-- A team without a trunk branch passes every verbose check. -/
theorem not_agreesVerbose :
    ¬ ∀ (checks : Bool) (config : TeamConfig), config.AgreesVerbose checks fun _ => .healthy := by
  intro h
  have hpasses : branchlessTeam.PassesVerbose true fun _ => .healthy :=
    passesVerbose_iff.mpr ⟨sharedRules_branchlessTeam, nofun⟩
  have hown := (validateRun_eq_ok.mp ((h true branchlessTeam).1.mpr hpasses)).1.2
  exact hown.branch rfl

end Config

end Batty
