import Batty.Dispatch.Available
import Batty.Foundation.Text

/-!
# The team's configuration

What `team.yaml` says of the roles of a team, and the checks it has to pass. Where an error lists
the names of all roles, their order is left open by the program; here it is that of the file.

Of everything the checks guarantee, two things matter to the names of the members: no two roles
have one name, and every role has an instance (`distinct_of_validate`, `instances_pos_of_validate`).
-/

namespace Batty

namespace Config

/-- How Claude is logged in. -/
inductive ClaudeAuthMode where
  | oauth | apiKey | custom
deriving DecidableEq

/-- What one instance of a role has otherwise than the role. -/
structure RoleInstanceOverride where
  agent : Option String
  model : Option String
  prompt : Option String
  posture : Option String
  modelClass : Option String
  providerOverlay : Option String

/-- A role of the team, as far as it is validated. -/
structure RoleDef where
  name : String
  roleType : RoleType
  agent : Option String
  model : Option String
  authMode : Option ClaudeAuthMode
  authEnv : List String
  instances : Nat
  prompt : Option String
  posture : Option String
  modelClass : Option String
  providerOverlay : Option String
  instanceOverrides : List (String × RoleInstanceOverride)
  talksTo : List String
  barrierGroup : Option String
  useWorktrees : Bool

/-- The part of the policy that is about the clean room. -/
structure WorkflowPolicy where
  cleanRoomMode : Bool
  handoffDirectory : String
  barrierGroups : List (String × List String)

/-- The configuration of a team, as far as it is validated. -/
structure TeamConfig where
  name : String
  trunkBranch : String
  agent : Option String
  automationSender : Option String
  workflowPolicy : WorkflowPolicy
  /-- The widths of the zones of the layout, in percent. -/
  layout : Option (List Nat)
  roles : List RoleDef

/-! ### Agents -/

def knownAgentNames : List String := ["claude", "codex", "kiro-cli"]

/-- There is an adapter of that name. -/
def adapterFromName (name : String) : Bool :=
  name ∈ ["claude", "claude-code", "codex", "codex-cli", "kiro", "kiro-cli"]

def isKnownInstanceOverrideBackend (agentName : String) : Bool :=
  agentName ∈ ["claude", "claude-code", "codex", "codex-cli", "kiro", "kiro-cli", "gemini",
    "gemini-cli"]

def isValidEnvName (value : String) : Bool :=
  match value.toList with
  | [] => false
  | first :: rest => (first = '_' || first.isAlpha) && rest.all fun ch => ch = '_' || ch.isAlphanum

def TeamConfig.resolveAgent (config : TeamConfig) (role : RoleDef) : Option String :=
  if role.roleType = .user then none
  else some ((role.agent.or config.agent).getD "claude")

/-! ### Checks -/

/-- A check, and what is said if it fails. -/
def ensure (holds : Bool) (message : String) : Except String Unit :=
  if holds then .ok () else .error message

theorem ensure_eq_ok {holds : Bool} {message : String} :
    ensure holds message = .ok () ↔ holds = true := by
  unfold ensure
  split <;> simp_all

/-- A computation that goes on after another returns only if that one does. -/
theorem bind_eq_ok {α β : Type} {x : Except String α} {f : α → Except String β} {b : β} :
    x >>= f = .ok b ↔ ∃ a, x = .ok a ∧ f a = .ok b := by
  constructor
  · intro h
    cases x with
    | ok a => exact ⟨a, rfl, h⟩
    | error message => cases h
  · rintro ⟨a, rfl, h⟩
    exact h

def validAgents : String := ", ".intercalate knownAgentNames

def validateTeamAgent (config : TeamConfig) : Except String Unit :=
  match config.agent with
  | some teamAgent => ensure (adapterFromName teamAgent)
      s!"unknown team-level agent '{teamAgent}'; valid agents: {validAgents}"
  | none => .ok ()

def validateOverride (role : RoleDef) (entry : String × RoleInstanceOverride) :
    Except String Unit :=
  match entry.2.agent with
  | some agentName => ensure (isKnownInstanceOverrideBackend agentName)
      (s!"role '{role.name}' instance override '{entry.1}' uses unknown agent " ++
        s!"'{agentName}'; valid agents: {validAgents}")
  | none => .ok ()

def validateAgent (role : RoleDef) : Except String Unit :=
  match role.agent with
  | some agentName => ensure (adapterFromName agentName)
      s!"role '{role.name}' uses unknown agent '{agentName}'; valid agents: {validAgents}"
  | none => .ok ()

/-- The checks of one role. `names` are the names of the roles before it. -/
def validateRole (config : TeamConfig) (names : List String) (role : RoleDef) :
    Except String Unit := do
  ensure (role.name ≠ "") "role has empty name — every role requires a non-empty 'name' field"
  ensure (role.name ∉ names) s!"duplicate role name: '{role.name}'"
  ensure (!(role.roleType ≠ .user && role.agent.isNone && config.agent.isNone))
    (s!"role '{role.name}' has no agent configured — set a role-level 'agent' field or a " ++
      s!"team-level 'agent' default; valid agents: {validAgents}")
  ensure (!(role.roleType = .user && role.agent.isSome))
    s!"role '{role.name}' is a user but has an agent configured; users use channels instead"
  ensure (role.instances ≠ 0) s!"role '{role.name}' has zero instances"
  validateAgent role
  role.instanceOverrides.forM (validateOverride role)
  let effectiveAgent := role.agent.or config.agent
  ensure (!((role.authMode.isSome || !role.authEnv.isEmpty) &&
      !(effectiveAgent = some "claude" || effectiveAgent = some "claude-code")))
    s!"role '{role.name}' configures Claude auth but effective agent is not claude"
  ensure (!(role.authMode ≠ some .custom && !role.authEnv.isEmpty))
    s!"role '{role.name}' sets auth_env but auth_mode is not 'custom'"
  role.authEnv.forM fun envName => ensure (isValidEnvName envName)
    s!"role '{role.name}' has invalid auth_env entry '{envName}'; expected shell env name"

def validateRoles (config : TeamConfig) (names : List String) : List RoleDef → Except String Unit
  | [] => .ok ()
  | role :: roles => do
    validateRole config names role
    validateRoles config (names ++ [role.name]) roles

/-- The checks of the clean room, if there is one. -/
def validateCleanRoom (config : TeamConfig) : Except String Unit := do
  let policy := config.workflowPolicy
  let roleNames := config.roles.map RoleDef.name
  if policy.cleanRoomMode then
    ensure (Text.trim policy.handoffDirectory.toList ≠ [])
      "workflow_policy.handoff_directory cannot be empty in clean_room_mode"
    policy.barrierGroups.forM fun group => ensure (Text.trim group.1.toList ≠ [])
      "workflow_policy.barrier_groups cannot contain an empty group name"
    policy.barrierGroups.forM fun group => group.2.forM fun roleName =>
      ensure (roleName ∈ roleNames)
        s!"workflow_policy.barrier_groups['{group.1}'] references unknown role '{roleName}'"
    config.roles.forM fun role => match role.barrierGroup with
      | some group => ensure (policy.barrierGroups.isEmpty ||
            policy.barrierGroups.any fun entry => entry.1 = group)
          s!"role '{role.name}' references unknown barrier_group '{group}'"
      | none => .ok ()

def validateAutomationSender (config : TeamConfig) : Except String Unit :=
  let roleNames := config.roles.map RoleDef.name
  match config.automationSender with
  | some sender => ensure (sender ∈ roleNames || sender = "human")
      (s!"automation_sender references unknown role '{sender}'; defined roles: " ++
        ", ".intercalate roleNames)
  | none => .ok ()

/-- The roles that are spoken of exist. -/
def validateReferences (config : TeamConfig) : Except String Unit := do
  let roleNames := config.roles.map RoleDef.name
  let defined := ", ".intercalate roleNames
  config.roles.forM fun role => role.talksTo.forM fun target => ensure (target ∈ roleNames)
    s!"role '{role.name}' references unknown role '{target}' in talks_to; defined roles: {defined}"
  validateAutomationSender config

def validateLayout (config : TeamConfig) : Except String Unit :=
  match config.layout with
  | some zones => ensure (zones.sum ≤ 100)
      s!"layout zone widths sum to {zones.sum}%, exceeds 100%"
  | none => .ok ()

/-- The checks in the order of the source; the first that fails is the error. -/
def TeamConfig.validate (config : TeamConfig) : Except String Unit := do
  ensure (config.name ≠ "") "team name cannot be empty"
  ensure (Text.trim config.trunkBranch.toList ≠ []) "trunk_branch cannot be empty"
  ensure (!config.trunkBranch.toList.any Text.isWhitespace)
    (s!"trunk_branch '{config.trunkBranch}' is invalid: branch names cannot contain " ++
      "whitespace")
  ensure (!config.roles.isEmpty) "team must have at least one role"
  validateTeamAgent config
  validateRoles config [] config.roles
  validateCleanRoom config
  validateReferences config
  validateLayout config

/-! ### What the checks guarantee -/

section

variable {config : TeamConfig} {names : List String} {role : RoleDef} {roles : List RoleDef}

theorem validateRole_ok (h : validateRole config names role = .ok ()) :
    role.name ∉ names ∧ role.instances ≠ 0 := by
  simp only [validateRole, bind_eq_ok] at h
  obtain ⟨_, -, _, hname, _, -, _, -, _, hinstances, -⟩ := h
  exact ⟨of_decide_eq_true (ensure_eq_ok.mp hname),
    of_decide_eq_true (ensure_eq_ok.mp hinstances)⟩

/-- By induction on the roles, each name is new after those before it. -/
theorem validateRoles_ok (h : validateRoles config names roles = .ok ()) :
    (roles.map RoleDef.name).Nodup ∧ (∀ role ∈ roles, role.name ∉ names ∧ role.instances ≠ 0) := by
  induction roles generalizing names with
  | nil => exact ⟨List.nodup_nil, fun _ hmem => by cases hmem⟩
  | cons role roles ih =>
    obtain ⟨_, hrole, hrest⟩ := bind_eq_ok.mp h
    obtain ⟨hnodup, hothers⟩ := ih hrest
    refine ⟨List.nodup_cons.mpr ⟨fun hmem => ?_, hnodup⟩, fun other hmem => ?_⟩
    · obtain ⟨other, hother, heq⟩ := List.mem_map.mp hmem
      exact (hothers other hother).1 (by simp [heq])
    · rcases List.mem_cons.mp hmem with rfl | hother
      · exact validateRole_ok hrole
      · obtain ⟨hname, hinstances⟩ := hothers other hother
        exact ⟨fun hold => hname (List.mem_append_left _ hold), hinstances⟩

theorem validateRoles_of_validate (h : config.validate = .ok ()) :
    validateRoles config [] config.roles = .ok () := by
  simp only [TeamConfig.validate, bind_eq_ok] at h
  obtain ⟨_, -, _, -, _, -, _, -, _, -, _, hroles, -⟩ := h
  exact hroles

theorem distinct_of_validate (h : config.validate = .ok ()) :
    (config.roles.map RoleDef.name).Nodup :=
  (validateRoles_ok (validateRoles_of_validate h)).1

theorem instances_pos_of_validate (h : config.validate = .ok ()) (hmem : role ∈ config.roles) :
    0 < role.instances :=
  Nat.pos_of_ne_zero ((validateRoles_ok (validateRoles_of_validate h)).2 role hmem).2

end

end Config

end Batty
