import Mathlib.Algebra.Order.Ring.Int
import Mathlib.Data.List.Flatten
import Mathlib.Data.List.Nodup
import Mathlib.Data.List.Pairwise
import Mathlib.Logic.Relation
import Batty.Config.Validate
import Batty.Foundation.Lists

/-!
# The members of a team

The roles of the configuration become members. A role with one instance gives its own name to it,
one with several numbers them, and an engineer role numbers them for each of its managers.

Nothing keeps the numbered names of one role apart from the name of another. The hierarchy is well
formed just if no role is named like an instance of another (`wellFormed_iff_unambiguous`); what
else there is to a well-formed hierarchy holds for every configuration that passes the checks.
-/

namespace Batty

namespace Config

/-! ### Names -/

/-- `{base}-{index}` -/
def instanceName (base : String) (index : Nat) : String := s!"{base}-{index}"

theorem toList_instanceName (base : String) (index : Nat) :
    (instanceName base index).toList = base.toList ++ '-' :: Nat.toDigits 10 index := by
  have hindex : (toString index).toList = Nat.toDigits 10 index := by
    rw [Nat.toString_eq_repr, Nat.toList_repr]
  show (base ++ "-" ++ toString index).toList = _
  rw [String.toList_append, String.toList_append, hindex, List.append_assoc]
  rfl

theorem not_mem_toDigits (index : Nat) : '-' ∉ Nat.toDigits 10 index := fun hmem =>
  absurd (Nat.isDigit_of_mem_toDigits (by decide) (by decide) hmem) (by decide)

theorem toDigits_inj {index index' : Nat} (h : Nat.toDigits 10 index = Nat.toDigits 10 index') :
    index = index' := by
  have hvalue := congrArg (fun digits => Nat.ofDigitChars 10 digits 0) h
  simpa [Nat.ofDigitChars_toDigits] using hvalue

/-- The last dash of a name tells its base from its index. -/
theorem instanceName_inj {base base' : String} {index index' : Nat} :
    instanceName base index = instanceName base' index' ↔ base = base' ∧ index = index' := by
  refine ⟨fun h => ?_, fun ⟨hbase, hindex⟩ => by rw [hbase, hindex]⟩
  have hlist := congrArg String.toList h
  rw [toList_instanceName, toList_instanceName] at hlist
  obtain ⟨hbase, hdigits⟩ := append_cons_inj_of_not_mem (not_mem_toDigits index)
    (not_mem_toDigits index') hlist
  exact ⟨String.toList_inj.mp hbase, toDigits_inj hdigits⟩

/-! ### Resolving -/

/-- A member with everything its role says of it. -/
structure ResolvedMember extends MemberInstance where
  agent : Option String
  model : Option String
  prompt : Option String
  posture : Option String
  modelClass : Option String
  providerOverlay : Option String

/-- What a role says of a member, unless the member has a value of its own. -/
def RoleDef.resolved (role : RoleDef) (memberName : String)
    (field : RoleInstanceOverride → Option String) (value : Option String) : Option String :=
  ((role.instanceOverrides.find? fun entry => entry.1 = memberName).bind fun entry =>
    field entry.2).or value

variable (config : TeamConfig)

def userMember (role : RoleDef) : ResolvedMember where
  name := role.name
  roleName := role.name
  roleType := .user
  reportsTo := none
  useWorktrees := false
  agent := none
  model := none
  prompt := none
  posture := none
  modelClass := none
  providerOverlay := none

def agentMember (role : RoleDef) (roleType : RoleType) (name : String)
    (reportsTo : Option String) : ResolvedMember where
  name := name
  roleName := role.name
  roleType := roleType
  reportsTo := reportsTo
  useWorktrees := role.useWorktrees
  agent := role.resolved name RoleInstanceOverride.agent (config.resolveAgent role)
  model := role.resolved name RoleInstanceOverride.model role.model
  prompt := role.resolved name RoleInstanceOverride.prompt role.prompt
  posture := role.resolved name RoleInstanceOverride.posture role.posture
  modelClass := role.resolved name RoleInstanceOverride.modelClass role.modelClass
  providerOverlay := role.resolved name RoleInstanceOverride.providerOverlay role.providerOverlay

/-- `1..=count` -/
def indices (count : Nat) : List Nat := List.range' 1 count

/-- The names of the instances of a role that are not dealt out to managers. -/
def flatNames (role : RoleDef) : List String :=
  (indices role.instances).map fun i =>
    if role.instances = 1 then role.name else instanceName role.name i

def TeamConfig.rolesOf (roleType : RoleType) : List RoleDef :=
  config.roles.filter fun role => role.roleType = roleType

def architectMembers (role : RoleDef) : List ResolvedMember :=
  (flatNames role).map fun name => agentMember config role .architect name none

/-- The first instance of the first architect role. -/
def managersReportTo : Option String :=
  (config.roles.find? fun role => role.roleType = .architect).map fun architect =>
    if architect.instances = 1 then architect.name else instanceName architect.name 1

def managerMembers (role : RoleDef) : List ResolvedMember :=
  (flatNames role).map fun name => agentMember config role .manager name (managersReportTo config)

/-- The name of each manager, and of its role. -/
def managerInstances : List (String × String) :=
  (config.rolesOf .manager).flatMap fun role => (flatNames role).map fun name => (name, role.name)

def compatibleManagers (role : RoleDef) : List (String × String) :=
  if role.talksTo.isEmpty then managerInstances config
  else (managerInstances config).filter fun manager =>
    role.talksTo.any fun target => target = manager.2 || target = manager.1

/-- What the names of engineers begin with. -/
def engineerPrefix (role : RoleDef) : String :=
  if !(1 < (config.rolesOf .engineer).length) && role.name = "engineer" then "eng" else role.name

def engineerInstanceName (role : RoleDef) (managerIndex engineerIndex : Nat) : String :=
  instanceName (instanceName (engineerPrefix config role) managerIndex) engineerIndex

def engineerMembers (role : RoleDef) : List ResolvedMember :=
  if (compatibleManagers config role).isEmpty then
    (flatNames role).map fun name => agentMember config role .engineer name none
  else
    ((compatibleManagers config role).zipIdx 1).flatMap fun manager =>
      (indices role.instances).map fun engineerIndex =>
        agentMember config role .engineer (engineerInstanceName config role manager.2 engineerIndex)
          (some manager.1.1)

def allMembers : List ResolvedMember :=
  (config.rolesOf .user).map userMember ++
    (config.rolesOf .architect).flatMap (architectMembers config) ++
    (config.rolesOf .manager).flatMap (managerMembers config) ++
    (config.rolesOf .engineer).flatMap (engineerMembers config)

def resolveHierarchy : Except String (List ResolvedMember) :=
  let members := allMembers config
  if (members.filter fun member => member.roleType ≠ .user).length = 0 then
    .error "team has no agent members (only user roles)"
  else .ok members

/-! ### Well-formed hierarchies -/

def ReportsTo (members : List ResolvedMember) (name superior : String) : Prop :=
  ∃ member ∈ members, member.name = name ∧ member.reportsTo = some superior

/-- Whom a member of a role may report to. -/
def MayLead : RoleType → RoleType → Prop
  | .engineer, superior => superior = .manager ∨ superior = .architect
  | .manager, superior => superior = .architect
  | _, _ => False

/-- How many members a role has. -/
def prescribed (role : RoleDef) : Nat :=
  match role.roleType with
  | .user => 1
  | .engineer =>
    if (compatibleManagers config role).isEmpty then role.instances
    else (compatibleManagers config role).length * role.instances
  | _ => role.instances

/-- **A well-formed hierarchy**: names are distinct, superiors exist and may lead, nobody reports to
himself, and every role has as many members as it prescribes. -/
structure WellFormed (members : List ResolvedMember) : Prop where
  distinct : (members.map fun member => member.name).Nodup
  superiors : ∀ member ∈ members, ∀ superior ∈ member.reportsTo, ∃ member' ∈ members,
    member'.name = superior ∧ MayLead member.roleType member'.roleType
  acyclic : ∀ name, ¬ Relation.TransGen (ReportsTo members) name name
  count : members.length = (config.roles.map (prescribed config)).sum

/-- How the instances of a role are named: by the role, with one index, or with the index of a
manager and their own. -/
inductive Naming where
  | single | flat | grid (managers : Nat)

def flatNaming (role : RoleDef) : Naming := if role.instances = 1 then .single else .flat

def naming (role : RoleDef) : Naming :=
  match role.roleType with
  | .user => .single
  | .engineer =>
    if (compatibleManagers config role).isEmpty then flatNaming role
    else .grid (compatibleManagers config role).length
  | _ => flatNaming role

/-- The name of one role is what instances of the other are named, up to the last index if it
has several instances itself. -/
def ClashesAs (role role' : RoleDef) : Naming → Naming → Prop
  | .single, .flat => ∃ i ∈ indices role'.instances, role.name = instanceName role'.name i
  | .single, .grid managers => ∃ m ∈ indices managers, ∃ e ∈ indices role'.instances,
      role.name = engineerInstanceName config role' m e
  | .flat, .grid managers => ∃ m ∈ indices managers,
      role.name = instanceName (engineerPrefix config role') m
  | _, _ => False

def Clashes (role role' : RoleDef) : Prop :=
  ClashesAs config role role' (naming config role) (naming config role')

instance (role role' : RoleDef) (as as' : Naming) : Decidable (ClashesAs config role role' as as') :=
  match as, as' with
  | .single, .flat => inferInstanceAs (Decidable (∃ _ ∈ _, _))
  | .single, .grid _ => inferInstanceAs (Decidable (∃ _ ∈ _, ∃ _ ∈ _, _))
  | .flat, .grid _ => inferInstanceAs (Decidable (∃ _ ∈ _, _))
  | .single, .single | .flat, .single | .flat, .flat | .grid _, _ => inferInstanceAs (Decidable False)

/-- No role is named like an instance of another. -/
def Unambiguous : Prop :=
  ∀ role ∈ config.roles, ∀ role' ∈ config.roles, ¬ Clashes config role role'

instance : Decidable (Unambiguous config) :=
  inferInstanceAs (Decidable (∀ role ∈ config.roles, ∀ role' ∈ config.roles,
    ¬ ClashesAs config role role' (naming config role) (naming config role')))

/-! ### The names of a role -/

/-- The members of a role. -/
def membersOf (role : RoleDef) : List ResolvedMember :=
  match role.roleType with
  | .user => [userMember role]
  | .architect => architectMembers config role
  | .manager => managerMembers config role
  | .engineer => engineerMembers config role

def namesAs (role : RoleDef) : Naming → List String
  | .single => [role.name]
  | .flat => (indices role.instances).map (instanceName role.name)
  | .grid managers => (indices managers).flatMap fun m =>
      (indices role.instances).map (engineerInstanceName config role m)

section

variable {config : TeamConfig} {role role' : RoleDef}

theorem mem_indices {count i : Nat} : i ∈ indices count ↔ 1 ≤ i ∧ i ≤ count := by
  rw [indices, List.mem_range'_1]
  omega

theorem nodup_indices (count : Nat) : (indices count).Nodup := List.nodup_range'

theorem one_mem_indices {count : Nat} (h : 0 < count) : 1 ∈ indices count :=
  mem_indices.mpr ⟨le_rfl, h⟩

theorem flatNames_eq : flatNames role = namesAs config role (flatNaming role) := by
  unfold flatNames flatNaming
  by_cases hone : role.instances = 1
  · simp [hone, namesAs, indices]
  · simp only [hone, if_false, namesAs]

theorem names_of_map {names : List String} {f : String → ResolvedMember}
    (hf : ∀ name, (f name).name = name) : (names.map f).map (fun member => member.name) = names := by
  simp [Function.comp_def, hf]

theorem names_membersOf :
    (membersOf config role).map (fun member => member.name) =
      namesAs config role (naming config role) := by
  unfold membersOf naming
  cases role.roleType with
  | user => rfl
  | architect => exact (names_of_map fun _ => rfl).trans flatNames_eq
  | manager => exact (names_of_map fun _ => rfl).trans flatNames_eq
  | engineer =>
    simp only [engineerMembers]
    split
    · exact (names_of_map fun _ => rfl).trans flatNames_eq
    · rw [List.map_flatMap]
      have hindices : indices (compatibleManagers config role).length =
          ((compatibleManagers config role).zipIdx 1).map Prod.snd :=
        (List.zipIdx_map_snd 1 _).symm
      simp only [List.map_map, Function.comp_def, agentMember, namesAs]
      rw [hindices, List.flatMap_map]

theorem nodup_namesAs (role : RoleDef) (as : Naming) : (namesAs config role as).Nodup := by
  cases as with
  | single => exact List.nodup_singleton _
  | flat =>
    exact (nodup_indices _).map fun _ _ heq => (instanceName_inj.mp heq).2
  | grid managers =>
    refine List.nodup_flatMap.mpr ⟨fun m _ => ?_, ?_⟩
    · exact (nodup_indices _).map fun _ _ heq => (instanceName_inj.mp heq).2
    · refine (nodup_indices _).imp fun hne => ?_
      intro name hmem hmem'
      obtain ⟨e, -, rfl⟩ := List.mem_map.mp hmem
      obtain ⟨e', -, heq⟩ := List.mem_map.mp hmem'
      exact hne (instanceName_inj.mp (instanceName_inj.mp heq).1).2.symm

/-! ### Common names -/

/-- A name that two roles have in common makes one of them clash with the other. -/
theorem clashes_of_common (hname : role.name ≠ role'.name)
    (hinit : ∀ m m', naming config role = .grid m → naming config role' = .grid m' →
      engineerPrefix config role ≠ engineerPrefix config role') {name : String}
    (hmem : name ∈ namesAs config role (naming config role))
    (hmem' : name ∈ namesAs config role' (naming config role')) :
    Clashes config role role' ∨ Clashes config role' role := by
  unfold Clashes
  cases has : naming config role with
  | single =>
    rw [has] at hmem
    obtain rfl := List.mem_singleton.mp hmem
    cases has' : naming config role' with
    | single =>
      rw [has'] at hmem'
      exact absurd (List.mem_singleton.mp hmem') hname
    | flat =>
      rw [has'] at hmem'
      obtain ⟨i, hi, heq⟩ := List.mem_map.mp hmem'
      exact .inl ⟨i, hi, heq.symm⟩
    | grid managers =>
      rw [has'] at hmem'
      obtain ⟨m, hm, hnames⟩ := List.mem_flatMap.mp hmem'
      obtain ⟨e, he, heq⟩ := List.mem_map.mp hnames
      exact .inl ⟨m, hm, e, he, heq.symm⟩
  | flat =>
    rw [has] at hmem
    obtain ⟨i, hi, rfl⟩ := List.mem_map.mp hmem
    cases has' : naming config role' with
    | single =>
      rw [has'] at hmem'
      exact .inr ⟨i, hi, (List.mem_singleton.mp hmem').symm⟩
    | flat =>
      rw [has'] at hmem'
      obtain ⟨i', -, heq⟩ := List.mem_map.mp hmem'
      -- Names that end in numbers are equal only with equal names before them.
      exact absurd (instanceName_inj.mp heq).1.symm hname
    | grid managers =>
      rw [has'] at hmem'
      obtain ⟨m, hm, hnames⟩ := List.mem_flatMap.mp hmem'
      obtain ⟨e, -, heq⟩ := List.mem_map.mp hnames
      exact .inl ⟨m, hm, (instanceName_inj.mp heq).1.symm⟩
  | grid managers =>
    rw [has] at hmem
    obtain ⟨m, hm, hnames⟩ := List.mem_flatMap.mp hmem
    obtain ⟨e, he, rfl⟩ := List.mem_map.mp hnames
    cases has' : naming config role' with
    | single =>
      rw [has'] at hmem'
      exact .inr ⟨m, hm, e, he, (List.mem_singleton.mp hmem').symm⟩
    | flat =>
      rw [has'] at hmem'
      obtain ⟨i, -, heq⟩ := List.mem_map.mp hmem'
      exact .inr ⟨m, hm, (instanceName_inj.mp heq).1⟩
    | grid managers' =>
      rw [has'] at hmem'
      obtain ⟨m', -, hnames'⟩ := List.mem_flatMap.mp hmem'
      obtain ⟨e', -, heq⟩ := List.mem_map.mp hnames'
      have hbase := (instanceName_inj.mp (instanceName_inj.mp heq).1).1
      exact absurd hbase.symm (hinit managers managers' has has')

/-- Roles that clash have a name in common. -/
theorem common_of_clashes (hpos : 0 < role.instances) (hpos' : 0 < role'.instances)
    (h : Clashes config role role') : ∃ name, name ∈ namesAs config role (naming config role) ∧
      name ∈ namesAs config role' (naming config role') := by
  unfold Clashes at h
  cases has : naming config role with
  | single =>
    cases has' : naming config role' with
    | single =>
      rw [has, has'] at h
      cases h
    | flat =>
      rw [has, has'] at h
      obtain ⟨i, hi, heq⟩ := h
      exact ⟨role.name, List.mem_singleton.mpr rfl, List.mem_map.mpr ⟨i, hi, heq.symm⟩⟩
    | grid managers =>
      rw [has, has'] at h
      obtain ⟨m, hm, e, he, heq⟩ := h
      exact ⟨role.name, List.mem_singleton.mpr rfl,
        List.mem_flatMap.mpr ⟨m, hm, List.mem_map.mpr ⟨e, he, heq.symm⟩⟩⟩
  | flat =>
    cases has' : naming config role' with
    | single =>
      rw [has, has'] at h
      cases h
    | flat =>
      rw [has, has'] at h
      cases h
    | grid managers =>
      rw [has, has'] at h
      obtain ⟨m, hm, heq⟩ := h
      refine ⟨instanceName role.name 1, List.mem_map.mpr ⟨1, one_mem_indices hpos, rfl⟩, ?_⟩
      refine List.mem_flatMap.mpr ⟨m, hm, List.mem_map.mpr ⟨1, one_mem_indices hpos', ?_⟩⟩
      rw [heq]
      rfl
  | grid managers =>
    rw [has] at h
    cases h

theorem mem_rolesOf {roleType : RoleType} :
    role ∈ config.rolesOf roleType ↔ role ∈ config.roles ∧ role.roleType = roleType := by
  simp [TeamConfig.rolesOf]

theorem roleType_of_grid {managers : Nat} (h : naming config role = .grid managers) :
    role.roleType = .engineer := by
  unfold naming flatNaming at h
  grind

/-- With several engineer roles, each names its engineers after itself. -/
theorem engineerPrefix_ne (hmem : role ∈ config.roles) (hmem' : role' ∈ config.roles)
    (hname : role.name ≠ role'.name) (htype : role.roleType = .engineer)
    (htype' : role'.roleType = .engineer) :
    engineerPrefix config role ≠ engineerPrefix config role' := by
  have hseveral : 1 < (config.rolesOf .engineer).length := by
    have hin := mem_rolesOf.mpr ⟨hmem, htype⟩
    have hin' := mem_rolesOf.mpr ⟨hmem', htype'⟩
    by_contra hfew
    cases hroles : config.rolesOf .engineer with
    | nil => simp [hroles] at hin
    | cons first rest =>
      have hrest : rest = [] := by
        rw [hroles, List.length_cons] at hfew
        exact List.length_eq_zero_iff.mp (by omega)
      rw [hroles, hrest] at hin hin'
      exact hname (by rw [List.mem_singleton.mp hin, List.mem_singleton.mp hin'])
  simp [engineerPrefix, hseveral, hname]

/-! ### The hierarchy -/

theorem rolesOf_perm : ([RoleType.user, .architect, .manager, .engineer].flatMap
    config.rolesOf).Perm config.roles := by
  refine perm_flatMap_filter (by decide) fun role _ => ?_
  cases role.roleType <;> decide

theorem flatMap_membersOf (roleType : RoleType) {f : RoleDef → List ResolvedMember}
    (hf : ∀ role, role.roleType = roleType → membersOf config role = f role) :
    (config.rolesOf roleType).flatMap (membersOf config) = (config.rolesOf roleType).flatMap f :=
  List.flatMap_congr fun role hmem => hf role (mem_rolesOf.mp hmem).2

theorem allMembers_perm :
    (allMembers config).Perm (config.roles.flatMap (membersOf config)) := by
  have hperm := (@rolesOf_perm config).flatMap_right (membersOf config)
  refine List.Perm.trans (List.Perm.of_eq ?_) hperm
  simp only [List.flatMap_cons, List.flatMap_nil, List.append_nil, List.flatMap_append]
  rw [flatMap_membersOf .user (f := fun role => [userMember role]) fun role h => by
      simp [membersOf, h],
    flatMap_membersOf .architect (f := architectMembers config) fun role h => by
      simp [membersOf, h],
    flatMap_membersOf .manager (f := managerMembers config) fun role h => by
      simp [membersOf, h],
    flatMap_membersOf .engineer (f := engineerMembers config) fun role h => by
      simp [membersOf, h]]
  simp [allMembers, List.append_assoc, List.map_eq_flatMap]

/-- **Names.** Those of a role are distinct, so that only two roles can have one in common. -/
theorem distinct_iff (hvalid : config.validate = .ok ()) :
    ((allMembers config).map fun member => member.name).Nodup ↔ Unambiguous config := by
  have hroles := distinct_of_validate hvalid
  have hsame : ∀ role ∈ config.roles, ∀ role' ∈ config.roles, role.name = role'.name →
      role = role' := fun _ hmem _ hmem' heq => List.inj_on_of_nodup_map hroles hmem hmem' heq
  have hpos := fun role hmem => @instances_pos_of_validate config role hvalid hmem
  rw [(allMembers_perm.map _).nodup_iff, List.map_flatMap]
  simp only [names_membersOf]
  rw [List.nodup_flatMap, and_iff_right fun role _ => nodup_namesAs role _]
  constructor
  · intro hpairwise role hmem role' hmem' hclashes
    obtain ⟨name, hname, hname'⟩ := common_of_clashes (hpos role hmem) (hpos role' hmem') hclashes
    have hne : role ≠ role' := by
      rintro rfl
      unfold Clashes ClashesAs at hclashes
      cases hnaming : naming config role <;> simp [hnaming] at hclashes
    have hsymm : Std.Symm (Function.onFun List.Disjoint fun role =>
        namesAs config role (naming config role)) := ⟨fun _ _ h _ hmem hmem' => h hmem' hmem⟩
    exact hpairwise.forall hmem hmem' hne hname hname'
  · intro hunambiguous
    refine (List.Nodup.of_map _ hroles).imp_of_mem fun {role role'} hmem hmem' hne => ?_
    intro name hname hname'
    have hnames : role.name ≠ role'.name := fun heq => hne (hsame role hmem role' hmem' heq)
    have hclash := clashes_of_common hnames (fun m m' hgrid hgrid' =>
      engineerPrefix_ne hmem hmem' hnames (roleType_of_grid hgrid) (roleType_of_grid hgrid'))
      hname hname'
    exact hclash.elim (hunambiguous role hmem role' hmem') (hunambiguous role' hmem' role hmem)

theorem mem_allMembers_iff {member : ResolvedMember} :
    member ∈ allMembers config ↔ ∃ role ∈ config.roles, member ∈ membersOf config role := by
  rw [allMembers_perm.mem_iff, List.mem_flatMap]

/-- The architect that managers report to is a member. -/
theorem exists_architect (hvalid : config.validate = .ok ()) {superior : String}
    (h : managersReportTo config = some superior) : ∃ member ∈ allMembers config,
      member.name = superior ∧ member.roleType = .architect := by
  obtain ⟨architect, hfound, rfl⟩ := Option.map_eq_some_iff.mp h
  have hmem := List.mem_of_find?_eq_some hfound
  have htype : architect.roleType = .architect := by simpa using List.find?_some hfound
  have hfirst := one_mem_indices (instances_pos_of_validate hvalid hmem)
  refine ⟨agentMember config architect .architect _ none, mem_allMembers_iff.mpr
    ⟨architect, hmem, ?_⟩, rfl, rfl⟩
  simp only [membersOf, htype]
  exact List.mem_map_of_mem (List.mem_map.mpr ⟨1, hfirst, rfl⟩)

/-- The managers of an engineer are members. -/
theorem exists_manager {manager : String × String} (h : manager ∈ compatibleManagers config role) :
    ∃ member ∈ allMembers config, member.name = manager.1 ∧ member.roleType = .manager := by
  have hmanager : manager ∈ managerInstances config := by
    unfold compatibleManagers at h
    split at h
    · exact h
    · exact (List.mem_filter.mp h).1
  obtain ⟨role', hrole, hnames⟩ := List.mem_flatMap.mp hmanager
  obtain ⟨hmem, htype⟩ := mem_rolesOf.mp hrole
  obtain ⟨name, hname, rfl⟩ := List.mem_map.mp hnames
  refine ⟨agentMember config role' .manager name (managersReportTo config),
    mem_allMembers_iff.mpr ⟨role', hmem, ?_⟩, rfl, rfl⟩
  simp only [membersOf, htype]
  exact List.mem_map_of_mem hname

theorem superiors_allMembers (hvalid : config.validate = .ok ()) {member : ResolvedMember}
    (hmem : member ∈ allMembers config) {superior : String}
    (hsuperior : member.reportsTo = some superior) : ∃ member' ∈ allMembers config,
      member'.name = superior ∧ MayLead member.roleType member'.roleType := by
  obtain ⟨role, -, hmember⟩ := mem_allMembers_iff.mp hmem
  unfold membersOf at hmember
  split at hmember
  · obtain rfl := List.mem_singleton.mp hmember
    cases hsuperior
  · obtain ⟨name, -, rfl⟩ := List.mem_map.mp hmember
    cases hsuperior
  · obtain ⟨name, -, rfl⟩ := List.mem_map.mp hmember
    exact exists_architect hvalid hsuperior
  · unfold engineerMembers at hmember
    split at hmember
    · obtain ⟨name, -, rfl⟩ := List.mem_map.mp hmember
      cases hsuperior
    · obtain ⟨⟨manager, index⟩, hmanager, hmembers⟩ := List.mem_flatMap.mp hmember
      obtain ⟨engineerIndex, -, rfl⟩ := List.mem_map.mp hmembers
      obtain ⟨member', hmem', hname, htype⟩ := exists_manager (List.fst_mem_of_mem_zipIdx hmanager)
      obtain rfl : manager.1 = superior := Option.some.inj hsuperior
      exact ⟨member', hmem', hname, .inl htype⟩

def rank : RoleType → Nat
  | .user => 0
  | .architect => 1
  | .manager => 2
  | .engineer => 3

theorem rank_lt_of_mayLead {roleType superior : RoleType} (h : MayLead roleType superior) :
    rank superior < rank roleType := by
  cases roleType with
  | user => cases h
  | architect => cases h
  | manager =>
    obtain rfl := h
    decide
  | engineer => rcases h with rfl | rfl <;> decide

/-- Going up the hierarchy, the rank falls. -/
theorem rank_lt_of_reports {members : List ResolvedMember}
    (hdistinct : (members.map fun member => member.name).Nodup)
    (hsuperiors : ∀ member ∈ members, ∀ superior ∈ member.reportsTo, ∃ member' ∈ members,
      member'.name = superior ∧ MayLead member.roleType member'.roleType)
    {member member' : ResolvedMember} (hmem : member ∈ members) (hmem' : member' ∈ members)
    (h : ReportsTo members member.name member'.name) :
    rank member'.roleType < rank member.roleType := by
  obtain ⟨reporting, hreporting, hname, hsuperior⟩ := h
  obtain rfl := List.inj_on_of_nodup_map hdistinct hreporting hmem hname
  obtain ⟨superior, hin, hsame, hlead⟩ := hsuperiors reporting hreporting _ hsuperior
  obtain rfl := List.inj_on_of_nodup_map hdistinct hin hmem' hsame
  exact rank_lt_of_mayLead hlead

theorem acyclic_of_distinct {members : List ResolvedMember}
    (hdistinct : (members.map fun member => member.name).Nodup)
    (hsuperiors : ∀ member ∈ members, ∀ superior ∈ member.reportsTo, ∃ member' ∈ members,
      member'.name = superior ∧ MayLead member.roleType member'.roleType) (name : String) :
    ¬ Relation.TransGen (ReportsTo members) name name := by
  have hfalls : ∀ name', Relation.TransGen (ReportsTo members) name name' →
      ∃ member ∈ members, ∃ member' ∈ members, member.name = name ∧ member'.name = name' ∧
        rank member'.roleType < rank member.roleType := by
    intro name' h
    induction h with
    | single hstep =>
      obtain ⟨member, hmem, rfl, hsuperior⟩ := hstep
      obtain ⟨member', hmem', rfl, hlead⟩ := hsuperiors member hmem _ hsuperior
      exact ⟨member, hmem, member', hmem', rfl, rfl, rank_lt_of_mayLead hlead⟩
    | tail _ hstep ih =>
      obtain ⟨member, hmem, between, hbetween, hname, rfl, hlt⟩ := ih
      obtain ⟨same, hsame, heq, hsuperior⟩ := hstep
      obtain ⟨superior, hin, rfl, -⟩ := hsuperiors same hsame _ hsuperior
      have hnext := rank_lt_of_reports hdistinct hsuperiors hbetween hin
        ⟨same, hsame, heq, hsuperior⟩
      exact ⟨member, hmem, superior, hin, hname, rfl, hnext.trans hlt⟩
  intro hcycle
  obtain ⟨member, hmem, member', hmem', hname, hname', hlt⟩ := hfalls name hcycle
  obtain rfl := List.inj_on_of_nodup_map hdistinct hmem hmem' (hname.trans hname'.symm)
  exact Nat.lt_irrefl _ hlt

theorem length_membersOf : (membersOf config role).length = prescribed config role := by
  unfold membersOf prescribed
  cases role.roleType with
  | user => rfl
  | architect => simp [architectMembers, flatNames, indices]
  | manager => simp [managerMembers, flatNames, indices]
  | engineer =>
    simp only [engineerMembers]
    split
    · simp [flatNames, indices]
    · simp [List.length_flatMap, indices]

theorem length_allMembers :
    (allMembers config).length = (config.roles.map (prescribed config)).sum := by
  rw [allMembers_perm.length_eq, List.length_flatMap]
  simp only [length_membersOf]

end

/-- **Hierarchies.** Of a configuration that passes the checks the hierarchy is well formed just if
no role is named like an instance of another. -/
theorem wellFormed_iff_unambiguous (config : TeamConfig) (members : List ResolvedMember)
    (hvalid : config.validate = .ok ()) (hresolved : resolveHierarchy config = .ok members) :
    WellFormed config members ↔ Unambiguous config := by
  have hmembers : allMembers config = members := by
    unfold resolveHierarchy at hresolved
    dsimp only at hresolved
    split at hresolved
    · cases hresolved
    · exact Except.ok.inj hresolved
  subst hmembers
  rw [← distinct_iff hvalid]
  refine ⟨fun h => h.distinct, fun hdistinct => ?_⟩
  have hsuperiors := fun member hmem superior hsuperior =>
    @superiors_allMembers config hvalid member hmem superior hsuperior
  exact ⟨hdistinct, hsuperiors, acyclic_of_distinct hdistinct hsuperiors, length_allMembers⟩

/-! ### Two teams -/

def plainRole (name : String) (roleType : RoleType) (instances : Nat) : RoleDef where
  name := name
  roleType := roleType
  agent := none
  model := none
  authMode := none
  authEnv := []
  instances := instances
  prompt := none
  posture := none
  modelClass := none
  providerOverlay := none
  instanceOverrides := []
  talksTo := []
  barrierGroup := none
  useWorktrees := false

def plainTeam (roles : List RoleDef) : TeamConfig where
  name := "team"
  trunkBranch := "main"
  agent := some "claude"
  automationSender := none
  workflowPolicy := { cleanRoomMode := false, handoffDirectory := "", barrierGroups := [] }
  layout := none
  roles := roles

def ordinaryTeam : TeamConfig :=
  plainTeam [plainRole "architect" .architect 1, plainRole "manager" .manager 1,
    plainRole "engineer" .engineer 3]

theorem wellFormed_ordinaryTeam : WellFormed ordinaryTeam (allMembers ordinaryTeam) :=
  (wellFormed_iff_unambiguous ordinaryTeam _ (by rfl) (by rfl)).mpr (by decide)

/-- A second manager role is named like the first instance of the first one. -/
def twoLeadsTeam : TeamConfig :=
  plainTeam [plainRole "lead" .manager 2, plainRole "lead-1" .manager 1]

/-- Two members have one name. -/
theorem not_wellFormed_twoLeadsTeam : ¬ ∀ (config : TeamConfig) (members : List ResolvedMember),
    config.validate = .ok () → resolveHierarchy config = .ok members →
      WellFormed config members := by
  intro h
  have hdistinct := (h twoLeadsTeam (allMembers twoLeadsTeam) (by rfl) (by rfl)).distinct
  revert hdistinct
  decide

end Config

end Batty
