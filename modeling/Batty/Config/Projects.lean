import Batty.Config.Validate

/-!
# The registry of projects

One registry lists the projects that a message can be about. It is read and written only after
its checks, so a registry at hand is one that passed them. Two things about it matter to routing:
no two projects have one id, and ids, aliases and tags are labels: words of small letters,
digits, dots, dashes and underscores.
-/

namespace Batty

namespace Projects

open Config (ensure ensure_eq_ok bind_eq_ok)

/-- A path, by its components. -/
structure ProjectPath where
  absolute : Bool
  components : List String
deriving DecidableEq

def ProjectPath.display (path : ProjectPath) : String :=
  (if path.absolute then "/" else "") ++ "/".intercalate path.components

def ProjectPath.startsWith (path base : ProjectPath) : Bool :=
  path.absolute = base.absolute && base.components.isPrefixOf path.components

/-- A channel, or a thread of one, that belongs to a project. -/
structure ProjectChannelBinding where
  channel : String
  binding : String
  threadBinding : Option String
deriving DecidableEq

/-- What a project permits. -/
structure ProjectPolicyFlags where
  allowOpenclawSupervision : Bool := false
  allowCrossProjectRouting : Bool := false
  allowSharedServiceRouting : Bool := false
  archived : Bool := false
deriving DecidableEq

/-- An entry of the registry. -/
structure RegisteredProject where
  projectId : String
  name : String
  aliases : List String
  projectRoot : ProjectPath
  boardDir : ProjectPath
  teamName : String
  sessionName : String
  channelBindings : List ProjectChannelBinding
  tags : List String
  policyFlags : ProjectPolicyFlags
deriving DecidableEq

def registryKind : String := "batty.projectRegistry"

def registrySchemaVersion : Nat := 2

/-- The file of registered projects. -/
structure ProjectRegistry where
  kind : String
  schemaVersion : Nat
  projects : List RegisteredProject

/-! ### Checks -/

def isLabelChar (ch : Char) : Bool :=
  ch.isLower || ch.isDigit || ch = '-' || ch = '_' || ch = '.'

def validateProjectId (projectId : String) : Except String Unit := do
  ensure (projectId ≠ "") "projectId cannot be empty"
  ensure (projectId.toList.all isLabelChar)
    s!"projectId '{projectId}' must use lowercase ASCII letters, digits, '.', '-', or '_'"

def validateLabel (fieldName value : String) : Except String Unit := do
  ensure (value ≠ "") s!"{fieldName} cannot be empty"
  ensure (value.toList.all isLabelChar)
    s!"{fieldName} '{value}' must use lowercase ASCII letters, digits, '.', '-', or '_'"

def trimRequired (fieldName value : String) : Except String String :=
  let trimmed := Text.trim value.toList
  if trimmed.isEmpty then .error s!"{fieldName} cannot be empty" else .ok (String.ofList trimmed)

/-- The checks on one entry, in the order of the source. -/
def validateProject (project : RegisteredProject) : Except String Unit := do
  validateProjectId project.projectId
  let _ ← trimRequired "name" project.name
  let _ ← trimRequired "teamName" project.teamName
  let _ ← trimRequired "sessionName" project.sessionName
  ensure project.projectRoot.absolute
    s!"projectRoot '{project.projectRoot.display}' must be absolute"
  ensure project.boardDir.absolute s!"boardDir '{project.boardDir.display}' must be absolute"
  ensure (project.boardDir.startsWith project.projectRoot)
    (s!"boardDir '{project.boardDir.display}' must be inside projectRoot " ++
      s!"'{project.projectRoot.display}'")
  project.aliases.forM (validateLabel "alias")
  project.tags.forM (validateLabel "tag")

/-- What the projects checked so far have taken. -/
structure Taken where
  projectIds : List String := []
  projectRoots : List ProjectPath := []
  teamNames : List String := []
  sessionNames : List String := []
  aliases : List String := []

/-- The aliases of one project, each of which must be new. -/
def takeAliases : List String → List String → Except String (List String)
  | aliases, [] => .ok aliases
  | aliases, label :: labels => do
    ensure (label ∉ aliases) s!"duplicate alias '{label}'"
    takeAliases (label :: aliases) labels

/-- Check an entry against the ones before it. -/
def takeProject (taken : Taken) (project : RegisteredProject) : Except String Taken := do
  validateProject project
  ensure (project.projectId ∉ taken.projectIds) s!"duplicate projectId '{project.projectId}'"
  ensure (project.projectRoot ∉ taken.projectRoots)
    s!"duplicate projectRoot '{project.projectRoot.display}'"
  ensure (project.teamName ∉ taken.teamNames) s!"duplicate teamName '{project.teamName}'"
  ensure (project.sessionName ∉ taken.sessionNames)
    s!"duplicate sessionName '{project.sessionName}'"
  let aliases ← takeAliases taken.aliases project.aliases
  pure { projectIds := project.projectId :: taken.projectIds
         projectRoots := project.projectRoot :: taken.projectRoots
         teamNames := project.teamName :: taken.teamNames
         sessionNames := project.sessionName :: taken.sessionNames
         aliases := aliases }

def takeProjects : Taken → List RegisteredProject → Except String Taken
  | taken, [] => .ok taken
  | taken, project :: projects => do
    let taken ← takeProject taken project
    takeProjects taken projects

def validateRegistry (registry : ProjectRegistry) : Except String Unit := do
  ensure (registry.kind = registryKind) s!"registry kind must be '{registryKind}'"
  ensure (registry.schemaVersion = registrySchemaVersion)
    s!"registry schemaVersion must be {registrySchemaVersion}"
  let _ ← takeProjects {} registry.projects
  pure ()

/-- A registry as it is loaded: one that passed its checks. -/
structure LoadedRegistry extends ProjectRegistry where
  valid : validateRegistry toProjectRegistry = .ok ()

/-! ### What the checks guarantee -/

theorem of_takeProject {taken taken' : Taken} {project : RegisteredProject}
    (h : takeProject taken project = .ok taken') :
    validateProject project = .ok () ∧ project.projectId ∉ taken.projectIds ∧
      taken'.projectIds = project.projectId :: taken.projectIds := by
  obtain ⟨⟨⟩, hvalid, h⟩ := bind_eq_ok.mp h
  obtain ⟨⟨⟩, hnew, h⟩ := bind_eq_ok.mp h
  obtain ⟨-, -, h⟩ := bind_eq_ok.mp h
  obtain ⟨-, -, h⟩ := bind_eq_ok.mp h
  obtain ⟨-, -, h⟩ := bind_eq_ok.mp h
  obtain ⟨aliases, -, h⟩ := bind_eq_ok.mp h
  rw [ensure_eq_ok] at hnew
  refine ⟨hvalid, by simpa using hnew, ?_⟩
  cases h
  rfl

theorem of_takeProjects {taken taken' : Taken} {projects : List RegisteredProject}
    (h : takeProjects taken projects = .ok taken') :
    (∀ project ∈ projects, validateProject project = .ok () ∧
      project.projectId ∉ taken.projectIds) ∧ (projects.map (·.projectId)).Nodup := by
  induction projects generalizing taken with
  | nil => simp
  | cons project projects ih =>
    obtain ⟨next, hproject, hrest⟩ := bind_eq_ok.mp h
    obtain ⟨hvalid, hnew, hids⟩ := of_takeProject hproject
    obtain ⟨hall, hnodup⟩ := ih hrest
    rw [hids] at hall
    constructor
    · intro other hother
      rcases List.mem_cons.mp hother with rfl | hother
      · exact ⟨hvalid, hnew⟩
      · obtain ⟨hother, hfresh⟩ := hall other hother
        exact ⟨hother, fun hmem => hfresh (List.mem_cons_of_mem _ hmem)⟩
    · rw [List.map_cons, List.nodup_cons]
      refine ⟨fun hmem => ?_, hnodup⟩
      obtain ⟨other, hother, heq⟩ := List.mem_map.mp hmem
      exact (hall other hother).2 (heq ▸ List.mem_cons_self)

namespace LoadedRegistry

variable (registry : LoadedRegistry)

theorem of_takeProjects_valid : (∀ project ∈ registry.projects, validateProject project = .ok ()) ∧
    (registry.projects.map (·.projectId)).Nodup := by
  obtain ⟨-, -, h⟩ := bind_eq_ok.mp registry.valid
  obtain ⟨-, -, h⟩ := bind_eq_ok.mp h
  obtain ⟨taken, htaken, -⟩ := bind_eq_ok.mp h
  obtain ⟨hall, hnodup⟩ := of_takeProjects htaken
  exact ⟨fun project hproject => (hall project hproject).1, hnodup⟩

theorem nodup_projectIds : (registry.projects.map (·.projectId)).Nodup :=
  registry.of_takeProjects_valid.2

end LoadedRegistry

end Projects

end Batty
