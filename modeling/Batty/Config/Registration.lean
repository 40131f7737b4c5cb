import Batty.Config.Projects
import Batty.Config.Verbose
import Batty.Foundation.Ties
import Mathlib.Data.List.Destutter
import Mathlib.Data.String.Basic

/-!
# Registering projects

A registration is normalized and listed, in the order of the ids, if it is `Apart` from all that is.
The registry is checked again before it is written, which never fails
(`registerProjectAt_of_apart`). Over a run of calls it follows a `Listing` (`lists_run`).
-/

namespace Batty

namespace Projects

open Config (ensure ensure_eq_ok bind_eq_ok forM_eq_ok)

/-- A project as it is given to `registerProjectAt`, before its paths are normalised. -/
structure ProjectRegistration where
  projectId : String
  name : String
  aliases : List String
  projectRoot : ProjectPath
  boardDir : ProjectPath
  teamName : String
  sessionName : String
  channelBindings : List ProjectChannelBinding
  tags : List String
  policyFlags : ProjectPolicyFlags

def normalizeLabels (fieldName : String) (values : List String) : Except String (List String) := do
  let trimmed := values.map fun value =>
    String.ofList (Text.toAsciiLowercase (Text.trim value.toList))
  let labels := ((trimmed.filter (· ≠ "")).insertionSort (· ≤ ·)).destutter (· ≠ ·)
  labels.forM (validateLabel fieldName)
  pure labels

def normalizeBindings : List (String × String × String) → List ProjectChannelBinding →
    Except String (List ProjectChannelBinding)
  | _, [] => .ok []
  | seen, candidate :: bindings => do
    let channel ← trimRequired "channelBinding.channel" candidate.channel
    let binding ← trimRequired "channelBinding.binding" candidate.binding
    let threadBinding ←
      candidate.threadBinding.mapM (trimRequired "channelBinding.threadBinding")
    let key := (channel, binding, threadBinding.getD "")
    ensure (key ∉ seen) s!"duplicate channel/thread binding for channel '{channel}'"
    let rest ← normalizeBindings (key :: seen) bindings
    pure (⟨channel, binding, threadBinding⟩ :: rest)

def bindingKey (candidate : ProjectChannelBinding) : List String :=
  candidate.channel :: candidate.binding :: candidate.threadBinding.toList

section

-- The path as an absolute one, and without links if it exists.
variable (normalizePath : ProjectPath → Except String ProjectPath)

/-- Trim the texts, normalise the paths and validate what comes out. -/
def normalizeRegistration (registration : ProjectRegistration) :
    Except String RegisteredProject := do
  validateProjectId registration.projectId
  let name ← trimRequired "name" registration.name
  let teamName ← trimRequired "teamName" registration.teamName
  let sessionName ← trimRequired "sessionName" registration.sessionName
  let projectRoot ← normalizePath registration.projectRoot
  let boardDir ← normalizePath registration.boardDir
  ensure (boardDir.startsWith projectRoot)
    s!"boardDir '{boardDir.display}' must be inside projectRoot '{projectRoot.display}'"
  let aliases ← normalizeLabels "alias" registration.aliases
  let tags ← normalizeLabels "tag" registration.tags
  let bindings ← normalizeBindings [] registration.channelBindings
  let project : RegisteredProject := {
    projectId := registration.projectId
    name, aliases, projectRoot, boardDir, teamName, sessionName, tags
    channelBindings := bindings.insertionSort fun left right => bindingKey left ≤ bindingKey right
    policyFlags := registration.policyFlags }
  validateProject project
  pure project

def ensureUnique (registry : ProjectRegistry) (project : RegisteredProject) :
    Except String Unit := do
  ensure (!registry.projects.any (·.projectId = project.projectId))
    s!"projectId '{project.projectId}' is already registered"
  ensure (!registry.projects.any (·.projectRoot = project.projectRoot))
    s!"projectRoot '{project.projectRoot.display}' is already registered"
  ensure (!registry.projects.any (·.teamName = project.teamName))
    s!"teamName '{project.teamName}' is already registered"
  ensure (!registry.projects.any (·.sessionName = project.sessionName))
    s!"sessionName '{project.sessionName}' is already registered"
  project.aliases.forM fun label =>
    ensure (label ∉ registry.projects.flatMap (·.aliases)) s!"alias '{label}' is already registered"

/-- The registry is written if it passes its checks, so it can be loaded. -/
def saveRegistry (registry : ProjectRegistry) : Except String LoadedRegistry :=
  match h : validateRegistry registry with
  | .ok () => .ok ⟨registry, h⟩
  | .error error => .error error

def sortProjects (projects : List RegisteredProject) : List RegisteredProject :=
  projects.insertionSort fun left right => left.projectId ≤ right.projectId

def registerProjectAt (registry : LoadedRegistry) (registration : ProjectRegistration) :
    Except String (RegisteredProject × LoadedRegistry) := do
  let project ← normalizeRegistration normalizePath registration
  ensureUnique registry.toProjectRegistry project
  let saved ← saveRegistry
    { registry with projects := sortProjects (registry.projects ++ [project]) }
  pure (project, saved)

def unregisterProjectAt (registry : LoadedRegistry) (projectId : String) :
    Except String (Option RegisteredProject × LoadedRegistry) :=
  match registry.projects.find? (·.projectId = projectId) with
  | some removed => do
    let saved ← saveRegistry { registry with
      projects := registry.projects.eraseP (·.projectId = projectId) }
    pure (some removed, saved)
  | none => .ok (none, registry)

def getProjectAt (registry : LoadedRegistry) (projectId : String) : Option RegisteredProject :=
  registry.projects.find? (·.projectId = projectId)

end

/-! ### Projects side by side -/

/-- The two projects have nothing in common that has to be unique. -/
def Apart (left right : RegisteredProject) : Prop :=
  left.projectId ≠ right.projectId ∧ left.projectRoot ≠ right.projectRoot ∧
    left.teamName ≠ right.teamName ∧ left.sessionName ≠ right.sessionName ∧
      ∀ label ∈ right.aliases, label ∉ left.aliases

theorem Apart.symm {left right : RegisteredProject} : Apart left right → Apart right left :=
  fun ⟨hid, hroot, hteam, hsession, haliases⟩ => ⟨hid.symm, hroot.symm, hteam.symm, hsession.symm,
    fun label hlabel hmem => haliases label hmem hlabel⟩

/-- The project has nothing that is taken. -/
def Taken.Free (taken : Taken) (project : RegisteredProject) : Prop :=
  project.projectId ∉ taken.projectIds ∧ project.projectRoot ∉ taken.projectRoots ∧
    project.teamName ∉ taken.teamNames ∧ project.sessionName ∉ taken.sessionNames ∧
      ∀ label ∈ project.aliases, label ∉ taken.aliases

def Taken.with (taken : Taken) (project : RegisteredProject) : Taken where
  projectIds := project.projectId :: taken.projectIds
  projectRoots := project.projectRoot :: taken.projectRoots
  teamNames := project.teamName :: taken.teamNames
  sessionNames := project.sessionName :: taken.sessionNames
  aliases := project.aliases.reverse ++ taken.aliases

theorem free_with {taken : Taken} {project other : RegisteredProject} :
    (taken.with project).Free other ↔ taken.Free other ∧ Apart project other := by
  simp only [Taken.Free, Taken.with, Apart, List.mem_cons, List.mem_append, List.mem_reverse,
    not_or, forall_and, ne_comm]
  tauto

theorem check_eq_ok {β : Type} {check : Except String Unit} {x : Except String β} {b : β} :
    (check >>= fun _ => x) = .ok b ↔ check = .ok () ∧ x = .ok b := by
  rw [bind_eq_ok]
  exact ⟨fun ⟨⟨⟩, hcheck, h⟩ => ⟨hcheck, h⟩, fun ⟨hcheck, h⟩ => ⟨(), hcheck, h⟩⟩

theorem takeAliases_eq_ok {aliases labels aliases' : List String} :
    takeAliases aliases labels = .ok aliases' ↔ labels.Nodup ∧
      (∀ label ∈ labels, label ∉ aliases) ∧ aliases' = labels.reverse ++ aliases := by
  induction labels generalizing aliases with
  | nil => simp [takeAliases, eq_comm]
  | cons label labels ih =>
    rw [takeAliases, check_eq_ok, ih, ensure_eq_ok, decide_eq_true_iff, List.nodup_cons,
      List.forall_mem_cons, List.reverse_cons, List.append_assoc, List.singleton_append]
    grind

/-- What a registered project is by itself. -/
def RegisteredProject.Valid (project : RegisteredProject) : Prop :=
  validateProject project = .ok () ∧ project.aliases.Nodup

theorem takeProject_eq_ok {taken taken' : Taken} {project : RegisteredProject} :
    takeProject taken project = .ok taken' ↔
      project.Valid ∧ taken.Free project ∧ taken' = taken.with project := by
  simp only [takeProject, check_eq_ok, ensure_eq_ok, decide_eq_true_iff]
  simp only [bind_eq_ok, takeAliases_eq_ok, RegisteredProject.Valid, Taken.Free]
  simp only [pure, Except.pure, Except.ok.injEq]
  grind [Taken.with]

theorem exists_takeProjects {taken : Taken} {projects : List RegisteredProject} :
    (∃ taken', takeProjects taken projects = .ok taken') ↔
      (∀ project ∈ projects, project.Valid ∧ taken.Free project) ∧ projects.Pairwise Apart := by
  induction projects generalizing taken with
  | nil => simp [takeProjects]
  | cons project projects ih =>
    have hstep : (∃ taken', takeProjects taken (project :: projects) = .ok taken') ↔
        project.Valid ∧ taken.Free project ∧
          ∃ taken', takeProjects (taken.with project) projects = .ok taken' := by
      simp only [takeProjects, bind_eq_ok, takeProject_eq_ok]
      grind
    simp only [hstep, ih, free_with, List.forall_mem_cons, List.pairwise_cons, forall_and]
    tauto

theorem validateRegistry_eq_ok {registry : ProjectRegistry} : validateRegistry registry = .ok () ↔
    registry.kind = registryKind ∧ registry.schemaVersion = registrySchemaVersion ∧
      (∀ project ∈ registry.projects, project.Valid) ∧ registry.projects.Pairwise Apart := by
  have hall := @exists_takeProjects {} registry.projects
  simp only [Taken.Free, List.not_mem_nil, not_false_eq_true, implies_true, and_true] at hall
  simp only [validateRegistry, check_eq_ok, ensure_eq_ok, decide_eq_true_iff, ← hall]
  simp only [bind_eq_ok]
  simp [pure, Except.pure]

/-! ### One call -/

theorem nodup_normalizeLabels {fieldName : String} {values labels : List String}
    (h : normalizeLabels fieldName values = .ok labels) : labels.Nodup := by
  obtain ⟨-, h⟩ := check_eq_ok.mp h
  cases h
  rw [(List.pairwise_insertionSort (· ≤ ·) _).destutter_eq_dedup]
  exact List.nodup_dedup _

section

variable {normalizePath : ProjectPath → Except String ProjectPath} {registry : LoadedRegistry}
  {registration : ProjectRegistration} {project : RegisteredProject}

theorem valid_of_normalizeRegistration
    (h : normalizeRegistration normalizePath registration = .ok project) : project.Valid := by
  obtain ⟨-, h⟩ := check_eq_ok.mp h
  obtain ⟨name, -, h⟩ := bind_eq_ok.mp h
  obtain ⟨teamName, -, h⟩ := bind_eq_ok.mp h
  obtain ⟨sessionName, -, h⟩ := bind_eq_ok.mp h
  obtain ⟨projectRoot, -, h⟩ := bind_eq_ok.mp h
  obtain ⟨boardDir, -, h⟩ := bind_eq_ok.mp h
  obtain ⟨-, h⟩ := check_eq_ok.mp h
  obtain ⟨aliases, haliases, h⟩ := bind_eq_ok.mp h
  obtain ⟨tags, -, h⟩ := bind_eq_ok.mp h
  obtain ⟨bindings, -, h⟩ := bind_eq_ok.mp h
  obtain ⟨hvalid, h⟩ := check_eq_ok.mp h
  cases h
  exact ⟨hvalid, nodup_normalizeLabels haliases⟩

theorem ensureUnique_eq_ok : ensureUnique registry.toProjectRegistry project = .ok () ↔
    ∀ existing ∈ registry.projects, Apart existing project := by
  simp only [ensureUnique, check_eq_ok, forM_eq_ok, ensure_eq_ok, Bool.not_eq_true',
    List.any_eq_false, decide_eq_true_iff, List.mem_flatMap, not_exists, not_and, Apart, forall_and]
  grind

theorem exists_saveRegistry {unsaved : ProjectRegistry} (h : validateRegistry unsaved = .ok ()) :
    ∃ saved, saveRegistry unsaved = .ok saved ∧ saved.toProjectRegistry = unsaved := by
  refine ⟨⟨unsaved, h⟩, ?_, rfl⟩
  unfold saveRegistry
  split
  · rfl
  · next herror => cases h.symm.trans herror

/-- **Registering a project.** It is listed if it is apart from what is listed. -/
theorem registerProjectAt_of_apart
    (h : normalizeRegistration normalizePath registration = .ok project)
    (hapart : ∀ existing ∈ registry.projects, Apart existing project) :
    ∃ saved, registerProjectAt normalizePath registry registration = .ok (project, saved) ∧
      saved.projects = sortProjects (registry.projects ++ [project]) := by
  obtain ⟨hkind, hversion, hvalid, hpairwise⟩ := validateRegistry_eq_ok.mp registry.valid
  have hperm := List.perm_insertionSort (fun left right : RegisteredProject =>
    left.projectId ≤ right.projectId) (registry.projects ++ [project])
  have hunsaved : validateRegistry { registry.toProjectRegistry with
      projects := sortProjects (registry.projects ++ [project]) } = .ok () := by
    refine validateRegistry_eq_ok.mpr ⟨hkind, hversion, fun other hother => ?_, ?_⟩
    · rcases List.mem_append.mp (hperm.mem_iff.mp hother) with hmem | hmem
      · exact hvalid other hmem
      · exact List.mem_singleton.mp hmem ▸ valid_of_normalizeRegistration h
    · rw [sortProjects, hperm.pairwise_iff Apart.symm, List.pairwise_append]
      exact ⟨hpairwise, List.pairwise_singleton _ _, fun existing hmem other hother =>
        List.mem_singleton.mp hother ▸ hapart existing hmem⟩
  obtain ⟨saved, hsaved, heq⟩ := exists_saveRegistry hunsaved
  refine ⟨saved, bind_eq_ok.mpr ⟨project, h, check_eq_ok.mpr ⟨ensureUnique_eq_ok.mpr hapart,
    bind_eq_ok.mpr ⟨saved, hsaved, rfl⟩⟩⟩, by rw [heq]⟩

end

/-! ### Runs of calls -/

/-- A call that edits the registry. -/
inductive RegistryCall where
  | register (normalizePath : ProjectPath → Except String ProjectPath)
      (registration : ProjectRegistration)
  | unregister (projectId : String)

/-- A call that fails writes nothing. -/
def LoadedRegistry.step (registry : LoadedRegistry) : RegistryCall → LoadedRegistry
  | .register normalizePath registration =>
    (registerProjectAt normalizePath registry registration).toOption.elim registry Prod.snd
  | .unregister projectId =>
    (unregisterProjectAt registry projectId).toOption.elim registry Prod.snd

def LoadedRegistry.run (registry : LoadedRegistry) (calls : List RegistryCall) : LoadedRegistry :=
  calls.foldl LoadedRegistry.step registry

/-- What is registered, by id. -/
abbrev Listing := String → Option RegisteredProject

open Classical in
/-- A project is listed if it is apart from all that are. -/
noncomputable def Listing.step (listing : Listing) : RegistryCall → Listing
  | .register normalizePath registration =>
    match normalizeRegistration normalizePath registration with
    | .ok project =>
      if ∀ projectId existing, listing projectId = some existing → Apart existing project then
        Function.update listing project.projectId (some project)
      else listing
    | .error _ => listing
  | .unregister projectId => Function.update listing projectId none

/-- The registry is as the listing says. -/
def Lists (registry : LoadedRegistry) (listing : Listing) : Prop :=
  ∀ projectId project, listing projectId = some project ↔
    project ∈ registry.projects ∧ project.projectId = projectId

def Sorted (registry : LoadedRegistry) : Prop :=
  registry.projects.Pairwise (·.projectId < ·.projectId)

section

variable {registry : LoadedRegistry} {listing : Listing}
  (normalizePath : ProjectPath → Except String ProjectPath) (registration : ProjectRegistration)

theorem step_register (registry : LoadedRegistry) :
    (∃ project, normalizeRegistration normalizePath registration = .ok project ∧
      (∀ existing ∈ registry.projects, Apart existing project) ∧
        (registry.step (.register normalizePath registration)).projects =
          sortProjects (registry.projects ++ [project])) ∨
    (∀ project, normalizeRegistration normalizePath registration = .ok project →
      ¬ ∀ existing ∈ registry.projects, Apart existing project) ∧
        registry.step (.register normalizePath registration) = registry := by
  rw [LoadedRegistry.step]
  cases hresult : registerProjectAt normalizePath registry registration with
  | error error =>
    refine .inr ⟨fun project hproject hapart => ?_, rfl⟩
    obtain ⟨saved, hsaved, -⟩ := registerProjectAt_of_apart hproject hapart
    cases hsaved.symm.trans hresult
  | ok result =>
    obtain ⟨project, hproject, h⟩ := bind_eq_ok.mp hresult
    have hapart := ensureUnique_eq_ok.mp (check_eq_ok.mp h).1
    obtain ⟨saved, hsaved, hprojects⟩ := registerProjectAt_of_apart hproject hapart
    cases hsaved.symm.trans hresult
    exact .inl ⟨project, hproject, hapart, hprojects⟩

theorem step_unregister (registry : LoadedRegistry) (projectId : String) :
    (registry.step (.unregister projectId)).projects =
      registry.projects.eraseP (·.projectId = projectId) := by
  obtain ⟨hkind, hversion, hvalid, hpairwise⟩ := validateRegistry_eq_ok.mp registry.valid
  rw [LoadedRegistry.step, unregisterProjectAt]
  cases hfind : registry.projects.find? (·.projectId = projectId) with
  | some removed =>
    have hunsaved : validateRegistry { registry.toProjectRegistry with
        projects := registry.projects.eraseP (·.projectId = projectId) } = .ok () :=
      validateRegistry_eq_ok.mpr ⟨hkind, hversion,
        fun other hother => hvalid other (List.mem_of_mem_eraseP hother),
        hpairwise.sublist List.eraseP_sublist⟩
    obtain ⟨saved, hsaved, heq⟩ := exists_saveRegistry hunsaved
    simp only [hsaved]
    exact congrArg ProjectRegistry.projects heq
  | none => exact (List.eraseP_of_forall_not (List.find?_eq_none.mp hfind)).symm

theorem Lists.register (h : Lists registry listing) :
    Lists (registry.step (.register normalizePath registration))
      (listing.step (.register normalizePath registration)) := by
  have hall (project : RegisteredProject) :
      (∀ projectId existing, listing projectId = some existing → Apart existing project) ↔
        ∀ existing ∈ registry.projects, Apart existing project := by
    simp only [h _ _, and_imp]
    exact ⟨fun hall existing hmem => hall _ existing hmem rfl, fun hall _ _ hmem _ => hall _ hmem⟩
  obtain ⟨project, hproject, hapart, hprojects⟩ | ⟨hnone, hsame⟩ :=
    step_register normalizePath registration registry
  · intro projectId other
    simp only [Listing.step, hproject, if_pos ((hall project).mpr hapart)]
    rw [hprojects, sortProjects, List.mem_insertionSort, List.mem_append, List.mem_singleton,
      Function.update_apply]
    have hids (existing) (hmem : existing ∈ registry.projects) := (hapart existing hmem).1
    split_ifs with heq
    · grind
    · rw [h]
      grind
  · rw [hsame, Listing.step]
    split
    · next project hproject =>
      rw [if_neg fun hapart => hnone project hproject ((hall project).mp hapart)]
      exact h
    · exact h

theorem mem_eraseP {projects : List RegisteredProject} {project : RegisteredProject}
    {projectId : String} (h : projects.Pairwise Apart) :
    project ∈ projects.eraseP (·.projectId = projectId) ↔
      project ∈ projects ∧ project.projectId ≠ projectId := by
  induction projects with
  | nil => simp
  | cons first projects ih =>
    rw [List.pairwise_cons] at h
    rw [List.eraseP_cons, cond_eq_ite]
    split_ifs <;> grind [Apart]

theorem Lists.unregister (h : Lists registry listing) (projectId : String) :
    Lists (registry.step (.unregister projectId)) (listing.step (.unregister projectId)) := by
  intro other project
  have hapart := (validateRegistry_eq_ok.mp registry.valid).2.2.2
  rw [step_unregister, mem_eraseP hapart, Listing.step, Function.update_apply]
  split_ifs with heq
  · simp [heq]
  · rw [h]
    grind

theorem lists_getProjectAt (registry : LoadedRegistry) :
    Lists registry (getProjectAt registry) := by
  refine fun projectId project =>
    ⟨fun h => ⟨List.mem_of_find?_eq_some h, by simpa using List.find?_some h⟩, ?_⟩
  rintro ⟨hproject, rfl⟩
  exact find?_of_nodup_map registry.nodup_projectIds hproject

/-- **The registry follows the listing**, over every run of calls. -/
theorem lists_run (registry : LoadedRegistry) (calls : List RegistryCall) :
    Lists (registry.run calls) (calls.foldl Listing.step (getProjectAt registry)) := by
  induction calls using List.reverseRecOn with
  | nil => exact lists_getProjectAt registry
  | append_singleton calls call ih =>
    rw [LoadedRegistry.run, List.foldl_concat, List.foldl_concat, ← LoadedRegistry.run]
    cases call with
    | register normalizePath registration => exact ih.register normalizePath registration
    | unregister projectId => exact ih.unregister projectId

theorem Sorted.step (h : Sorted registry) (call : RegistryCall) : Sorted (registry.step call) := by
  cases call with
  | register normalizePath registration =>
    obtain ⟨project, -, -, hprojects⟩ | ⟨-, hsame⟩ :=
      step_register normalizePath registration registry
    · have hsorted := pairwise_insertionSort_key RegisteredProject.projectId
        (registry.projects ++ [project])
      rw [← sortProjects, ← hprojects] at hsorted
      exact (hsorted.and (validateRegistry_eq_ok.mp (registry.step _).valid).2.2.2).imp
        fun ⟨hle, hapart⟩ => lt_of_le_of_ne hle hapart.1
    · rwa [hsame]
  | unregister projectId =>
    rw [Sorted, step_unregister]
    exact h.sublist List.eraseP_sublist

theorem Sorted.run (h : Sorted registry) (calls : List RegistryCall) :
    Sorted (registry.run calls) := by
  induction calls generalizing registry with
  | nil => exact h
  | cons call calls ih => exact ih (h.step call)

end

/-- After every run of calls a look-up finds what is registered under the id. -/
theorem getProjectAt_run (registry : LoadedRegistry) (calls : List RegistryCall) :
    getProjectAt (registry.run calls) = calls.foldl Listing.step (getProjectAt registry) :=
  funext fun projectId => Option.ext fun project =>
    (lists_getProjectAt _ projectId project).trans (lists_run registry calls projectId project).symm

/-- **The file depends on what is registered alone**, and not on the run that led to it. -/
theorem projects_run_eq {registry registry' : LoadedRegistry} {calls calls' : List RegistryCall}
    (hsorted : Sorted registry) (hsorted' : Sorted registry')
    (h : calls.foldl Listing.step (getProjectAt registry) =
      calls'.foldl Listing.step (getProjectAt registry')) :
    (registry.run calls).projects = (registry'.run calls').projects := by
  refine @List.Pairwise.eq_of_mem_iff _ (InvImage (· < ·) RegisteredProject.projectId)
    ⟨fun _ _ h h' => absurd h (lt_asymm h')⟩ ⟨fun _ => lt_irrefl _⟩ _ _ (hsorted.run calls)
      (hsorted'.run calls') fun project => ?_
  have hmem := lists_run registry calls project.projectId project
  rw [h, lists_run registry' calls' project.projectId project] at hmem
  simpa using hmem.symm

def emptyRegistry : LoadedRegistry := ⟨⟨registryKind, registrySchemaVersion, []⟩, rfl⟩

/-- What a project of that name registers with. -/
def registrationOf (name : String) : ProjectRegistration where
  projectId := name
  name
  aliases := []
  projectRoot := ⟨true, [name]⟩
  boardDir := ⟨true, [name, "board"]⟩
  teamName := name
  sessionName := name
  channelBindings := []
  tags := []
  policyFlags := {}

def projectOf (name : String) : RegisteredProject := { registrationOf name with }

def registering (name : String) : RegistryCall := .register .ok (registrationOf name)

theorem listing_step_registering {listing : Listing} {name : String}
    (h : normalizeRegistration .ok (registrationOf name) = .ok (projectOf name))
    (hapart : ∀ projectId existing, listing projectId = some existing →
      Apart existing (projectOf name)) :
    listing.step (registering name) = Function.update listing name (some (projectOf name)) := by
  simp only [registering, Listing.step, h]
  exact if_pos hapart

/-- Two projects that are registered in either order. -/
theorem projects_run_eq_swapped :
    (emptyRegistry.run [registering "beta", registering "alpha"]).projects =
        (emptyRegistry.run [registering "alpha", registering "beta"]).projects ∧
      (emptyRegistry.run [registering "beta", registering "alpha"]).projects =
        [projectOf "alpha", projectOf "beta"] := by
  refine ⟨projects_run_eq .nil .nil ?_, by decide +kernel⟩
  have halpha : normalizeRegistration .ok (registrationOf "alpha") = .ok (projectOf "alpha") := by
    decide
  have hbeta : normalizeRegistration .ok (registrationOf "beta") = .ok (projectOf "beta") := by
    decide
  have hapart : Apart (projectOf "alpha") (projectOf "beta") :=
    ⟨by decide, by decide, by decide, by decide, List.forall_mem_nil _⟩
  have hnone {other : RegisteredProject} (projectId : String) (existing : RegisteredProject)
      (hlisted : getProjectAt emptyRegistry projectId = some existing) : Apart existing other := by
    cases hlisted
  have hother {name : String} {other : RegisteredProject} (h : Apart (projectOf name) other)
      (projectId : String) (existing : RegisteredProject)
      (hlisted : Function.update (getProjectAt emptyRegistry) name (some (projectOf name)) projectId =
        some existing) : Apart existing other := by
    rw [Function.update_apply] at hlisted
    split_ifs at hlisted
    · exact Option.some.inj hlisted ▸ h
    · exact hnone projectId existing hlisted
  simp only [List.foldl_cons, List.foldl_nil]
  rw [listing_step_registering hbeta hnone, listing_step_registering halpha (hother hapart.symm),
    listing_step_registering halpha hnone, listing_step_registering hbeta (hother hapart)]
  exact Function.update_comm (by decide) _ _ _

end Projects

end Batty
