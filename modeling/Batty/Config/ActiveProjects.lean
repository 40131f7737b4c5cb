import Batty.Config.RoutingSafety
import Batty.Foundation.Runs
import Batty.Foundation.Ties

/-!
# Active projects

A project can be made the active one of a thread, of a channel or of everything. The selections are
kept in one list, one for each scope, in the order of their scopes; when a message is scored for a
project, the first selection of that project is looked up, and only that one is compared with the
place the message comes from. A project that is active in two scopes is found in the first of them
alone, unless it is bound to the other one besides.

* `Routing.Honoured`: the list holds the last selection of each scope, and where a selection matches
  a message its project is scored for it.
* `Routing.always_honoured_iff`: the runs in which that stays so.
-/

namespace Batty

namespace Projects

open Config (ensure ensure_eq_ok bind_eq_ok)

/-! ### Setting the active project -/

def sameScope : ActiveProjectScope → ActiveProjectScope → Bool
  | .global, .global => true
  | .channel leftChannel leftBinding, .channel rightChannel rightBinding =>
    leftChannel = rightChannel && leftBinding = rightBinding
  | .thread leftChannel leftBinding leftThread, .thread rightChannel rightBinding rightThread =>
    leftChannel = rightChannel && leftBinding = rightBinding && leftThread = rightThread
  | _, _ => false

def scopeRank : ActiveProjectScope → List String
  | .global => ["global", "", "", ""]
  | .channel channel binding => ["channel", channel, binding, ""]
  | .thread channel binding threadBinding => ["thread", channel, binding, threadBinding]

/-- The rank of the scope, and the id of the project after it. -/
def selectionKey (selection : ActiveProjectSelection) : List String ×ₗ String :=
  toLex (scopeRank selection.scope, selection.projectId)

def sortSelections (selections : List ActiveProjectSelection) : List ActiveProjectSelection :=
  selections.insertionSort fun left right => selectionKey left ≤ selectionKey right

/-- The selections whose scopes are not yet taken. -/
def validateSelections : List ActiveProjectScope → List ActiveProjectSelection → Except String Unit
  | _, [] => .ok ()
  | scopes, selection :: selections => do
    validateProjectId selection.projectId
    ensure (selection.scope ∉ scopes) "duplicate active-project scope in routing state"
    validateSelections (selection.scope :: scopes) selections

/-- The state as it is written. -/
def saveRoutingState (state : ProjectRoutingState) : Except String ProjectRoutingState := do
  validateSelections [] state.selections
  pure state

def setActiveProjectAt (registry : LoadedRegistry) (state : ProjectRoutingState)
    (projectId : String) (scope : ActiveProjectScope) (now : Nat) :
    Except String ProjectRoutingState := do
  ensure (registry.projects.any fun project => project.projectId = projectId)
    s!"project '{projectId}' is not registered"
  let selection : ActiveProjectSelection := { projectId, scope, updatedAt := now }
  let others := state.selections.filter fun existing => !sameScope existing.scope selection.scope
  saveRoutingState { selections := sortSelections (others ++ [selection]) }

/-! ### What a selection is for -/

/-- The message comes from the place that the scope names. -/
def ActiveProjectScope.Matches (request : ProjectRoutingRequest) : ActiveProjectScope → Prop
  | .thread name binding threadBinding => request.channel = some name ∧
      request.binding = some binding ∧ request.threadBinding = some threadBinding
  | .channel name binding => request.channel = some name ∧ request.binding = some binding
  | .global => True

instance (request : ProjectRoutingRequest) (scope : ActiveProjectScope) :
    Decidable (scope.Matches request) :=
  match scope with
  | .thread _ _ _ => inferInstanceAs (Decidable (_ ∧ _ ∧ _))
  | .channel _ _ => inferInstanceAs (Decidable (_ ∧ _))
  | .global => inferInstanceAs (Decidable True)

def ActiveProjectScope.score : ActiveProjectScope → Nat
  | .thread _ _ _ => 96
  | .channel _ _ => 80
  | .global => 65

/-- The project itself is bound to the place. -/
def RegisteredProject.Binds (project : RegisteredProject) : ActiveProjectScope → Prop
  | .thread channel binding threadBinding => ∃ candidate ∈ project.channelBindings,
      candidate.channel = channel ∧ candidate.binding = binding ∧
        candidate.threadBinding = some threadBinding
  | .channel channel binding => ∃ candidate ∈ project.channelBindings,
      candidate.channel = channel ∧ candidate.binding = binding ∧ candidate.threadBinding = none
  | .global => False

/-- The project is scored for every message from the place of one of its selections. -/
def Scores (project : RegisteredProject) (state : ProjectRoutingState) : Prop :=
  ∀ selection ∈ state.selections, selection.projectId = project.projectId →
    ∀ request, selection.scope.Matches request →
      ∃ candidate, scoreProject state request project = some candidate ∧
        selection.scope.score ≤ candidate.score

/-- Each selection of the project is its first one, or for a place that it is bound to. -/
def Clear (project : RegisteredProject) (selections : List ActiveProjectSelection) : Prop :=
  ∀ selection ∈ selections, selection.projectId = project.projectId →
    (∀ other ∈ selections, other.projectId = project.projectId →
      scopeRank selection.scope ≤ scopeRank other.scope) ∨ project.Binds selection.scope

/-- The list is in order, no scope is in it twice, and its ids are ids. -/
structure Arranged (selections : List ActiveProjectSelection) : Prop where
  valid : ∀ selection ∈ selections, validateProjectId selection.projectId = .ok ()
  sorted : selections.Pairwise fun left right => selectionKey left ≤ selectionKey right
  nodup : (selections.map ActiveProjectSelection.scope).Nodup

/-! ### Runs -/

/-- A call that makes a project the active one of a scope. -/
structure SetActive where
  projectId : String
  scope : ActiveProjectScope
  now : Nat

/-- The routing state, and beside it the last selection that was set for each scope. -/
structure Routing where
  state : ProjectRoutingState := {}
  lastSet : ActiveProjectScope → Option ActiveProjectSelection := fun _ => none

namespace Routing

/-- A call that fails leaves everything as it is. -/
def step (registry : LoadedRegistry) (routing : Routing) (call : SetActive) : Routing :=
  match setActiveProjectAt registry routing.state call.projectId call.scope call.now with
  | .error _ => routing
  | .ok state =>
    { state
      lastSet := Function.update routing.lastSet call.scope
        (some { projectId := call.projectId, scope := call.scope, updatedAt := call.now }) }

/-- The state holds one selection for each scope, the last one that was set, and the selected
projects are scored. -/
structure Honoured (registry : LoadedRegistry) (routing : Routing) : Prop where
  nodup : (routing.state.selections.map ActiveProjectSelection.scope).Nodup
  last : ∀ selection,
    selection ∈ routing.state.selections ↔ routing.lastSet selection.scope = some selection
  scores : ∀ project ∈ registry.projects, Scores project routing.state

/-- Of the new selection and any other one of the same project, in the order of their scopes, the
later one is for a place that the project is bound to. -/
def Meets (registry : LoadedRegistry) (routing : Routing) (call : SetActive) : Prop :=
  ∀ project ∈ registry.projects, project.projectId = call.projectId →
    ∀ other ∈ routing.state.selections, other.projectId = call.projectId →
      other.scope ≠ call.scope →
        if scopeRank other.scope < scopeRank call.scope then project.Binds call.scope
        else project.Binds other.scope

end Routing

/-! ### Scopes -/

section

variable {left right scope : ActiveProjectScope} {project : RegisteredProject}
  {selection first : ActiveProjectSelection} {selections : List ActiveProjectSelection}
  {state : ProjectRoutingState} {request : ProjectRoutingRequest} {registry : LoadedRegistry}

theorem sameScope_iff : sameScope left right = true ↔ left = right := by
  cases left <;> cases right <;> simp [sameScope, and_assoc]

theorem scopeRank_injective : Function.Injective scopeRank := by
  intro left right h
  cases left <;> cases right <;> simp_all [scopeRank]

theorem scopeRank_le_of_key {left right : ActiveProjectSelection}
    (h : selectionKey left ≤ selectionKey right) : scopeRank left.scope ≤ scopeRank right.scope := by
  rcases Prod.Lex.le_iff.mp h with hlt | ⟨heq, -⟩
  · exact hlt.le
  · exact heq.le

theorem eq_of_scope (h : Arranged selections) (hselection : selection ∈ selections)
    (hfirst : first ∈ selections) (hscope : first.scope = selection.scope) : first = selection :=
  List.inj_on_of_nodup_map h.nodup hfirst hselection hscope

/-- **The selection that is looked up** is the first one of the project. -/
theorem find?_iff (h : Arranged selections) :
    selections.find? (·.projectId = project.projectId) = some first ↔
      first ∈ selections ∧ first.projectId = project.projectId ∧
        ∀ other ∈ selections, other.projectId = project.projectId →
          scopeRank first.scope ≤ scopeRank other.scope := by
  have hfound : ∀ found, selections.find? (·.projectId = project.projectId) = some found →
      found ∈ selections ∧ found.projectId = project.projectId ∧
        ∀ other ∈ selections, other.projectId = project.projectId →
          scopeRank found.scope ≤ scopeRank other.scope := by
    intro found hfind
    obtain ⟨hid, before, after, rfl, hbefore⟩ := List.find?_eq_some_iff_append.mp hfind
    refine ⟨by simp, by simpa using hid, fun other hother hotherId => ?_⟩
    rcases List.mem_append.mp hother with hother | hother
    · have hne := hbefore other hother
      rw [hotherId] at hne
      simp at hne
    · rcases List.mem_cons.mp hother with rfl | hother
      · exact le_rfl
      · have hsorted := (List.pairwise_append.mp h.sorted).2.1
        exact scopeRank_le_of_key ((List.pairwise_cons.mp hsorted).1 other hother)
  refine ⟨hfound first, fun ⟨hmem, hid, hle⟩ => ?_⟩
  have hsome : (selections.find? (·.projectId = project.projectId)).isSome :=
    List.find?_isSome.mpr ⟨first, hmem, by simpa using hid⟩
  obtain ⟨found, hfind⟩ := Option.isSome_iff_exists.mp hsome
  obtain ⟨hfoundMem, hfoundId, hfoundLe⟩ := hfound found hfind
  have hscope : found.scope = first.scope := scopeRank_injective
    (le_antisymm (hfoundLe first hmem hid) (hle found hfoundMem hfoundId))
  rw [hfind, eq_of_scope h hmem hfoundMem hscope]

/-! ### Scores -/

theorem exists_scored_iff {n : Nat} (hn : 0 < n) :
    (∃ candidate, scoreProject state request project = some candidate ∧ n ≤ candidate.score) ↔
      ∃ entry ∈ evidence project state request, n ≤ entry.1 := by
  rw [← le_score_iff hn]
  constructor
  · rintro ⟨candidate, hcandidate, hle⟩
    rwa [(of_scoreProject hcandidate).2] at hle
  · intro hle
    rw [scoreProject, if_neg (by omega)]
    exact ⟨_, rfl, hle⟩

theorem score_pos (scope : ActiveProjectScope) : 0 < scope.score := by
  cases scope <;> simp [ActiveProjectScope.score]

/-- What the one selection that is looked up says. -/
theorem activeSelectionMatch_of_find?
    (hfind : state.selections.find? (·.projectId = project.projectId) = some first)
    (request : ProjectRoutingRequest) : ∃ reason, activeSelectionMatch project state request =
      if first.scope.Matches request then some (first.scope.score, reason) else none := by
  rw [activeSelectionMatch, hfind]
  simp only [Option.bind_eq_bind, Option.bind_some]
  cases first.scope with
  | global => exact ⟨_, rfl⟩
  | channel channel binding =>
    refine ⟨"active project selected for this channel", ?_⟩
    by_cases hmatches : (ActiveProjectScope.channel channel binding).Matches request
    · obtain ⟨hchannel, hbinding⟩ := id hmatches
      simp [hmatches, hchannel, hbinding, ActiveProjectScope.score]
    · dsimp only
      rw [if_neg hmatches, if_neg (by simpa [ActiveProjectScope.Matches] using hmatches)]
  | thread channel binding threadBinding =>
    refine ⟨"active project selected for this thread", ?_⟩
    by_cases hmatches : (ActiveProjectScope.thread channel binding threadBinding).Matches request
    · obtain ⟨hchannel, hbinding, hthread⟩ := id hmatches
      simp [hmatches, hchannel, hbinding, hthread, ActiveProjectScope.score]
    · dsimp only
      rw [if_neg hmatches,
        if_neg (by simpa [ActiveProjectScope.Matches, and_assoc] using hmatches)]

theorem exists_evidence_of_first
    (hfind : state.selections.find? (·.projectId = project.projectId) = some first)
    (hmatches : first.scope.Matches request) :
    ∃ entry ∈ evidence project state request, first.scope.score ≤ entry.1 := by
  obtain ⟨reason, hreason⟩ := activeSelectionMatch_of_find? hfind request
  rw [if_pos hmatches] at hreason
  exact ⟨(first.scope.score, reason), by simp [evidence, hreason], le_rfl⟩

theorem threadBindingMatch_isSome {channel binding threadBinding : String}
    (hmatches : (ActiveProjectScope.thread channel binding threadBinding).Matches request) :
    (threadBindingMatch project request).isSome ↔
      project.Binds (.thread channel binding threadBinding) := by
  obtain ⟨hchannel, hbinding, hthread⟩ := hmatches
  simp [threadBindingMatch, RegisteredProject.Binds, hchannel, hbinding, hthread, and_assoc]

theorem channelBindingMatch_isSome {channel binding : String}
    (hmatches : (ActiveProjectScope.channel channel binding).Matches request) :
    (channelBindingMatch project request).isSome ↔ project.Binds (.channel channel binding) := by
  obtain ⟨hchannel, hbinding⟩ := hmatches
  simp [channelBindingMatch, RegisteredProject.Binds, hchannel, hbinding, and_assoc]

/-- A place that the project is bound to speaks for it more than a selection for that place. -/
theorem exists_evidence_of_binds (hbinds : project.Binds scope) (hmatches : scope.Matches request) :
    ∃ entry ∈ evidence project state request, scope.score ≤ entry.1 := by
  cases hthread : threadBindingMatch project request with
  | some reason =>
    exact ⟨(100, reason), by simp [evidence, hthread],
      by cases scope <;> simp [ActiveProjectScope.score]⟩
  | none =>
    cases scope with
    | global => exact hbinds.elim
    | channel channel binding =>
      obtain ⟨reason, hreason⟩ := Option.isSome_iff_exists.mp
        ((channelBindingMatch_isSome hmatches).mpr hbinds)
      exact ⟨(90, reason), by simp [evidence, hthread, hreason],
        by simp [ActiveProjectScope.score]⟩
    | thread channel binding threadBinding =>
      have hsome := (threadBindingMatch_isSome hmatches).mpr hbinds
      rw [hthread] at hsome
      cases hsome

/-- A message without words, from the place of the scope. -/
def fromScope : ActiveProjectScope → ProjectRoutingRequest
  | .thread channel binding threadBinding =>
    { message := "", channel := some channel, binding := some binding,
      threadBinding := some threadBinding }
  | .channel channel binding =>
    { message := "", channel := some channel, binding := some binding, threadBinding := none }
  | .global => { message := "", channel := none, binding := none, threadBinding := none }

theorem matches_fromScope (scope : ActiveProjectScope) : scope.Matches (fromScope scope) := by
  cases scope <;> simp [ActiveProjectScope.Matches, fromScope]

theorem evidence_of_silent (hmessage : request.message = "") : evidence project state request =
    (match threadBindingMatch project request with
      | some reason => [(100, reason)]
      | none =>
        match channelBindingMatch project request with
        | some reason => [(90, reason)]
        | none => []) ++ (activeSelectionMatch project state request).toList := by
  have hlower : request.lower = [] := by
    rw [ProjectRoutingRequest.lower, hmessage]
    rfl
  have htokens : request.tokens = [] := by
    rw [ProjectRoutingRequest.tokens, hlower]
    rfl
  have hphrase : ∀ phrase, phraseMatch [] phrase = false := fun phrase => by
    cases phrase <;> simp [phraseMatch]
  simp only [evidence, mentionsProjectId, mentionsAlias, mentionedTags, hlower, htokens, hphrase]
  cases threadBindingMatch project request <;> cases channelBindingMatch project request <;> simp

/-- A scope that comes in front of another one does not match what comes from the place of that
one, or counts less. -/
theorem score_lt_of_rank (hrank : scopeRank left < scopeRank right)
    (hmatches : left.Matches (fromScope right)) : left.score < right.score := by
  have hne : left ≠ right := by
    rintro rfl
    exact lt_irrefl _ hrank
  cases right with
  | global =>
    cases left with
    | global => exact absurd rfl hne
    | channel channel binding => simp [ActiveProjectScope.Matches, fromScope] at hmatches
    | thread channel binding threadBinding =>
      simp [ActiveProjectScope.Matches, fromScope] at hmatches
  | channel channel binding =>
    cases left with
    | global => simp [ActiveProjectScope.score]
    | channel channel' binding' =>
      simp_all [ActiveProjectScope.Matches, fromScope]
    | thread channel' binding' threadBinding =>
      simp [ActiveProjectScope.Matches, fromScope] at hmatches
  | thread channel binding threadBinding =>
    cases left with
    | global => simp [ActiveProjectScope.score]
    | channel channel' binding' => simp [ActiveProjectScope.score]
    | thread channel' binding' threadBinding' =>
      simp_all [ActiveProjectScope.Matches, fromScope]

/-- What speaks for a project counts less than a scope that it is not bound to and that does not
come first. -/
theorem lt_of_fromScope {entry : Nat × String} (hbinds : ¬ project.Binds scope)
    (hfind : state.selections.find? (·.projectId = project.projectId) = some first)
    (hrank : scopeRank first.scope < scopeRank scope)
    (hentry : entry ∈ evidence project state (fromScope scope)) : entry.1 < scope.score := by
  have hmessage : (fromScope scope).message = "" := by cases scope <;> rfl
  rw [evidence_of_silent hmessage] at hentry
  rcases List.mem_append.mp hentry with hentry | hentry
  · -- The project is not bound to the place, or to the channel of the thread at most.
    cases scope with
    | global => simp [threadBindingMatch, channelBindingMatch, fromScope] at hentry
    | channel channel binding =>
      have hnone : channelBindingMatch project (fromScope (.channel channel binding)) = none := by
        rw [← Option.not_isSome_iff_eq_none, channelBindingMatch_isSome (matches_fromScope _)]
        exact hbinds
      simp [threadBindingMatch, hnone, show (fromScope (.channel channel binding)).threadBinding =
        none from rfl] at hentry
    | thread channel binding threadBinding =>
      have hnone : threadBindingMatch project (fromScope (.thread channel binding threadBinding)) =
          none := by
        rw [← Option.not_isSome_iff_eq_none, threadBindingMatch_isSome (matches_fromScope _)]
        exact hbinds
      rw [hnone] at hentry
      dsimp only at hentry
      split at hentry
      · rw [List.mem_singleton.mp hentry]
        simp [ActiveProjectScope.score]
      · cases hentry
  · obtain ⟨reason, hreason⟩ := activeSelectionMatch_of_find? hfind (fromScope scope)
    rw [hreason, Option.mem_toList, Option.ite_none_right_eq_some] at hentry
    obtain ⟨hmatches, heq⟩ := hentry
    cases heq
    exact score_lt_of_rank hrank hmatches

/-- **The project is scored** for the places of its selections exactly if it is clear. -/
theorem scores_iff_clear (h : Arranged state.selections) :
    Scores project state ↔ Clear project state.selections := by
  constructor
  · intro hscores selection hselection hid
    by_contra hclear
    rw [not_or] at hclear
    obtain ⟨hfirst, hbinds⟩ := hclear
    have hsome : (state.selections.find? (·.projectId = project.projectId)).isSome :=
      List.find?_isSome.mpr ⟨selection, hselection, by simpa using hid⟩
    obtain ⟨first, hfind⟩ := Option.isSome_iff_exists.mp hsome
    obtain ⟨hmem, hfirstId, hle⟩ := (find?_iff h).mp hfind
    -- Another selection comes first, for else this one would.
    have hrank : scopeRank first.scope < scopeRank selection.scope := by
      refine lt_of_le_of_ne (hle selection hselection hid) fun heq => hfirst ?_
      rw [← heq]
      exact hle
    obtain ⟨entry, hentry, hscore⟩ := (exists_scored_iff (score_pos _)).mp
      (hscores selection hselection hid _ (matches_fromScope _))
    exact absurd hscore (Nat.not_le.mpr (lt_of_fromScope hbinds hfind hrank hentry))
  · intro hclear selection hselection hid request hmatches
    rw [exists_scored_iff (score_pos _)]
    rcases hclear selection hselection hid with hfirst | hbinds
    · exact exists_evidence_of_first ((find?_iff h).mpr ⟨hselection, hid, hfirst⟩) hmatches
    · exact exists_evidence_of_binds hbinds hmatches

/-! ### Setting a selection -/

/-- The list after a selection was set. -/
def withSelection (selections : List ActiveProjectSelection) (selection : ActiveProjectSelection) :
    List ActiveProjectSelection :=
  sortSelections ((selections.filter fun existing => !sameScope existing.scope selection.scope) ++
    [selection])

theorem mem_withSelection {existing : ActiveProjectSelection} :
    existing ∈ withSelection selections selection ↔
      existing ∈ selections ∧ existing.scope ≠ selection.scope ∨ existing = selection := by
  rw [withSelection, sortSelections, List.mem_insertionSort, List.mem_append, List.mem_filter,
    List.mem_singleton, Bool.not_eq_true', ← Bool.not_eq_true, sameScope_iff]

theorem Arranged.withSelection (h : Arranged selections)
    (hvalid : validateProjectId selection.projectId = .ok ()) :
    Arranged (withSelection selections selection) := by
  refine ⟨fun existing hexisting => ?_, pairwise_insertionSort_key selectionKey _, ?_⟩
  · rcases mem_withSelection.mp hexisting with ⟨hmem, -⟩ | rfl
    · exact h.valid existing hmem
    · exact hvalid
  · rw [Projects.withSelection, sortSelections,
      ((List.perm_insertionSort _ _).map ActiveProjectSelection.scope).nodup_iff, List.map_append,
      List.nodup_append]
    refine ⟨h.nodup.sublist (List.filter_sublist.map _), List.nodup_singleton _, ?_⟩
    intro scope hscope new hnew
    obtain ⟨existing, hexisting, rfl⟩ := List.mem_map.mp hscope
    have hother := (List.mem_filter.mp hexisting).2
    rw [Bool.not_eq_true', ← Bool.not_eq_true, sameScope_iff] at hother
    rw [List.map_singleton, List.mem_singleton] at hnew
    rwa [hnew]

theorem validateSelections_of_arranged {scopes : List ActiveProjectScope}
    (hvalid : ∀ selection ∈ selections, validateProjectId selection.projectId = .ok ())
    (hnodup : (selections.map ActiveProjectSelection.scope).Nodup)
    (hfresh : ∀ selection ∈ selections, selection.scope ∉ scopes) :
    validateSelections scopes selections = .ok () := by
  induction selections generalizing scopes with
  | nil => rfl
  | cons selection selections ih =>
    rw [List.forall_mem_cons] at hvalid hfresh
    rw [List.map_cons, List.nodup_cons] at hnodup
    refine bind_eq_ok.mpr ⟨(), hvalid.1, bind_eq_ok.mpr ⟨(), ?_, ?_⟩⟩
    · rw [ensure_eq_ok]
      simpa using hfresh.1
    · refine ih hvalid.2 hnodup.2 fun other hother => ?_
      rw [List.mem_cons, not_or]
      exact ⟨fun heq => hnodup.1 (heq ▸ List.mem_map_of_mem hother), hfresh.2 other hother⟩

theorem validateProjectId_of_mem (hproject : project ∈ registry.projects) :
    validateProjectId project.projectId = .ok () := by
  obtain ⟨⟨⟩, hid, -⟩ := bind_eq_ok.mp (registry.of_takeProjects_valid.1 project hproject)
  exact hid

/-- **A call** sets the selection if the project is registered. -/
theorem setActiveProjectAt_of_mem (h : Arranged state.selections)
    (hproject : project ∈ registry.projects) (scope : ActiveProjectScope) (now : Nat) :
    setActiveProjectAt registry state project.projectId scope now =
      .ok { selections := withSelection state.selections ⟨project.projectId, scope, now⟩ } := by
  have harranged : Arranged (withSelection state.selections ⟨project.projectId, scope, now⟩) :=
    h.withSelection (validateProjectId_of_mem hproject)
  have hany : (registry.projects.any fun other => other.projectId = project.projectId) = true :=
    List.any_eq_true.mpr ⟨project, hproject, by simp⟩
  refine bind_eq_ok.mpr ⟨(), ensure_eq_ok.mpr hany, bind_eq_ok.mpr ⟨(), ?_, rfl⟩⟩
  exact validateSelections_of_arranged harranged.valid harranged.nodup fun _ _ => List.not_mem_nil

theorem setActiveProjectAt_of_not {projectId : String}
    (h : ∀ project ∈ registry.projects, project.projectId ≠ projectId)
    (scope : ActiveProjectScope) (now : Nat) :
    ∃ message, setActiveProjectAt registry state projectId scope now = .error message := by
  have hany : (registry.projects.any fun other => other.projectId = projectId) = false :=
    List.any_eq_false.mpr fun other hother => by simpa using h other hother
  exact ⟨_, by rw [setActiveProjectAt, hany]; rfl⟩

/-- Another project loses a selection at most. -/
theorem Clear.withSelection_of_ne (hclear : Clear project selections)
    (hid : project.projectId ≠ selection.projectId) :
    Clear project (withSelection selections selection) := by
  intro existing hexisting hexistingId
  rcases mem_withSelection.mp hexisting with ⟨hmem, -⟩ | rfl
  · refine (hclear existing hmem hexistingId).imp_left fun hfirst other hother hotherId => ?_
    rcases mem_withSelection.mp hother with ⟨hmem, -⟩ | rfl
    · exact hfirst other hmem hotherId
    · exact absurd hotherId.symm hid
  · exact absurd hexistingId.symm hid

/-- **The project of the call** stays clear if the later one of each two is for a place that it is
bound to. -/
theorem clear_withSelection_iff (hclear : Clear project selections)
    (hid : selection.projectId = project.projectId) :
    Clear project (withSelection selections selection) ↔
      ∀ other ∈ selections, other.projectId = selection.projectId →
        other.scope ≠ selection.scope →
          if scopeRank other.scope < scopeRank selection.scope then project.Binds selection.scope
          else project.Binds other.scope := by
  have hnew : selection ∈ withSelection selections selection := mem_withSelection.mpr (.inr rfl)
  constructor
  · intro h other hother hotherId hne
    have hmem : other ∈ withSelection selections selection :=
      mem_withSelection.mpr (.inl ⟨hother, hne⟩)
    split
    · rename_i hbefore
      refine (h selection hnew hid).resolve_left fun hfirst => ?_
      exact absurd hbefore (not_lt.mpr (hfirst other hmem (hotherId.trans hid)))
    · rename_i hafter
      refine (h other hmem (hotherId.trans hid)).resolve_left fun hfirst => ?_
      exact hne (scopeRank_injective (le_antisymm (hfirst selection hnew hid) (not_lt.mp hafter)))
  · intro h existing hexisting hexistingId
    rcases mem_withSelection.mp hexisting with ⟨hmem, hne⟩ | rfl
    · have hlater := h existing hmem (hexistingId.trans hid.symm) hne
      rcases hclear existing hmem hexistingId with hfirst | hbinds
      · by_cases hbefore : scopeRank existing.scope < scopeRank selection.scope
        · refine .inl fun other hother hotherId => ?_
          rcases mem_withSelection.mp hother with ⟨hotherMem, -⟩ | rfl
          · exact hfirst other hotherMem hotherId
          · exact hbefore.le
        · rw [if_neg hbefore] at hlater
          exact .inr hlater
      · exact .inr hbinds
    · by_cases hbinds : project.Binds existing.scope
      · exact .inr hbinds
      · refine .inl fun other hother hotherId => ?_
        rcases mem_withSelection.mp hother with ⟨hotherMem, hne⟩ | rfl
        · have hlater := h other hotherMem (hotherId.trans hexistingId.symm) hne
          by_contra hbefore
          rw [if_pos (not_le.mp hbefore)] at hlater
          exact hbinds hlater
        · exact le_rfl

end

/-! ### Runs of calls -/

namespace Routing

variable {registry : LoadedRegistry} {routing : Routing} {call : SetActive}

/-- What holds beside the law wherever a run comes. -/
structure Inv (registry : LoadedRegistry) (routing : Routing) : Prop where
  arranged : Arranged routing.state.selections
  last : ∀ selection,
    selection ∈ routing.state.selections ↔ routing.lastSet selection.scope = some selection
  clear : ∀ project ∈ registry.projects, Clear project routing.state.selections

theorem honoured_iff (harranged : Arranged routing.state.selections)
    (hlast : ∀ selection,
      selection ∈ routing.state.selections ↔ routing.lastSet selection.scope = some selection) :
    Honoured registry routing ↔ Inv registry routing := by
  constructor
  · exact fun h => ⟨harranged, hlast, fun project hproject =>
      (scores_iff_clear harranged).mp (h.scores project hproject)⟩
  · exact fun h => ⟨harranged.nodup, hlast, fun project hproject =>
      (scores_iff_clear harranged).mpr (h.clear project hproject)⟩

theorem inv_fresh (registry : LoadedRegistry) : Inv registry {} where
  arranged := ⟨by simp, List.Pairwise.nil, List.nodup_nil⟩
  last := by simp
  clear := fun _ _ => by simp [Clear]

/-- **One call** keeps what is promised exactly if the later one of each two selections of its
project is for a place that the project is bound to. -/
theorem honoured_step_iff (h : Inv registry routing) :
    (Honoured registry (routing.step registry call) ↔ routing.Meets registry call) ∧
      (routing.Meets registry call → Inv registry (routing.step registry call)) := by
  by_cases hregistered : ∃ project ∈ registry.projects, project.projectId = call.projectId
  · obtain ⟨project, hproject, hid⟩ := hregistered
    obtain ⟨projectId, scope, now⟩ := call
    subst hid
    have hstep : routing.step registry ⟨project.projectId, scope, now⟩ =
        { state := { selections :=
            withSelection routing.state.selections ⟨project.projectId, scope, now⟩ }
          lastSet := Function.update routing.lastSet scope
            (some ⟨project.projectId, scope, now⟩) } := by
      rw [step, setActiveProjectAt_of_mem h.arranged hproject]
    have harranged : Arranged
        (withSelection routing.state.selections ⟨project.projectId, scope, now⟩) :=
      h.arranged.withSelection (validateProjectId_of_mem hproject)
    have hlast : ∀ selection,
        selection ∈ withSelection routing.state.selections ⟨project.projectId, scope, now⟩ ↔
          Function.update routing.lastSet scope (some ⟨project.projectId, scope, now⟩)
            selection.scope = some selection := by
      intro selection
      rw [mem_withSelection, h.last, Function.update_apply]
      by_cases hscope : selection.scope = scope
      · simp [hscope, eq_comm]
      · have hne : selection ≠ ⟨project.projectId, scope, now⟩ := by
          rintro rfl
          exact hscope rfl
        simp [hscope, hne]
    have hclear : (∀ other ∈ registry.projects, Clear other
        (withSelection routing.state.selections ⟨project.projectId, scope, now⟩)) ↔
          routing.Meets registry ⟨project.projectId, scope, now⟩ := by
      refine forall₂_congr fun other hother => ?_
      by_cases hotherId : other.projectId = project.projectId
      · rw [clear_withSelection_iff (h.clear other hother) hotherId.symm]
        simp [hotherId]
      · exact iff_of_true ((h.clear other hother).withSelection_of_ne hotherId)
          fun heq => absurd heq hotherId
    rw [hstep, honoured_iff harranged hlast, ← hclear]
    exact ⟨⟨fun hinv => hinv.clear, fun hall => ⟨harranged, hlast, hall⟩⟩,
      fun hall => ⟨harranged, hlast, hall⟩⟩
  · have hnone : ∀ project ∈ registry.projects, project.projectId ≠ call.projectId :=
      fun project hproject heq => hregistered ⟨project, hproject, heq⟩
    obtain ⟨message, hfails⟩ : ∃ message, setActiveProjectAt registry routing.state call.projectId
        call.scope call.now = .error message := setActiveProjectAt_of_not hnone call.scope call.now
    have hstep : routing.step registry call = routing := by rw [step, hfails]
    have hmeets : routing.Meets registry call :=
      fun project hproject heq => absurd heq (hnone project hproject)
    rw [hstep, honoured_iff h.arranged h.last]
    exact ⟨iff_of_true h hmeets, fun _ => h⟩

/-- **Selections are honoured** throughout a run exactly if at each call, of the new selection and
any other one of the same project, the later one is for a place that the project is bound to. -/
theorem always_honoured_iff (registry : LoadedRegistry) (calls : List SetActive) :
    Always (step registry) (Honoured registry) {} calls ↔
      EachStep (step registry) (Meets registry) {} calls :=
  always_iff_eachStep_of (fun _ h => (honoured_iff h.arranged h.last).mpr h)
    (fun _ _ h _ => (honoured_step_iff h).1) (fun _ _ h _ => (honoured_step_iff h).2)
    (inv_fresh registry) (eachStep_true _ calls)

end Routing

/-- A project that is made active in a channel and then everywhere. -/
def sampleCalls : List SetActive :=
  [⟨"alpha", .channel "telegram" "ops", 1⟩, ⟨"alpha", .global, 2⟩]

/-- A message from nowhere is scored by the global selection, which is not looked up. -/
theorem not_always_honoured_sample :
    ¬ Always (Routing.step sampleRegistry) (Routing.Honoured sampleRegistry) {} sampleCalls := by
  intro h
  have hend := h sampleCalls List.prefix_rfl
  obtain ⟨candidate, hcandidate, -⟩ := hend.scores sampleProject (by simp [sampleRegistry])
    ⟨"alpha", .global, 2⟩ (by decide) rfl (fromScope .global) trivial
  have hnone : scoreProject (sampleCalls.foldl (Routing.step sampleRegistry) {}).state
      (fromScope .global) sampleProject = none := by decide
  rw [hnone] at hcandidate
  cases hcandidate

end Projects

end Batty
