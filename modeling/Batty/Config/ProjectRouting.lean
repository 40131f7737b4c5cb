import Mathlib.Data.String.Basic
import Batty.Config.Projects
import Batty.Foundation.Lists
import Batty.Foundation.Words

/-!
# Which project a message is about

A message from a channel is scored against every project that is not archived; the best one is
taken if it leads by enough, and taken without asking if its score is high enough for what the
message looks like. A message that names a control verb is to be taken without asking only for a
project that it identifies.

The words of a message keep dots, dashes and underscores, so a verb or an id at the end of a
sentence is another word than the verb or the id. Routing keeps its promise exactly for the
requests in which no such word decides (`routesSafely_iff`).
-/

namespace Batty

namespace Projects

/-! ### Requests, routing state and decisions -/

/-- Where a project is the active one: everywhere, in a channel or in a thread of it. -/
inductive ActiveProjectScope where
  | global
  | channel (channel binding : String)
  | thread (channel binding threadBinding : String)
deriving DecidableEq

/-- The project that was last made active in a scope. -/
structure ActiveProjectSelection where
  projectId : String
  scope : ActiveProjectScope
  updatedAt : Nat
deriving DecidableEq

/-- The file of selections. -/
structure ProjectRoutingState where
  selections : List ActiveProjectSelection := []

/-- A message to route, and where it came from. -/
structure ProjectRoutingRequest where
  message : String
  channel : Option String
  binding : Option String
  threadBinding : Option String

/-- How sure the router is. -/
inductive RoutingConfidence where
  | high | medium | low
deriving DecidableEq

/-- A project the message may be for, and why. -/
structure ProjectRoutingCandidate where
  projectId : String
  reason : String
  score : Nat
deriving DecidableEq

/-- What the router answers; the candidates are all it has considered. -/
structure ProjectRoutingDecision where
  selectedProjectId : Option String
  requiresConfirmation : Bool
  confidence : RoutingConfidence
  reason : String
  candidates : List ProjectRoutingCandidate
deriving DecidableEq

/-! ### Words of a message -/

def isTokenChar (ch : Char) : Bool := ch.isAlphanum || ch = '-' || ch = '_' || ch = '.'

def normalizedTokens (value : List Char) : List (List Char) := words isTokenChar value

def ProjectRoutingRequest.lower (request : ProjectRoutingRequest) : List Char :=
  Text.toAsciiLowercase request.message.toList

def ProjectRoutingRequest.tokens (request : ProjectRoutingRequest) : List (List Char) :=
  normalizedTokens request.lower

def phraseMatch (message phrase : List Char) : Bool :=
  !phrase.isEmpty && decide (phrase <:+: message)

def controlVerbs : List String :=
  ["stop", "restart", "delete", "archive", "merge", "ship", "deploy", "kill", "pause", "resume",
    "assign", "unregister", "register", "instruct"]

def looksLikeControlAction (request : ProjectRoutingRequest) : Bool :=
  controlVerbs.any fun verb => request.tokens.contains verb.toList

/-! ### Scores -/

def threadBindingReason : String := "thread binding match"

def projectIdReason : String := "explicit projectId mention"

def aliasReason : String := "explicit alias mention"

def threadBindingMatch (project : RegisteredProject) (request : ProjectRoutingRequest) :
    Option String := do
  let channel ← request.channel
  let binding ← request.binding
  let threadBinding ← request.threadBinding
  if project.channelBindings.any fun candidate => candidate.channel = channel &&
      candidate.binding = binding && candidate.threadBinding = some threadBinding then
    some threadBindingReason
  else none

def channelBindingMatch (project : RegisteredProject) (request : ProjectRoutingRequest) :
    Option String := do
  let channel ← request.channel
  let binding ← request.binding
  if project.channelBindings.any fun candidate => candidate.channel = channel &&
      candidate.binding = binding && candidate.threadBinding = none then
    some "channel binding match"
  else none

def activeSelectionMatch (project : RegisteredProject) (routingState : ProjectRoutingState)
    (request : ProjectRoutingRequest) : Option (Nat × String) := do
  let selection ← routingState.selections.find? (·.projectId = project.projectId)
  match selection.scope with
  | .thread channel binding threadBinding =>
    if request.channel = some channel && request.binding = some binding &&
        request.threadBinding = some threadBinding then
      some (96, "active project selected for this thread")
    else none
  | .channel channel binding =>
    if request.channel = some channel && request.binding = some binding then
      some (80, "active project selected for this channel")
    else none
  | .global => some (65, "global active project selection")

def mentionsProjectId (project : RegisteredProject) (request : ProjectRoutingRequest) : Bool :=
  request.tokens.contains project.projectId.toList

def mentionsAlias (project : RegisteredProject) (request : ProjectRoutingRequest) : Bool :=
  project.aliases.any fun label => request.tokens.contains label.toList

def mentionedTags (project : RegisteredProject) (request : ProjectRoutingRequest) : List String :=
  project.tags.filter fun tag => request.tokens.contains tag.toList

def tagReason (tags : List String) : String :=
  "tag match (" ++ ", ".intercalate tags ++ ")"

/-- What speaks for a project, in the order in which it is looked for. -/
def evidence (project : RegisteredProject) (routingState : ProjectRoutingState)
    (request : ProjectRoutingRequest) : List (Nat × String) :=
  (if mentionsProjectId project request then [(100, projectIdReason)] else []) ++
  (if mentionsAlias project request then [(98, aliasReason)] else []) ++
  (if phraseMatch request.lower (Text.toAsciiLowercase project.name.toList) then
    [(95, "project name mention")] else []) ++
  (if (mentionedTags project request).isEmpty then []
    else [(70, tagReason (mentionedTags project request))]) ++
  (match threadBindingMatch project request with
    | some reason => [(100, reason)]
    | none =>
      match channelBindingMatch project request with
      | some reason => [(90, reason)]
      | none => []) ++
  (activeSelectionMatch project routingState request).toList

/-- The best of what speaks for a project, or zero. -/
def score (project : RegisteredProject) (routingState : ProjectRoutingState)
    (request : ProjectRoutingRequest) : Nat :=
  ((evidence project routingState request).map (·.1)).foldl max 0

def scoreProject (routingState : ProjectRoutingState) (request : ProjectRoutingRequest)
    (project : RegisteredProject) : Option ProjectRoutingCandidate :=
  if score project routingState request = 0 then none
  else some {
    projectId := project.projectId
    reason := "; ".intercalate ((evidence project routingState request).map (·.2))
    score := score project routingState request }

/-! ### The decision -/

def ProjectRoutingCandidate.because (candidate : ProjectRoutingCandidate) (phrase : String) :
    Bool :=
  decide (phrase.toList <:+: candidate.reason.toList)

def autoRouteAllowed (candidate : ProjectRoutingCandidate) (controlAction : Bool) : Bool :=
  if 98 ≤ candidate.score then true
  else if candidate.because threadBindingReason then true
  else if controlAction then
    candidate.because projectIdReason || candidate.because aliasReason ||
      candidate.because threadBindingReason
  else decide (80 ≤ candidate.score)

def routingConfidence (score : Nat) : RoutingConfidence :=
  if 95 ≤ score then .high else if 75 ≤ score then .medium else .low

def routingReason (top : ProjectRoutingCandidate) (ambiguous controlAction : Bool) : String :=
  if ambiguous then
    s!"Routing is ambiguous across multiple projects. Top match was {top.projectId} because " ++
      s!"{top.reason}."
  else if controlAction && !autoRouteAllowed top true then
    s!"Matched {top.projectId} because {top.reason}, but this looks like a control action and " ++
      "requires confirmation."
  else s!"Selected {top.projectId} because {top.reason}."

/-- The order of the candidates: the higher score first, and the smaller id among equals. -/
def Better (left right : ProjectRoutingCandidate) : Prop :=
  right.score < left.score ∨ right.score = left.score ∧ left.projectId ≤ right.projectId

instance : DecidableRel Better := fun _ _ => inferInstanceAs (Decidable (_ ∨ _))

/-- The projects that are not archived. -/
def LoadedRegistry.active (registry : LoadedRegistry) : List RegisteredProject :=
  registry.projects.filter fun project => !project.policyFlags.archived

/-- The answer if there is one project to choose from. -/
def onlyProject (project : RegisteredProject) (controlAction : Bool) : ProjectRoutingDecision :=
  { selectedProjectId := some project.projectId
    requiresConfirmation := controlAction
    confidence := if controlAction then .medium else .high
    reason :=
      if controlAction then
        s!"Only one registered project exists ({project.projectId}), but this looks like a " ++
          "control action and should be confirmed."
      else s!"Selected {project.projectId} because it is the only registered project."
    candidates := [⟨project.projectId, "only registered project", 100⟩] }

/-- The answer from the candidates in order. -/
def decideAmong (candidates : List ProjectRoutingCandidate) (controlAction : Bool) :
    ProjectRoutingDecision :=
  match candidates with
  | [] =>
    { selectedProjectId := none
      requiresConfirmation := true
      confidence := .low
      reason := "Message did not identify a project with high confidence. Ask the user to " ++
        "choose a projectId."
      candidates := [] }
  | top :: rest =>
    let ambiguous := rest.head?.any fun second => top.score ≤ second.score + 10
    { selectedProjectId := if ambiguous then none else some top.projectId
      requiresConfirmation := ambiguous || !autoRouteAllowed top controlAction
      confidence := routingConfidence top.score
      reason := routingReason top ambiguous controlAction
      candidates := top :: rest }

def LoadedRegistry.candidates (registry : LoadedRegistry) (routingState : ProjectRoutingState)
    (request : ProjectRoutingRequest) : List ProjectRoutingCandidate :=
  (registry.active.filterMap (scoreProject routingState request)).insertionSort Better

/-- The registry must load; a routing state that does not load is taken to be empty. -/
def resolveProjectForMessageAt (registry : Except String LoadedRegistry)
    (routingState : Except String ProjectRoutingState) (request : ProjectRoutingRequest) :
    Except String ProjectRoutingDecision := do
  let registry ← registry
  let routingState := routingState.toOption.getD {}
  match registry.active with
  | [] => pure {
      selectedProjectId := none
      requiresConfirmation := true
      confidence := .low
      reason := "No active projects are registered."
      candidates := [] }
  | [project] => pure (onlyProject project (looksLikeControlAction request))
  | _ => pure (decideAmong (registry.candidates routingState request)
      (looksLikeControlAction request))

end Projects

end Batty
