import Batty.Shim.Announcements
import Batty.Shim.Retests
import Batty.Shim.Writes

/-!
# Completions

The daemon closes the turn of a message when the completion with the id of the message comes in.
A turn takes its id along from the write of the message to the completion; on the way the id may
be dropped, and turns that the daemon did not ask for end with a completion as well.

* `CompletesOnce`: at rest, every message that was written has its completion, but for the one
  whose turn is open, and there are no more completions than messages.
* `turnsAccount`: a weight that a turn carries from its message to its completion.
* `completesOnce_of_reports`: completions are right in every run whose steps lose no id and begin
  no turn without a message.
-/

namespace Batty

/-! ### What is counted -/

def ShimEvent.isCompletion : ShimEvent String → Bool
  | .completion _ => true
  | _ => false

namespace RuntimeName

variable (name : RuntimeName)

def completed (shim : name.runtime.Shim) (id : String) : Nat :=
  shim.sent.count (.completion (some id))

/-- One if the turn of a message with the id is open. -/
def openTurns (st : name.runtime.State) (id : String) : Nat :=
  if name.runtime.state st = .working ∧ name.pendingMessageId st = some id then 1 else 0

/-- **One completion a message**: at rest a message was completed as often as written, but for a
turn that is open, and there are no other completions. -/
structure CompletesOnce (shim : name.runtime.Shim) (id : String) : Prop where
  once : Runtime.AtRest shim → (name.runtime.state shim.shared).isTerminal = false →
    name.completed shim id + name.openTurns shim.shared id = Runtime.injected shim id
  noOther : Runtime.AtRest shim →
    shim.sent.countP ShimEvent.isCompletion ≤ (shim.written.filterMap AgentLine.message?).length

end RuntimeName

/-! ### The account of the turns -/

section

variable {State Input Kind Point : Type} {weight : Option String → ℤ} {ofState : State → ℤ}
  {ofPoint : Point → ℤ}

/-- What a turn carries from its message to its completion. -/
def turnsAccount (weight : Option String → ℤ) (ofState : State → ℤ) (ofPoint : Point → ℤ) :
    Accounting State Input Point AgentLine (ShimEvent String) where
  ofState := ofState
  ofInput _ := 0
  ofPoint := ofPoint
  ofLine line := (line.message?.map fun message => - weight message.messageId).getD 0
  ofEvent
    | .completion messageId => weight messageId
    | _ => 0

/-- Only the write of a message has to succeed. -/
def AgentLine.IsOther (line : AgentLine) : Prop := line.message? = none

abbrev TurnsAccount (State Input Point : Type) :=
  Accounting State Input Point AgentLine (ShimEvent String)

/-- A section loses nothing of a turn where `Exact`, and brings about nothing. -/
structure KeepsTurns (account : Accounting State Input Point AgentLine (ShimEvent String))
    (Exact : Prop) (before : ℤ) (result : State × List (ShimAct Kind Point)) : Prop where
  le : account.ofState result.1 + account.ofActs result.2 ≤ before
  exact : Exact → account.ofState result.1 + account.ofActs result.2 = before
  balanced : account.Balanced AgentLine.IsOther result.2

theorem KeepsTurns.mono {account : Accounting State Input Point AgentLine (ShimEvent String)}
    {Exact Exact' : Prop} {before : ℤ} {result : State × List (ShimAct Kind Point)}
    (h : KeepsTurns account Exact before result) (hexact : Exact' → Exact) :
    KeepsTurns account Exact' before result :=
  ⟨h.le, fun hexact' => h.exact (hexact hexact'), h.balanced⟩

theorem keepsTurns_of_eq {account : Accounting State Input Point AgentLine (ShimEvent String)}
    {Exact : Prop} {before : ℤ} {result : State × List (ShimAct Kind Point)}
    (h : account.ofState result.1 + account.ofActs result.2 = before)
    (hbalanced : account.Balanced AgentLine.IsOther result.2) :
    KeepsTurns account Exact before result :=
  ⟨h.le, fun _ => h, hbalanced⟩

theorem ofActs_uncompleted {Input : Type} {events : List (ShimEvent String)}
    {acts : List (ShimAct Kind Point)} (h : ∀ event ∈ events, event.isCompletion = false) :
    (turnsAccount weight ofState ofPoint : TurnsAccount State Input Point).ofActs
        (events.map .send ++ acts) =
      (turnsAccount weight ofState ofPoint : TurnsAccount State Input Point).ofActs acts := by
  rw [ofActs_sends, List.sum_eq_zero, zero_add]
  intro n hn
  obtain ⟨event, hmem, rfl⟩ := List.mem_map.mp hn
  cases event with
  | completion messageId => exact nomatch h _ hmem
  | _ => rfl

/-- A section that ends with events other than completions. -/
theorem keepsTurns_events {Input : Type} {Exact : Prop} {before : ℤ} {after : State}
    {events : List (ShimEvent String)} {rest : List (ShimAct Kind Point)}
    (hrest : rest = [] ∨ rest = [.stop])
    (hevents : ∀ event ∈ events, event.isCompletion = false) (hle : ofState after ≤ before)
    (hexact : Exact → ofState after = before) :
    KeepsTurns (turnsAccount weight ofState ofPoint : TurnsAccount State Input Point) Exact before
      (after, events.map .send ++ rest) := by
  have hacts : (turnsAccount weight ofState ofPoint : TurnsAccount State Input Point).ofActs
      (events.map .send ++ rest) = 0 := by
    rw [ofActs_uncompleted hevents]
    rcases hrest with rfl | rfl <;> rfl
  refine ⟨?_, fun h => ?_, (balanced_sends _ _).mpr (by rcases hrest with rfl | rfl <;> trivial)⟩
  · rw [hacts, add_zero]
    exact hle
  · rw [hacts, add_zero]
    exact hexact h

/-- A section that says nothing and leaves the turn as it is. -/
theorem keepsTurns_quiet {Input : Type} {Exact : Prop} {before : ℤ} {after : State}
    {rest : List (ShimAct Kind Point)} (hrest : rest = [] ∨ rest = [.stop])
    (h : ofState after = before) :
    KeepsTurns (turnsAccount weight ofState ofPoint : TurnsAccount State Input Point) Exact before
      (after, rest) := by
  have hkeeps : KeepsTurns (turnsAccount weight ofState ofPoint : TurnsAccount State Input Point)
      Exact before (after, ([] : List (ShimEvent String)).map .send ++ rest) :=
    keepsTurns_events hrest nofun h.le fun _ => h
  exact hkeeps

/-- A section that only sends events other than completions. -/
theorem keepsTurns_sends {Input : Type} {Exact : Prop} {before : ℤ} {after : State}
    {events : List (ShimEvent String)}
    (hevents : ∀ event ∈ events, event.isCompletion = false) (hle : ofState after ≤ before)
    (hexact : Exact → ofState after = before) :
    KeepsTurns (turnsAccount weight ofState ofPoint : TurnsAccount State Input Point) Exact before
      (after, (events.map .send : List (ShimAct Kind Point))) := by
  have hkeeps : KeepsTurns (turnsAccount weight ofState ofPoint : TurnsAccount State Input Point)
      Exact before (after, (events.map .send ++ [] : List (ShimAct Kind Point))) :=
    keepsTurns_events (.inl rfl) hevents hle hexact
  rwa [List.append_nil] at hkeeps

end

/-! ### Runs -/

section

variable {State Input Kind Point : Type}
  {machine : Machine State Input Kind Point AgentLine (ShimEvent String)}
  {account : (Option String → ℤ) → TurnsAccount State Input Point} {Live : State → Prop}
  {world : ShimWorld State Input Kind Point} {turn : Turn Input}

/-- A turn without an id weighs least. -/
structure Weighs (weight : Option String → ℤ) : Prop where
  nonneg : 0 ≤ weight none
  least : ∀ messageId, weight none ≤ weight messageId

theorem weighs_carries (id : String) : Weighs (carries id) where
  nonneg := carries_nonneg none
  least := carries_nonneg

theorem weighs_one : Weighs fun _ => 1 where
  nonneg := by decide
  least _ := le_rfl

/-- No more has come of the turns than has gone into them, and while the agent lives no less. -/
structure TurnsSettled (account : (Option String → ℤ) → TurnsAccount State Input Point)
    (Live : State → Prop) (world : ShimWorld State Input Kind Point) : Prop where
  balanced : ∀ weight, Weighs weight → ∀ thread ∈ world.threads, ∀ acts ∈ thread.acts,
    (account weight).Balanced AgentLine.IsOther acts
  le : ∀ weight, Weighs weight → (account weight).total world ≤ 0
  exact : ∀ weight, Weighs weight → weight none = 0 → Live world.shared →
    (account weight).total world = 0

/-- Sections that keep the turns settle them. -/
theorem TurnsSettled.step (h : TurnsSettled account Live world)
    (hfailure : Accounting.AllowsFailure AgentLine.IsOther world turn)
    (hlive : Live (world.step machine turn).shared → Live world.shared)
    (hreceive : ∀ {i input kind}, turn = .receive i input →
      world.threads[i]? = some ⟨kind, some []⟩ → machine.accepts kind input world.shared = true →
      ∀ weight, Weighs weight →
        KeepsTurns (account weight)
          (weight none = 0 ∧ Live (machine.receive kind input world.shared).1)
          ((account weight).ofState world.shared) (machine.receive kind input world.shared))
    (hresume : ∀ {i succeeds kind point rest}, turn = .go i succeeds →
      world.threads[i]? = some ⟨kind, some (.lock point :: rest)⟩ →
      ∀ weight, Weighs weight →
        KeepsTurns (account weight)
          (weight none = 0 ∧ Live (machine.resume point world.shared).1)
          ((account weight).ofState world.shared + (account weight).ofPoint point)
          (machine.resume point world.shared)) :
    TurnsSettled account Live (world.step machine turn) := by
  have htallies : ∀ weight, Weighs weight →
      Accounting.Tallies (account weight) machine world (world.step machine turn) turn :=
    fun weight hweight => Accounting.tallies_step (h.balanced weight hweight) hfailure
  refine ⟨fun weight hweight => ?_, fun weight hweight => ?_, fun weight hweight hnone hafter => ?_⟩
  · exact Accounting.balanced_step (h.balanced weight hweight)
      (fun hturn hget haccepts => (hreceive hturn hget haccepts weight hweight).balanced)
      fun hturn hget => (hresume hturn hget weight hweight).balanced
  · have hle := h.le weight hweight
    cases htallies weight hweight with
    | same hshared hreceived hsame => rwa [hsame]
    | receive input hget haccepts hshared hreceived hsum =>
      have hkeeps := (hreceive rfl hget haccepts weight hweight).le
      omega
    | resume point hget hshared hreceived hsum =>
      have hkeeps := (hresume rfl hget weight hweight).le
      omega
  · have hexact := h.exact weight hweight hnone (hlive hafter)
    cases htallies weight hweight with
    | same hshared hreceived hsame => rwa [hsame]
    | receive input hget haccepts hshared hreceived hsum =>
      rw [hshared] at hafter
      have hkeeps := (hreceive rfl hget haccepts weight hweight).exact ⟨hnone, hafter⟩
      omega
    | resume point hget hshared hreceived hsum =>
      rw [hshared] at hafter
      have hkeeps := (hresume rfl hget weight hweight).exact ⟨hnone, hafter⟩
      omega

end

/-- A turn of the shim's threads that loses no id and begins nothing by itself. -/
def Runtime.ReportsTurn (runtime : Runtime) (Reports : runtime.State → runtime.Input → Prop)
    (ReportsPoint : runtime.State → runtime.Point → Prop) (shim : runtime.Shim) :
    Turn runtime.Input → Prop
  | .receive i input => ∀ kind, shim.threads[i]? = some ⟨kind, some []⟩ →
    runtime.machine.accepts kind input shim.shared = true → Reports shim.shared input
  | .go i succeeds => (∀ kind message failed rest,
      shim.threads[i]? = some ⟨kind, some (.write (.message message) failed :: rest)⟩ →
      succeeds = true) ∧
    ∀ kind point rest, shim.threads[i]? = some ⟨kind, some (.lock point :: rest)⟩ →
      ReportsPoint shim.shared point

theorem allowsFailure_of_reports {runtime : Runtime}
    {Reports : runtime.State → runtime.Input → Prop}
    {ReportsPoint : runtime.State → runtime.Point → Prop} {shim : runtime.Shim}
    {turn : Turn runtime.Input} (h : runtime.ReportsTurn Reports ReportsPoint shim turn) :
    Accounting.AllowsFailure AgentLine.IsOther shim turn := by
  cases turn with
  | receive i input => trivial
  | go i succeeds =>
    intro kind line failed rest hget hfails
    cases line with
    | message message =>
      have hsucceeds := h.1 kind message failed rest hget
      rw [hfails] at hsucceeds
      cases hsucceeds
    | process message => rfl
    | followup body => rfl
    | keepalive => rfl

/-! ### Events that complete nothing -/

theorem uncompleted_queueMessage (queue : List QueuedMessage) (message : QueuedMessage) :
    ∀ event ∈ (queueMessage queue message).2, event.isCompletion = false := by
  unfold queueMessage
  split <;> simp [ShimEvent.isCompletion]

/-- A change of state together with the errors for the messages that it drops. -/
theorem uncompleted_dropped (source target : ShimState) (queue : List QueuedMessage)
    (terminalState : ShimState) :
    ∀ event ∈ .stateChanged source target :: drainQueueErrors queue terminalState,
      event.isCompletion = false := by
  simp [drainQueueErrors, ShimEvent.isCompletion]

/-! ### The Claude runtime -/

namespace SdkState

/-- No keepalive is sent, and an answer is sent back for failing tests only if its turn carries no
id. -/
def Reports (st : SdkState) : SdkInput → Prop
  | .commandTimeout due => due = true → st.state = .idle → st.sessionId.isEmpty = true
  | .result result errors _ => st.turnInFlight = true → reportsExhaustion result errors = false →
    detectTestFailure (st.response result) = true → st.pendingMessageId = none
  | _ => True

/-- An idle shim has no message pending. -/
def Rests (st : SdkState) : Prop :=
  st.state = .idle ∨ st.state = .starting → st.pendingMessageId = none

variable {weight : Option String → ℤ} {st : SdkState}

def turns (weight : Option String → ℤ) (st : SdkState) : ℤ :=
  if st.turnInFlight then weight st.pendingMessageId else 0

def account (weight : Option String → ℤ) : TurnsAccount SdkState SdkInput SdkPoint :=
  turnsAccount weight (turns weight) fun _ => 0

theorem turns_working (h : st.state = .working) : st.turns weight = weight st.pendingMessageId := by
  simp [turns, turnInFlight, h]

theorem turns_idle (hrests : st.Rests) (h : st.state = .idle) : st.turns weight = 0 := by
  simp [turns, turnInFlight, h, hrests (.inl h)]

theorem not_sends_keepalive {due : Bool} (h : st.Reports (.commandTimeout due)) :
    st.maybeSendKeepalive due = (st, []) := by
  unfold maybeSendKeepalive
  refine if_neg fun hdue => ?_
  simp only [Bool.and_eq_true, decide_eq_true_eq, Bool.not_eq_true'] at hdue
  have hsession := h hdue.1.1.1 hdue.1.1.2
  rw [hdue.1.2] at hsession
  cases hsession

@[simp] theorem noteSession_pendingMessageId (sessionId : Option String) :
    (st.noteSession sessionId).pendingMessageId = st.pendingMessageId := by
  unfold noteSession
  split <;> rfl

theorem turns_noteSession (sessionId : Option String) :
    (st.noteSession sessionId).turns weight = st.turns weight := by
  simp [turns, turnInFlight]

/-- The context is used up or the process is gone: the turn keeps its id, if it has one. -/
theorem turns_ended {state : ShimState} {messageQueue : List QueuedMessage}
    (hweight : 0 ≤ weight none) (hstate : state ≠ .working) :
    ({ st with state, messageQueue } : SdkState).turns weight ≤ st.turns weight ∧
      (weight none = 0 →
        ({ st with state, messageQueue } : SdkState).turns weight = st.turns weight) := by
  cases hpending : st.pendingMessageId with
  | some id => simp [turns, turnInFlight, hpending]
  | none =>
    by_cases hworking : st.state = .working <;>
      simp [turns, turnInFlight, hpending, hstate, hworking, hweight, eq_comm]

theorem keepsTurns_sendMessage (hrests : st.Rests) (message : QueuedMessage) {Exact : Prop} :
    KeepsTurns (account weight) Exact (st.turns weight) (st.sendMessage message) := by
  unfold sendMessage
  split
  · rename_i hstate
    have hidle : st.turns weight = 0 := turns_idle hrests hstate
    rw [hidle]
    obtain ⟨sender, body, messageId⟩ := message
    cases messageId with
    | none =>
      refine keepsTurns_of_eq ?_ ⟨by rintro ⟨⟩, trivial⟩
      simp [account, turnsAccount, answerWith, Accounting.ofActs, turns, turnInFlight,
        AgentLine.message?]
    | some id =>
      refine keepsTurns_of_eq ?_ ⟨by rintro ⟨⟩, trivial⟩
      simp [account, turnsAccount, answerWith, Accounting.ofActs, turns, turnInFlight,
        AgentLine.message?]
  · exact keepsTurns_sends (uncompleted_queueMessage _ _) le_rfl fun _ => rfl
  · have hrefused : ∀ event ∈ [refusal st.state], event.isCompletion = false := by
      simp [refusal, ShimEvent.isCompletion]
    exact keepsTurns_sends hrefused le_rfl fun _ => rfl

theorem keepsTurns_completeTurn (old : ShimState) {before : ℤ} {Exact : Prop}
    (hbefore : before = weight st.pendingMessageId) :
    KeepsTurns (account weight) Exact before
      (st.completeTurn.1, announceCompletion old st.pendingMessageId st.completeTurn.2) := by
  subst hbefore
  unfold completeTurn
  split
  · refine keepsTurns_of_eq ?_ trivial
    simp [account, turnsAccount, announceCompletion, Accounting.ofActs, turns, turnInFlight]
  · refine keepsTurns_of_eq ?_ ⟨by rintro ⟨⟩, trivial⟩
    simp [account, turnsAccount, announceCompletion, Accounting.ofActs, turns, turnInFlight,
      AgentLine.message?]

theorem keepsTurns_result {result : Option String} {errors : Option (List String)}
    {sessionId : Option String} (hweight : 0 ≤ weight none)
    (h : st.Reports (.result result errors sessionId)) :
    KeepsTurns (account weight) (weight none = 0) (st.turns weight)
      (st.result result errors sessionId) := by
  unfold SdkState.result
  by_cases hturn : (!st.turnInFlight) = true
  · rw [if_pos hturn]
    exact keepsTurns_quiet (.inl rfl) rfl
  · have hinFlight : st.turnInFlight = true := by simpa using hturn
    have hturns : st.turns weight = weight st.pendingMessageId := by
      unfold turns
      rw [if_pos hinFlight]
    rw [if_neg hturn]
    dsimp only
    by_cases hexhausted : reportsExhaustion result errors = true
    · rw [if_pos hexhausted, ← turns_noteSession sessionId]
      obtain ⟨hle, hexact⟩ := @turns_ended weight (st.noteSession sessionId) .contextExhausted []
        hweight (by decide)
      exact keepsTurns_sends (uncompleted_dropped _ _ _ _) hle hexact
    · rw [if_neg hexhausted, noteSession_response, noteSession_testFailureIterations]
      split
      · rename_i followup hfollowup
        have hpending : st.pendingMessageId = none := by
          refine h hinFlight (by simpa using hexhausted) ?_
          by_contra hpass
          rw [Bool.not_eq_true, ← detect_eq_none_iff, hfollowup] at hpass
          cases hpass
        refine keepsTurns_of_eq ?_ ⟨fun _ => rfl, trivial⟩
        rw [hturns, hpending]
        simp [account, turnsAccount, Accounting.ofActs, turns, turnInFlight, AgentLine.message?]
      · have hcomplete := @keepsTurns_completeTurn weight
          { st.noteSession sessionId with accumulatedResponse := "", testFailureIterations := 0 }
          (st.noteSession sessionId).state _ (weight none = 0) rfl
        rw [hturns, ← noteSession_pendingMessageId sessionId]
        exact hcomplete

theorem keepsTurns_streamEvent (text : String) (sessionId : Option String) {Exact : Prop} :
    KeepsTurns (account weight) Exact (st.turns weight) (st.streamEvent text sessionId) := by
  unfold streamEvent
  split
  · exact keepsTurns_quiet (.inl rfl) rfl
  · exact keepsTurns_quiet (.inl rfl) (turns_noteSession sessionId)

theorem keepsTurns_receive (kind : SdkKind) {input : SdkInput} (hweight : 0 ≤ weight none)
    (hrests : st.Rests) (h : st.Reports input) :
    KeepsTurns (account weight) (weight none = 0) (st.turns weight) (receive kind input st) := by
  unfold receive
  split
  · exact keepsTurns_sendMessage hrests _
  · rw [not_sends_keepalive h]
    exact keepsTurns_quiet (.inl rfl) rfl
  · exact keepsTurns_quiet (.inr rfl) rfl
  · unfold assistant
    split
    · exact keepsTurns_quiet (.inl rfl) rfl
    · exact keepsTurns_streamEvent _ _
  · exact keepsTurns_streamEvent _ _
  · exact keepsTurns_result hweight h
  · unfold forceStalledCompletion
    split
    · rename_i hstate
      exact keepsTurns_completeTurn _ (turns_working hstate)
    · exact keepsTurns_quiet (.inl rfl) rfl
  · obtain ⟨hle, hexact⟩ := @turns_ended weight st .dead [] hweight (by decide)
    exact keepsTurns_events (.inr rfl) (uncompleted_dropped _ _ _ _) hle hexact
  · exact keepsTurns_quiet (.inl rfl) rfl

theorem rests_streamEvent (hrests : st.Rests) (text : String) (sessionId : Option String) :
    (st.streamEvent text sessionId).1.Rests := by
  unfold streamEvent
  split
  · exact hrests
  · simpa [Rests] using hrests

theorem rests_completeTurn : st.completeTurn.1.Rests := by
  unfold completeTurn
  split
  · exact fun _ => rfl
  · exact nofun

theorem rests_result {result : Option String} {errors : Option (List String)}
    {sessionId : Option String} (hrests : st.Rests) :
    (st.result result errors sessionId).1.Rests := by
  unfold SdkState.result
  split
  · exact hrests
  · dsimp only
    split
    · exact nofun
    · split
      · exact nofun
      · exact rests_completeTurn

/-- The agent goes back to idle only without a message. -/
theorem rests_receive (kind : SdkKind) {input : SdkInput} (hrests : st.Rests)
    (h : st.Reports input) : (receive kind input st).1.Rests := by
  unfold receive
  split
  · unfold sendMessage
    split
    · exact nofun
    · exact hrests
    · exact hrests
  · rw [not_sends_keepalive h]
    exact hrests
  · exact hrests
  · unfold assistant
    split
    · exact hrests
    · exact rests_streamEvent hrests _ _
  · exact rests_streamEvent hrests _ _
  · exact rests_result hrests
  · unfold forceStalledCompletion
    split
    · exact rests_completeTurn
    · exact hrests
  · exact nofun
  · exact hrests

variable {shim : SdkShim} {turn : Turn SdkInput}

/-- The invariant of the SDK: turns are settled, and no act leads to another section. -/
structure Inv (shim : SdkShim) : Prop where
  settled : TurnsSettled account (fun _ => True) shim
  rests : shim.shared.Rests
  noLock : shim.EveryAct fun act => act.leadsToLock = false

theorem Inv.not_lock (h : Inv shim) {i : Nat} {kind : SdkKind} {point : SdkPoint}
    {rest : List (ShimAct SdkKind SdkPoint)} :
    shim.threads[i]? ≠ some ⟨kind, some (.lock point :: rest)⟩ := fun hget =>
  Bool.noConfusion (h.noLock _ (List.mem_of_getElem? hget) _ rfl _ List.mem_cons_self)

theorem Inv.step (h : Inv shim)
    (hallows : runSdk.ReportsTurn Reports (fun _ _ => True) shim turn) :
    Inv (shim.step machine turn) := by
  refine ⟨?_, ?_, ?_⟩
  · refine h.settled.step (allowsFailure_of_reports hallows) (fun _ => trivial) ?_ ?_
    · rintro i input kind rfl hget haccepts weight hweight
      exact (keepsTurns_receive kind hweight.nonneg h.rests (hallows kind hget haccepts)).mono
        And.left
    · intro i succeeds kind point rest _ hget
      exact absurd hget h.not_lock
  · refine World.step_shared h.rests ?_ ?_
    · rintro i input kind rfl hget haccepts
      exact rests_receive kind h.rests (hallows kind hget haccepts)
    · intro i succeeds kind point rest _ hget
      exact absurd hget h.not_lock
  · refine h.noLock.step (fun _ => id) ?_ ?_ ?_ ?_
    · rintro i input kind rfl hget haccepts
      refine leadsToLock_of_noKeepalive ?_
      rintro due rfl
      rw [not_sends_keepalive (hallows kind hget haccepts)]
    · intro i succeeds kind point rest _ hget
      exact absurd hget h.not_lock
    · intro line failed hwrite
      refine leadsToLock_failedActs ?_
      simpa using hwrite
    · exact fun hfork => ⟨hfork, rfl⟩

theorem inv_start : Inv runSdk.start where
  settled := {
    balanced := fun weight _ thread hmem acts hacts => by
      rcases List.mem_pair.mp hmem with rfl | rfl <;> obtain rfl := Option.some.inj hacts <;>
        trivial
    le := fun weight _ => le_of_eq rfl
    exact := fun weight _ _ _ => rfl }
  rests := fun _ => rfl
  noLock := fun thread hmem acts hacts act hact => by
    rcases List.mem_pair.mp hmem with rfl | rfl <;> obtain rfl := Option.some.inj hacts <;>
      cases hact

end SdkState

/-! ### The terminal runtime -/

namespace ShimInner

/-- A turn ends with its completion: one that is sent back for failing tests carries no id and
began on a screen with something on it, as does one that carries an id. -/
def ReportsTurnEnd (inner : ShimInner) (screen : Screen) : Prop :=
  if detectTestFailure screen.response then
    inner.pendingMessageId = none ∧
      (inner.preInjectionContent.isEmpty = true → screen.contents.isEmpty = true)
  else inner.preInjectionContent.isEmpty = true → inner.pendingMessageId = none

/-- Every turn with an id ends at the hands of the reader or of the idle thread, and the agent does
not go to work by itself after the first message. -/
def Reports (inner : ShimInner) : PtyInput → Prop
  | .output screen dwelt =>
    (!inner.contextApproachingEmitted && detectContextApproachingLimit screen.contents) = false →
      (inner.state = .working → inner.newState screen.verdict dwelt = some .idle →
        inner.ReportsTurnEnd screen) ∧
      (inner.newState screen.verdict dwelt = some .working →
        inner.preInjectionContent.isEmpty = true)
  | .settled screen => inner.agentType = .kiro → inner.state = .working →
    screen.verdict = .agentIdle → inner.ReportsTurnEnd screen
  | .polled screen => inner.state = .working → screen.verdict = .agentIdle →
    inner.pendingMessageId = none
  | _ => True

/-- Nothing has come between the two sections of a delivery. -/
def ReportsPoint (inner : ShimInner) : PtyPoint → Prop
  | .injected messageId => inner.state = .idle ∧ inner.pendingMessageId = messageId

def Live (inner : ShimInner) : Prop := inner.state.isTerminal = false

variable {weight : Option String → ℤ} {inner : ShimInner}

/-- A turn that began on an empty screen has no completion to come, and weighs as if its id were
all there is to it. -/
def turns (weight : Option String → ℤ) (inner : ShimInner) : ℤ :=
  if inner.state = .working then
    weight inner.pendingMessageId - if inner.preInjectionContent.isEmpty then weight none else 0
  else 0

def account (weight : Option String → ℤ) : TurnsAccount ShimInner PtyInput PtyPoint :=
  turnsAccount weight (turns weight) fun | .injected messageId => weight messageId

theorem turns_nonneg (hweight : Weighs weight) : 0 ≤ inner.turns weight := by
  have hleast := hweight.least inner.pendingMessageId
  have hnonneg := hweight.nonneg
  unfold turns
  split
  · split <;> omega
  · exact le_rfl

theorem turns_of_not_working (h : inner.state ≠ .working) : inner.turns weight = 0 := if_neg h

theorem keepsTurns_sendMessage (message : QueuedMessage) (contents : String) {Exact : Prop} :
    KeepsTurns (account weight) Exact (inner.turns weight)
      (inner.sendMessage message contents) := by
  unfold sendMessage
  split
  · rename_i hstate
    refine keepsTurns_of_eq ?_ ⟨nofun, trivial⟩
    simp [account, turnsAccount, Accounting.ofActs, turns, hstate, AgentLine.message?]
  · exact keepsTurns_sends (uncompleted_queueMessage _ _) le_rfl fun _ => rfl
  · have hrefused : ∀ event ∈ [refusal inner.state], event.isCompletion = false := by
      simp [refusal, ShimEvent.isCompletion]
    exact keepsTurns_sends hrefused le_rfl fun _ => rfl

theorem keepsTurns_injected (hweight : Weighs weight) {point : PtyPoint}
    (h : inner.ReportsPoint point) :
    KeepsTurns (account weight) (weight none = 0)
      (inner.turns weight + (account weight).ofPoint point) (machine.resume point inner) := by
  obtain ⟨messageId⟩ := point
  obtain ⟨hstate, rfl⟩ := h
  have hbefore : inner.turns weight = 0 := turns_of_not_working (by rw [hstate]; decide)
  have hpoint : (account weight).ofPoint (.injected inner.pendingMessageId) =
      weight inner.pendingMessageId := rfl
  have hafter : ({ inner with state := .working } : ShimInner).turns weight =
      weight inner.pendingMessageId -
        if inner.preInjectionContent.isEmpty then weight none else 0 := if_pos rfl
  have hnonneg := hweight.nonneg
  have hevents : ∀ event ∈ answerWith ShimEvent.messageDelivered inner.pendingMessageId ++
      [.stateChanged inner.state .working], event.isCompletion = false := by
    cases inner.pendingMessageId <;> simp [answerWith, ShimEvent.isCompletion]
  change KeepsTurns (account weight) (weight none = 0) _ (inner.injected inner.pendingMessageId)
  rw [injected, ← List.map_singleton, ← List.map_append, hbefore, hpoint, zero_add]
  refine keepsTurns_sends hevents ?_ fun hnone => ?_ <;> rw [hafter]
  · split <;> omega
  · simp [hnone]

/-- Failing tests, and the turn goes on. -/
theorem keepsTurns_followup (hweight : Weighs weight) {screen : Screen}
    {failed : List (ShimEvent String)} {followup : TestFailureFollowup}
    (hstate : inner.state = .working) (hpending : inner.pendingMessageId = none)
    (hcontents : inner.preInjectionContent.isEmpty = true → screen.contents.isEmpty = true)
    (hfollowup : detectTestFailureFollowup screen.response inner.testFailureIterations =
      some followup) :
    KeepsTurns (account weight) (weight none = 0) (inner.turns weight)
      (inner.completeTurn screen failed) := by
  have hnonneg := hweight.nonneg
  unfold completeTurn
  rw [hfollowup]
  refine ⟨?_, fun hnone => ?_, ⟨fun _ => rfl, trivial⟩⟩
  · simp only [account, turnsAccount, Accounting.ofActs, turns, hstate, hpending,
      AgentLine.message?, if_true]
    by_cases hpre : inner.preInjectionContent.isEmpty = true
    · simp [hpre, hcontents hpre]
    · simp only [hpre]
      split <;> simp [hnonneg]
  · simp [account, turnsAccount, Accounting.ofActs, turns, hstate, hpending, AgentLine.message?,
      hnone]

/-- A turn that weighs anything has its completion among the events at its end. -/
theorem ofActs_buildTransitionEvents (hstate : inner.state = .working)
    (hpending : inner.preInjectionContent.isEmpty = true → inner.pendingMessageId = none)
    (acts : List (ShimAct PtyKind PtyPoint)) :
    (account weight).ofActs ((inner.buildTransitionEvents .working .idle).map .send ++ acts) =
      inner.turns weight + (account weight).ofActs acts := by
  rw [ofActs_sends]
  by_cases hpre : inner.preInjectionContent.isEmpty = true
  · simp [buildTransitionEvents, turns, account, turnsAccount, hstate, hpre, hpending hpre]
  · simp [buildTransitionEvents, turns, account, turnsAccount, hstate, hpre]

theorem keepsTurns_turnOver (hweight : Weighs weight) {screen : Screen}
    {failed : List (ShimEvent String)} (hstate : inner.state = .working)
    (hpending : inner.preInjectionContent.isEmpty = true → inner.pendingMessageId = none)
    (hfollowup : detectTestFailureFollowup screen.response inner.testFailureIterations = none) :
    KeepsTurns (account weight) (weight none = 0) (inner.turns weight)
      (inner.completeTurn screen failed) := by
  have hnonneg := hweight.nonneg
  unfold completeTurn
  rw [hfollowup]
  dsimp only
  split
  · rw [← List.append_nil ((inner.buildTransitionEvents .working .idle).map Act.send)]
    refine keepsTurns_of_eq ?_ ((balanced_sends _ _).mpr trivial)
    dsimp only
    rw [ofActs_buildTransitionEvents hstate hpending]
    simp [account, turnsAccount, turns, Accounting.ofActs]
  · rename_i message messageQueue hqueue
    refine ⟨?_, fun hnone => ?_, (balanced_sends _ _).mpr ⟨by rintro ⟨⟩, trivial⟩⟩
    · dsimp only
      rw [ofActs_buildTransitionEvents hstate hpending]
      simp only [account, turnsAccount, turns, Accounting.ofActs, AgentLine.message?, if_true,
        Option.map_some, Option.getD_some]
      split <;> omega
    · dsimp only
      rw [ofActs_buildTransitionEvents hstate hpending]
      simp [account, turnsAccount, turns, Accounting.ofActs, AgentLine.message?, hnone]

theorem keepsTurns_completeTurn (hweight : Weighs weight) {screen : Screen}
    {failed : List (ShimEvent String)} (hstate : inner.state = .working)
    (h : inner.ReportsTurnEnd screen) :
    KeepsTurns (account weight) (weight none = 0) (inner.turns weight)
      (inner.completeTurn screen failed) := by
  unfold ReportsTurnEnd at h
  cases hfollowup : detectTestFailureFollowup screen.response inner.testFailureIterations with
  | none =>
    rw [detect_eq_none_iff.mp hfollowup] at h
    exact keepsTurns_turnOver hweight hstate (by simpa using h) hfollowup
  | some followup =>
    have hdetect : detectTestFailure screen.response = true := by
      by_contra hpass
      rw [Bool.not_eq_true, ← detect_eq_none_iff, hfollowup] at hpass
      cases hpass
    rw [if_pos hdetect] at h
    exact keepsTurns_followup hweight hstate h.1 h.2 hfollowup

theorem newState_cases {verdict : ScreenVerdict} {dwelt : Bool} {new : ShimState}
    (h : inner.newState verdict dwelt = some new) :
    new = .contextExhausted ∨ new = .idle ∧ (inner.state = .working ∨ inner.state = .starting) ∨
      new = .working ∧ (inner.state = .idle ∨ inner.state = .starting) := by
  unfold newState at h
  split at h
  · simp_all
  · split at h <;> simp_all
  · simp_all
  · rename_i hstate
    exact .inr (.inr ⟨(Option.some.inj h).symm, .inl hstate⟩)
  · rename_i hstate
    exact .inr (.inr ⟨(Option.some.inj h).symm, .inr hstate⟩)
  · cases h

/-- A transition that neither completes a turn nor opens one that weighs. -/
theorem turns_transition {new : ShimState} {messageQueue : List QueuedMessage}
    (hweight : Weighs weight)
    (hcases : new = .contextExhausted ∨ inner.state ≠ .working ∧
      (new = .working → inner.preInjectionContent.isEmpty = true)) :
    ({ inner with state := new, pendingMessageId := none, messageQueue } : ShimInner).turns weight ≤
        inner.turns weight ∧
      (new ≠ .contextExhausted →
        ({ inner with state := new, pendingMessageId := none, messageQueue } : ShimInner).turns
          weight = inner.turns weight) := by
  rcases hcases with rfl | ⟨hstate, hempty⟩
  · rw [turns_of_not_working (by simp)]
    exact ⟨turns_nonneg hweight, fun h => absurd rfl h⟩
  · have hafter : ({ inner with state := new, pendingMessageId := none, messageQueue } :
        ShimInner).turns weight = inner.turns weight := by
      rw [turns_of_not_working hstate]
      by_cases hnew : new = .working
      · simp [turns, hnew, hempty hnew]
      · exact turns_of_not_working hnew
    exact ⟨hafter.le, fun _ => hafter⟩

theorem keepsTurns_output (hweight : Weighs weight) {screen : Screen} {dwelt : Bool}
    (h : inner.Reports (.output screen dwelt)) :
    KeepsTurns (account weight) (weight none = 0 ∧ Live (inner.output screen dwelt).1)
      (inner.turns weight) (inner.output screen dwelt) := by
  unfold output
  by_cases happroaching : (!inner.contextApproachingEmitted &&
      detectContextApproachingLimit screen.contents) = true
  · rw [if_pos happroaching]
    exact keepsTurns_quiet (.inl rfl) rfl
  · obtain ⟨hends, hworks⟩ := h (by simpa using happroaching)
    rw [if_neg happroaching]
    cases hnew : inner.newState screen.verdict dwelt with
    | none => exact keepsTurns_quiet (.inl rfl) rfl
    | some new =>
      dsimp only
      by_cases hidle : inner.state = .working ∧ new = .idle
      · obtain ⟨hstate, rfl⟩ := hidle
        rw [if_pos (by simp [hstate])]
        exact (keepsTurns_completeTurn hweight hstate (hends hstate hnew)).mono And.left
      · rw [if_neg (by simpa using hidle), ← List.map_append]
        have hcases : new = .contextExhausted ∨ inner.state ≠ .working ∧
            (new = .working → inner.preInjectionContent.isEmpty = true) := by
          rcases newState_cases hnew with rfl | ⟨rfl, hstate⟩ | ⟨rfl, hstate⟩
          · exact .inl rfl
          · exact .inr ⟨fun hworking => hidle ⟨hworking, rfl⟩, nofun⟩
          · exact .inr ⟨by rcases hstate with hstate | hstate <;> simp [hstate],
              fun _ => hworks hnew⟩
        obtain ⟨hle, hexact⟩ := @turns_transition weight inner new
          (if new = .contextExhausted then [] else inner.messageQueue) hweight hcases
        refine keepsTurns_sends ?_ hle fun hlive => hexact ?_
        · have hquiet : (inner.state = .working && new = .idle &&
              !inner.preInjectionContent.isEmpty) = false := by
            simp only [Bool.and_eq_false_iff, decide_eq_false_iff_not]
            exact .inl (Classical.not_and_iff_not_or_not.mp hidle)
          have htransition : inner.buildTransitionEvents inner.state new =
              [.stateChanged inner.state new] := by
            unfold buildTransitionEvents
            rw [hquiet]
            rfl
          rw [htransition]
          exact uncompleted_dropped _ _ _ _
        · rintro rfl
          exact Bool.noConfusion hlive.2

theorem keepsTurns_startup (timedOut : Bool) {Exact : Prop} :
    KeepsTurns (account weight) Exact (inner.turns weight) (inner.startup timedOut) := by
  have huncompleted : ∀ event : ShimEvent String, event.isCompletion = false →
      ∀ event' ∈ [event], event'.isCompletion = false := by simp
  unfold startup
  split
  · exact keepsTurns_quiet (.inr rfl) rfl
  · exact keepsTurns_sends (huncompleted .ready rfl) le_rfl fun _ => rfl
  · split
    · exact keepsTurns_events (.inr rfl)
        (huncompleted (.error "startup" "agent did not show prompt") rfl) le_rfl fun _ => rfl
    · exact keepsTurns_quiet (.inl rfl) rfl

theorem keepsTurns_polled (hweight : Weighs weight) {screen : Screen}
    (h : inner.Reports (.polled screen)) :
    KeepsTurns (account weight) (weight none = 0) (inner.turns weight) (inner.polled screen) := by
  unfold polled
  split
  · rename_i hidle
    simp only [Bool.and_eq_true, decide_eq_true_eq] at hidle
    have hpending := h hidle.1 hidle.2
    have hevents : ∀ event ∈ [ShimEvent.stateChanged .working .idle],
        event.isCompletion = false := by simp [ShimEvent.isCompletion]
    refine keepsTurns_sends hevents ?_ fun hnone => ?_ <;> rw [turns_of_not_working (by simp)]
    · exact turns_nonneg hweight
    · simp [turns, hpending, hnone]
  · exact keepsTurns_quiet (.inl rfl) rfl

theorem keepsTurns_receive (kind : PtyKind) {input : PtyInput} (hweight : Weighs weight)
    (h : inner.Reports input) :
    KeepsTurns (account weight) (weight none = 0 ∧ Live (receive kind input inner).1)
      (inner.turns weight) (receive kind input inner) := by
  unfold receive
  split
  · exact keepsTurns_startup _
  · exact keepsTurns_sendMessage _ _
  · exact keepsTurns_quiet (.inr rfl) rfl
  · exact keepsTurns_output hweight h
  · refine keepsTurns_events (.inr rfl) (uncompleted_dropped inner.state .dead _ _) ?_
      fun hlive => Bool.noConfusion hlive.2
    rw [turns_of_not_working (by simp)]
    exact turns_nonneg hweight
  · unfold settled
    split
    · rename_i hidle
      simp only [Bool.and_eq_true, decide_eq_true_eq] at hidle
      exact (keepsTurns_completeTurn hweight hidle.1.2 (h hidle.1.1 hidle.1.2 hidle.2)).mono
        And.left
    · exact keepsTurns_quiet (.inl rfl) rfl
  · exact (keepsTurns_polled hweight h).mono And.left
  · exact keepsTurns_quiet (.inl rfl) rfl

/-- A dead agent stays dead, and so does one whose context is used up. -/
theorem not_live_receive (kind : PtyKind) (input : PtyInput) (h : ¬ inner.Live) :
    ¬ (receive kind input inner).1.Live := by
  have hworking : inner.state ≠ .working := fun hstate => h (by rw [Live, hstate]; rfl)
  have hidle : inner.state ≠ .idle := fun hstate => h (by rw [Live, hstate]; rfl)
  have hstarting : inner.state ≠ .starting := fun hstate => h (by rw [Live, hstate]; rfl)
  unfold receive
  split
  · unfold startup
    split
    · exact h
    · exact h
    · split <;> exact h
  · unfold sendMessage
    split
    · contradiction
    · contradiction
    · exact h
  · exact h
  · unfold output
    split
    · exact h
    · split
      · exact h
      · rename_i new hnew
        rw [if_neg (by simp [hworking])]
        rcases newState_cases hnew with rfl | ⟨-, hstate | hstate⟩ | ⟨-, hstate | hstate⟩
        · exact nofun
        all_goals contradiction
  · exact nofun
  · unfold settled
    rw [if_neg (by simp [hworking])]
    exact h
  · unfold polled
    rw [if_neg (by simp [hworking])]
    exact h
  · exact h

variable {agentType : AgentType} {shim : PtyShim} {turn : Turn PtyInput}

theorem settled_step (h : TurnsSettled account Live shim)
    (hallows : (Pty.run agentType).ReportsTurn Reports ReportsPoint shim turn) :
    TurnsSettled account Live (shim.step machine turn) := by
  refine h.step (allowsFailure_of_reports hallows) ?_ ?_ ?_
  · contrapose
    intro hterminal
    have hshared := @World.step_shared _ _ _ _ _ _ machine shim (fun inner => ¬ inner.Live) turn
      hterminal
    refine hshared (fun {i input kind} _ _ _ => not_live_receive kind input hterminal) ?_
    rintro i succeeds kind point rest rfl hget
    -- A delivery is noted on an idle shim.
    have hidle : shim.shared.state = .idle := by
      have hpoint := hallows.2 kind point rest hget
      cases point
      exact hpoint.1
    exact absurd (by rw [Live, hidle]; rfl) hterminal
  · rintro i input kind rfl hget haccepts weight hweight
    exact keepsTurns_receive kind hweight (hallows kind hget haccepts)
  · rintro i succeeds kind point rest rfl hget weight hweight
    exact (keepsTurns_injected hweight (hallows.2 kind point rest hget)).mono And.left

theorem settled_start : TurnsSettled account Live (Pty.run agentType).start where
  balanced weight _ thread hmem acts hacts := by
    have hidle : ∀ thread ∈ (Pty.run agentType).start.threads, thread.acts = some [] :=
      List.forall_mem_cons.mpr ⟨rfl, List.forall_mem_cons.mpr ⟨rfl,
        List.forall_mem_cons.mpr ⟨rfl, List.forall_mem_singleton.mpr rfl⟩⟩⟩
    rw [hidle thread hmem] at hacts
    obtain rfl := Option.some.inj hacts
    trivial
  le weight _ := le_of_eq rfl
  exact weight _ _ _ := rfl

end ShimInner

/-! ### What the accounts say -/

section

variable {State Input Point : Type} {ofState : State → ℤ} {ofPoint : Point → ℤ}

theorem ofEvent_carries (id : String) (event : ShimEvent String) :
    (turnsAccount (carries id) ofState ofPoint : TurnsAccount State Input Point).ofEvent event =
      if event = .completion (some id) then 1 else 0 := by
  cases event with
  | completion messageId => by_cases h : messageId = some id <;> simp [turnsAccount, carries, h]
  | _ => simp [turnsAccount]

theorem sum_completed (id : String) (sent : List (ShimEvent String)) :
    (sent.map
        (turnsAccount (carries id) ofState ofPoint : TurnsAccount State Input Point).ofEvent).sum =
      (sent.count (.completion (some id)) : ℕ) := by
  induction sent with
  | nil => rfl
  | cons event sent ih =>
    rw [List.map_cons, List.sum_cons, ih, List.count_cons, ofEvent_carries]
    by_cases hevent : event = .completion (some id) <;> simp [hevent, add_comm]

theorem sum_completions (sent : List (ShimEvent String)) :
    (sent.map
        (turnsAccount (fun _ => 1) ofState ofPoint : TurnsAccount State Input Point).ofEvent).sum =
      (sent.countP ShimEvent.isCompletion : ℕ) := by
  induction sent with
  | nil => rfl
  | cons event sent ih =>
    rw [List.map_cons, List.sum_cons, ih, List.countP_cons]
    cases event <;> simp [turnsAccount, ShimEvent.isCompletion, add_comm]

theorem sum_messages (written : List AgentLine) :
    (written.map
        (turnsAccount (fun _ => 1) ofState ofPoint : TurnsAccount State Input Point).ofLine).sum =
      - ((written.filterMap AgentLine.message?).length : ℕ) := by
  induction written with
  | nil => rfl
  | cons line written ih =>
    rw [List.map_cons, List.sum_cons, ih]
    cases line <;> simp [turnsAccount, AgentLine.message?, List.filterMap_cons]

end

/-- At rest, nothing is on its way. -/
theorem total_of_atRest {runtime : Runtime} {shim : runtime.Shim}
    (account : TurnsAccount runtime.State runtime.Input runtime.Point)
    (h : Runtime.AtRest shim) :
    account.total shim = account.ofState shim.shared + (shim.sent.map account.ofEvent).sum +
      (shim.written.map account.ofLine).sum := by
  have hthreads : (shim.threads.map account.ofThread).sum = 0 := by
    refine List.sum_eq_zero fun n hn => ?_
    obtain ⟨thread, hmem, rfl⟩ := List.mem_map.mp hn
    rw [Accounting.ofThread, h thread hmem]
    rfl
  rw [Accounting.total, hthreads, add_zero]

/-- Settled turns are completed once. -/
theorem completesOnce_of_settled {name : RuntimeName} {shim : name.runtime.Shim} {id : String}
    {ofState : (Option String → ℤ) → name.runtime.State → ℤ}
    {ofPoint : (Option String → ℤ) → name.runtime.Point → ℤ} {Live : name.runtime.State → Prop}
    (h : TurnsSettled (fun weight => (turnsAccount weight (ofState weight) (ofPoint weight) :
      TurnsAccount name.runtime.State name.runtime.Input name.runtime.Point)) Live shim)
    (hlive : (name.runtime.state shim.shared).isTerminal = false → Live shim.shared ∧
      ofState (carries id) shim.shared = (name.openTurns shim.shared id : ℕ))
    (hnonneg : 0 ≤ ofState (fun _ => 1) shim.shared) : name.CompletesOnce shim id := by
  constructor
  · intro hatRest hstate
    obtain ⟨hlive, hopen⟩ := hlive hstate
    have htotal := h.exact (carries id) (weighs_carries id) rfl hlive
    have hinjected : (shim.written.map (turnsAccount (carries id) (ofState (carries id))
        (ofPoint (carries id)) :
          TurnsAccount name.runtime.State name.runtime.Input name.runtime.Point).ofLine).sum =
        - (Runtime.injected shim id : ℕ) :=
      @sum_injected name.runtime id shim.written
    have hstateSum : (turnsAccount (carries id) (ofState (carries id)) (ofPoint (carries id)) :
        TurnsAccount name.runtime.State name.runtime.Input name.runtime.Point).ofState shim.shared =
      (name.openTurns shim.shared id : ℕ) := hopen
    rw [total_of_atRest _ hatRest, sum_completed, hinjected, hstateSum] at htotal
    unfold RuntimeName.completed
    omega
  · intro hatRest
    have htotal := h.le (fun _ => 1) weighs_one
    have hstateSum : (turnsAccount (fun _ => 1) (ofState fun _ => 1) (ofPoint fun _ => 1) :
        TurnsAccount name.runtime.State name.runtime.Input name.runtime.Point).ofState shim.shared =
      ofState (fun _ => 1) shim.shared := rfl
    rw [total_of_atRest _ hatRest, sum_completions, sum_messages, hstateSum] at htotal
    omega

theorem SdkState.turns_carries {st : SdkState} (hrests : st.Rests)
    (hlive : st.state.isTerminal = false) (id : String) :
    st.turns (carries id) = (RuntimeName.openTurns .sdk st id : ℕ) := by
  have hopen : RuntimeName.openTurns .sdk st id =
      if st.state = .working ∧ st.pendingMessageId = some id then 1 else 0 := rfl
  rw [hopen]
  cases hstate : st.state with
  | working =>
    rw [turns_working hstate]
    by_cases hid : st.pendingMessageId = some id <;> simp [carries, hid]
  | idle => simp [turns_idle hrests hstate]
  | starting => simp [turns, turnInFlight, hstate, hrests (.inr hstate)]
  | dead | contextExhausted => simp [hstate, ShimState.isTerminal] at hlive

theorem SdkState.Inv.completesOnce {shim : SdkShim} (h : SdkState.Inv shim) (id : String) :
    RuntimeName.CompletesOnce .sdk shim id := by
  refine @completesOnce_of_settled .sdk shim id turns _ _ h.settled
    (fun hstate => ⟨trivial, turns_carries h.rests hstate id⟩) ?_
  unfold turns
  split
  · exact zero_le_one
  · exact le_rfl

theorem ShimInner.turns_carries {agentType : AgentType} (inner : ShimInner) (id : String) :
    inner.turns (carries id) = (RuntimeName.openTurns (.pty agentType) inner id : ℕ) := by
  have hopen : RuntimeName.openTurns (.pty agentType) inner id =
      if inner.state = .working ∧ inner.pendingMessageId = some id then 1 else 0 := rfl
  rw [hopen]
  by_cases hstate : inner.state = .working
  · by_cases hid : inner.pendingMessageId = some id <;> simp [turns, carries, hstate, hid]
  · rw [turns_of_not_working hstate]
    simp [hstate]

theorem ShimInner.completesOnce_of_turnsSettled {agentType : AgentType} {shim : PtyShim}
    (h : TurnsSettled ShimInner.account ShimInner.Live shim) (id : String) :
    RuntimeName.CompletesOnce (.pty agentType) shim id :=
  @completesOnce_of_settled (.pty agentType) shim id turns _ _ h
    (fun hstate => ⟨hstate, turns_carries shim.shared id⟩) (turns_nonneg weighs_one)

namespace RetestingName

def runtimeName : RetestingName → RuntimeName
  | .pty agentType => .pty agentType
  | .sdk => .sdk

def ReportsTurn : (name : RetestingName) → name.runtimeName.runtime.Shim →
    Turn name.runtimeName.runtime.Input → Prop
  | .pty agentType => (Pty.run agentType).ReportsTurn ShimInner.Reports ShimInner.ReportsPoint
  | .sdk => runSdk.ReportsTurn SdkState.Reports fun _ _ => True

end RetestingName

/-- **Completions.** In a run in which no message's write fails, no keepalive is sent, nothing
clears the id of a turn before its completion and no turn begins without a message. -/
theorem completesOnce_of_reports (name : RetestingName)
    (turns : List (Turn name.runtimeName.runtime.Input))
    (h : name.runtimeName.runtime.start.Allowed name.runtimeName.runtime.machine name.ReportsTurn
      turns) :
    ∀ shim ∈ name.runtimeName.runtime.through turns, ∀ id,
      name.runtimeName.CompletesOnce shim id := by
  intro shim hshim id
  cases name with
  | pty agentType =>
    have hinv := World.through_of_steps (fun _ _ => ShimInner.settled_step)
      ShimInner.settled_start h
    exact ShimInner.completesOnce_of_turnsSettled (hinv shim hshim) id
  | sdk =>
    have hinv := World.through_of_steps (fun _ _ => SdkState.Inv.step) SdkState.inv_start h
    exact (hinv shim hshim).completesOnce id

/-- A message, and the answer to it. -/
def answeredTurns : List (Turn SdkInput) :=
  deliveredTurns ++ [.receive 1 (.result (some "done") none none), .go 1 true, .go 1 true]

/-- A message that is answered. -/
theorem completesOnce_of_reports_answered :
    (runSdk.through answeredTurns).length = 8 ∧
      ∀ shim ∈ runSdk.through answeredTurns, ∀ id, RuntimeName.CompletesOnce .sdk shim id := by
  refine ⟨rfl, completesOnce_of_reports .sdk answeredTurns ?_⟩
  have hgoes : ∀ {i : Nat} shim, runSdk.ReportsTurn SdkState.Reports (fun _ _ => True) shim
      (.go i true) := fun _ => ⟨fun _ _ _ _ _ => rfl, fun _ _ _ _ => trivial⟩
  have hresult : runSdk.ReportsTurn SdkState.Reports (fun _ _ => True)
      (deliveredTurns.foldl (World.step runSdk.machine) runSdk.start)
      (.receive 1 (SdkInput.result (some "done") none none)) :=
    fun _ _ _ _ _ hdetect => absurd hdetect (by decide)
  exact ⟨fun _ _ _ => trivial, hgoes _, hgoes _, hgoes _, hresult, hgoes _, hgoes _, trivial⟩

/-- The first answer reports failing tests, and the second does not. -/
def retestedTurns : List (Turn SdkInput) :=
  deliveredTurns ++ [.receive 1 (.result (some failingAnswer) none none), .go 1 true, .go 1 true,
    .receive 1 (.result (some "done") none none), .go 1 true, .go 1 true]

def promptScreen : Screen := { contents := "> ", verdict := .agentIdle, response := "" }

/-- The poll is the first to see that the agent is back at its prompt. -/
def polledTurns : List (Turn PtyInput) :=
  [.receive 1 (.output promptScreen true), .go 1 true, .receive 0 (.startup false), .go 0 true,
    .receive 0 (.sendMessage taskMessage "> "), .go 0 true, .go 0 true, .go 0 true, .go 0 true,
    .receive 3 (.polled promptScreen), .go 3 true]

/-- **Lost ids.** A follow-up and the poll each leave a message without its completion. -/
theorem not_completesOnce :
    (¬ ∀ turns, ∀ shim ∈ runSdk.through turns, ∀ id, RuntimeName.CompletesOnce .sdk shim id) ∧
      ¬ ∀ agentType turns, ∀ shim ∈ (Pty.run agentType).through turns, ∀ id,
        RuntimeName.CompletesOnce (.pty agentType) shim id := by
  constructor
  · intro h
    have hlost : ∃ shim ∈ runSdk.through retestedTurns, Runtime.AtRest shim ∧
        (runSdk.state shim.shared).isTerminal = false ∧
        RuntimeName.completed .sdk shim "m1" + RuntimeName.openTurns .sdk shim.shared "m1" ≠
          Runtime.injected shim "m1" := by
      decide +kernel
    obtain ⟨shim, hmem, hrest, hlive, hne⟩ := hlost
    exact hne ((h retestedTurns shim hmem "m1").once hrest hlive)
  · intro h
    have hlost : ∃ shim ∈ (Pty.run .claude).through polledTurns, Runtime.AtRest shim ∧
        ((Pty.run .claude).state shim.shared).isTerminal = false ∧
        RuntimeName.completed (.pty .claude) shim "m1" +
            RuntimeName.openTurns (.pty .claude) shim.shared "m1" ≠
          Runtime.injected shim "m1" := by
      decide +kernel
    obtain ⟨shim, hmem, hrest, hlive, hne⟩ := hlost
    exact hne ((h .claude polledTurns shim hmem "m1").once hrest hlive)

end Batty
