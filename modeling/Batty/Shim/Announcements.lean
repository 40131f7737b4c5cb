import Batty.Shim.Kiro
import Batty.Shim.Process
import Batty.Shim.Sdk

/-!
# Announcements of the state

A runtime changes its state under the lock and announces the change after it has let the lock
go. An announcement is owed from the section that makes the change until it is sent; it is owed
by the thread that took the section.

* `Describes`: the announcements that were sent form a path from idle, and when none is left to
  send, the path ends in the state of the shim.
* `describes_of_announced`: so it is in every run in which every change is announced and the
  announcements are sent in the order of the changes.
-/

namespace Batty

/-- A change of state, from the first to the second. -/
abbrev Change := ShimState × ShimState

def ShimEvent.change? : ShimEvent String → Option Change
  | stateChanged source target => some (source, target)
  | _ => none

/-- The changes lead from one state to another, each starting where the one before has ended. -/
def IsPath : ShimState → List Change → ShimState → Prop
  | source, [], target => source = target
  | source, change :: changes, target => change.1 = source ∧ IsPath change.2 changes target

theorem isPath_append {source target : ShimState} {changes changes' : List Change} :
    IsPath source (changes ++ changes') target ↔
      ∃ middle, IsPath source changes middle ∧ IsPath middle changes' target := by
  induction changes generalizing source with
  | nil => simp [IsPath]
  | cons change changes ih => simp [IsPath, ih, and_assoc]

section

variable {Kind Point : Type} (owes : Point → List Change)

/-- The announcements that a thread has left to send; `owes` says what a further section sends of
earlier changes. -/
def announcements : List (ShimAct Kind Point) → List Change
  | [] => []
  | .send event :: acts => event.change?.toList ++ announcements acts
  | .write _ _ :: acts | .fork _ _ _ _ :: acts => announcements acts
  | .lock point :: _ => owes point
  | .stop :: _ => []

theorem announcements_sends (events : List (ShimEvent String)) (acts : List (ShimAct Kind Point)) :
    announcements owes (events.map .send ++ acts) =
      events.filterMap ShimEvent.change? ++ announcements owes acts := by
  induction events with
  | nil => rfl
  | cons event events ih =>
    rw [List.map_cons, List.cons_append, announcements, ih, List.filterMap_cons]
    cases event.change? <;> rfl

@[simp] theorem announcements_map (events : List (ShimEvent String)) :
    announcements owes (events.map .send : List (ShimAct Kind Point)) =
      events.filterMap ShimEvent.change? := by
  have hsends := announcements_sends owes events ([] : List (ShimAct Kind Point))
  rwa [List.append_nil, announcements, List.append_nil] at hsends

end

namespace Runtime

variable {runtime : Runtime} (owes : runtime.Point → List Change)

/-- The announcements that are owed, with the places of the threads that owe them, from the oldest
change to the newest. A section of a waiting thread owes all that it will announce. -/
def oweAfter (shim : runtime.Shim) (owed : List (Nat × Change)) :
    Turn runtime.Input → List (Nat × Change)
  | .receive i input =>
    match shim.threads[i]? with
    | some ⟨kind, some []⟩ =>
      if runtime.machine.accepts kind input shim.shared then
        owed ++ (announcements owes (runtime.machine.receive kind input shim.shared).2).map (i, ·)
      else owed
    | _ => owed
  | .go i _ =>
    match shim.threads[i]? with
    | some ⟨_, some (.send event :: _)⟩ =>
      if event.change?.isSome then owed.eraseP (·.1 = i) else owed
    | some ⟨_, some (.lock point :: _)⟩ =>
      owed ++ ((announcements owes (runtime.machine.resume point shim.shared).2).drop
        (owes point).length).map (i, ·)
    | _ => owed

/-- An announcement that is sent is the oldest that is owed. -/
def SendsInOrder (shim : runtime.Shim) (owed : List (Nat × Change)) :
    Turn runtime.Input → Prop
  | .receive _ _ => True
  | .go i _ => ∀ kind event rest, shim.threads[i]? = some ⟨kind, some (.send event :: rest)⟩ →
    event.change?.isSome = true → owed.head?.map Prod.fst = some i

/-- What a turn finds is allowed: the section of its input, and the branch of a failed write. -/
def AnnouncesTurn (runtime : Runtime) (Announces : runtime.State → runtime.Input → Prop)
    (MayFail : Option (List (ShimEvent String) × Option runtime.Point) → Prop)
    (shim : runtime.Shim) : Turn runtime.Input → Prop
  | .receive i input => ∀ kind, shim.threads[i]? = some ⟨kind, some []⟩ →
    runtime.machine.accepts kind input shim.shared = true → Announces shim.shared input
  | .go i succeeds => ∀ kind line failed rest,
    shim.threads[i]? = some ⟨kind, some (.write line failed :: rest)⟩ →
    succeeds = false → MayFail failed

/-- Every turn is allowed, and announcements are sent in order. -/
def Announced (Allows : runtime.Shim → Turn runtime.Input → Prop) :
    runtime.Shim → List (Nat × Change) → List (Turn runtime.Input) → Prop
  | _, _, [] => True
  | shim, owed, turn :: turns =>
    Allows shim turn ∧ SendsInOrder shim owed turn ∧
      Announced Allows (shim.step runtime.machine turn) (oweAfter owes shim owed turn) turns

/-- The announcements so far describe the state. -/
structure Describes (shim : runtime.Shim) : Prop where
  path : ∃ target, IsPath .idle (shim.sent.filterMap ShimEvent.change?) target
  settled : (∀ thread ∈ shim.threads, announcements owes (thread.acts.getD []) = []) →
    runtime.state shim.shared ≠ .starting →
    IsPath .idle (shim.sent.filterMap ShimEvent.change?) (runtime.state shim.shared)

end Runtime

/-- The state that the announcements start from: a shim that has not started counts as idle. -/
def ShimState.announced (state : ShimState) : ShimState :=
  if state = .starting then .idle else state

namespace Runtime

variable {runtime : Runtime} {owes : runtime.Point → List Change} {shim : runtime.Shim}
  {owed : List (Nat × Change)}

/-- The changes that the thread at place `i` owes. -/
def owedBy (owes : runtime.Point → List Change)
    (threads : List (Thread runtime.Kind runtime.Point AgentLine (ShimEvent String))) (i : Nat) :
    List Change :=
  announcements owes ((threads[i]?.bind Thread.acts).getD [])

/-- What is owed is what the threads have left to send, and leads to the present state. -/
structure Owing (owes : runtime.Point → List Change) (shim : runtime.Shim)
    (owed : List (Nat × Change)) : Prop where
  threads : ∀ i, (owed.filter (·.1 = i)).map Prod.snd = owedBy owes shim.threads i
  path : IsPath .idle (shim.sent.filterMap ShimEvent.change? ++ owed.map Prod.snd)
    (runtime.state shim.shared).announced

theorem describes_of_owing (h : Owing owes shim owed) : Describes owes shim := by
  obtain ⟨middle, hsent, howed⟩ := isPath_append.mp h.path
  refine ⟨⟨middle, hsent⟩, fun hsilent hstarted => ?_⟩
  have hnone : owed = [] := by
    refine List.eq_nil_iff_forall_not_mem.mpr fun entry hmem => ?_
    have hentry : entry.2 ∈ (owed.filter (·.1 = entry.1)).map Prod.snd :=
      List.mem_map.mpr ⟨entry, List.mem_filter.mpr ⟨hmem, by simp⟩, rfl⟩
    rw [h.threads, owedBy] at hentry
    cases hthread : shim.threads[entry.1]? with
    | none => simp [hthread, announcements] at hentry
    | some thread =>
      rw [hthread, Option.bind_some, hsilent thread (List.mem_of_getElem? hthread)] at hentry
      cases hentry
  have hpath := h.path
  rw [hnone, List.map_nil, List.append_nil, ShimState.announced, if_neg hstarted] at hpath
  exact hpath

/-- What a turn must do about the state: its section announces the change it makes, and a write
that fails takes no announcement along. -/
structure Tells (owes : runtime.Point → List Change) (shim : runtime.Shim)
    (turn : Turn runtime.Input) : Prop where
  receive : ∀ {i input kind}, turn = .receive i input → shim.threads[i]? = some ⟨kind, some []⟩ →
    runtime.machine.accepts kind input shim.shared = true →
    IsPath (runtime.state shim.shared).announced
      (announcements owes (runtime.machine.receive kind input shim.shared).2)
      (runtime.state (runtime.machine.receive kind input shim.shared).1).announced
  lock : ∀ {i succeeds kind point rest}, turn = .go i succeeds →
    shim.threads[i]? = some ⟨kind, some (.lock point :: rest)⟩ →
    ∃ new, announcements owes (runtime.machine.resume point shim.shared).2 = owes point ++ new ∧
      IsPath (runtime.state shim.shared).announced new
        (runtime.state (runtime.machine.resume point shim.shared).1).announced
  failed : ∀ {i kind line failed rest}, turn = .go i false →
    shim.threads[i]? = some ⟨kind, some (.write line failed :: rest)⟩ →
    announcements owes (failed.elim rest failedActs) = announcements owes rest

section

variable {threads : List (Thread runtime.Kind runtime.Point AgentLine (ShimEvent String))}
  {thread : Thread runtime.Kind runtime.Point AgentLine (ShimEvent String)} {i j : Nat}

theorem owedBy_of_get {kind : runtime.Kind} {acts : List (ShimAct runtime.Kind runtime.Point)}
    (h : threads[i]? = some ⟨kind, some acts⟩) : owedBy owes threads i = announcements owes acts := by
  simp [owedBy, h]

theorem owedBy_set (h : threads[i]? = some thread) (kind : runtime.Kind)
    (acts : Option (List (ShimAct runtime.Kind runtime.Point))) :
    owedBy owes (threads.set i ⟨kind, acts⟩) j =
      if i = j then announcements owes (acts.getD []) else owedBy owes threads j := by
  have hlt : i < threads.length := (List.getElem?_eq_some_iff.mp h).1
  by_cases hij : i = j
  · subst hij
    simp [owedBy, hlt]
  · simp [owedBy, hij]

/-- A thread that has just been started owes nothing. -/
theorem owedBy_append {kind : runtime.Kind} {line next : AgentLine}
    {failed : Option (List (ShimEvent String) × Option runtime.Point)} :
    owedBy owes (threads ++ [⟨kind, some [.write line failed, .write next none]⟩]) j =
      owedBy owes threads j := by
  by_cases hlt : j < threads.length
  · rw [owedBy, owedBy, List.getElem?_append_left hlt]
  · have hnone : threads[j]? = none := List.getElem?_eq_none (by omega)
    rw [owedBy, owedBy, List.getElem?_append_right (by omega), hnone]
    cases hj : j - threads.length with
    | zero => rfl
    | succ n => rfl

/-- A thread whose acts change without a change of what it owes. -/
theorem owing_set_same (h : ∀ i, (owed.filter (·.1 = i)).map Prod.snd = owedBy owes threads i)
    {kind : runtime.Kind} {acts : Option (List (ShimAct runtime.Kind runtime.Point))}
    (hget : threads[i]? = some thread)
    (hsame : owedBy owes threads i = announcements owes (acts.getD [])) (j : Nat) :
    (owed.filter (·.1 = j)).map Prod.snd = owedBy owes (threads.set i ⟨kind, acts⟩) j := by
  rw [owedBy_set hget, h]
  split
  · rename_i hij
    rw [← hij, hsame]
  · rfl

/-- A thread that owes `new` on top of what it owed. -/
theorem owing_set_more (h : ∀ i, (owed.filter (·.1 = i)).map Prod.snd = owedBy owes threads i)
    {kind : runtime.Kind} {acts : Option (List (ShimAct runtime.Kind runtime.Point))}
    {new : List Change} (hget : threads[i]? = some thread)
    (hmore : announcements owes (acts.getD []) = owedBy owes threads i ++ new) (j : Nat) :
    ((owed ++ new.map (i, ·)).filter (·.1 = j)).map Prod.snd =
      owedBy owes (threads.set i ⟨kind, acts⟩) j := by
  rw [owedBy_set hget, List.filter_append, List.map_append, h]
  split
  · rename_i hij
    subst hij
    rw [hmore]
    simp [List.filter_map, Function.comp_def]
  · rename_i hij
    simp [List.filter_map, Function.comp_def, hij]

end

theorem Owing.step (h : Owing owes shim owed) {turn : Turn runtime.Input}
    (htells : Tells owes shim turn) (horder : SendsInOrder shim owed turn) :
    Owing owes (shim.step runtime.machine turn) (oweAfter owes shim owed turn) := by
  cases turn with
  | receive i input =>
    by_cases hstep : ∃ kind, shim.threads[i]? = some ⟨kind, some []⟩ ∧
        runtime.machine.accepts kind input shim.shared = true
    · obtain ⟨kind, hget, haccepts⟩ := hstep
      have hpath := htells.receive rfl hget haccepts
      simp only [World.step, oweAfter, hget, haccepts, if_true]
      refine ⟨fun j => ?_, ?_⟩
      · exact owing_set_more h.threads hget (by rw [owedBy_of_get hget]; rfl) j
      · simp only [List.map_append, List.map_map, Function.comp_def, List.map_id',
          ← List.append_assoc]
        exact isPath_append.mpr ⟨_, h.path, hpath⟩
    · have hsame : shim.step runtime.machine (.receive i input) = shim := by
        rw [World.step]
        split
        · rename_i kind hget
          rw [if_neg fun haccepts => hstep ⟨kind, hget, haccepts⟩]
        · rfl
      have howed : oweAfter owes shim owed (.receive i input) = owed := by
        rw [oweAfter]
        split
        · rename_i kind hget
          rw [if_neg fun haccepts => hstep ⟨kind, hget, haccepts⟩]
        · rfl
      rw [hsame, howed]
      exact h
  | go i succeeds =>
    have hsame : ∀ {kind act rest}, shim.threads[i]? = some ⟨kind, some (act :: rest)⟩ →
        owedBy owes shim.threads i = announcements owes (act :: rest) := fun hget =>
      owedBy_of_get hget
    rcases hget : shim.threads[i]? with _ | ⟨kind, _ | _ | ⟨act, rest⟩⟩
    · simpa only [World.step, oweAfter, hget] using h
    · simpa only [World.step, oweAfter, hget] using h
    · simpa only [World.step, oweAfter, hget] using h
    · specialize hsame hget
      simp only [World.step, oweAfter, hget]
      cases act with
      | send event =>
        simp only [World.perform, World.setActs]
        cases hchange : event.change? with
        | none =>
          refine ⟨fun j => ?_, ?_⟩
          · exact owing_set_same h.threads hget (by rw [hsame, announcements, hchange]; rfl) j
          · simpa [hchange] using h.path
        | some change =>
          -- the announcement that is sent is the oldest that is owed
          have hhead := horder kind event rest hget (by rw [hchange]; rfl)
          cases owed with
          | nil => cases hhead
          | cons entry owed =>
            obtain ⟨place, change'⟩ := entry
            obtain rfl : place = i := by simpa using hhead
            have hplace := h.threads place
            rw [hsame, announcements, hchange] at hplace
            simp only [List.filter_cons, decide_true, if_true, List.map_cons, Option.toList_some,
              List.singleton_append, List.cons.injEq] at hplace
            obtain ⟨rfl, hrest⟩ := hplace
            refine ⟨fun j => ?_, ?_⟩
            · simp only [Option.isSome_some, if_true, List.eraseP_cons, decide_true, cond_true]
              rw [owedBy_set hget]
              split
              · rename_i hij
                rw [← hij]
                exact hrest
              · rename_i hij
                rw [← h.threads j, List.filter_cons, if_neg (by simpa using hij)]
            · simpa [hchange] using h.path
      | write line failed =>
        cases succeeds with
        | true =>
          exact ⟨owing_set_same h.threads hget hsame, h.path⟩
        | false =>
          have hfailed := htells.failed rfl hget
          exact ⟨owing_set_same h.threads hget (by rw [hsame, announcements]; exact hfailed.symm),
            h.path⟩
      | lock point =>
        obtain ⟨new, hnew, hpath⟩ := htells.lock rfl hget
        simp only [World.perform, hnew, List.drop_left]
        refine ⟨fun j => ?_, ?_⟩
        · exact owing_set_more h.threads hget (by rw [hsame]; exact hnew) j
        · simp only [List.map_append, List.map_map, Function.comp_def, List.map_id',
            ← List.append_assoc]
          exact isPath_append.mpr ⟨_, h.path, hpath⟩
      | fork new line failed next =>
        refine ⟨fun j => ?_, h.path⟩
        simp only [World.perform]
        rw [owedBy_append]
        refine owing_set_same h.threads hget ?_ j
        exact hsame
      | stop =>
        exact ⟨owing_set_same h.threads hget hsame, h.path⟩

/-- The states of a run in which every change is announced and announced in order. -/
theorem describes_of_tells {Allows : runtime.Shim → Turn runtime.Input → Prop}
    {Inv : runtime.Shim → Prop}
    (hinv : ∀ shim turn, Inv shim → Allows shim turn → Inv (shim.step runtime.machine turn))
    (htells : ∀ shim turn, Inv shim → Allows shim turn → Tells owes shim turn) :
    ∀ {turns : List (Turn runtime.Input)} {shim : runtime.Shim} {owed : List (Nat × Change)},
      Inv shim → Owing owes shim owed → Announced owes Allows shim owed turns →
      ∀ shim' ∈ shim.through runtime.machine turns, Describes owes shim'
  | [], shim, owed, _, howing, _, shim', hmem => by
    rw [World.through, List.mem_singleton] at hmem
    exact hmem ▸ describes_of_owing howing
  | turn :: turns, shim, owed, hshim, howing, hannounced, shim', hmem => by
    obtain ⟨hallows, horder, hrest⟩ := hannounced
    rw [World.through, List.mem_cons] at hmem
    rcases hmem with rfl | hmem
    · exact describes_of_owing howing
    · exact describes_of_tells hinv htells (hinv shim turn hshim hallows)
        (howing.step (htells shim turn hshim hallows) horder) hrest shim' hmem

end Runtime

/-! ### What announces nothing -/

@[simp] theorem change?_drainQueueErrors (queue : List QueuedMessage) (state : ShimState) :
    (drainQueueErrors queue state).filterMap ShimEvent.change? = [] := by
  simp [drainQueueErrors, ShimEvent.change?]

@[simp] theorem change?_queueMessage (queue : List QueuedMessage) (message : QueuedMessage) :
    (queueMessage queue message).2.filterMap ShimEvent.change? = [] := by
  unfold queueMessage
  split <;> rfl

@[simp] theorem change?_delivered (messageId : Option String) :
    (answerWith .messageDelivered messageId).filterMap ShimEvent.change? = [] := by
  cases messageId <;> rfl

/-- A section announces the change that it makes, and does not go back to the start. -/
def TellsChange {State Kind Point : Type} (owes : Point → List Change) (state : State → ShimState)
    (before : State) (after : State × List (ShimAct Kind Point)) : Prop :=
  IsPath (state before).announced (announcements owes after.2) (state after.1).announced ∧
    state after.1 ≠ .starting

/-! ### The Claude runtime -/

/-- No keepalive falls due, and failed tests are found only in a turn at work. -/
def SdkState.AnnouncesChange (st : SdkState) : SdkInput → Prop
  | .commandTimeout due => due → st.state = .idle → st.sessionId.isEmpty ∨ st.pendingMessageId.isSome
  | .result result errors _ => st.turnInFlight = true → reportsExhaustion result errors = false →
    (detectTestFailureFollowup (st.response result) st.testFailureIterations).isSome →
      st.state = .working
  | _ => True

namespace SdkState

variable {st : SdkState}

theorem tells_completeTurn {before : SdkState} (hstarted : before.state ≠ .starting)
    (messageId : Option String) :
    TellsChange (fun _ => []) SdkState.state before
      (st.completeTurn.1, announceCompletion before.state messageId st.completeTurn.2) := by
  unfold completeTurn
  cases st.messageQueue <;>
    simp [TellsChange, announceCompletion, announcements, IsPath, ShimEvent.change?,
      ShimState.announced, hstarted]

theorem tells_result {result : Option String} {errors : Option (List String)}
    {sessionId : Option String} (hstarted : st.state ≠ .starting)
    (h : st.AnnouncesChange (.result result errors sessionId)) :
    TellsChange (fun _ => []) SdkState.state st (st.result result errors sessionId) := by
  unfold SdkState.result
  split
  · exact ⟨rfl, hstarted⟩
  · rename_i hturn
    dsimp only
    split
    · simp [exhaustContext, TellsChange, announcements, IsPath, ShimEvent.change?,
        ShimState.announced, hstarted]
    · rename_i hexhausted
      have hworking := h (by simpa using hturn) (by simpa using hexhausted)
      rw [noteSession_response, noteSession_testFailureIterations, noteSession_state]
      split
      · rename_i hfollowup
        have hstate := hworking (by rw [hfollowup]; rfl)
        simp [TellsChange, announcements, IsPath, ShimEvent.change?, hstate]
      · exact tells_completeTurn hstarted _

theorem tells_receive {kind : SdkKind} {input : SdkInput} (hkind : input.kind = kind)
    (hstarted : st.state ≠ .starting) (h : st.AnnouncesChange input) :
    TellsChange (fun _ => []) SdkState.state st (receive kind input st) := by
  subst hkind
  cases input with
  | sendMessage message =>
    simp only [receive, SdkInput.kind, sendMessage]
    split
    · rename_i hstate
      simp [TellsChange, announcements, announcements_sends, IsPath, ShimEvent.change?,
        ShimState.announced, hstate]
    · simp [TellsChange, IsPath, hstarted]
    · exact ⟨rfl, hstarted⟩
  | commandTimeout due =>
    simp only [receive, SdkInput.kind, maybeSendKeepalive]
    split
    · rename_i hdue
      simp only [Bool.and_eq_true, decide_eq_true_eq] at hdue
      have hnone := h hdue.1.1.1 hdue.1.1.2
      simp_all
    · exact ⟨rfl, hstarted⟩
  | hangUp => exact ⟨rfl, hstarted⟩
  | assistant text sessionId =>
    simp only [receive, SdkInput.kind, assistant, streamEvent]
    split
    · exact ⟨rfl, hstarted⟩
    · split <;> simp [TellsChange, announcements, IsPath, hstarted]
  | streamEvent text sessionId =>
    simp only [receive, SdkInput.kind, streamEvent]
    split <;> simp [TellsChange, announcements, IsPath, hstarted]
  | result result errors sessionId => exact tells_result hstarted h
  | stdoutTimeout =>
    simp only [receive, SdkInput.kind, forceStalledCompletion]
    split
    · exact tells_completeTurn hstarted _
    · exact ⟨rfl, hstarted⟩
  | stdoutEnd =>
    simp [receive, SdkInput.kind, stdoutEnd, TellsChange, announcements, announcements_sends,
      IsPath, ShimEvent.change?, ShimState.announced, hstarted]

/-- Only a keepalive that cannot be written takes a second section. -/
theorem leadsToLock_of_noKeepalive {kind : SdkKind} {input : SdkInput}
    (h : ∀ due, input = .commandTimeout due → (st.maybeSendKeepalive due).2 = []) :
    ∀ act ∈ (receive kind input st).2, act.leadsToLock = false := by
  unfold receive
  split
  · unfold sendMessage
    split <;> simp [or_imp, forall_and]
  · rw [h _ rfl]
    simp
  · simp
  · unfold assistant streamEvent
    split
    · simp
    · split <;> simp
  · unfold streamEvent
    split <;> simp
  · unfold SdkState.result
    split
    · simp
    · dsimp only
      split
      · simp [exhaustContext]
      · split
        · simp [or_imp, forall_and]
        · unfold announceCompletion
          split <;> simp [or_imp, forall_and]
  · unfold forceStalledCompletion announceCompletion
    split
    · dsimp only
      split <;> simp
    · simp
  · simp [stdoutEnd, or_imp, forall_and]
  · simp

theorem leadsToLock_receive {kind : SdkKind} {input : SdkInput} (h : st.AnnouncesChange input) :
    ∀ act ∈ (receive kind input st).2, act.leadsToLock = false := by
  refine leadsToLock_of_noKeepalive ?_
  rintro due rfl
  unfold maybeSendKeepalive
  split
  · rename_i hdue
    simp only [Bool.and_eq_true, decide_eq_true_eq] at hdue
    have hnone := h hdue.1.1.1 hdue.1.1.2
    simp_all
  · rfl

/-- No second section is due, and the shim has started. -/
def Steady (shim : SdkShim) : Prop :=
  shim.EveryAct (fun act => act.leadsToLock = false) ∧ shim.shared.state ≠ .starting

variable {shim : SdkShim} {turn : Turn SdkInput}

theorem Steady.not_lock (h : Steady shim) {i : Nat} {kind : SdkKind} {point : SdkPoint}
    {rest : List (ShimAct SdkKind SdkPoint)} :
    shim.threads[i]? ≠ some ⟨kind, some (.lock point :: rest)⟩ := fun hget =>
  Bool.noConfusion (h.1 _ (List.mem_of_getElem? hget) _ rfl _ List.mem_cons_self)

theorem steady_step (h : Steady shim)
    (hallows : runSdk.AnnouncesTurn AnnouncesChange (· = none) shim turn) :
    Steady (shim.step machine turn) := by
  have hstarted := @World.step_shared _ _ _ _ _ _ machine shim (fun st => st.state ≠ .starting) turn
    h.2
  refine ⟨h.1.step (fun _ => id) ?_ ?_ ?_ ?_, hstarted ?_ ?_⟩
  · rintro i input kind rfl hget haccepts
    exact leadsToLock_receive (hallows kind hget haccepts)
  · intro i succeeds kind point rest _ hget
    exact absurd hget h.not_lock
  · intro line failed hwrite
    refine leadsToLock_failedActs ?_
    simpa using hwrite
  · exact fun hfork => ⟨hfork, rfl⟩
  · rintro i input kind rfl hget haccepts
    exact (tells_receive (SdkInput.kind_of_accepts haccepts) h.2 (hallows kind hget haccepts)).2
  · intro i succeeds kind point rest _ hget
    exact absurd hget h.not_lock

theorem tells_turn (h : Steady shim)
    (hallows : runSdk.AnnouncesTurn AnnouncesChange (· = none) shim turn) :
    @Runtime.Tells runSdk (fun _ => []) shim turn := by
  refine ⟨?_, ?_, ?_⟩
  · rintro i input kind rfl hget haccepts
    exact (tells_receive (SdkInput.kind_of_accepts haccepts) h.2 (hallows kind hget haccepts)).1
  · intro i succeeds kind point rest _ hget
    exact absurd hget h.not_lock
  · rintro i kind line failed rest rfl hget
    obtain rfl := hallows kind line failed rest hget rfl
    rfl

end SdkState

/-! ### The Codex runtime -/

/-- The shim is not shut down, and no process fails for want of authentication or quota. -/
def CodexState.AnnouncesChange (_ : CodexState) : CodexInput → Prop
  | .shutdown => False
  | .turnFailed error _ =>
    detectAuthRequired (error.getD "unknown error") = false ∧
      (detectContextExhausted (error.getD "unknown error") = false →
        detectQuotaBlock (error.getD "unknown error") = false)
  | .error error _ =>
    detectAuthRequired (error.getD "stream error") = false ∧
      detectQuotaBlock (error.getD "stream error") = false
  | .sendMessage _ _ | .hangUp | .stdoutEnd => True

namespace CodexState

variable {st : CodexState}

/-- The state is one of those that are announced. -/
def IsLive (st : CodexState) : Prop := st.state ≠ .starting ∧ st.state ≠ .dead

/-- A section announces its change and leaves the shim alive. -/
def TellsAlive (before : CodexState) (after : Section) : Prop :=
  IsPath before.state.announced (announcements (fun _ => []) after.2) after.1.state.announced ∧
    after.1.IsLive

theorem tells_deliver {message : QueuedMessage} (h : st.IsLive) :
    TellsAlive st (st.deliver message) := by
  unfold deliver
  split
  · rename_i hstate
    simp [TellsAlive, IsLive, announcements, announcements_sends, IsPath, ShimEvent.change?,
      ShimState.announced, hstate]
  · exact ⟨by simp [IsPath], h⟩
  · exact ⟨rfl, h⟩

theorem tells_receive {kind : CodexKind} {input : CodexInput} (hkind : input.kind = kind)
    (hlive : st.IsLive) (hworking : kind = .exec → st.state = .working)
    (h : st.AnnouncesChange input) : TellsAlive st (receive kind input st) := by
  subst hkind
  cases input with
  | sendMessage message now =>
    simp only [receive, CodexInput.kind, sendMessage]
    split
    · split
      · exact ⟨rfl, hlive⟩
      · have htells := @tells_deliver { st with quotaBlockedUntil := none } message hlive
        exact htells
    · exact tells_deliver hlive
  | shutdown => exact absurd h id
  | hangUp => exact ⟨rfl, hlive⟩
  | turnFailed error retryAt =>
    have hstate := hworking rfl
    simp only [receive, CodexInput.kind, turnFailed]
    obtain ⟨hauth, hquota⟩ := h
    rw [hauth, if_neg Bool.false_ne_true]
    split
    · simp [exhaustContext, TellsAlive, IsLive, announcements, announcements_sends, IsPath,
        ShimEvent.change?, ShimState.announced, hstate]
    · rename_i hexhausted
      rw [hquota (by simpa using hexhausted), if_neg Bool.false_ne_true]
      exact ⟨rfl, hlive⟩
  | error error retryAt =>
    simp only [receive, CodexInput.kind, CodexState.error]
    obtain ⟨hauth, hquota⟩ := h
    rw [hauth, hquota, Bool.and_false, if_neg Bool.false_ne_true, if_neg Bool.false_ne_true]
    exact ⟨rfl, hlive⟩
  | stdoutEnd =>
    have hstate := hworking rfl
    simp only [receive, CodexInput.kind, stdoutEnd]
    split <;>
      simp [TellsAlive, IsLive, announcements, IsPath, ShimEvent.change?, ShimState.announced,
        hstate]

theorem tells_spawnFailed (h : st.state = .working) : TellsAlive st st.spawnFailed := by
  simp [spawnFailed, TellsAlive, IsLive, announcements, IsPath, ShimEvent.change?,
    ShimState.announced, h]

/-- One process at a time, in a shim that is alive. -/
def Steady (shim : CodexShim) : Prop :=
  OneProcess shim.threads shim.shared.state ∧ shim.shared.IsLive

variable {shim : CodexShim} {turn : Turn CodexInput}

theorem Steady.working (h : Steady shim) {i : Nat} {thread : CodexThread}
    (hget : shim.threads[i]? = some thread) (hwork : AtWork thread) :
    shim.shared.state = .working :=
  (h.1.busy thread (List.mem_of_getElem? hget) hwork).resolve_right h.2.2

theorem Steady.tells_receive (h : Steady shim) {i : Nat} {input : CodexInput} {kind : CodexKind}
    (hallows : runCodexSdk.AnnouncesTurn AnnouncesChange (fun _ => True) shim (.receive i input))
    (hget : shim.threads[i]? = some ⟨kind, some []⟩)
    (haccepts : machine.accepts kind input shim.shared = true) :
    TellsAlive shim.shared (receive kind input shim.shared) := by
  refine CodexState.tells_receive (CodexInput.kind_of_accepts haccepts) h.2 ?_
    (hallows kind hget haccepts)
  rintro rfl
  exact h.working hget ⟨[], rfl, .inr ⟨rfl, by simp⟩⟩

theorem steady_step (h : Steady shim)
    (hallows : runCodexSdk.AnnouncesTurn AnnouncesChange (fun _ => True) shim turn) :
    Steady (shim.step machine turn) := by
  have hlive := @World.step_shared _ _ _ _ _ _ machine shim IsLive turn h.2
  refine ⟨oneProcess_step h.1 turn, hlive ?_ ?_⟩
  · rintro i input kind rfl hget haccepts
    exact (h.tells_receive hallows hget haccepts).2
  · rintro i succeeds kind ⟨⟩ rest _ hget
    exact (tells_spawnFailed (h.working hget (atWork_of_work rfl))).2

theorem announcements_writes {acts : List (ShimAct CodexKind CodexPoint)}
    (h : ∀ act ∈ acts, ∃ line, act = .write line none) : announcements (fun _ => []) acts = [] := by
  induction acts with
  | nil => rfl
  | cons act acts ih =>
    obtain ⟨⟨line, rfl⟩, hacts⟩ := List.forall_mem_cons.mp h
    exact ih hacts

theorem announcements_failed {kind : CodexKind} {line : AgentLine}
    {failed : Option (List (ShimEvent String) × Option CodexPoint)}
    {rest : List (ShimAct CodexKind CodexPoint)} (h : Tidy kind (.write line failed :: rest)) :
    announcements (fun _ => []) (failed.elim rest failedActs) = announcements (fun _ => []) rest := by
  have hquiet : ∀ branch ∈ failed, branch.1 = [] := h.2
  rcases failed with _ | ⟨events, point⟩
  · rfl
  · obtain rfl : events = [] := hquiet _ rfl
    rw [announcements_writes h.1]
    cases point <;> rfl

theorem tells_turn (h : Steady shim)
    (hallows : runCodexSdk.AnnouncesTurn AnnouncesChange (fun _ => True) shim turn) :
    @Runtime.Tells runCodexSdk (fun _ => []) shim turn := by
  refine ⟨?_, ?_, ?_⟩
  · rintro i input kind rfl hget haccepts
    exact (h.tells_receive hallows hget haccepts).1
  · rintro i succeeds kind ⟨⟩ rest _ hget
    exact ⟨_, rfl, (tells_spawnFailed (h.working hget (atWork_of_work rfl))).1⟩
  · rintro i kind line failed rest rfl hget
    exact announcements_failed (h.1.tidy _ (List.mem_of_getElem? hget) _ rfl)

end CodexState

/-! ### The Kiro runtime -/

/-- The session exists before the agent reports or ends anything, and a prompt fails only in a
turn at work. -/
def KiroState.AnnouncesChange (st : KiroState) : KiroInput → Prop
  | .errorResponse id message => st.pendingPromptRequestId = some id →
    detectContextExhausted (message.getD "unknown error") = false → st.state = .working
  | .metadata exhausted => exhausted = true → st.initialized = true
  | .stdoutEnd => st.initialized = true
  | .sendMessage _ | .hangUp | .resultResponse _ _ => True

namespace KiroState

/-- A queued message that was written is announced after its request is noted. -/
def owes : KiroPoint → List Change
  | .promptSent _ => [(.idle, .working)]

/-- The shim starts with its session. -/
structure Started (st : KiroState) : Prop where
  before : st.initialized = false → st.state = .starting ∧ st.pendingPromptRequestId = none
  after : st.initialized = true → st.state ≠ .starting

variable {st : KiroState}

theorem Started.initialized (h : st.Started) {id : Nat} (hid : st.pendingPromptRequestId = some id) :
    st.initialized = true := by
  by_contra hnot
  have hnone := (h.before (by simpa using hnot)).2
  rw [hid] at hnone
  cases hnone

/-- A section announces its change, and stays on its side of the session's start, or starts it. -/
structure TellsStarted (before : KiroState) (after : Section) : Prop where
  path : IsPath before.state.announced (announcements owes after.2) after.1.state.announced
  started : after.1.Started
  opened : before.initialized = true → after.1.initialized = true
  locks : ∀ act ∈ after.2, act.leadsToLock = true → before.initialized = true

theorem tells_same (h : st.Started) {rest : List (ShimAct KiroKind KiroPoint)}
    (hrest : rest = [] ∨ rest = [.stop]) : TellsStarted st (st, rest) := by
  rcases hrest with rfl | rfl <;>
    exact ⟨rfl, h, id, by simp⟩

theorem tells_sendMessage {message : QueuedMessage} (h : st.Started)
    (hinitialized : st.initialized = true) : TellsStarted st (st.sendMessage message) := by
  have hstarted := h.after hinitialized
  unfold sendMessage
  split
  · rename_i hstate
    refine ⟨?_, ⟨fun hnot => ?_, fun _ => by simp⟩, id, fun _ _ _ => hinitialized⟩
    · simp [announcements, announcements_sends, IsPath, ShimEvent.change?, ShimState.announced,
        hstate]
    · exact absurd hinitialized (by simpa using hnot)
  · exact ⟨by simp [IsPath], ⟨h.before, h.after⟩, id, fun _ _ _ => hinitialized⟩
  · exact ⟨rfl, h, id, fun _ _ _ => hinitialized⟩

theorem tells_exhaustContext (hinitialized : st.initialized = true)
    (hstarted : st.state ≠ .starting) : TellsStarted st st.exhaustContext := by
  refine ⟨?_, ⟨fun hnot => ?_, fun _ => by simp [exhaustContext]⟩, id, fun _ _ _ => hinitialized⟩
  · simp [exhaustContext, announcements, IsPath, ShimEvent.change?, ShimState.announced, hstarted]
  · exact absurd hinitialized (by simpa [exhaustContext] using hnot)

theorem tells_completePrompt (hinitialized : st.initialized = true)
    (hstarted : st.state ≠ .starting) : TellsStarted st st.completePrompt := by
  unfold completePrompt
  dsimp only
  split <;>
    refine ⟨?_, ⟨fun hnot => absurd hinitialized (by simpa using hnot), fun _ => by simp⟩, id,
      fun _ _ _ => hinitialized⟩ <;>
    simp [owes, announcements, IsPath, ShimEvent.change?, ShimState.announced, hstarted]

theorem tells_receive {kind : KiroKind} {input : KiroInput} (h : st.Started)
    (haccepts : runKiroAcp.machine.accepts kind input st = true) (hannounces : st.AnnouncesChange input) :
    TellsStarted st (receive kind input st) := by
  obtain rfl := KiroInput.kind_of_accepts haccepts
  cases input with
  | sendMessage message => exact tells_sendMessage h haccepts
  | hangUp => exact tells_same h (.inr rfl)
  | errorResponse id message =>
    simp only [receive, KiroInput.kind, errorResponse]
    split
    · rename_i hpending
      have hinitialized := h.initialized hpending
      split
      · have htells := @tells_exhaustContext { st with pendingPromptRequestId := none } hinitialized
          (h.after hinitialized)
        exact ⟨htells.path, htells.started, htells.opened, htells.locks⟩
      · rename_i hexhausted
        have hworking := hannounces hpending (by simpa using hexhausted)
        refine ⟨?_, ⟨fun hnot => absurd hinitialized (by simpa using hnot), fun _ => by simp⟩, fun h => h,
          fun _ _ _ => hinitialized⟩
        simp [announcements, IsPath, ShimEvent.change?, ShimState.announced, hworking]
    · exact tells_same h (.inl rfl)
  | resultResponse id sessionId =>
    simp only [receive, KiroInput.kind, resultResponse]
    split
    · exact ⟨rfl, ⟨h.before, h.after⟩, fun h => h, by simp⟩
    · split
      · rename_i hnot
        have hstate := (h.before (by simpa using hnot)).1
        split
        · refine ⟨?_, ⟨by simp, by simp⟩, fun _ => rfl, by simp⟩
          simp [announcements, IsPath, ShimEvent.change?, ShimState.announced, hstate]
        · exact tells_same h (.inl rfl)
      · rename_i hinitialized
        have hinitialized' : st.initialized = true := by simpa using hinitialized
        split
        · exact tells_completePrompt hinitialized' (h.after hinitialized')
        · exact tells_same h (.inl rfl)
  | metadata exhausted =>
    simp only [receive, KiroInput.kind, metadata]
    split
    · rename_i hexhausted
      have hinitialized := hannounces hexhausted
      exact tells_exhaustContext hinitialized (h.after hinitialized)
    · exact tells_same h (.inl rfl)
  | stdoutEnd =>
    have hinitialized : st.initialized = true := hannounces
    refine ⟨?_, ⟨fun hnot => ?_, fun _ => ?_⟩, fun h => h, fun _ _ _ => hinitialized⟩
    · simp [receive, KiroInput.kind, stdoutEnd, announcements, announcements_sends, IsPath,
        ShimEvent.change?, ShimState.announced, h.after hinitialized]
    · exact absurd hinitialized (by simpa [receive, KiroInput.kind, stdoutEnd] using hnot)
    · simp [receive, KiroInput.kind, stdoutEnd]

/-- The session is open wherever a further section is due. -/
def Steady (shim : KiroShim) : Prop :=
  shim.shared.Started ∧
    shim.EveryAct fun act => act.leadsToLock = true → shim.shared.initialized = true

variable {shim : KiroShim} {turn : Turn KiroInput}

theorem Steady.initialized (h : Steady shim) {i : Nat} {kind : KiroKind} {point : KiroPoint}
    {rest : List (ShimAct KiroKind KiroPoint)}
    (hget : shim.threads[i]? = some ⟨kind, some (.lock point :: rest)⟩) :
    shim.shared.initialized = true :=
  h.2 _ (List.mem_of_getElem? hget) _ rfl _ List.mem_cons_self rfl

theorem steady_step (h : Steady shim)
    (hallows : runKiroAcp.AnnouncesTurn AnnouncesChange (· = none) shim turn) :
    Steady (shim.step machine turn) := by
  have htells : ∀ {i : Nat} {input : KiroInput} {kind : KiroKind}, turn = .receive i input →
      shim.threads[i]? = some ⟨kind, some []⟩ → machine.accepts kind input shim.shared = true →
      TellsStarted shim.shared (receive kind input shim.shared) := by
    rintro i input kind rfl hget haccepts
    exact tells_receive h.1 haccepts (hallows kind hget haccepts)
  have hshared := @World.step_shared _ _ _ _ _ _ machine shim
    (fun st => st.Started ∧ (shim.shared.initialized = true → st.initialized = true)) turn
    ⟨h.1, id⟩
  have hstep := hshared (fun hturn hget haccepts =>
      ⟨(htells hturn hget haccepts).started, (htells hturn hget haccepts).opened⟩) <| by
    rintro i succeeds kind ⟨requestId⟩ rest _ hget
    have hinitialized := h.initialized hget
    refine ⟨⟨fun hnot => absurd hinitialized (by simpa [machine, promptSent] using hnot), ?_⟩, id⟩
    exact fun _ => h.1.after hinitialized
  refine ⟨hstep.1, h.2.step (fun act hact hlock => hstep.2 (hact hlock)) ?_ ?_ ?_ ?_⟩
  · intro i input kind hturn hget haccepts act hact hlock
    exact hstep.2 ((htells hturn hget haccepts).locks act hact hlock)
  · rintro i succeeds kind ⟨requestId⟩ rest _ hget act hact hlock
    exact hstep.2 (h.initialized hget)
  · intro line failed hline act hact hlock
    rcases failed with ⟨events, _ | point⟩
    · rw [leadsToLock_failedActs rfl act hact] at hlock
      cases hlock
    · exact hstep.2 (hline rfl)
  · exact fun hfork => ⟨fun hlock => hstep.2 (hfork hlock), nofun⟩

theorem tells_turn (h : Steady shim)
    (hallows : runKiroAcp.AnnouncesTurn AnnouncesChange (· = none) shim turn) :
    @Runtime.Tells runKiroAcp owes shim turn := by
  refine ⟨?_, ?_, ?_⟩
  · rintro i input kind rfl hget haccepts
    exact (tells_receive h.1 haccepts (hallows kind hget haccepts)).path
  · rintro i succeeds kind ⟨requestId⟩ rest _ hget
    exact ⟨[], rfl, rfl⟩
  · rintro i kind line failed rest rfl hget
    obtain rfl := hallows kind line failed rest hget rfl
    rfl

end KiroState

/-! ### Runs -/

/-- A runtime whose agent exchanges lines of JSON. -/
inductive LineRuntime where
  | sdk | codex | kiro

namespace LineRuntime

def runtime : LineRuntime → Runtime
  | sdk => runSdk
  | codex => runCodexSdk
  | kiro => runKiroAcp

/-- What a further section announces of the section before it. -/
def owes : ∀ name : LineRuntime, name.runtime.Point → List Change
  | sdk | codex => fun _ => []
  | kiro => KiroState.owes

/-- What an input may find. -/
def AnnouncesChange : ∀ name : LineRuntime, name.runtime.State → name.runtime.Input → Prop
  | sdk => SdkState.AnnouncesChange
  | codex => CodexState.AnnouncesChange
  | kiro => KiroState.AnnouncesChange

/-- What may follow the write that fails. A prompt or a message that is sent at once is not to
fail; a failed spawn is announced. -/
def MayFail : ∀ name : LineRuntime,
    Option (List (ShimEvent String) × Option name.runtime.Point) → Prop
  | sdk | kiro => fun failed => failed = none
  | codex => fun _ => True

/-- A run in which every change is announced and announcements are sent in the order of the
changes. -/
def Announces (name : LineRuntime) (turns : List (Turn name.runtime.Input)) : Prop :=
  Runtime.Announced name.owes (name.runtime.AnnouncesTurn name.AnnouncesChange name.MayFail)
    name.runtime.start [] turns

end LineRuntime

/-- A shim whose threads all wait, and which has announced nothing. -/
theorem Runtime.owing_of_waits {runtime : Runtime} {owes : runtime.Point → List Change}
    {shim : runtime.Shim} (hwaits : ∀ thread ∈ shim.threads, thread.acts = some [])
    (hpath : IsPath .idle (shim.sent.filterMap ShimEvent.change?)
      (runtime.state shim.shared).announced) : Owing owes shim [] := by
  refine ⟨fun i => ?_, by simpa using hpath⟩
  cases hthread : shim.threads[i]? with
  | none => simp [owedBy, hthread, announcements]
  | some thread =>
    simp [owedBy, hthread, hwaits thread (List.mem_of_getElem? hthread), announcements]

theorem everyAct_of_waits {State Input Kind Point : Type} {shim : ShimWorld State Input Kind Point}
    {P : ShimAct Kind Point → Prop} (hwaits : ∀ thread ∈ shim.threads, thread.acts = some []) :
    shim.EveryAct P := by
  intro thread hmem acts hacts
  rw [hwaits thread hmem] at hacts
  exact Option.some.inj hacts ▸ List.forall_mem_nil _

/-- **The stream of events describes the state** where every change is announced in its turn. -/
theorem describes_of_announced (name : LineRuntime) {turns : List (Turn name.runtime.Input)}
    (h : name.Announces turns) :
    ∀ shim ∈ name.runtime.through turns, Runtime.Describes name.owes shim := by
  cases name with
  | sdk =>
    have hwaits : ∀ thread ∈ runSdk.start.threads, thread.acts = some [] :=
      List.forall_mem_cons.mpr ⟨rfl, List.forall_mem_singleton.mpr rfl⟩
    exact Runtime.describes_of_tells (fun _ _ => SdkState.steady_step)
      (fun _ _ => SdkState.tells_turn) ⟨everyAct_of_waits hwaits, fun hstate => nomatch hstate⟩
      (Runtime.owing_of_waits hwaits rfl) h
  | codex =>
    have hwaits : ∀ thread ∈ runCodexSdk.start.threads, thread.acts = some [] :=
      List.forall_mem_singleton.mpr rfl
    exact Runtime.describes_of_tells (fun _ _ => CodexState.steady_step)
      (fun _ _ => CodexState.tells_turn) ⟨oneProcess_start, ⟨nofun, nofun⟩⟩
      (Runtime.owing_of_waits hwaits rfl) h
  | kiro =>
    have hwaits : ∀ thread ∈ runKiroAcp.start.threads, thread.acts = some [] :=
      List.forall_mem_cons.mpr ⟨rfl, List.forall_mem_singleton.mpr rfl⟩
    have hstarted : runKiroAcp.start.shared.Started :=
      ⟨fun _ => ⟨rfl, rfl⟩, fun hopened => nomatch hopened⟩
    exact Runtime.describes_of_tells (fun _ _ => KiroState.steady_step)
      (fun _ _ => KiroState.tells_turn) ⟨hstarted, everyAct_of_waits hwaits⟩
      (Runtime.owing_of_waits hwaits rfl) h

def promptMessage : QueuedMessage := { sender := "manager", body := "go", messageId := none }

/-- A message is written, and the turn that it opens is announced. -/
def openedTurns : List (Turn SdkInput) :=
  [.receive 0 (.sendMessage promptMessage), .go 0 true, .go 0 true]

/-- A turn that is opened. -/
theorem describes_of_announced_opened :
    (runSdk.through openedTurns).length = 4 ∧
      ∀ shim ∈ runSdk.through openedTurns, Runtime.Describes (fun _ => []) shim := by
  refine ⟨rfl, describes_of_announced .sdk ⟨?_, trivial, ?_, ?_, ?_, ?_, trivial⟩⟩
  · exact fun _ _ _ => trivial
  · exact fun _ _ _ _ _ h => nomatch h
  · rintro kind event rest ⟨⟩
  · exact fun _ _ _ _ _ h => nomatch h
  · rintro kind event rest hget _
    rfl

/-- The write fails, so that nobody hears of the turn. -/
def unheardTurns : List (Turn SdkInput) :=
  [.receive 0 (.sendMessage promptMessage), .go 0 false, .go 0 true]

/-- The shim is at work and at rest, and the stream says nothing. -/
theorem not_describes_unheard :
    ¬ ∀ (name : LineRuntime) (turns : List (Turn name.runtime.Input)),
      ∀ shim ∈ name.runtime.through turns, Runtime.Describes name.owes shim := by
  intro h
  obtain ⟨shim, hmem, hwaits, hstate, hsent⟩ : ∃ shim ∈ runSdk.through unheardTurns,
      (∀ thread ∈ shim.threads, thread.acts = some []) ∧ shim.shared.state = .working ∧
        shim.sent.filterMap ShimEvent.change? = [] := by
    refine ⟨_, List.mem_cons_of_mem _ (List.mem_cons_of_mem _ (List.mem_cons_of_mem _
      List.mem_cons_self)), ?_, rfl, rfl⟩
    exact List.forall_mem_cons.mpr ⟨rfl, List.forall_mem_singleton.mpr rfl⟩
  have hsettled := (h .sdk unheardTurns shim hmem).settled
    (fun thread hthread => by rw [hwaits thread hthread]; rfl) fun hstarting => by
      have hboth : shim.shared.state = .starting := hstarting
      rw [hstate] at hboth
      cases hboth
  rw [hsent] at hsettled
  have hidle : ShimState.idle = shim.shared.state := hsettled
  rw [hstate] at hidle
  cases hidle

end Batty
