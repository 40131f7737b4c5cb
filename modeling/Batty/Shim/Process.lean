import Batty.Shim.Codex

/-!
# One process at a time

The Codex runtime starts a thread for every message that finds it idle, and nothing but the state
keeps it from starting two. A thread is *at work* if it is about to spawn a process, or reads from
one. `OneProcess`: at most one thread is at work, and while one is, the shim is not idle.
-/

namespace Batty

section

variable {Kind Point Line Event : Type}

/-- An act other than a send. -/
def Act.isWork : Act Kind Point Line Event → Bool
  | write _ _ | lock _ | fork _ _ _ _ => true
  | send _ | stop => false

@[simp] theorem Act.isWork_send (event : Event) :
    (send event : Act Kind Point Line Event).isWork = false := rfl

@[simp] theorem Act.isWork_stop : (stop : Act Kind Point Line Event).isWork = false := rfl

@[simp] theorem Act.isWork_write (line : Line) (failed : Option (List Event × Option Point)) :
    (write line failed : Act Kind Point Line Event).isWork = true := rfl

@[simp] theorem Act.isWork_lock (point : Point) :
    (lock point : Act Kind Point Line Event).isWork = true := rfl

@[simp] theorem Act.isWork_fork (kind : Kind) (line next : Line)
    (failed : Option (List Event × Option Point)) :
    (fork kind line failed next : Act Kind Point Line Event).isWork = true := rfl

end

abbrev CodexThread := Thread CodexKind CodexPoint AgentLine (ShimEvent String)

/-- The thread is about to spawn a process, or reads from one. -/
def AtWork (thread : CodexThread) : Prop :=
  ∃ acts, thread.acts = some acts ∧
    (acts.any Act.isWork ∨ thread.kind = .exec ∧ Act.stop ∉ acts)

/-- Nothing but writes whose failure changes nothing follows an act other than a send or the return,
any other failure goes straight to a further section, and only commands start threads. -/
def Tidy (kind : CodexKind) : List (ShimAct CodexKind CodexPoint) → Prop
  | [] => True
  | .send _ :: acts | .stop :: acts => Tidy kind acts
  | .write _ failed :: acts =>
    (∀ act ∈ acts, ∃ line, act = .write line none) ∧ ∀ branch ∈ failed, branch.1 = []
  | .lock _ :: acts => acts = []
  | .fork _ _ failed _ :: acts => acts = [] ∧ (∀ branch ∈ failed, branch.1 = []) ∧ kind = .command

def ShimState.isBusy (state : ShimState) : Prop := state = .working ∨ state = .dead

/-- One thread at most has a process, and the shim is busy while it has. -/
structure OneProcess (threads : List CodexThread) (state : ShimState) : Prop where
  tidy : ∀ thread ∈ threads, ∀ acts ∈ thread.acts, Tidy thread.kind acts
  alone : ∀ {i j : Nat} {thread thread' : CodexThread}, threads[i]? = some thread →
    threads[j]? = some thread' → AtWork thread → AtWork thread' → i = j
  busy : ∀ thread ∈ threads, AtWork thread → state.isBusy

theorem tidy_sends {kind : CodexKind} (events : List (ShimEvent String))
    {acts : List (ShimAct CodexKind CodexPoint)} :
    Tidy kind (events.map .send ++ acts) ↔ Tidy kind acts := by
  induction events with
  | nil => rfl
  | cons event events ih => exact ih

theorem tidy_map {kind : CodexKind} (events : List (ShimEvent String)) :
    Tidy kind (events.map .send : List (ShimAct CodexKind CodexPoint)) := by
  have htidy := (@tidy_sends kind events []).mpr trivial
  rwa [List.append_nil] at htidy

theorem tidy_writes {kind : CodexKind} {acts : List (ShimAct CodexKind CodexPoint)}
    (h : ∀ act ∈ acts, ∃ line, act = .write line none) : Tidy kind acts := by
  cases acts with
  | nil => trivial
  | cons act acts =>
    obtain ⟨⟨line, rfl⟩, hacts⟩ := List.forall_mem_cons.mp h
    exact ⟨hacts, by simp⟩

theorem tidy_tail {kind : CodexKind} {act : ShimAct CodexKind CodexPoint}
    {acts : List (ShimAct CodexKind CodexPoint)} (h : Tidy kind (act :: acts)) : Tidy kind acts := by
  cases act with
  | send event => exact h
  | stop => exact h
  | write line failed => exact tidy_writes h.1
  | lock point =>
    obtain rfl : acts = [] := h
    trivial
  | fork new line failed next =>
    obtain rfl : acts = [] := h.1
    trivial

section

variable {threads : List CodexThread} {state state' : ShimState} {i : Nat} {before : CodexThread}
  {kind : CodexKind} {acts : Option (List (ShimAct CodexKind CodexPoint))}

theorem tidy_set (h : OneProcess threads state) (htidy : ∀ acts' ∈ acts, Tidy kind acts') :
    ∀ thread ∈ threads.set i ⟨kind, acts⟩, ∀ acts' ∈ thread.acts, Tidy thread.kind acts' := by
  intro thread hmem acts' hacts'
  rcases List.mem_or_eq_of_mem_set hmem with hmem | rfl
  · exact h.tidy thread hmem acts' hacts'
  · exact htidy acts' hacts'

/-- A thread goes on with other acts, at work only if it was. -/
theorem OneProcess.goesOn (h : OneProcess threads state) (hget : threads[i]? = some before)
    (htidy : ∀ acts' ∈ acts, Tidy kind acts') (hwork : AtWork ⟨kind, acts⟩ → AtWork before)
    (hbusy : state.isBusy → state'.isBusy) :
    OneProcess (threads.set i ⟨kind, acts⟩) state' := by
  have hbefore : ∀ {j : Nat} {thread : CodexThread},
      (threads.set i ⟨kind, acts⟩)[j]? = some thread → AtWork thread →
      ∃ thread', threads[j]? = some thread' ∧ AtWork thread' := by
    intro j thread hj hthread
    rcases get_set hget hj with ⟨rfl, rfl⟩ | ⟨-, hj⟩
    · exact ⟨before, hget, hwork hthread⟩
    · exact ⟨thread, hj, hthread⟩
  refine ⟨tidy_set h htidy, fun hi hj hone htwo => ?_, fun thread hmem hthread => ?_⟩
  · obtain ⟨one, hget', hone'⟩ := hbefore hi hone
    obtain ⟨two, hget'', htwo'⟩ := hbefore hj htwo
    exact h.alone hget' hget'' hone' htwo'
  · obtain ⟨j, hj⟩ := List.getElem?_of_mem hmem
    obtain ⟨thread', hget', hthread'⟩ := hbefore hj hthread
    exact hbusy (h.busy thread' (List.mem_of_getElem? hget') hthread')

/-- The thread at work takes a section that leaves the shim busy, or leaves the thread no work. -/
theorem OneProcess.section (h : OneProcess threads state) (hget : threads[i]? = some before)
    (hbefore : AtWork before) (htidy : ∀ acts' ∈ acts, Tidy kind acts')
    (hwork : AtWork ⟨kind, acts⟩ → state'.isBusy) :
    OneProcess (threads.set i ⟨kind, acts⟩) state' := by
  have hset : OneProcess (threads.set i ⟨kind, acts⟩) state :=
    h.goesOn hget htidy (fun _ => hbefore) fun hbusy => hbusy
  refine ⟨hset.tidy, hset.alone, fun thread hmem hthread => ?_⟩
  obtain ⟨j, hj⟩ := List.getElem?_of_mem hmem
  rcases get_set hget hj with ⟨rfl, rfl⟩ | ⟨hij, hj⟩
  · exact hwork hthread
  · exact absurd (h.alone hget hj hbefore hthread) hij

/-- No thread is at work in a shim that is not busy, and one goes to work. -/
theorem OneProcess.starts (h : OneProcess threads state) (hget : threads[i]? = some before)
    (hidle : ¬ state.isBusy) (htidy : ∀ acts' ∈ acts, Tidy kind acts') (hbusy : state'.isBusy) :
    OneProcess (threads.set i ⟨kind, acts⟩) state' := by
  have hi : ∀ {j : Nat} {thread : CodexThread},
      (threads.set i ⟨kind, acts⟩)[j]? = some thread → AtWork thread → i = j := by
    intro j thread hj hthread
    rcases get_set hget hj with ⟨rfl, rfl⟩ | ⟨-, hj⟩
    · rfl
    · exact absurd (h.busy thread (List.mem_of_getElem? hj) hthread) hidle
  exact ⟨tidy_set h htidy, fun hone htwo hone' htwo' => (hi hone hone').symm.trans (hi htwo htwo'),
    fun _ _ _ => hbusy⟩

/-- The thread at work hands its work to a new thread. -/
theorem OneProcess.hands (h : OneProcess threads state) (hget : threads[i]? = some before)
    (hbefore : AtWork before) (hwork : ¬ AtWork ⟨.command, some []⟩) {new : CodexKind}
    {line next : AgentLine} {failed : Option (List (ShimEvent String) × Option CodexPoint)}
    (hfailed : ∀ branch ∈ failed, branch.1 = []) :
    OneProcess (threads.set i ⟨.command, some []⟩ ++
      [⟨new, some [.write line failed, .write next none]⟩]) state := by
  have hset : OneProcess (threads.set i ⟨.command, some []⟩) state :=
    h.goesOn hget (fun acts hacts => Option.some.inj hacts ▸ trivial) (fun hwork' => absurd hwork' hwork)
      id
  have hnone : ∀ thread ∈ threads.set i ⟨.command, some []⟩, ¬ AtWork thread := by
    intro thread hmem hthread
    obtain ⟨j, hj⟩ := List.getElem?_of_mem hmem
    rcases get_set hget hj with ⟨rfl, rfl⟩ | ⟨hij, hj⟩
    · exact hwork hthread
    · exact hij (h.alone hget hj hbefore hthread)
  have hlast : ∀ {j : Nat} {thread : CodexThread},
      (threads.set i ⟨.command, some []⟩ ++
        [⟨new, some [.write line failed, .write next none]⟩])[j]? = some thread → AtWork thread →
        j = threads.length := by
    intro j thread hj hthread
    rcases Nat.lt_trichotomy j threads.length with hlt | heq | hgt
    · rw [List.getElem?_append_left (by simpa using hlt)] at hj
      exact absurd hthread (hnone thread (List.mem_of_getElem? hj))
    · exact heq
    · rw [List.getElem?_eq_none (by simp; omega)] at hj
      cases hj
  refine ⟨fun thread hmem acts hacts => ?_, fun hi hj hone htwo => ?_, fun thread hmem hthread => ?_⟩
  · rcases List.mem_append.mp hmem with hmem | hmem
    · exact hset.tidy thread hmem acts hacts
    · obtain rfl := List.mem_singleton.mp hmem
      obtain rfl := Option.some.inj hacts
      exact ⟨List.forall_mem_singleton.mpr ⟨next, rfl⟩, hfailed⟩
  · exact (hlast hi hone).trans (hlast hj htwo).symm
  · exact h.busy before (List.mem_of_getElem? hget) hbefore

end

/-! ### Steps -/

theorem atWork_of_work {kind : CodexKind} {act : ShimAct CodexKind CodexPoint}
    {acts : List (ShimAct CodexKind CodexPoint)} (h : act.isWork = true) :
    AtWork ⟨kind, some (act :: acts)⟩ :=
  ⟨_, rfl, .inl (by simp [h])⟩

theorem not_atWork_sends {events : List (ShimEvent String)} :
    ¬ AtWork ⟨.command, some (events.map .send)⟩ := by
  rintro ⟨acts, hacts, hwork | ⟨hkind, -⟩⟩
  · obtain rfl := Option.some.inj hacts
    simp [Function.comp_def] at hwork
  · cases hkind

/-- At the start there is nothing but the command thread. -/
theorem oneProcess_start : OneProcess runCodexSdk.start.threads runCodexSdk.start.shared.state := by
  have hwork : ∀ thread ∈ runCodexSdk.start.threads, ¬ AtWork thread := by
    intro thread hmem hthread
    obtain rfl := List.mem_singleton.mp hmem
    exact @not_atWork_sends [] hthread
  refine ⟨fun thread hmem acts hacts => ?_, fun hget _ hthread => ?_, fun thread hmem hthread => ?_⟩
  · obtain rfl := List.mem_singleton.mp hmem
    obtain rfl := Option.some.inj hacts
    trivial
  · exact absurd hthread (hwork _ (List.mem_of_getElem? hget))
  · exact absurd hthread (hwork thread hmem)

theorem not_atWork_stop {kind : CodexKind} {events : List (ShimEvent String)} :
    ¬ AtWork ⟨kind, some (events.map .send ++ [.stop])⟩ := by
  rintro ⟨acts, hacts, hwork | ⟨-, hstop⟩⟩
  · obtain rfl := Option.some.inj hacts
    simp [Function.comp_def] at hwork
  · obtain rfl := Option.some.inj hacts
    exact hstop (by simp)

namespace CodexState

variable {st : CodexState} {threads : List CodexThread} {i : Nat}

theorem oneProcess_deliver {state : ShimState} (h : OneProcess threads state)
    (hstate : st.state = state) (hget : threads[i]? = some ⟨.command, some []⟩)
    (message : QueuedMessage) :
    OneProcess (threads.set i ⟨.command, some (st.deliver message).2⟩)
      (st.deliver message).1.state := by
  subst hstate
  unfold deliver
  split
  · rename_i hidle
    refine h.starts hget (by simp [hidle, ShimState.isBusy]) ?_ (.inl rfl)
    intro acts hacts
    obtain rfl := Option.some.inj hacts
    rw [List.append_assoc]
    exact (tidy_sends [.stateChanged .idle .working]).mpr ((tidy_sends _).mpr ⟨rfl, by simp, rfl⟩)
  · refine h.goesOn hget ?_ (fun hwork => absurd hwork not_atWork_sends) id
    intro acts hacts
    obtain rfl := Option.some.inj hacts
    exact tidy_map _
  · refine h.goesOn hget ?_ (fun hwork => absurd hwork ?_) id
    · intro acts hacts
      obtain rfl := Option.some.inj hacts
      exact tidy_map [refusal _]
    · exact @not_atWork_sends [refusal _]

/-- A section of the thread at work after which the thread returns. -/
theorem oneProcess_returns {state state' : ShimState} (h : OneProcess threads state)
    {before : CodexThread} {kind : CodexKind} (hget : threads[i]? = some before)
    (hbefore : AtWork before) (events : List (ShimEvent String)) :
    OneProcess (threads.set i ⟨kind, some (events.map .send ++ [.stop])⟩) state' := by
  refine h.section hget hbefore ?_ fun hwork => absurd hwork not_atWork_stop
  intro acts hacts
  obtain rfl := Option.some.inj hacts
  exact (tidy_sends _).mpr trivial

theorem oneProcess_receive {kind : CodexKind} {input : CodexInput} (hkind : input.kind = kind)
    (h : OneProcess threads st.state) (hget : threads[i]? = some ⟨kind, some []⟩) :
    OneProcess (threads.set i ⟨kind, some (receive kind input st).2⟩)
      (receive kind input st).1.state := by
  have hsame : ∀ {kind}, threads[i]? = some ⟨kind, some []⟩ →
      OneProcess (threads.set i ⟨kind, some []⟩) st.state := fun hget =>
    h.goesOn hget (fun acts hacts => Option.some.inj hacts ▸ trivial) id id
  have hexec : AtWork ⟨.exec, some []⟩ := ⟨[], rfl, .inr ⟨rfl, by simp⟩⟩
  have hstop : ∀ acts ∈ some [Act.stop], Tidy .command acts := fun acts hacts => by
    obtain rfl := Option.some.inj hacts
    trivial
  subst hkind
  cases input with
  | sendMessage message now =>
    simp only [receive, CodexInput.kind, sendMessage] at hget ⊢
    split
    · split
      · refine h.goesOn hget ?_ (fun hwork => absurd hwork (@not_atWork_sends [_])) id
        intro acts hacts
        obtain rfl := Option.some.inj hacts
        exact tidy_map [_]
      · have hdeliver := @oneProcess_deliver { st with quotaBlockedUntil := none } threads i _ h rfl
          hget message
        exact hdeliver
    · exact oneProcess_deliver h rfl hget message
  | shutdown =>
    exact h.goesOn hget hstop (fun hwork => absurd hwork (@not_atWork_stop .command []))
      fun _ => .inr rfl
  | hangUp =>
    exact h.goesOn hget hstop (fun hwork => absurd hwork (@not_atWork_stop .command [])) id
  | turnFailed error retryAt =>
    simp only [receive, CodexInput.kind, turnFailed] at hget ⊢
    split
    · exact oneProcess_returns h hget hexec (_ :: drainQueueErrors _ _)
    · split
      · exact oneProcess_returns h hget hexec (_ :: drainQueueErrors _ _)
      · split
        · exact oneProcess_returns h hget hexec (_ :: drainQueueErrors _ _)
        · exact hsame hget
  | error error retryAt =>
    simp only [receive, CodexInput.kind, CodexState.error] at hget ⊢
    split
    · exact oneProcess_returns h hget hexec (_ :: drainQueueErrors _ _)
    · split
      · exact oneProcess_returns h hget hexec (_ :: drainQueueErrors _ _)
      · exact hsame hget
  | stdoutEnd =>
    simp only [receive, CodexInput.kind, stdoutEnd] at hget ⊢
    split
    · exact oneProcess_returns h hget hexec [_, _]
    · refine h.section hget hexec ?_ fun _ => .inl rfl
      intro acts hacts
      obtain rfl := Option.some.inj hacts
      exact (tidy_sends [_, _, _]).mpr ⟨List.forall_mem_singleton.mpr ⟨_, rfl⟩, by simp⟩

end CodexState

/-- **One process at a time**, whatever the threads do. -/
theorem oneProcess_step {shim : CodexShim} (h : OneProcess shim.threads shim.shared.state)
    (turn : Turn CodexInput) :
    OneProcess (shim.step CodexState.machine turn).threads
      (shim.step CodexState.machine turn).shared.state := by
  refine @World.step_of_stepped _ _ _ _ _ _ CodexState.machine shim
    (fun shim => OneProcess shim.threads shim.shared.state) turn h fun {i kind shim'} hstepped => ?_
  have hthread : ∀ {act acts}, shim.threads[i]? = some ⟨kind, some (act :: acts)⟩ →
      Tidy kind (act :: acts) := fun hget => h.tidy _ (List.mem_of_getElem? hget) _ rfl
  have hwork : ∀ {act acts}, shim.threads[i]? = some ⟨kind, some (act :: acts)⟩ →
      act ≠ .stop → AtWork ⟨kind, some acts⟩ → AtWork ⟨kind, some (act :: acts)⟩ := by
    rintro act acts - hstop ⟨acts', hacts, hwork⟩
    obtain rfl := Option.some.inj hacts
    refine ⟨_, rfl, hwork.imp (fun hany => by simp [hany]) fun hexec => ⟨hexec.1, ?_⟩⟩
    simpa [Ne.symm hstop] using hexec.2
  cases hstepped with
  | receive input hget haccepts =>
    exact CodexState.oneProcess_receive (of_decide_eq_true haccepts) h hget
  | send succeeds event hget =>
    refine h.goesOn hget ?_ (hwork hget (by simp)) id
    exact fun acts hacts => Option.some.inj hacts ▸ tidy_tail (hthread hget)
  | written line hget =>
    refine h.goesOn hget ?_ (hwork hget (by simp)) id
    exact fun acts hacts => Option.some.inj hacts ▸ tidy_tail (hthread hget)
  | @failed line failed rest hget =>
    refine h.goesOn hget ?_ (fun _ => atWork_of_work rfl) id
    intro acts hacts
    obtain rfl := Option.some.inj hacts
    cases failed with
    | none => exact tidy_tail (hthread hget)
    | some failed =>
      refine (tidy_sends failed.1).mpr ?_
      cases failed.2 with
      | none => trivial
      | some point => rfl
  | lock succeeds point hget =>
    cases point with
    | spawnFailed =>
      exact CodexState.oneProcess_returns h hget (atWork_of_work rfl) [_, _, _]
  | @fork succeeds new line next failed rest hget =>
    obtain ⟨hlast, hfailed, rfl⟩ := hthread hget
    subst hlast
    exact h.hands hget (atWork_of_work rfl) (@not_atWork_sends []) hfailed
  | @stop succeeds rest hget =>
    refine h.goesOn hget (fun acts hacts => nomatch hacts) ?_ id
    rintro ⟨acts, hacts, -⟩
    cases hacts

end Batty
