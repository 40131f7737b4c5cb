import Mathlib.Algebra.BigOperators.Group.List.Basic
import Mathlib.Algebra.Order.Ring.Int
import Mathlib.Data.List.Basic

/-!
# Threads that share a locked state

Several threads take turns at one state behind a lock, speak on one channel and write to one
process. Whatever a thread does between two inputs is a section under the lock followed by a
list of acts: sends, writes, a further section, the start of another thread. One act is one
atomic step, and the threads take their steps in any order.

* `Machine`: what a thread of each kind does with an input, and at each further section.
* `World.step`: one atomic step, of a thread that is named by its place in the list.
* `through_of_steps`: what every allowed step keeps holds in every state of an allowed run.
* `Settles.step`: where every section settles its account, the total over state, threads,
  channel and process grows by the inputs alone.
-/

namespace Batty

/-- What a thread has left to do before it waits for its next input. A write that fails goes on
with `failed` where that is given, and with what follows where not. A new thread begins with two
writes, the second of which may fail without consequence. -/
inductive Act (Kind Point Line Event : Type) where
  | send (event : Event)
  | write (line : Line) (failed : Option (List Event × Option Point))
  | lock (point : Point)
  | fork (kind : Kind) (line : Line) (failed : Option (List Event × Option Point)) (next : Line)
  | stop

variable {State Input Kind Point Line Event : Type}

/-- The act is a further section, or may lead to one. -/
def Act.leadsToLock : Act Kind Point Line Event → Bool
  | lock _ => true
  | write _ failed | fork _ _ failed _ => (failed.bind Prod.snd).isSome
  | send _ | stop => false

section

variable {Kind Point Line Event : Type}

@[simp] theorem Act.leadsToLock_send (event : Event) :
    (send event : Act Kind Point Line Event).leadsToLock = false := rfl

@[simp] theorem Act.leadsToLock_stop : (stop : Act Kind Point Line Event).leadsToLock = false := rfl

@[simp] theorem Act.leadsToLock_write (line : Line) (failed : Option (List Event × Option Point)) :
    (write line failed : Act Kind Point Line Event).leadsToLock =
      (failed.bind Prod.snd).isSome := rfl

end

/-- What follows a failed write. -/
def failedActs (failed : List Event × Option Point) : List (Act Kind Point Line Event) :=
  failed.1.map .send ++ failed.2.toList.map .lock

theorem leadsToLock_failedActs {failed : List Event × Option Point} (h : failed.2 = none) :
    ∀ act ∈ (failedActs failed : List (Act Kind Point Line Event)), act.leadsToLock = false := by
  simp [failedActs, h]

/-- What the threads do. A section that is reached by `lock` decides all that follows it. -/
structure Machine (State Input Kind Point Line Event : Type) where
  accepts : Kind → Input → State → Bool
  receive : Kind → Input → State → State × List (Act Kind Point Line Event)
  resume : Point → State → State × List (Act Kind Point Line Event)

/-- A thread, with nothing left to do while it waits and with no acts once it has returned. -/
structure Thread (Kind Point Line Event : Type) where
  kind : Kind
  acts : Option (List (Act Kind Point Line Event))

/-- A program of several threads, with all that went in and out. -/
structure World (State Input Kind Point Line Event : Type) where
  shared : State
  threads : List (Thread Kind Point Line Event)
  /-- The inputs taken so far, which the program does not keep. -/
  received : List Input
  sent : List Event
  written : List Line

/-- One atomic step: a waiting thread takes an input, or a busy one performs its next act. -/
inductive Turn (Input : Type) where
  | receive (thread : Nat) (input : Input)
  | go (thread : Nat) (succeeds : Bool)

namespace World

def setActs (world : World State Input Kind Point Line Event) (i : Nat) (kind : Kind)
    (acts : Option (List (Act Kind Point Line Event))) : World State Input Kind Point Line Event :=
  { world with threads := world.threads.set i { kind, acts } }

/-- What an act does. -/
def perform (machine : Machine State Input Kind Point Line Event)
    (world : World State Input Kind Point Line Event) (i : Nat) (kind : Kind)
    (rest : List (Act Kind Point Line Event)) (succeeds : Bool) :
    Act Kind Point Line Event → World State Input Kind Point Line Event
  | .send event => { world.setActs i kind (some rest) with sent := world.sent ++ [event] }
  | .write line failed =>
    if succeeds then { world.setActs i kind (some rest) with written := world.written ++ [line] }
    else world.setActs i kind (some (failed.elim rest failedActs))
  | .lock point =>
    let (shared, acts) := machine.resume point world.shared
    { world.setActs i kind (some acts) with shared }
  | .fork new line failed next =>
    { world with
      threads := (world.threads.set i { kind, acts := some rest }) ++
        [{ kind := new, acts := some [.write line failed, .write next none] }] }
  | .stop => world.setActs i kind none

/-- One step of a thread: it takes an input, or performs its next act. -/
def step (machine : Machine State Input Kind Point Line Event)
    (world : World State Input Kind Point Line Event) :
    Turn Input → World State Input Kind Point Line Event
  | .receive i input =>
    match world.threads[i]? with
    | some ⟨kind, some []⟩ =>
      if machine.accepts kind input world.shared then
        let (shared, acts) := machine.receive kind input world.shared
        { world.setActs i kind (some acts) with shared, received := world.received ++ [input] }
      else world
    | _ => world
  | .go i succeeds =>
    match world.threads[i]? with
    | some ⟨kind, some (act :: rest)⟩ => world.perform machine i kind rest succeeds act
    | _ => world

/-- The states of a run. -/
def through (machine : Machine State Input Kind Point Line Event)
    (world : World State Input Kind Point Line Event) :
    List (Turn Input) → List (World State Input Kind Point Line Event)
  | [] => [world]
  | turn :: turns => world :: (world.step machine turn).through machine turns

/-- Every turn of the run is allowed in the state it finds. -/
def Allowed (machine : Machine State Input Kind Point Line Event)
    (Allows : World State Input Kind Point Line Event → Turn Input → Prop) :
    World State Input Kind Point Line Event → List (Turn Input) → Prop
  | _, [] => True
  | world, turn :: turns => Allows world turn ∧ Allowed machine Allows (world.step machine turn) turns

variable {machine : Machine State Input Kind Point Line Event}
  {world : World State Input Kind Point Line Event}

/-- **The rule of invariants.** -/
theorem through_of_steps {Allows : World State Input Kind Point Line Event → Turn Input → Prop}
    {Inv : World State Input Kind Point Line Event → Prop}
    (hstep : ∀ world turn, Inv world → Allows world turn → Inv (world.step machine turn)) :
    ∀ {turns : List (Turn Input)} {world : World State Input Kind Point Line Event}, Inv world →
      Allowed machine Allows world turns → ∀ world' ∈ world.through machine turns, Inv world'
  | [], world, hinv, _, world', hmem => by
    rw [through, List.mem_singleton] at hmem
    exact hmem ▸ hinv
  | turn :: turns, world, hinv, hallowed, world', hmem => by
    rw [through, List.mem_cons] at hmem
    rcases hmem with rfl | hmem
    · exact hinv
    · exact through_of_steps hstep (hstep world turn hinv hallowed.1) hallowed.2 world' hmem

theorem allowed_true : ∀ (turns : List (Turn Input)) (world : World State Input Kind Point Line Event),
    Allowed machine (fun _ _ => True) world turns
  | [], _ => trivial
  | _ :: turns, _ => ⟨trivial, allowed_true turns _⟩

/-- What a turn finds and does, where it does anything. -/
inductive Stepped (machine : Machine State Input Kind Point Line Event)
    (world : World State Input Kind Point Line Event) (i : Nat) (kind : Kind) :
    Turn Input → World State Input Kind Point Line Event → Prop where
  | receive (input : Input) :
      world.threads[i]? = some ⟨kind, some []⟩ → machine.accepts kind input world.shared = true →
      Stepped machine world i kind (.receive i input)
        { world.setActs i kind (some (machine.receive kind input world.shared).2) with
          shared := (machine.receive kind input world.shared).1
          received := world.received ++ [input] }
  | send (succeeds : Bool) (event : Event) {rest} :
      world.threads[i]? = some ⟨kind, some (.send event :: rest)⟩ →
      Stepped machine world i kind (.go i succeeds)
        { world.setActs i kind (some rest) with sent := world.sent ++ [event] }
  | written (line : Line) {failed rest} :
      world.threads[i]? = some ⟨kind, some (.write line failed :: rest)⟩ →
      Stepped machine world i kind (.go i true)
        { world.setActs i kind (some rest) with written := world.written ++ [line] }
  | failed (line : Line) {failed rest} :
      world.threads[i]? = some ⟨kind, some (.write line failed :: rest)⟩ →
      Stepped machine world i kind (.go i false)
        (world.setActs i kind (some (failed.elim rest failedActs)))
  | lock (succeeds : Bool) (point : Point) {rest} :
      world.threads[i]? = some ⟨kind, some (.lock point :: rest)⟩ →
      Stepped machine world i kind (.go i succeeds)
        { world.setActs i kind (some (machine.resume point world.shared).2) with
          shared := (machine.resume point world.shared).1 }
  | fork (succeeds : Bool) (new : Kind) (line next : Line) {failed rest} :
      world.threads[i]? = some ⟨kind, some (.fork new line failed next :: rest)⟩ →
      Stepped machine world i kind (.go i succeeds)
        { world with
          threads := (world.threads.set i ⟨kind, some rest⟩) ++
            [⟨new, some [.write line failed, .write next none]⟩] }
  | stop (succeeds : Bool) {rest} :
      world.threads[i]? = some ⟨kind, some (.stop :: rest)⟩ →
      Stepped machine world i kind (.go i succeeds) (world.setActs i kind none)

/-- A turn does nothing, or takes one of the steps. -/
theorem step_cases (turn : Turn Input) :
    world.step machine turn = world ∨
      ∃ i kind, Stepped machine world i kind turn (world.step machine turn) := by
  cases turn with
  | receive i input =>
    by_cases hstep : ∃ kind, world.threads[i]? = some ⟨kind, some []⟩ ∧
        machine.accepts kind input world.shared = true
    · obtain ⟨kind, hthread, haccepts⟩ := hstep
      refine .inr ⟨i, kind, ?_⟩
      rw [step, hthread]
      simp only [haccepts, if_true]
      exact .receive input hthread haccepts
    · refine .inl ?_
      rw [step]
      split
      · rename_i kind hthread
        rw [if_neg fun haccepts => hstep ⟨kind, hthread, haccepts⟩]
      · rfl
  | go i succeeds =>
    rw [step]
    split
    · rename_i kind act rest hthread
      refine .inr ⟨i, kind, ?_⟩
      cases act with
      | send event => exact .send succeeds event hthread
      | write line failed =>
        cases succeeds with
        | true => exact .written line hthread
        | false => exact .failed line hthread
      | lock point => exact .lock succeeds point hthread
      | fork new line failed next => exact .fork succeeds new line next hthread
      | stop => exact .stop succeeds hthread
    · exact .inl rfl

/-- An invariant is kept by every turn that keeps it in every step it takes. -/
theorem step_of_stepped {Inv : World State Input Kind Point Line Event → Prop} {turn : Turn Input}
    (hinv : Inv world)
    (h : ∀ {i kind world'}, Stepped machine world i kind turn world' → Inv world') :
    Inv (world.step machine turn) := by
  rcases @step_cases _ _ _ _ _ _ machine world turn with hsame | ⟨i, kind, hstepped⟩
  · rw [hsame]
    exact hinv
  · exact h hstepped

/-- The state is changed by sections alone. -/
theorem step_shared {P : State → Prop} {turn : Turn Input} (h : P world.shared)
    (hreceive : ∀ {i input kind}, turn = .receive i input →
      world.threads[i]? = some ⟨kind, some []⟩ → machine.accepts kind input world.shared = true →
      P (machine.receive kind input world.shared).1)
    (hresume : ∀ {i succeeds kind point rest}, turn = .go i succeeds →
      world.threads[i]? = some ⟨kind, some (.lock point :: rest)⟩ →
      P (machine.resume point world.shared).1) :
    P (world.step machine turn).shared := by
  rcases @step_cases _ _ _ _ _ _ machine world turn with hsame | ⟨i, kind, hstepped⟩
  · rw [hsame]
    exact h
  · generalize world.step machine turn = world' at hstepped
    cases hstepped with
    | receive input hget haccepts => exact hreceive rfl hget haccepts
    | lock succeeds point hget => exact hresume rfl hget
    | _ => exact h

/-- Every act that a thread has left to do. -/
def EveryAct (P : Act Kind Point Line Event → Prop)
    (world : World State Input Kind Point Line Event) : Prop :=
  ∀ thread ∈ world.threads, ∀ acts ∈ thread.acts, ∀ act ∈ acts, P act

theorem everyAct_setActs {P P' : Act Kind Point Line Event → Prop} (h : world.EveryAct P)
    (hmono : ∀ act, P act → P' act) {i : Nat} {kind : Kind}
    {acts : Option (List (Act Kind Point Line Event))} (hacts : ∀ acts' ∈ acts, ∀ act ∈ acts', P' act) :
    (world.setActs i kind acts).EveryAct P' := by
  intro thread hmem acts' hacts' act hact
  rcases List.mem_or_eq_of_mem_set hmem with hmem | rfl
  · exact hmono act (h thread hmem acts' hacts' act hact)
  · exact hacts acts' hacts' act hact

/-- What the acts of the sections and the branches of failed writes have in common stays so. -/
theorem EveryAct.step {P P' : Act Kind Point Line Event → Prop} {turn : Turn Input}
    (h : world.EveryAct P) (hmono : ∀ act, P act → P' act)
    (hreceive : ∀ {i input kind}, turn = .receive i input →
      world.threads[i]? = some ⟨kind, some []⟩ → machine.accepts kind input world.shared = true →
      ∀ act ∈ (machine.receive kind input world.shared).2, P' act)
    (hresume : ∀ {i succeeds kind point rest}, turn = .go i succeeds →
      world.threads[i]? = some ⟨kind, some (.lock point :: rest)⟩ →
      ∀ act ∈ (machine.resume point world.shared).2, P' act)
    (hfailed : ∀ {line failed}, P (.write line (some failed)) → ∀ act ∈ failedActs failed, P' act)
    (hfork : ∀ {kind line failed next}, P (.fork kind line failed next) →
      P' (.write line failed) ∧ P' (.write next none)) :
    (world.step machine turn).EveryAct P' := by
  have hsame : world.EveryAct P' := fun thread hmem acts hacts act hact =>
    hmono act (h thread hmem acts hacts act hact)
  refine step_of_stepped hsame fun {i kind world'} hstepped => ?_
  have hrest : ∀ {act rest}, world.threads[i]? = some ⟨kind, some (act :: rest)⟩ →
      P act ∧ ∀ acts ∈ some rest, ∀ act ∈ acts, P' act := by
    intro act rest hget
    have hall := h _ (List.mem_of_getElem? hget) _ rfl
    refine ⟨hall act List.mem_cons_self, fun acts hacts act hact => ?_⟩
    exact hmono act (hall act (List.mem_cons_of_mem _ (Option.some.inj hacts ▸ hact)))
  cases hstepped with
  | receive input hget haccepts =>
    exact everyAct_setActs h hmono fun acts hacts =>
      Option.some.inj hacts ▸ hreceive rfl hget haccepts
  | send succeeds event hget => exact everyAct_setActs h hmono (hrest hget).2
  | written line hget => exact everyAct_setActs h hmono (hrest hget).2
  | @failed line failed rest hget =>
    refine everyAct_setActs h hmono fun acts hacts => ?_
    obtain rfl := Option.some.inj hacts
    cases failed with
    | none => exact (hrest hget).2 _ rfl
    | some failed => exact hfailed (hrest hget).1
  | lock succeeds point hget =>
    exact everyAct_setActs h hmono fun acts hacts => Option.some.inj hacts ▸ hresume rfl hget
  | fork succeeds new line next hget =>
    intro thread hmem acts hacts act hact
    rcases List.mem_append.mp hmem with hmem | hmem
    · exact everyAct_setActs h hmono (hrest hget).2 thread hmem acts hacts act hact
    · obtain rfl := List.mem_singleton.mp hmem
      obtain rfl := Option.some.inj hacts
      obtain ⟨hline, hnext⟩ := hfork (hrest hget).1
      rcases List.mem_pair.mp hact with rfl | rfl
      · exact hline
      · exact hnext
  | stop succeeds hget => exact everyAct_setActs h hmono fun acts hacts => nomatch hacts

end World

/-- A thread of the list after one of them was replaced. -/
theorem get_set {threads : List (Thread Kind Point Line Event)} {i j : Nat}
    {before after thread : Thread Kind Point Line Event} (hget : threads[i]? = some before)
    (hj : (threads.set i after)[j]? = some thread) :
    i = j ∧ thread = after ∨ i ≠ j ∧ threads[j]? = some thread := by
  have hlt : i < threads.length := (List.getElem?_eq_some_iff.mp hget).1
  by_cases hij : i = j
  · subst hij
    rw [List.getElem?_set_self hlt] at hj
    exact .inl ⟨rfl, (Option.some.inj hj).symm⟩
  · rw [List.getElem?_set_ne hij] at hj
    exact .inr ⟨hij, hj⟩

/-! ### Accounts -/

/-- A whole number for each thing that a machine handles. -/
structure Accounting (State Input Point Line Event : Type) where
  ofState : State → ℤ
  ofInput : Input → ℤ
  ofPoint : Point → ℤ
  ofLine : Line → ℤ
  ofEvent : Event → ℤ

namespace Accounting

variable (account : Accounting State Input Point Line Event)

def ofActs : List (Act Kind Point Line Event) → ℤ
  | [] => 0
  | .send event :: acts => account.ofEvent event + ofActs acts
  | .write line _ :: acts => account.ofLine line + ofActs acts
  | .fork _ line _ next :: acts => account.ofLine line + account.ofLine next + ofActs acts
  | .lock point :: _ => account.ofPoint point
  | .stop :: _ => 0

def ofThread (thread : Thread Kind Point Line Event) : ℤ := account.ofActs (thread.acts.getD [])

def total (world : World State Input Kind Point Line Event) : ℤ :=
  account.ofState world.shared + (world.threads.map account.ofThread).sum +
    (world.sent.map account.ofEvent).sum + (world.written.map account.ofLine).sum

/-- The acts settle the same whether or not those writes fail that may. -/
def Balanced (MayFail : Line → Prop) : List (Act Kind Point Line Event) → Prop
  | [] => True
  | .send _ :: acts => Balanced MayFail acts
  | .write line failed :: acts =>
    (MayFail line → account.ofActs (failed.elim acts failedActs) =
      account.ofLine line + account.ofActs acts) ∧ Balanced MayFail acts
  | .fork _ line failed next :: acts =>
    (MayFail line → account.ofActs
      (failed.elim ([.write next none] : List (Act Kind Point Line Event)) failedActs) =
        account.ofLine line + account.ofLine next) ∧
      (MayFail next → account.ofLine next = 0) ∧ Balanced MayFail acts
  | .lock _ :: _ | .stop :: _ => True

/-- Sections settle: an input may open an account, and nothing else changes the total. -/
structure Settles (machine : Machine State Input Kind Point Line Event)
    (Allows : Kind → Input → State → Prop) (MayFail : Line → Prop) : Prop where
  receive : ∀ {kind input state}, machine.accepts kind input state = true →
    Allows kind input state →
    account.ofState (machine.receive kind input state).1 +
        account.ofActs (machine.receive kind input state).2 =
      account.ofState state + account.ofInput input ∧
    account.Balanced MayFail (machine.receive kind input state).2
  resume : ∀ point state,
    account.ofState (machine.resume point state).1 +
        account.ofActs (machine.resume point state).2 =
      account.ofState state + account.ofPoint point ∧
    account.Balanced MayFail (machine.resume point state).2

/-- What a turn finds is allowed: the section of its input, and the failure of its write. -/
def Allows (machine : Machine State Input Kind Point Line Event)
    (AllowsInput : Kind → Input → State → Prop) (MayFail : Line → Prop)
    (world : World State Input Kind Point Line Event) : Turn Input → Prop
  | .receive i input => ∀ kind, world.threads[i]? = some ⟨kind, some []⟩ →
    machine.accepts kind input world.shared = true → AllowsInput kind input world.shared
  | .go i succeeds => ∀ kind line failed rest,
    world.threads[i]? = some ⟨kind, some (.write line failed :: rest)⟩ →
    succeeds = false → MayFail line

/-- The account of a world is open by what came in. -/
structure Settled (MayFail : Line → Prop) (world : World State Input Kind Point Line Event) :
    Prop where
  total : account.total world = (world.received.map account.ofInput).sum
  balanced : ∀ thread ∈ world.threads, ∀ acts ∈ thread.acts, account.Balanced MayFail acts

variable {account} {machine : Machine State Input Kind Point Line Event}
  {AllowsInput : Kind → Input → State → Prop} {MayFail : Line → Prop}
  {world world' : World State Input Kind Point Line Event}

theorem ofActs_failedActs (events : List Event) :
    account.ofActs (failedActs (events, none) : List (Act Kind Point Line Event)) =
      (events.map account.ofEvent).sum := by
  induction events with
  | nil => rfl
  | cons event events ih =>
    rw [List.map_cons, List.sum_cons, ← ih]
    rfl

theorem balanced_failedActs (failed : List Event × Option Point) :
    account.Balanced MayFail (failedActs failed : List (Act Kind Point Line Event)) := by
  obtain ⟨events, point⟩ := failed
  induction events with
  | nil => cases point <;> trivial
  | cons event events ih => exact ih

/-- A thread's part of a sum over all threads. -/
theorem sum_ofThread_set {threads : List (Thread Kind Point Line Event)} {i : Nat}
    {thread : Thread Kind Point Line Event} (h : threads[i]? = some thread) :
    ∃ others, (threads.map account.ofThread).sum = account.ofThread thread + others ∧
      ∀ thread', ((threads.set i thread').map account.ofThread).sum =
        account.ofThread thread' + others := by
  induction threads generalizing i with
  | nil => cases h
  | cons head threads ih =>
    cases i with
    | zero =>
      obtain rfl := Option.some.inj h
      exact ⟨(threads.map account.ofThread).sum, by simp, fun thread' => by simp⟩
    | succ i =>
      obtain ⟨others, hsum, hset⟩ := ih h
      refine ⟨account.ofThread head + others, ?_, fun thread' => ?_⟩
      · simp only [List.map_cons, List.sum_cons, hsum]
        omega
      · simp only [List.set_cons_succ, List.map_cons, List.sum_cons, hset thread']
        omega

theorem balanced_set {i : Nat} {kind : Kind} {acts : List (Act Kind Point Line Event)}
    (h : ∀ thread ∈ world.threads, ∀ acts ∈ thread.acts, account.Balanced MayFail acts)
    (hacts : account.Balanced MayFail acts) :
    ∀ thread ∈ world.threads.set i ⟨kind, some acts⟩, ∀ acts ∈ thread.acts,
      account.Balanced MayFail acts := by
  intro thread hmem acts' hacts'
  rcases List.mem_or_eq_of_mem_set hmem with hmem | rfl
  · exact h thread hmem acts' hacts'
  · exact Option.some.inj hacts' ▸ hacts

/-- What a turn does to the total: nothing, or what its section adds. -/
inductive Tallies (account : Accounting State Input Point Line Event)
    (machine : Machine State Input Kind Point Line Event)
    (world world' : World State Input Kind Point Line Event) : Turn Input → Prop where
  | same {turn} : world'.shared = world.shared → world'.received = world.received →
      account.total world' = account.total world → Tallies account machine world world' turn
  | receive {i kind} (input : Input) :
      world.threads[i]? = some ⟨kind, some []⟩ → machine.accepts kind input world.shared = true →
      world'.shared = (machine.receive kind input world.shared).1 →
      world'.received = world.received ++ [input] →
      account.total world' + account.ofState world.shared = account.total world +
        (account.ofState (machine.receive kind input world.shared).1 +
          account.ofActs (machine.receive kind input world.shared).2) →
      Tallies account machine world world' (.receive i input)
  | resume {i succeeds kind rest} (point : Point) :
      world.threads[i]? = some ⟨kind, some (.lock point :: rest)⟩ →
      world'.shared = (machine.resume point world.shared).1 → world'.received = world.received →
      account.total world' + (account.ofState world.shared + account.ofPoint point) =
        account.total world + (account.ofState (machine.resume point world.shared).1 +
          account.ofActs (machine.resume point world.shared).2) →
      Tallies account machine world world' (.go i succeeds)

/-- Only those writes fail that may. -/
def AllowsFailure (MayFail : Line → Prop) (world : World State Input Kind Point Line Event) :
    Turn Input → Prop
  | .receive _ _ => True
  | .go i succeeds => ∀ kind line failed rest,
    world.threads[i]? = some ⟨kind, some (.write line failed :: rest)⟩ →
    succeeds = false → MayFail line

/-- **Tallying.** Where the threads are balanced, only sections change the total. -/
theorem tallies_step {turn : Turn Input}
    (hbalanced : ∀ thread ∈ world.threads, ∀ acts ∈ thread.acts, account.Balanced MayFail acts)
    (hallows : AllowsFailure MayFail world turn) :
    Tallies account machine world (world.step machine turn) turn := by
  refine @World.step_of_stepped _ _ _ _ _ _ machine world
    (fun world' => Tallies account machine world world' turn) turn (.same rfl rfl rfl)
    fun {i kind world'} hstepped => ?_
  cases hstepped with
  | receive input hget haccepts =>
    obtain ⟨others, hsum, hset⟩ := @sum_ofThread_set _ _ _ _ _ _ account _ _ _ hget
    refine .receive input hget haccepts rfl rfl ?_
    simp only [total, World.setActs, hset, ofThread, Option.getD_some, ofActs] at hsum ⊢
    omega
  | send succeeds event hget =>
    obtain ⟨others, hsum, hset⟩ := @sum_ofThread_set _ _ _ _ _ _ account _ _ _ hget
    refine .same rfl rfl ?_
    simp only [total, World.setActs, hset, List.map_append, List.sum_append, List.map_cons,
      List.map_nil, List.sum_singleton, ofThread, Option.getD_some, ofActs] at hsum ⊢
    omega
  | written line hget =>
    obtain ⟨others, hsum, hset⟩ := @sum_ofThread_set _ _ _ _ _ _ account _ _ _ hget
    refine .same rfl rfl ?_
    simp only [total, World.setActs, hset, List.map_append, List.sum_append, List.map_cons,
      List.map_nil, List.sum_singleton, ofThread, Option.getD_some, ofActs] at hsum ⊢
    omega
  | failed line hget =>
    obtain ⟨others, hsum, hset⟩ := @sum_ofThread_set _ _ _ _ _ _ account _ _ _ hget
    -- What a line that may fail was to bring is brought by its failure.
    have hfailed := (hbalanced _ (List.mem_of_getElem? hget) _ rfl).1 (hallows kind _ _ _ hget rfl)
    refine .same rfl rfl ?_
    simp only [total, World.setActs, hset, ofThread, Option.getD_some, ofActs] at hsum hfailed ⊢
    omega
  | lock succeeds point hget =>
    obtain ⟨others, hsum, hset⟩ := @sum_ofThread_set _ _ _ _ _ _ account _ _ _ hget
    refine .resume point hget rfl rfl ?_
    simp only [total, World.setActs, hset, ofThread, Option.getD_some, ofActs] at hsum ⊢
    omega
  | fork succeeds new line next hget =>
    obtain ⟨others, hsum, hset⟩ := @sum_ofThread_set _ _ _ _ _ _ account _ _ _ hget
    refine .same rfl rfl ?_
    simp only [total, hset, List.map_append, List.sum_append, List.map_cons, List.map_nil,
      List.sum_singleton, ofThread, Option.getD_some, ofActs] at hsum ⊢
    omega
  | stop succeeds hget =>
    obtain ⟨others, hsum, hset⟩ := @sum_ofThread_set _ _ _ _ _ _ account _ _ _ hget
    refine .same rfl rfl ?_
    simp only [total, World.setActs, hset, ofThread, Option.getD_some, Option.getD_none, ofActs]
      at hsum ⊢
    omega

/-- The threads stay balanced if the acts of every section are. -/
theorem balanced_step {turn : Turn Input}
    (hbalanced : ∀ thread ∈ world.threads, ∀ acts ∈ thread.acts, account.Balanced MayFail acts)
    (hreceive : ∀ {i input kind}, turn = .receive i input →
      world.threads[i]? = some ⟨kind, some []⟩ → machine.accepts kind input world.shared = true →
      account.Balanced MayFail (machine.receive kind input world.shared).2)
    (hresume : ∀ {i succeeds kind point rest}, turn = .go i succeeds →
      world.threads[i]? = some ⟨kind, some (.lock point :: rest)⟩ →
      account.Balanced MayFail (machine.resume point world.shared).2) :
    ∀ thread ∈ (world.step machine turn).threads, ∀ acts ∈ thread.acts,
      account.Balanced MayFail acts := by
  refine @World.step_of_stepped _ _ _ _ _ _ machine world (fun world' =>
    ∀ thread ∈ world'.threads, ∀ acts ∈ thread.acts, account.Balanced MayFail acts) turn hbalanced
    fun {i kind world'} hstepped => ?_
  -- The thread that takes the turn is one of the balanced ones.
  have hthread : ∀ {acts}, world.threads[i]? = some ⟨kind, some acts⟩ →
      account.Balanced MayFail acts := fun hget =>
    hbalanced _ (List.mem_of_getElem? hget) _ rfl
  cases hstepped with
  | receive input hget haccepts => exact balanced_set hbalanced (hreceive rfl hget haccepts)
  | send succeeds event hget =>
    have hrest : account.Balanced MayFail _ := hthread hget
    exact balanced_set hbalanced hrest
  | written line hget => exact balanced_set hbalanced (hthread hget).2
  | @failed line failed rest hget =>
    refine balanced_set hbalanced ?_
    cases failed with
    | none => exact (hthread hget).2
    | some failed => exact balanced_failedActs failed
  | lock succeeds point hget => exact balanced_set hbalanced (hresume rfl hget)
  | fork succeeds new line next hget =>
    intro thread hmem acts hacts
    rcases List.mem_append.mp hmem with hmem | hmem
    · exact balanced_set hbalanced (hthread hget).2.2 thread hmem acts hacts
    -- The new thread has the two lines, which are as balanced as they were in the old one.
    · obtain rfl := List.mem_singleton.mp hmem
      obtain rfl := Option.some.inj hacts
      obtain ⟨hline, hnext, -⟩ := hthread hget
      refine ⟨fun hmay => ?_, fun hmay => ?_, trivial⟩
      · rw [hline hmay]
        simp [ofActs]
      · simp [ofActs, hnext hmay]
  | stop succeeds hget =>
    intro thread hmem acts hacts
    rcases List.mem_or_eq_of_mem_set hmem with hmem | rfl
    · exact hbalanced thread hmem acts hacts
    · cases hacts

/-- **Settling.** Where the sections settle, every allowed turn keeps the account settled. -/
theorem Settles.step (hsettles : account.Settles machine AllowsInput MayFail) {turn : Turn Input}
    (h : account.Settled MayFail world) (hallows : Allows machine AllowsInput MayFail world turn) :
    account.Settled MayFail (world.step machine turn) := by
  have hfailure : AllowsFailure MayFail world turn := by
    cases turn with
    | receive i input => trivial
    | go i succeeds => exact hallows
  have htallies : Tallies account machine world (world.step machine turn) turn :=
    tallies_step h.balanced hfailure
  have htotal := h.total
  refine ⟨?_, balanced_step h.balanced (fun {i input kind} hturn hget haccepts => ?_)
    fun {i succeeds kind point rest} _ _ => (hsettles.resume point world.shared).2⟩
  · cases htallies with
    | same hshared hreceived hsame => rw [hsame, hreceived, htotal]
    | receive input hget haccepts hshared hreceived hsum =>
      have hreceive := (hsettles.receive haccepts (hallows _ hget haccepts)).1
      rw [hreceived, List.map_append, List.sum_append, List.map_singleton, List.sum_singleton]
      omega
    | resume point hget hshared hreceived hsum =>
      have hresume := (hsettles.resume point world.shared).1
      rw [hreceived]
      omega
  · subst hturn
    exact (hsettles.receive haccepts (hallows kind hget haccepts)).2

end Accounting

end Batty
