import Batty.Shim.Process

/-!
# The line of messages

A message that finds its agent idle is written to it, and one that comes while the agent works
waits in the queue for the end of the turn. What is written is therefore to be, in order, some of
what came in, and an idle shim is to have nothing in its queue: `Ordered`.

**On its way.** Between the section that hands a message out and the write there are steps of
other threads. `Lined`: what was written, what is on its way and what waits are together, in this
order, some of what came in; and at most one message is on its way.

**Who hands out.** `Attended` is for runtimes with one command thread and others of different
kinds. While the command thread is at a message, nothing waits and nothing else is on its way; the
others hand out only what waits, and only to an agent that works. `attended_step` reduces this, and
with it the line, to what single sections do.
-/

namespace Batty

/-! ### Messages on their way -/

section

variable {Kind Point : Type}

/-- The messages that an act is to write. -/
def Act.messages : ShimAct Kind Point → List QueuedMessage
  | .write line _ => line.message?.toList
  | .fork _ line _ next => line.message?.toList ++ next.message?.toList
  | .send _ | .lock _ | .stop => []

def unwritten (acts : List (ShimAct Kind Point)) : List QueuedMessage := acts.flatMap Act.messages

def unwrittenBy (threads : List (Thread Kind Point AgentLine (ShimEvent String))) :
    List QueuedMessage :=
  threads.flatMap fun thread => unwritten (thread.acts.getD [])

@[simp] theorem unwritten_nil : unwritten ([] : List (ShimAct Kind Point)) = [] := rfl

@[simp] theorem unwritten_append (acts acts' : List (ShimAct Kind Point)) :
    unwritten (acts ++ acts') = unwritten acts ++ unwritten acts' :=
  List.flatMap_append

@[simp] theorem unwritten_send (event : ShimEvent String) (acts : List (ShimAct Kind Point)) :
    unwritten (.send event :: acts) = unwritten acts := rfl

@[simp] theorem unwritten_lock (point : Point) (acts : List (ShimAct Kind Point)) :
    unwritten (.lock point :: acts) = unwritten acts := rfl

@[simp] theorem unwritten_stop (acts : List (ShimAct Kind Point)) :
    unwritten (.stop :: acts) = unwritten acts := rfl

@[simp] theorem unwritten_write (line : AgentLine)
    (failed : Option (List (ShimEvent String) × Option Point)) (acts : List (ShimAct Kind Point)) :
    unwritten (.write line failed :: acts) = line.message?.toList ++ unwritten acts := rfl

@[simp] theorem unwritten_fork (kind : Kind) (line next : AgentLine)
    (failed : Option (List (ShimEvent String) × Option Point)) (acts : List (ShimAct Kind Point)) :
    unwritten (.fork kind line failed next :: acts) =
      line.message?.toList ++ next.message?.toList ++ unwritten acts := rfl

@[simp] theorem unwritten_sends (events : List (ShimEvent String)) :
    unwritten (events.map .send : List (ShimAct Kind Point)) = [] := by
  refine List.flatMap_eq_nil_iff.mpr fun act hact => ?_
  obtain ⟨event, -, rfl⟩ := List.mem_map.mp hact
  rfl

theorem unwritten_returns (events : List (ShimEvent String)) :
    unwritten (events.map .send ++ [.stop] : List (ShimAct Kind Point)) = [] := by
  rw [unwritten_append, unwritten_sends]
  rfl

theorem unwritten_failedActs (failed : List (ShimEvent String) × Option Point) :
    unwritten (failedActs failed : List (ShimAct Kind Point)) = [] := by
  rw [failedActs, unwritten_append, unwritten_sends]
  cases failed.2 <;> rfl

/-- A thread's part of what is on its way. -/
theorem unwrittenBy_set {threads : List (Thread Kind Point AgentLine (ShimEvent String))} {i : Nat}
    {thread : Thread Kind Point AgentLine (ShimEvent String)} (h : threads[i]? = some thread) :
    ∃ before after, unwrittenBy threads = before ++ unwritten (thread.acts.getD []) ++ after ∧
      ∀ thread', unwrittenBy (threads.set i thread') =
        before ++ unwritten (thread'.acts.getD []) ++ after := by
  induction threads generalizing i with
  | nil => cases h
  | cons head threads ih =>
    cases i with
    | zero =>
      obtain rfl := Option.some.inj h
      exact ⟨[], unwrittenBy threads, rfl, fun thread' => rfl⟩
    | succ i =>
      obtain ⟨before, after, hall, hset⟩ := ih h
      refine ⟨unwritten (head.acts.getD []) ++ before, after, ?_, fun thread' => ?_⟩
      · rw [unwrittenBy, List.flatMap_cons, ← unwrittenBy, hall]
        simp only [List.append_assoc]
      · rw [List.set_cons_succ, unwrittenBy, List.flatMap_cons, ← unwrittenBy, hset]
        simp only [List.append_assoc]

end

/-! ### The line -/

section

variable {runtime : Runtime}

/-- An idle shim has nothing in its queue, and what it wrote is, in order, some of what came. -/
structure Ordered (shim : runtime.Shim) : Prop where
  idle : runtime.state shim.shared = .idle → runtime.messageQueue shim.shared = []
  written : (shim.written.filterMap AgentLine.message?).Sublist
    (shim.received.filterMap runtime.incoming)

/-- What was written, what is on its way and what waits is in the order of receipt, and one message
at most is on its way. -/
structure Lined (shim : runtime.Shim) : Prop where
  order : (shim.written.filterMap AgentLine.message? ++
      (unwrittenBy shim.threads ++ runtime.messageQueue shim.shared)).Sublist
    (shim.received.filterMap runtime.incoming)
  alone : (unwrittenBy shim.threads).length ≤ 1

/-- What a section hands out and keeps is, in order, some of what waited and came in; and it hands
out one message, when none is on its way, or none. -/
structure KeepsLine (shim : runtime.Shim) (incoming : Option QueuedMessage)
    (after : runtime.State × List (ShimAct runtime.Kind runtime.Point)) : Prop where
  order : (unwritten after.2 ++ runtime.messageQueue after.1).Sublist
    (runtime.messageQueue shim.shared ++ incoming.toList)
  alone : unwritten after.2 = [] ∨
    unwrittenBy shim.threads = [] ∧ (unwritten after.2).length ≤ 1

theorem sublist_advance {α : Type} {written line line' queue queue' received incoming : List α}
    (h : (written ++ (line ++ queue)).Sublist received)
    (h' : (line' ++ queue').Sublist (line ++ (queue ++ incoming))) :
    (written ++ (line' ++ queue')).Sublist (received ++ incoming) := by
  have hmore : (written ++ (line' ++ queue')).Sublist (written ++ (line ++ queue) ++ incoming) := by
    rw [List.append_assoc, List.append_assoc]
    exact h'.append_left written
  exact hmore.trans (h.append_right incoming)

/-- A message of a line of one is the whole line. -/
theorem eq_nil_of_alone {α : Type} {before after rest : List α} {a : α}
    (h : (before ++ (a :: rest) ++ after).length ≤ 1) : before = [] ∧ rest = [] ∧ after = [] := by
  simp only [List.length_append, List.length_cons] at h
  refine ⟨List.length_eq_zero_iff.mp ?_, List.length_eq_zero_iff.mp ?_,
    List.length_eq_zero_iff.mp ?_⟩ <;> omega

/-- A thread that goes on with fewer messages to write. -/
theorem Lined.drops {shim : runtime.Shim} (h : Lined shim) {i : Nat}
    {kind : runtime.Kind} {acts : List (ShimAct runtime.Kind runtime.Point)}
    (hget : shim.threads[i]? = some ⟨kind, some acts⟩) {state : runtime.State}
    (hstate : (runtime.messageQueue state).Sublist (runtime.messageQueue shim.shared))
    {acts' : Option (List (ShimAct runtime.Kind runtime.Point))}
    (hacts : (unwritten (acts'.getD [])).Sublist (unwritten acts))
    {sent : List (ShimEvent String)} :
    Lined { shim.setActs i kind acts' with shared := state, sent } := by
  obtain ⟨before, after, hall, hset⟩ := unwrittenBy_set hget
  have hfewer : (unwrittenBy (shim.threads.set i ⟨kind, acts'⟩)).Sublist
      (unwrittenBy shim.threads) := by
    rw [hall, hset]
    exact (hacts.append_left before).append_right after
  exact ⟨((hfewer.append hstate).append_left _).trans h.order, Nat.le_trans hfewer.length_le h.alone⟩

/-- A section that a thread enters with an input keeps the line if it keeps its own. -/
theorem Lined.receives {shim : runtime.Shim} (h : Lined shim) {i : Nat} {kind : runtime.Kind}
    {input : runtime.Input} (hget : shim.threads[i]? = some ⟨kind, some []⟩)
    (hkeeps : KeepsLine shim (runtime.incoming input)
      (runtime.machine.receive kind input shim.shared)) :
    Lined { shim.setActs i kind (some (runtime.machine.receive kind input shim.shared).2) with
      shared := (runtime.machine.receive kind input shim.shared).1
      received := shim.received ++ [input] } := by
  obtain ⟨before, after, hall, hset⟩ := unwrittenBy_set hget
  have hrest : unwrittenBy shim.threads = before ++ after := by simpa using hall
  have hreceived : (shim.received ++ [input]).filterMap runtime.incoming =
      shim.received.filterMap runtime.incoming ++ (runtime.incoming input).toList := by
    rw [List.filterMap_append]
    cases hincoming : runtime.incoming input <;> simp [hincoming]
  have horder := h.order
  rw [hrest] at horder
  constructor
  · rw [hreceived]
    refine sublist_advance horder ?_
    simp only [World.setActs, hset, Option.getD_some]
    rcases hkeeps.alone with hnone | ⟨hnone, -⟩
    · have hqueue := hkeeps.order
      rw [hnone, List.nil_append] at hqueue
      rw [hnone, List.append_nil]
      exact hqueue.append_left _
    · -- A message is handed out, so no other is on its way.
      obtain ⟨rfl, rfl⟩ := List.append_eq_nil_iff.mp (hrest.symm.trans hnone)
      simpa using hkeeps.order
  · simp only [World.setActs, hset, Option.getD_some]
    rcases hkeeps.alone with hnone | ⟨hnone, hlength⟩
    · rw [hnone, List.append_nil, ← hrest]
      exact h.alone
    · obtain ⟨rfl, rfl⟩ := List.append_eq_nil_iff.mp (hrest.symm.trans hnone)
      simpa using hlength

/-- The message that is written was the only one on its way. -/
theorem Lined.writes {shim : runtime.Shim} (h : Lined shim) {i : Nat} {kind : runtime.Kind}
    {line : AgentLine} {failed : Option (List (ShimEvent String) × Option runtime.Point)}
    {rest : List (ShimAct runtime.Kind runtime.Point)}
    (hget : shim.threads[i]? = some ⟨kind, some (.write line failed :: rest)⟩) :
    Lined { shim.setActs i kind (some rest) with written := shim.written ++ [line] } := by
  obtain ⟨before, after, hall, hset⟩ := unwrittenBy_set hget
  have horder := h.order
  have halone := h.alone
  simp only [hall, Option.getD_some, unwritten_write] at horder halone
  constructor
  · simp only [World.setActs, hset, Option.getD_some, List.filterMap_append]
    cases hmessage : line.message? with
    | none => simpa [hmessage] using horder
    | some message =>
      rw [hmessage, Option.toList_some, List.singleton_append] at horder halone
      obtain ⟨rfl, hnil, rfl⟩ := eq_nil_of_alone halone
      simpa [hmessage, hnil] using horder
  · simp only [World.setActs, hset, Option.getD_some]
    simp only [List.length_append] at halone ⊢
    omega

/-- What is alone in a line may as well stand at its end. -/
theorem eq_of_alone {α : Type} {before new rest after : List α}
    (h : (before ++ (new ++ rest) ++ after).length ≤ 1) :
    before ++ rest ++ after ++ new = before ++ (new ++ rest) ++ after := by
  cases new with
  | nil => simp
  | cons a new =>
    obtain ⟨rfl, hnil, rfl⟩ := eq_nil_of_alone h
    obtain ⟨rfl, rfl⟩ := List.append_eq_nil_iff.mp hnil
    rfl

/-- A message that a new thread will write takes the place it had in the old one. -/
theorem Lined.forks {shim : runtime.Shim} (h : Lined shim) {i : Nat} {kind new : runtime.Kind}
    {line next : AgentLine} {failed : Option (List (ShimEvent String) × Option runtime.Point)}
    {rest : List (ShimAct runtime.Kind runtime.Point)}
    (hget : shim.threads[i]? = some ⟨kind, some (.fork new line failed next :: rest)⟩) :
    Lined { shim with
      threads := (shim.threads.set i ⟨kind, some rest⟩) ++
        [⟨new, some [.write line failed, .write next none]⟩] } := by
  obtain ⟨before, after, hall, hset⟩ := unwrittenBy_set hget
  have horder := h.order
  have halone := h.alone
  simp only [hall, Option.getD_some, unwritten_fork] at horder halone
  have hforked : unwrittenBy (shim.threads.set i ⟨kind, some rest⟩ ++
      [⟨new, some [.write line failed, .write next none]⟩]) =
      before ++ (line.message?.toList ++ next.message?.toList ++ unwritten rest) ++ after := by
    rw [unwrittenBy, List.flatMap_append, ← unwrittenBy, hset, ← eq_of_alone halone]
    simp
  rw [← hforked] at horder halone
  exact ⟨horder, halone⟩

/-- **The line is kept** by every turn whose section keeps it. -/
theorem Lined.step {shim : runtime.Shim} (h : Lined shim) {turn : Turn runtime.Input}
    (hreceive : ∀ {i input kind}, turn = .receive i input →
      shim.threads[i]? = some ⟨kind, some []⟩ →
      runtime.machine.accepts kind input shim.shared = true →
      KeepsLine shim (runtime.incoming input) (runtime.machine.receive kind input shim.shared))
    (hresume : ∀ {i succeeds kind point rest}, turn = .go i succeeds →
      shim.threads[i]? = some ⟨kind, some (.lock point :: rest)⟩ →
      unwritten (runtime.machine.resume point shim.shared).2 = [] ∧
        (runtime.messageQueue (runtime.machine.resume point shim.shared).1).Sublist
          (runtime.messageQueue shim.shared)) :
    Lined (shim.step runtime.machine turn) := by
  refine World.step_of_stepped h fun {i kind shim'} hstepped => ?_
  cases hstepped with
  | receive input hget haccepts => exact h.receives hget (hreceive rfl hget haccepts)
  | send succeeds event hget =>
    refine h.drops hget (.refl _) ?_
    rw [unwritten_send]
    exact .refl _
  | written line hget => exact h.writes hget
  | @failed line failed rest hget =>
    refine h.drops hget (.refl _) ?_
    rw [unwritten_write]
    cases failed with
    | none => exact List.sublist_append_right _ _
    | some failed => simp [unwritten_failedActs]
  | lock succeeds point hget =>
    obtain ⟨hnone, hqueue⟩ := hresume rfl hget
    refine h.drops hget hqueue ?_
    rw [Option.getD_some, hnone]
    exact List.nil_sublist _
  | fork succeeds new line next hget => exact h.forks hget
  | stop succeeds hget =>
    refine h.drops hget (.refl _) ?_
    exact List.nil_sublist _

end

/-! ### A command thread and the others

Three runtimes never start a thread. The first of their threads takes the commands, and the
others are all of different kinds. -/

/-- A thread of this place may have the act before it: no thread starts another, and further
sections are for the command thread, unless the others have them too. -/
def Act.fits {Kind Point : Type} (locks : Bool) : ShimAct Kind Point → Bool
  | .fork _ _ _ _ => false
  | act => locks || !act.leadsToLock

section

variable {Kind Point : Type} {locks : Bool}

@[simp] theorem Act.fits_send (event : ShimEvent String) :
    (Act.send event : ShimAct Kind Point).fits locks = true := by
  simp [fits]

@[simp] theorem Act.fits_stop : (Act.stop : ShimAct Kind Point).fits locks = true := by
  simp [fits]

@[simp] theorem Act.fits_lock (point : Point) :
    (Act.lock point : ShimAct Kind Point).fits locks = locks := by
  simp [fits, leadsToLock]

@[simp] theorem Act.fits_write (line : AgentLine)
    (failed : Option (List (ShimEvent String) × Option Point)) :
    (Act.write line failed : ShimAct Kind Point).fits locks =
      (locks || !(failed.bind Prod.snd).isSome) := rfl

@[simp] theorem Act.fits_fork (kind : Kind) (line next : AgentLine)
    (failed : Option (List (ShimEvent String) × Option Point)) :
    (Act.fork kind line failed next : ShimAct Kind Point).fits locks = false := rfl

end

/-- What is particular to a runtime of this form. -/
structure Manners (runtime : Runtime) where
  kinds : List runtime.Kind
  /-- A thread of the kind may have a message to write. -/
  Hands : runtime.Kind → runtime.State → Prop
  /-- The threads besides the command thread have further sections. -/
  locks : Bool

section

variable {runtime : Runtime} {manners : Manners runtime}

/-- The threads besides the first have nothing to write. -/
def NothingUnwritten
    (threads : List (Thread runtime.Kind runtime.Point AgentLine (ShimEvent String))) : Prop :=
  ∀ i thread, i ≠ 0 → threads[i]? = some thread → unwritten (thread.acts.getD []) = []

/-- A queue is attended to: nothing waits in an idle shim, and what hands a message over may do
so. -/
structure Attended (manners : Manners runtime) (shim : runtime.Shim) : Prop where
  kinds : shim.threads.map Thread.kind = manners.kinds
  fits : ∀ (i : Nat) (thread : Thread runtime.Kind runtime.Point AgentLine (ShimEvent String)),
    shim.threads[i]? = some thread →
      ∀ act ∈ thread.acts.getD [], act.fits (manners.locks || decide (i = 0))
  idle : runtime.state shim.shared = .idle → runtime.messageQueue shim.shared = []
  /-- While the command thread is at a message, nothing else is. -/
  busy : ∀ thread, shim.threads[0]? = some thread → (thread.acts.getD []).any Act.isWork = true →
    runtime.messageQueue shim.shared = [] ∧ NothingUnwritten shim.threads
  hands : ∀ i thread, i ≠ 0 → shim.threads[i]? = some thread →
    unwritten (thread.acts.getD []) ≠ [] → manners.Hands thread.kind shim.shared

/-- What a section of the thread at place `i` does. -/
structure Attends (manners : Manners runtime) (shim : runtime.Shim) (i : Nat) (kind : runtime.Kind)
    (incoming : Option QueuedMessage)
    (after : runtime.State × List (ShimAct runtime.Kind runtime.Point)) : Prop where
  order : (unwritten after.2 ++ runtime.messageQueue after.1).Sublist
    (runtime.messageQueue shim.shared ++ incoming.toList)
  single : (unwritten after.2).length ≤ 1
  fits : ∀ act ∈ after.2, act.fits (manners.locks || decide (i = 0))
  idle : runtime.state after.1 = .idle → runtime.messageQueue after.1 = []
  /-- The command thread goes to work when nothing is on its way. -/
  starts : i = 0 → after.2.any Act.isWork = true →
    runtime.messageQueue after.1 = [] ∧ NothingUnwritten shim.threads
  /-- The others take no messages, and hand one out when no other thread may have one. -/
  takes : i ≠ 0 → incoming = none ∧ (unwritten after.2 ≠ [] → manners.Hands kind after.1 ∧
    ∀ kind', kind' ≠ kind → ¬ manners.Hands kind' shim.shared)
  keeps : NothingUnwritten shim.threads ∨
    ∀ kind', kind' ≠ kind → manners.Hands kind' shim.shared → manners.Hands kind' after.1

theorem unwrittenBy_eq_nil {shim : runtime.Shim} {command : Thread runtime.Kind runtime.Point
    AgentLine (ShimEvent String)} (hget : shim.threads[0]? = some command)
    (hcommand : unwritten (command.acts.getD []) = []) (h : NothingUnwritten shim.threads) :
    unwrittenBy shim.threads = [] := by
  refine List.flatMap_eq_nil_iff.mpr fun thread hmem => ?_
  obtain ⟨i, hi⟩ := List.getElem?_of_mem hmem
  by_cases hzero : i = 0
  · subst hzero
    obtain rfl := Option.some.inj (hget.symm.trans hi)
    exact hcommand
  · exact h i thread hzero hi

/-- What is written is work. -/
theorem unwritten_of_not_work {Kind Point : Type} {acts : List (ShimAct Kind Point)}
    (h : acts.any Act.isWork = false) : unwritten acts = [] := by
  refine List.flatMap_eq_nil_iff.mpr fun act hmem => ?_
  rw [List.any_eq_false] at h
  have hwork := h act hmem
  cases act with
  | write line failed => exact absurd rfl hwork
  | fork kind line failed next => exact absurd rfl hwork
  | _ => rfl

/-- What a further section does. -/
structure Resumes (manners : Manners runtime) (state : runtime.State)
    (after : runtime.State × List (ShimAct runtime.Kind runtime.Point)) : Prop where
  sends : ∃ events : List (ShimEvent String), after.2 = events.map .send
  queue : runtime.messageQueue after.1 = runtime.messageQueue state
  keeps : manners.locks = true → runtime.state after.1 = runtime.state state ∧
    ∀ kind, manners.Hands kind state → manners.Hands kind after.1

section

variable {shim : runtime.Shim} {i j : Nat} {kind : runtime.Kind}
  {before thread : Thread runtime.Kind runtime.Point AgentLine (ShimEvent String)}
  {acts : Option (List (ShimAct runtime.Kind runtime.Point))}

theorem kinds_set (hget : shim.threads[i]? = some before) (hkind : before.kind = kind) :
    (shim.threads.set i ⟨kind, acts⟩).map Thread.kind = shim.threads.map Thread.kind := by
  obtain ⟨hlt, rfl⟩ := List.getElem?_eq_some_iff.mp hget
  subst hkind
  rw [List.map_set]
  refine List.ext_getElem (by simp) fun j hj _ => ?_
  rw [List.getElem_set]
  split
  · rename_i hij
    subst hij
    rw [List.getElem_map]
  · rfl

/-- A thread goes on with acts that its place allows, and no more work than it had. -/
theorem Attended.goesOn (h : Attended manners shim) (hget : shim.threads[i]? = some before)
    (hkind : before.kind = kind) {sent : List (ShimEvent String)} {written : List AgentLine}
    (hfits : ∀ act ∈ acts.getD [], act.fits (manners.locks || decide (i = 0)))
    (hwork : (acts.getD []).any Act.isWork = true → (before.acts.getD []).any Act.isWork = true)
    (hunwritten : unwritten (before.acts.getD []) = [] → unwritten (acts.getD []) = []) :
    Attended manners { shim.setActs i kind acts with sent, written } := by
  have hnothing : NothingUnwritten shim.threads →
      NothingUnwritten (shim.threads.set i ⟨kind, acts⟩) := by
    intro hnone j thread hj hthread
    rcases get_set hget hthread with ⟨rfl, rfl⟩ | ⟨-, hthread⟩
    · exact hunwritten (hnone i before hj hget)
    · exact hnone j thread hj hthread
  refine ⟨(kinds_set hget hkind).trans h.kinds, ?_, h.idle, ?_, ?_⟩
  · intro j thread hthread
    rcases get_set hget hthread with ⟨rfl, rfl⟩ | ⟨-, hthread⟩
    · exact hfits
    · exact h.fits j thread hthread
  · intro thread hthread hbusy
    rcases get_set hget hthread with ⟨rfl, rfl⟩ | ⟨-, hthread⟩
    · exact (h.busy before hget (hwork hbusy)).imp id hnothing
    · exact (h.busy thread hthread hbusy).imp id hnothing
  · intro j thread hj hthread hsome
    rcases get_set hget hthread with ⟨rfl, rfl⟩ | ⟨-, hthread⟩
    · rw [← hkind]
      exact h.hands i before hj hget fun hnone => hsome (hunwritten hnone)
    · exact h.hands j thread hj hthread hsome

theorem kind_ne_of_ne (hnodup : (shim.threads.map Thread.kind).Nodup)
    (hget : shim.threads[i]? = some before) (hget' : shim.threads[j]? = some thread) (hij : i ≠ j) :
    thread.kind ≠ before.kind := by
  intro heq
  have hi : (shim.threads.map Thread.kind)[i]? = some before.kind := by
    rw [List.getElem?_map, hget, Option.map_some]
  have hj : (shim.threads.map Thread.kind)[j]? = some before.kind := by
    rw [List.getElem?_map, hget', Option.map_some, heq]
  have hlt : i < (shim.threads.map Thread.kind).length := (List.getElem?_eq_some_iff.mp hi).1
  exact hij ((List.getElem?_inj hlt hnodup).mp (hi.trans hj.symm))

theorem Attended.lineKept (h : Attended manners shim) (hnodup : manners.kinds.Nodup)
    (hget : shim.threads[i]? = some ⟨kind, some []⟩) {incoming : Option QueuedMessage}
    {after : runtime.State × List (ShimAct runtime.Kind runtime.Point)}
    (hattends : Attends manners shim i kind incoming after) : KeepsLine shim incoming after := by
  refine ⟨hattends.order, ?_⟩
  by_cases hnone : unwritten after.2 = []
  · exact .inl hnone
  refine .inr ⟨?_, hattends.single⟩
  by_cases hi : i = 0
  · subst hi
    have hwork : after.2.any Act.isWork = true :=
      Bool.of_not_eq_false fun hidle => hnone (unwritten_of_not_work hidle)
    exact unwrittenBy_eq_nil hget rfl (hattends.starts rfl hwork).2
  -- a message is handed out of the queue, so the command thread is not at one
  obtain ⟨rfl, hhands⟩ := hattends.takes hi
  have hqueue : runtime.messageQueue shim.shared ≠ [] := by
    intro hempty
    have horder := hattends.order
    rw [hempty, Option.toList_none, List.append_nil, List.sublist_nil] at horder
    exact hnone (List.append_eq_nil_iff.mp horder).1
  have hlt : 0 < shim.threads.length :=
    Nat.lt_of_le_of_lt (Nat.zero_le i) (List.getElem?_eq_some_iff.mp hget).1
  refine unwrittenBy_eq_nil (List.getElem?_eq_getElem hlt) (unwritten_of_not_work ?_) ?_
  · refine Bool.eq_false_iff.mpr fun hwork => hqueue ?_
    exact (h.busy _ (List.getElem?_eq_getElem hlt) hwork).1
  · intro j thread hj hthread
    by_cases hij : i = j
    · subst hij
      obtain rfl := Option.some.inj (hget.symm.trans hthread)
      rfl
    · by_contra hsome
      exact (hhands hnone).2 _ (kind_ne_of_ne (h.kinds ▸ hnodup) hget hthread hij)
        (h.hands j thread hj hthread hsome)

theorem Attended.takesSection (h : Attended manners shim) (hnodup : manners.kinds.Nodup)
    (hget : shim.threads[i]? = some ⟨kind, some []⟩) {incoming : Option QueuedMessage}
    {after : runtime.State × List (ShimAct runtime.Kind runtime.Point)}
    (hattends : Attends manners shim i kind incoming after) {received : List runtime.Input} :
    Attended manners { shim.setActs i kind (some after.2) with shared := after.1, received } := by
  have hnothing : i = 0 → NothingUnwritten shim.threads →
      NothingUnwritten (shim.threads.set i ⟨kind, some after.2⟩) := by
    rintro rfl hnone j thread hj hthread
    rcases get_set hget hthread with ⟨rfl, -⟩ | ⟨-, hthread⟩
    · exact absurd rfl hj
    · exact hnone j thread hj hthread
  refine ⟨(kinds_set hget rfl).trans h.kinds, ?_, hattends.idle, ?_, ?_⟩
  · intro j thread hthread
    rcases get_set hget hthread with ⟨rfl, rfl⟩ | ⟨-, hthread⟩
    · exact hattends.fits
    · exact h.fits j thread hthread
  · intro thread hthread hwork
    rcases get_set hget hthread with ⟨hi, rfl⟩ | ⟨hi, hthread⟩
    · exact (hattends.starts hi hwork).imp id (hnothing hi)
    · obtain ⟨hqueue, hnone⟩ := h.busy thread hthread hwork
      obtain ⟨rfl, -⟩ := hattends.takes hi
      have horder := hattends.order
      rw [hqueue, Option.toList_none, List.append_nil, List.sublist_nil] at horder
      obtain ⟨hacts, hqueue'⟩ := List.append_eq_nil_iff.mp horder
      refine ⟨hqueue', fun j thread' hj hthread' => ?_⟩
      rcases get_set hget hthread' with ⟨rfl, rfl⟩ | ⟨-, hthread'⟩
      · exact hacts
      · exact hnone j thread' hj hthread'
  · intro j thread hj hthread hsome
    rcases get_set hget hthread with ⟨rfl, rfl⟩ | ⟨hij, hthread⟩
    · exact ((hattends.takes hj).2 hsome).1
    · rcases hattends.keeps with hnone | hkeeps
      · exact absurd (hnone j thread hj hthread) hsome
      · exact hkeeps _ (kind_ne_of_ne (h.kinds ▸ hnodup) hget hthread hij)
          (h.hands j thread hj hthread hsome)

theorem Attended.resumes (h : Attended manners shim) {point : runtime.Point}
    {rest : List (ShimAct runtime.Kind runtime.Point)}
    (hget : shim.threads[i]? = some ⟨kind, some (.lock point :: rest)⟩)
    {after : runtime.State × List (ShimAct runtime.Kind runtime.Point)}
    (hresumes : Resumes manners shim.shared after) :
    Attended manners { shim.setActs i kind (some after.2) with shared := after.1 } := by
  obtain ⟨events, hevents⟩ := hresumes.sends
  have hwork : after.2.any Act.isWork = false := by
    rw [hevents]
    simp [Act.isWork]
  have hgone : Attended manners
      { shim.setActs i kind (some after.2) with shared := shim.shared } := by
    refine h.goesOn hget rfl ?_ (fun hwork' => ?_) fun _ => unwritten_of_not_work hwork
    · intro act hact
      rw [Option.getD_some, hevents] at hact
      obtain ⟨event, -, rfl⟩ := List.mem_map.mp hact
      simp [Act.fits]
    · rw [Option.getD_some, hwork] at hwork'
      cases hwork'
  have hlock := h.fits i _ hget (.lock point) List.mem_cons_self
  simp only [Act.fits, Act.leadsToLock, Bool.not_true, Bool.or_false] at hlock
  rcases Bool.or_eq_true_iff.mp hlock with hlocks | hzero
  · obtain ⟨hstate, hhands⟩ := hresumes.keeps hlocks
    refine ⟨hgone.kinds, hgone.fits, fun hidle => ?_, fun thread hthread hbusy => ?_, ?_⟩
    · exact hresumes.queue.trans (h.idle (hstate.symm.trans hidle))
    · obtain ⟨hqueue, hnone⟩ := hgone.busy thread hthread hbusy
      exact ⟨hresumes.queue.trans hqueue, hnone⟩
    · exact fun j thread hj hthread hsome => hhands _ (hgone.hands j thread hj hthread hsome)
  · -- the command thread was at work, so there is nothing that the section could disturb
    obtain rfl := of_decide_eq_true hzero
    obtain ⟨hqueue, hnone⟩ := h.busy _ hget rfl
    have hqueue' := hresumes.queue.trans hqueue
    refine ⟨hgone.kinds, hgone.fits, fun _ => hqueue', fun thread hthread hbusy => ?_, ?_⟩
    · exact ⟨hqueue', (hgone.busy thread hthread hbusy).2⟩
    · intro j thread hj hthread hsome
      rcases get_set hget hthread with ⟨rfl, -⟩ | ⟨-, hthread⟩
      · exact absurd rfl hj
      · exact absurd (hnone j thread hj hthread) hsome

end

/-- **Attention is kept**, and with it the line. -/
theorem attended_step {shim : runtime.Shim} (h : Attended manners shim ∧ Lined shim)
    (hnodup : manners.kinds.Nodup) {turn : Turn runtime.Input}
    (hreceive : ∀ {i input kind}, turn = .receive i input →
      shim.threads[i]? = some ⟨kind, some []⟩ →
      runtime.machine.accepts kind input shim.shared = true →
      Attends manners shim i kind (runtime.incoming input)
        (runtime.machine.receive kind input shim.shared))
    (hresume : ∀ point, Resumes manners shim.shared (runtime.machine.resume point shim.shared)) :
    Attended manners (shim.step runtime.machine turn) ∧ Lined (shim.step runtime.machine turn) := by
  obtain ⟨hattended, hlined⟩ := h
  refine ⟨World.step_of_stepped hattended fun {i kind shim'} hstepped => ?_, hlined.step ?_ ?_⟩
  · have hfits : ∀ {act rest}, shim.threads[i]? = some ⟨kind, some (act :: rest)⟩ →
        ∀ act ∈ rest, act.fits (manners.locks || decide (i = 0)) := fun hget act hact =>
      hattended.fits i _ hget act (List.mem_cons_of_mem _ hact)
    cases hstepped with
    | receive input hget haccepts =>
      exact hattended.takesSection hnodup hget (hreceive rfl hget haccepts)
    | send succeeds event hget =>
      exact hattended.goesOn hget rfl (hfits hget) (fun hwork => by simpa using hwork) id
    | written line hget =>
      refine hattended.goesOn hget rfl (hfits hget) (fun hwork => by simp) fun hnone => ?_
      rw [Option.getD_some, unwritten_write] at hnone
      exact (List.append_eq_nil_iff.mp hnone).2
    | @failed line failed rest hget =>
      have hwrite := hattended.fits i _ hget _ List.mem_cons_self
      cases failed with
      | none =>
        refine hattended.goesOn hget rfl (hfits hget) (fun hwork => by simp) fun hnone => ?_
        rw [Option.getD_some, unwritten_write] at hnone
        exact (List.append_eq_nil_iff.mp hnone).2
      | some failed =>
        refine hattended.goesOn hget rfl (fun act hact => ?_) (fun hwork => by simp)
          fun _ => unwritten_failedActs failed
        simp only [Option.getD_some, Option.elim_some, failedActs, List.mem_append, List.mem_map,
          Option.mem_toList] at hact
        rcases hact with ⟨event, -, rfl⟩ | ⟨point, hpoint, rfl⟩
        · simp [Act.fits]
        · simpa [Act.fits, Act.leadsToLock, hpoint] using hwrite
    | lock succeeds point hget => exact hattended.resumes hget (hresume point)
    | fork succeeds new line next hget =>
      have hfork := hattended.fits i _ hget _ List.mem_cons_self
      simp [Act.fits] at hfork
    | stop succeeds hget => exact hattended.goesOn hget rfl (by simp) (by simp) fun _ => rfl
  · intro i input kind hturn hget haccepts
    exact hattended.lineKept hnodup hget (hreceive hturn hget haccepts)
  · intro i succeeds kind point rest hturn hget
    obtain ⟨events, hevents⟩ := (hresume point).sends
    refine ⟨?_, ?_⟩
    · rw [hevents]
      exact unwritten_sends events
    · rw [(hresume point).queue]

end

/-! ### Sections that take no message -/

section

variable {Kind Point : Type} {locks : Bool} {queue queue' : List QueuedMessage} {state : ShimState}
  {acts : List (ShimAct Kind Point)}

/-- A section that takes no message, by the state and the queue it leaves and by its acts: what it
hands out comes off the queue, and goes to an agent that works. -/
structure HandsOn (locks : Bool) (queue : List QueuedMessage) (state : ShimState)
    (queue' : List QueuedMessage) (acts : List (ShimAct Kind Point)) : Prop where
  order : (unwritten acts ++ queue').Sublist queue
  single : (unwritten acts).length ≤ 1
  fits : ∀ act ∈ acts, act.fits locks = true
  idle : state = .idle → queue' = []
  handed : unwritten acts ≠ [] → state = .working

theorem handsOn_quiet (hqueue : queue'.Sublist queue) (hidle : state = .idle → queue' = [])
    (hacts : ∀ act ∈ acts, act.isWork = false) : HandsOn locks queue state queue' acts := by
  have hnone : unwritten acts = [] :=
    unwritten_of_not_work (List.any_eq_false.mpr fun act hact => by simp [hacts act hact])
  refine ⟨?_, by simp [hnone], fun act hact => ?_, hidle, fun h => absurd hnone h⟩
  · rwa [hnone, List.nil_append]
  · have hact' := hacts act hact
    cases act with
    | send event => simp
    | stop => simp
    | _ => cases hact'

theorem handsOn_dropped (hacts : ∀ act ∈ acts, act.isWork = false) :
    HandsOn locks queue state [] acts :=
  handsOn_quiet (List.nil_sublist _) (fun _ => rfl) hacts

/-! ### Sections of the command thread -/

/-- A section of the command thread, by the state it finds, and the state and the queue it leaves:
it goes to work on an idle agent, with nothing in the queue. -/
structure Takes (queue : List QueuedMessage) (message : Option QueuedMessage)
    (source state : ShimState) (queue' : List QueuedMessage) (acts : List (ShimAct Kind Point)) :
    Prop where
  order : (unwritten acts ++ queue').Sublist (queue ++ message.toList)
  single : (unwritten acts).length ≤ 1
  fits : ∀ act ∈ acts, act.fits true = true
  idle : state = .idle → queue' = []
  starts : acts.any Act.isWork = true → source = .idle ∧ queue' = []
  keeps : state = .idle → source = .idle

theorem takes_quiet {source : ShimState} {message : Option QueuedMessage}
    (hidle : source = .idle → queue = []) (hstate : state = source ∨ state ≠ .idle)
    (hacts : ∀ act ∈ acts, act.isWork = false) : Takes queue message source state queue acts := by
  have hwork : acts.any Act.isWork = false := List.any_eq_false.mpr fun act hact => by
    simp [hacts act hact]
  have hsource : state = .idle → source = .idle := by
    intro h
    rcases hstate with rfl | hne
    · exact h
    · exact absurd h hne
  obtain ⟨horder, hsingle, hfits, hidle', -⟩ :=
    @handsOn_quiet _ _ true queue queue state acts (.refl _) (fun h => hidle (hsource h)) hacts
  refine ⟨horder.trans (List.sublist_append_left _ _), hsingle, hfits, hidle', fun h => ?_, hsource⟩
  rw [hwork] at h
  cases h

theorem sublist_queueMessage (queue : List QueuedMessage) (message : QueuedMessage) :
    (queueMessage queue message).1.Sublist (queue ++ [message]) := by
  unfold queueMessage
  simp only
  split
  · exact (List.tail_sublist queue).append_right [message]
  · exact .refl _

/-- A message that comes while the agent works. -/
theorem takes_queueMessage (queue : List QueuedMessage) (message : QueuedMessage) :
    Takes queue (some message) .working .working (queueMessage queue message).1
      ((queueMessage queue message).2.map .send : List (ShimAct Kind Point)) := by
  refine ⟨?_, by simp, by simp, nofun, fun h => ?_, id⟩
  · rw [unwritten_sends, List.nil_append]
    exact sublist_queueMessage queue message
  · simp at h

/-- A message that is written at once. -/
theorem takes_message {message : QueuedMessage} {failed : List (ShimEvent String)}
    {rest : List (ShimAct Kind Point)} {source : ShimState} (hsource : source = .idle)
    (hqueue : queue = []) (hrest : unwritten rest = [])
    (hfits : ∀ act ∈ rest, act.fits true = true) :
    Takes queue (some message) source state queue
      (.write (.message message) (some (failed, none)) :: rest) := by
  subst hqueue
  refine ⟨?_, ?_, ?_, fun _ => rfl, fun _ => ⟨hsource, rfl⟩, fun _ => hsource⟩
  · simp [hrest, AgentLine.message?]
  · simp [hrest, AgentLine.message?]
  · simpa using hfits

end

section

variable {runtime : Runtime} {manners : Manners runtime} {shim : runtime.Shim} {i : Nat}
  {kind : runtime.Kind} {incoming : Option QueuedMessage}
  {after : runtime.State × List (ShimAct runtime.Kind runtime.Point)}

theorem attends_of_takes (hattended : Attended manners shim) (hi : i = 0)
    (h : Takes (runtime.messageQueue shim.shared) incoming (runtime.state shim.shared)
      (runtime.state after.1) (runtime.messageQueue after.1) after.2)
    (hidle : ∀ kind', manners.Hands kind' shim.shared → runtime.state shim.shared ≠ .idle)
    (hkeeps : ∀ kind', kind' ≠ kind → manners.Hands kind' shim.shared →
      manners.Hands kind' after.1) : Attends manners shim i kind incoming after := by
  refine ⟨h.order, h.single, ?_, h.idle, fun _ hwork => ?_, fun hne => absurd hi hne, .inr hkeeps⟩
  · simpa [hi] using h.fits
  · obtain ⟨hsource, hqueue⟩ := h.starts hwork
    refine ⟨hqueue, fun j thread hj hget => ?_⟩
    by_contra hsome
    exact hidle _ (hattended.hands j thread hj hget hsome) hsource

theorem attends_of_handsOn (hi : i ≠ 0) (hincoming : incoming = none)
    (h : HandsOn manners.locks (runtime.messageQueue shim.shared) (runtime.state after.1)
      (runtime.messageQueue after.1) after.2)
    (hhands : unwritten after.2 ≠ [] → manners.Hands kind after.1 ∧
      ∀ kind', kind' ≠ kind → ¬ manners.Hands kind' shim.shared)
    (hkeeps : NothingUnwritten shim.threads ∨ ∀ kind', kind' ≠ kind →
      manners.Hands kind' shim.shared → manners.Hands kind' after.1) :
    Attends manners shim i kind incoming after := by
  subst hincoming
  refine ⟨?_, h.single, ?_, h.idle, fun hzero => absurd hzero hi, fun _ => ⟨rfl, hhands⟩, hkeeps⟩
  · simpa using h.order
  · simpa [hi] using h.fits

/-- The kind of a thread is that of its place. -/
theorem Attended.kind_at (h : Attended manners shim) {acts : Option _}
    (hget : shim.threads[i]? = some ⟨kind, acts⟩) : manners.kinds[i]? = some kind := by
  rw [← h.kinds, List.getElem?_map, hget, Option.map_some]

/-- Where one thread besides the command thread hands messages on, and not to an idle agent. -/
theorem attends_of_reader {command reader : runtime.Kind}
    (hkinds : manners.kinds = [command, reader])
    (hhands : ∀ kind' state, manners.Hands kind' state ↔
      kind' = reader ∧ runtime.state state ≠ .idle)
    (hattended : Attended manners shim) (hget : shim.threads[i]? = some ⟨kind, some []⟩)
    (htakes : kind = command → Takes (runtime.messageQueue shim.shared) incoming
      (runtime.state shim.shared) (runtime.state after.1) (runtime.messageQueue after.1) after.2)
    (hhandsOn : kind = reader → incoming = none ∧ HandsOn manners.locks
      (runtime.messageQueue shim.shared) (runtime.state after.1) (runtime.messageQueue after.1)
        after.2) :
    Attends manners shim i kind incoming after := by
  have hplace := hattended.kind_at hget
  rw [hkinds] at hplace
  match i, hplace with
  | 0, hplace =>
    replace htakes := htakes (Option.some.inj hplace).symm
    refine attends_of_takes hattended rfl htakes (fun kind' h => ((hhands _ _).mp h).2)
      fun kind' _ h => (hhands _ _).mpr ?_
    obtain ⟨hreader, hbusy⟩ := (hhands _ _).mp h
    exact ⟨hreader, fun hidle => hbusy (htakes.keeps hidle)⟩
  | 1, hplace =>
    obtain rfl : reader = kind := Option.some.inj hplace
    obtain ⟨hincoming, hhandsOn⟩ := hhandsOn rfl
    refine attends_of_handsOn (by decide) hincoming hhandsOn (fun hsome => ⟨?_, ?_⟩) (.inr ?_)
    · refine (hhands _ _).mpr ⟨rfl, fun hidle => ?_⟩
      cases (hhandsOn.handed hsome).symm.trans hidle
    · exact fun kind' hne h => hne ((hhands _ _).mp h).1
    · exact fun kind' hne h => absurd ((hhands _ _).mp h).1 hne
  | _ + 2, hplace => cases hplace

end

/-! ### The start -/

section

variable {runtime : Runtime} {shim : runtime.Shim}

theorem ordered_of_lined (hidle : runtime.state shim.shared = .idle →
    runtime.messageQueue shim.shared = []) (h : Lined shim) : Ordered shim :=
  ⟨hidle, (List.sublist_append_left _ _).trans h.order⟩

theorem attended_of_waits {manners : Manners runtime}
    (hkinds : shim.threads.map Thread.kind = manners.kinds)
    (hqueue : runtime.messageQueue shim.shared = [])
    (hwaits : ∀ thread ∈ shim.threads, thread.acts = some []) : Attended manners shim := by
  have hnone : ∀ {i : Nat} {thread}, shim.threads[i]? = some thread → thread.acts.getD [] = [] := by
    intro i thread hget
    rw [hwaits thread (List.mem_of_getElem? hget), Option.getD_some]
  refine ⟨hkinds, fun i thread hget act hact => ?_, fun _ => hqueue, fun thread hget hwork => ?_,
    fun i thread _ hget hsome => ?_⟩
  · rw [hnone hget] at hact
    cases hact
  · rw [hnone hget] at hwork
    cases hwork
  · rw [hnone hget] at hsome
    exact absurd rfl hsome

theorem lined_of_waits (hwritten : shim.written = [])
    (hqueue : runtime.messageQueue shim.shared = [])
    (hwaits : ∀ thread ∈ shim.threads, thread.acts = some []) : Lined shim := by
  have hnone : unwrittenBy shim.threads = [] :=
    List.flatMap_eq_nil_iff.mpr fun thread hmem => by rw [hwaits thread hmem]; rfl
  constructor
  · rw [hwritten, hnone, hqueue]
    exact List.nil_sublist _
  · rw [hnone]
    exact Nat.zero_le _

end

end Batty
