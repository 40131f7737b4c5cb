import Mathlib.Data.List.Pairwise

/-!
# Two programs at one cell

Two programs share a cell, which each reads and writes as a whole. A read or a write is one atomic
step, and the steps of the two come in any order.

Two writes of different programs conflict, and so do a write and a read, if the write changes what
the reader does next. If no access of one program comes before a conflicting access of the other,
the cell ends up as if the other program had run first and this one after it
(`World.run_of_precedes`). What a write promises of the content it covers is then kept if it is
kept by programs that run alone.
-/

namespace Batty

namespace Cell

/-- What a program does with the cell. A write says which contents it may cover. -/
inductive Program (V : Type) where
  | stop
  | read (next : V → Program V)
  | write (covers : V → Bool) (content : V) (next : Program V)

variable {V : Type}

namespace Program

def isStop : Program V → Bool
  | stop => true
  | read _ | write _ _ _ => false

theorem eq_stop_of_isStop {program : Program V} (h : program.isStop = true) : program = stop := by
  cases program with
  | stop => rfl
  | read next => cases h
  | write covers content next => cases h

/-- What the program leaves in the cell when it runs alone. -/
def alone : Program V → V → V
  | stop, content => content
  | read next, content => (next content).alone content
  | write _ content next, _ => next.alone content

/-- Run alone, the program covers only what it may. -/
def coversAlone : Program V → V → Bool
  | stop, _ => true
  | read next, content => (next content).coversAlone content
  | write covers content next, before => covers before && next.coversAlone content

end Program

/-- The two programs. -/
inductive Side where
  | left | right
deriving DecidableEq

def Side.other : Side → Side
  | left => right
  | right => left

/-- The cell and what is left of the two programs; `fitting` says that every write so far covered
only what it may. -/
structure World (V : Type) where
  content : V
  left : Program V
  right : Program V
  fitting : Bool := true

namespace World

variable (world : World V)

def program : Side → Program V
  | .left => world.left
  | .right => world.right

def setProgram (program : Program V) : Side → World V
  | .left => { world with left := program }
  | .right => { world with right := program }

/-- The world after a write. -/
def put (covers : V → Bool) (content : V) (next : Program V) (side : Side) : World V :=
  { world.setProgram next side with
    content, fitting := world.fitting && covers world.content }

/-- One atomic step of one of the two; a program that has stopped stays as it is. -/
def step (side : Side) : World V :=
  match world.program side with
  | .stop => world
  | .read next => world.setProgram (next world.content) side
  | .write covers content next => world.put covers content next side

def run : World V → List Side → World V
  | world, [] => world
  | world, side :: schedule => run (world.step side) schedule

/-- Both programs have stopped. -/
def Complete : Prop := ∀ side, (world.program side).isStop = true

instance : Decidable world.Complete :=
  decidable_of_iff (world.left.isStop = true ∧ world.right.isStop = true)
    ⟨fun h side => by cases side; exacts [h.1, h.2], fun h => ⟨h .left, h .right⟩⟩

end World

/-! ### Accesses -/

/-- An access: a read with what the reader makes of it, or a write with what it covers. -/
inductive Access (V : Type) where
  | read (side : Side) (next : V → Program V)
  | write (side : Side) (before after : V)

namespace Access

def side : Access V → Side
  | read side _ | write side _ _ => side

/-- Accesses of different sides that may not change places. -/
def Conflicts : Access V → Access V → Prop
  | read _ _, read _ _ => False
  | read side next, write side' before after => side ≠ side' ∧ next before ≠ next after
  | write side before after, read side' next => side ≠ side' ∧ next before ≠ next after
  | write side _ _, write side' _ _ => side ≠ side'

end Access

/-- No access of the other side comes before a conflicting one of `side`. -/
def Precedes (side : Side) (accesses : List (Access V)) : Prop :=
  accesses.Pairwise fun first second => second.side = side → ¬ first.Conflicts second

/-- The accesses of one side come before all the accesses of the other that conflict with them. -/
def Serializable (accesses : List (Access V)) : Prop := ∃ side, Precedes side accesses

section

variable {side : Side} {access : Access V} {accesses : List (Access V)} {before after : V}

theorem Side.other_ne (side : Side) : side.other ≠ side := by cases side <;> simp [Side.other]

theorem Side.eq_or_eq_other (side side' : Side) : side' = side ∨ side' = side.other := by
  cases side <;> cases side' <;> simp [Side.other]

theorem Precedes.tail (h : Precedes side (access :: accesses)) : Precedes side accesses :=
  (List.pairwise_cons.mp h).2

/-- After a write of the other side, `side` makes no write. -/
theorem Precedes.not_mem_of_write (h : Precedes side (.write side.other before after :: accesses))
    (before' after' : V) : .write side before' after' ∉ accesses := fun hmem =>
  (List.pairwise_cons.mp h).1 _ hmem rfl side.other_ne

/-- After a write of the other side, what `side` reads rests on nothing that was written. -/
theorem Precedes.next_eq_of_write (h : Precedes side (.write side.other before after :: accesses))
    {next : V → Program V} (hmem : .read side next ∈ accesses) : next before = next after :=
  Classical.not_not.mp fun hne =>
    (List.pairwise_cons.mp h).1 _ hmem rfl ⟨side.other_ne, hne⟩

/-- After a read of the other side, `side` writes nothing that the read rests on. -/
theorem Precedes.next_eq_of_read {next : V → Program V}
    (h : Precedes side (.read side.other next :: accesses))
    (hmem : .write side before after ∈ accesses) : next before = next after :=
  Classical.not_not.mp fun hne =>
    (List.pairwise_cons.mp h).1 _ hmem rfl ⟨side.other_ne, hne⟩

end

namespace World

/-- The access that the side makes in its next step, if any. -/
def access? (world : World V) (side : Side) : Option (Access V) :=
  match world.program side with
  | .stop => none
  | .read next => some (.read side next)
  | .write _ content _ => some (.write side world.content content)

/-- The accesses that a schedule leads to, in order. -/
def accesses : World V → List Side → List (Access V)
  | _, [] => []
  | world, side :: schedule =>
    (world.access? side).toList ++ accesses (world.step side) schedule

/-! ### Steps -/

variable {world final : World V} {side side' : Side} {accesses : List (Access V)}

@[simp] theorem program_setProgram (world : World V) (program : Program V) (side : Side) :
    (world.setProgram program side).program side = program := by cases side <;> rfl

@[simp] theorem program_setProgram_other (world : World V) (program : Program V) (side : Side) :
    (world.setProgram program side.other).program side = world.program side := by
  cases side <;> rfl

@[simp] theorem program_other_setProgram (world : World V) (program : Program V) (side : Side) :
    (world.setProgram program side).program side.other = world.program side.other := by
  cases side <;> rfl

@[simp] theorem content_setProgram (world : World V) (program : Program V) (side : Side) :
    (world.setProgram program side).content = world.content := by cases side <;> rfl

@[simp] theorem fitting_setProgram (world : World V) (program : Program V) (side : Side) :
    (world.setProgram program side).fitting = world.fitting := by cases side <;> rfl

section

variable (world : World V) (covers : V → Bool) (content : V) (next : Program V) (side : Side)

@[simp] theorem program_put : (world.put covers content next side).program side = next := by
  cases side <;> rfl

@[simp] theorem program_put_other :
    (world.put covers content next side.other).program side = world.program side := by
  cases side <;> rfl

@[simp] theorem program_other_put :
    (world.put covers content next side).program side.other = world.program side.other := by
  cases side <;> rfl

@[simp] theorem content_put : (world.put covers content next side).content = content := rfl

@[simp] theorem fitting_put :
    (world.put covers content next side).fitting = (world.fitting && covers world.content) := rfl

end

/-! ### Complete runs -/

theorem Complete.program (h : world.Complete) (side : Side) : world.program side = .stop :=
  Program.eq_stop_of_isStop (h side)

/-- A run with these accesses, to a world in which both have stopped. -/
inductive Completes : World V → List (Access V) → World V → Prop where
  | done {world : World V} (hcomplete : world.Complete) : Completes world [] world
  | read {world final : World V} {side : Side} {next : V → Program V}
      {accesses : List (Access V)} (hprogram : world.program side = .read next)
      (hrest : Completes (world.setProgram (next world.content) side) accesses final) :
      Completes world (.read side next :: accesses) final
  | write {world final : World V} {side : Side} {covers : V → Bool} {content : V}
      {next : Program V} {accesses : List (Access V)}
      (hprogram : world.program side = .write covers content next)
      (hrest : Completes (world.put covers content next side) accesses final) :
      Completes world (.write side world.content content :: accesses) final

theorem completes_run {schedule : List Side} (h : (world.run schedule).Complete) :
    Completes world (world.accesses schedule) (world.run schedule) := by
  induction schedule generalizing world with
  | nil => exact .done h
  | cons side schedule ih =>
    rw [run] at h ⊢
    have hrest := ih h
    rw [World.accesses, access?]
    rw [step] at hrest ⊢
    cases hprogram : world.program side with
    | stop =>
      rw [hprogram] at hrest
      exact hrest
    | read next =>
      rw [hprogram] at hrest
      exact .read hprogram hrest
    | write covers content next =>
      rw [hprogram] at hrest
      exact .write hprogram hrest

/-- A program with only reads to come, whose reads are as good on `content`, leaves it as it is. -/
theorem Completes.alone_of_reads (h : Completes world accesses final)
    (hprecedes : Precedes side accesses)
    (hreads : ∀ before after, .write side before after ∉ accesses) {content : V}
    (hsame : ∀ next, .read side next ∈ accesses → next content = next world.content) :
    (world.program side).alone content = content ∧
      (world.program side).coversAlone content = true := by
  induction h with
  | done hcomplete =>
    rw [hcomplete.program side]
    exact ⟨rfl, rfl⟩
  | @read world final turn next accesses hprogram hrest ih =>
    -- Neither read changes the content, so what is to come is still as good on it.
    have hrestsame : ∀ next, .read side next ∈ accesses → next content = next world.content :=
      fun next hmem => hsame next (List.mem_cons_of_mem _ hmem)
    have hrestreads : ∀ before after, .write side before after ∉ accesses :=
      fun before after hmem => hreads before after (List.mem_cons_of_mem _ hmem)
    have hafter := ih hprecedes.tail hrestreads (by simpa using hrestsame)
    rcases side.eq_or_eq_other turn with rfl | rfl
    · rw [program_setProgram, ← hsame next List.mem_cons_self] at hafter
      rwa [hprogram]
    · rwa [program_setProgram_other] at hafter
  | @write world final turn covers written next accesses hprogram hrest ih =>
    rcases side.eq_or_eq_other turn with rfl | rfl
    · exact absurd List.mem_cons_self (hreads _ _)
    · -- What the other side writes is not what the reads to come rest on.
      have hafter := ih hprecedes.tail
        (fun before after hmem => hreads before after (List.mem_cons_of_mem _ hmem))
        fun next hmem => (hsame next (List.mem_cons_of_mem _ hmem)).trans
          (hprecedes.next_eq_of_write hmem)
      rwa [program_put_other] at hafter

/-- What no write of `side` changes is the same after `side` has run alone. -/
theorem Completes.view_alone {α : Type} (view : V → α) (h : Completes world accesses final)
    (hprecedes : Precedes side accesses)
    (hview : ∀ before after, .write side before after ∈ accesses → view before = view after) :
    view ((world.program side).alone world.content) = view world.content := by
  induction h with
  | done hcomplete =>
    rw [hcomplete.program side]
    rfl
  | @read world final turn next accesses hprogram hrest ih =>
    have hafter := ih hprecedes.tail fun before after hmem =>
      hview before after (List.mem_cons_of_mem _ hmem)
    rcases side.eq_or_eq_other turn with rfl | rfl
    · rw [program_setProgram, content_setProgram] at hafter
      rwa [hprogram]
    · rwa [program_setProgram_other, content_setProgram] at hafter
  | @write world final turn covers written next accesses hprogram hrest ih =>
    rcases side.eq_or_eq_other turn with rfl | rfl
    · have hafter := ih hprecedes.tail fun before after hmem =>
        hview before after (List.mem_cons_of_mem _ hmem)
      rw [program_put, content_put] at hafter
      -- After this write the view is what it was, by assumption on the write.
      rw [hprogram, Program.alone, hafter, hview _ _ List.mem_cons_self]
    · have hreads := hrest.alone_of_reads hprecedes.tail hprecedes.not_mem_of_write
        fun next hmem => hprecedes.next_eq_of_write hmem
      rw [program_put_other] at hreads
      rw [hreads.1]

/-- **Serial order.** A complete run in which one side precedes the other ends as if the one had run
alone, and the other after it. -/
theorem Completes.serial (h : Completes world accesses final) (hprecedes : Precedes side accesses) :
    final.content =
        (world.program side.other).alone ((world.program side).alone world.content) ∧
      final.fitting = (world.fitting && ((world.program side).coversAlone world.content &&
        (world.program side.other).coversAlone
          ((world.program side).alone world.content))) := by
  induction h with
  | done hcomplete =>
    rw [hcomplete.program side, hcomplete.program side.other]
    simp [Program.alone, Program.coversAlone]
  | @read world final turn next accesses hprogram hrest ih =>
    have hafter := ih hprecedes.tail
    rcases side.eq_or_eq_other turn with rfl | rfl
    · simpa [hprogram, Program.alone, Program.coversAlone] using hafter
    · -- The read is as good after `side` has run alone.
      have hview := hrest.view_alone next hprecedes.tail fun before after hmem =>
        hprecedes.next_eq_of_read hmem
      rw [program_setProgram_other, content_setProgram] at hview
      simpa [hprogram, Program.alone, Program.coversAlone, hview] using hafter
  | @write world final turn covers written next accesses hprogram hrest ih =>
    have hafter := ih hprecedes.tail
    rcases side.eq_or_eq_other turn with rfl | rfl
    · simpa [hprogram, Program.alone, Program.coversAlone, Bool.and_assoc] using hafter
    · -- Nothing but reads of `side` is left, which leave the file as they find it.
      have hbefore := hrest.alone_of_reads hprecedes.tail hprecedes.not_mem_of_write
        fun next hmem => hprecedes.next_eq_of_write hmem
      have hwritten := hrest.alone_of_reads hprecedes.tail hprecedes.not_mem_of_write
        fun next hmem => rfl
      rw [program_put_other] at hbefore hwritten
      simp only [content_put] at hwritten
      simpa [hprogram, Program.alone, Program.coversAlone, hbefore.1, hbefore.2, hwritten.1,
        hwritten.2, Bool.and_assoc] using hafter

theorem run_of_precedes {schedule : List Side} (hcomplete : (world.run schedule).Complete)
    (hprecedes : Precedes side (world.accesses schedule)) :
    (world.run schedule).content =
        (world.program side.other).alone ((world.program side).alone world.content) ∧
      (world.run schedule).fitting = (world.fitting &&
        ((world.program side).coversAlone world.content &&
          (world.program side.other).coversAlone ((world.program side).alone world.content))) :=
  (completes_run hcomplete).serial hprecedes

end World

end Cell

end Batty
