import PlexusTransport.Lib.Tasks
import PlexusTransport.Ws.Conn.Backlog

/-! # The calls that are running

The loop with the tasks it starts, for async methods and batches, and the counter they share
with it: raised as a task is started, lowered by the task itself before it returns.
-/

namespace PlexusTransport.Ws.Conn

/-- Where a task is. Its method may panic, and then the task unwinds. -/
inductive TaskStage where
  | working
  | sending (raw : Bytes)
  | answered
  | returned
  | panicked
  deriving DecidableEq, Repr

def TaskStage.alive : TaskStage → Bool
  | .working | .sending _ | .answered => true
  | .returned | .panicked => false

/-- It holds a place in the counter. -/
def TaskStage.holds : TaskStage → Bool
  | .returned => false
  | _ => true

/-- The loop, the counter `running`, and every task ever started. -/
structure Tasked where
  served : Served
  running : Nat
  tasks : List TaskStage

/-- `answers`: the task's future is done, with what is sent of it if anything is; `refused`:
    its send finds the receiver gone; `place`: which place of the counter it gives back. -/
inductive TaskMove (σ : Type) where
  | loop (a : Act σ)
  | answers (i : Nat) (sent : Option Bytes)
  | panics (i : Nat)
  | sends (i : Nat)
  | refused (i : Nat)
  | returns (i : Nat) (place : Nat)

def TaskMove.panic {σ : Type} : TaskMove σ → Bool
  | .panics _ => true
  | _ => false

namespace Tasked

variable {σ : Type} (limits : SocketLimits) (texts : Texts)

def new (now : Nat) : Tasked := ⟨.new limits now, 0, []⟩

def alive (s : Tasked) : Nat := s.tasks.countP TaskStage.alive

def panicked (s : Tasked) : Nat := s.tasks.countP (· = .panicked)

/-- A step of the loop: `fetch_add` and `spawn` for each task it starts. -/
def loop (s : Tasked) (a : Act σ) : Option Tasked :=
  (s.served.step limits texts a).map fun c =>
    let started := c.running.length - s.served.running.length
    ⟨c, s.running + started, s.tasks ++ List.replicate started .working⟩

def step (s : Tasked) : TaskMove σ → Option Tasked
  -- Only a task lowers the counter.
  | .loop (.happen (.finish _)) => none
  | .loop a => s.loop limits texts a
  | .answers i sent =>
      if s.tasks[i]? = some .working then
        some { s with tasks := s.tasks.set i (sent.elim .answered .sending) }
      else none
  | .panics i =>
      if s.tasks[i]? = some .working then some { s with tasks := s.tasks.set i .panicked }
      else none
  | .sends i =>
      match s.tasks[i]? with
      | some (.sending raw) =>
          (s.served.step limits texts (.happen (.arrive (.table raw)) : Act σ)).map fun c =>
            { s with served := c, tasks := s.tasks.set i .answered }
      | _ => none
  | .refused i =>
      match s.tasks[i]?, s.served.phase with
      | some (.sending _), .ended _ => some { s with tasks := s.tasks.set i .answered }
      | _, _ => none
  | .returns i place =>
      if s.tasks[i]? = some .answered ∧ place < s.served.running.length then
        some ⟨{ s.served with running := s.served.running.eraseIdx place }, s.running - 1,
          s.tasks.set i .returned⟩
      else none

def machine (now : Nat) : Machine Tasked (TaskMove σ) := ⟨new limits now, step limits texts⟩

/-- The counter is exact: with no call left the loop is not busy. -/
structure Exact (s : Tasked) : Prop where
  running : s.running = s.alive
  quiet : s.alive = 0 → s.served.accepting = [] → s.served.busy false = false

/-- All that a move can be. -/
inductive Moves (s : Tasked) : TaskMove σ → Tasked → Prop where
  | loop {a c} (unfinished : ∀ i, a ≠ .happen (.finish i))
      (stepped : s.served.step limits texts a = some c) :
      Moves s (.loop a) ⟨c, s.running + (c.running.length - s.served.running.length),
        s.tasks ++ List.replicate (c.running.length - s.served.running.length) .working⟩
  -- A task that keeps its place.
  | goes {move i a b served} (here : s.tasks[i]? = some a)
      (holds : a.holds = true ∧ b.holds = true) (going : a ≠ .panicked)
      (panics : move.panic = decide (b = .panicked))
      (running : served.running = s.served.running) :
      Moves s move { s with served, tasks := s.tasks.set i b }
  | returns {i place} (here : s.tasks[i]? = some .answered)
      (within : place < s.served.running.length) :
      Moves s (.returns i place)
        ⟨{ s.served with running := s.served.running.eraseIdx place }, s.running - 1,
          s.tasks.set i .returned⟩

variable {limits texts} {s s' : Tasked}

/-- A task that moves on is counted where it comes to, and no more where it was. -/
theorem countP_moves {tasks : List TaskStage} {i : Nat} {a : TaskStage} (here : tasks[i]? = some a)
    (p : TaskStage → Bool) (b : TaskStage) :
    (tasks.set i b).countP p + (p a).toNat = tasks.countP p + (p b).toNat := by
  obtain ⟨within, rfl⟩ := List.getElem?_eq_some_iff.mp here
  have counted := List.boole_getElem_le_countP (p := p) within
  rw [List.countP_set within, Bool.toNat, Bool.toNat, Bool.cond_eq_ite, Bool.cond_eq_ite]
  omega

/-- Each place of the counter is a task's that has not given it back. -/
structure Counted (s : Tasked) : Prop where
  running : s.running = s.tasks.countP TaskStage.holds
  places : s.served.running.length = s.running

/-- Nothing the loop does ends a task. -/
theorem step_running {c c' : Served} {a : Act σ} (unfinished : ∀ i, a ≠ .happen (.finish i))
    (stepped : c.step limits texts a = some c') : c.running <+: c'.running := by
  cases Served.steps limits texts stepped with
  | @happen h c' going happened =>
      cases h with
      | finish i => exact absurd rfl (unfinished i)
      | resolve name rp =>
          cases happened
          exact List.prefix_rfl
      | arrive a | permitTaken | permitBack | frame time =>
          simp only [Served.happen, Option.ite_none_right_eq_some, Option.some.injEq] at happened
          obtain ⟨-, rfl⟩ := happened
          exact List.prefix_rfl
  | @wake w phase later =>
      have inner := (Served.wake_places limits w c).1
      have same : (c.wake limits w).running = c.running := congrArg (·.2.2) inner
      rw [same]
  | accept phase => exact List.prefix_rfl
  | @read x phase made =>
      have polled := Served.polls limits texts x c
      generalize c.pollNext limits texts x = d at polled ⊢
      cases polled with
      | stopped | ends | failed | gone | pending => exact List.prefix_rfl
      | takes gate read messaged =>
          cases Served.messaged texts messaged with
          | answers begun | accepting begun => exact List.prefix_rfl
          | task begun => exact List.prefix_append _ _
  | write phase written =>
      cases Served.writes limits written with
      | lost | rests | shares | goes => exact List.prefix_rfl

theorem moves {move : TaskMove σ} (stepped : s.step limits texts move = some s') :
    Moves limits texts s move s' := by
  cases move with
  | loop a =>
      have unfinished : ∀ i, a ≠ .happen (.finish i) := by
        rintro i rfl
        cases stepped
      have looped : s.loop limits texts a = some s' := by
        unfold step at stepped
        split at stepped
        · cases stepped
        · rename_i same
          cases same
          exact stepped
        all_goals contradiction
      obtain ⟨c, went, rfl⟩ := Option.map_eq_some_iff.mp looped
      exact .loop unfinished went
  | answers i sent =>
      simp only [step, Option.ite_none_right_eq_some, Option.some.injEq] at stepped
      obtain ⟨here, rfl⟩ := stepped
      refine .goes here ⟨rfl, ?_⟩ (by simp) ?_ rfl
      · cases sent <;> rfl
      · cases sent <;> simp [TaskMove.panic]
  | panics i =>
      simp only [step, Option.ite_none_right_eq_some, Option.some.injEq] at stepped
      obtain ⟨here, rfl⟩ := stepped
      exact .goes here ⟨rfl, rfl⟩ (by simp) rfl rfl
  | sends i =>
      simp only [step] at stepped
      split at stepped
      · rename_i raw here
        obtain ⟨c, sent, rfl⟩ := Option.map_eq_some_iff.mp stepped
        refine .goes here ⟨rfl, rfl⟩ (by simp) rfl ?_
        cases Served.steps limits texts sent with
        | happen going happened =>
            simp only [Served.happen, Option.ite_none_right_eq_some, Option.some.injEq] at happened
            obtain ⟨-, rfl⟩ := happened
            rfl
      · cases stepped
  | refused i =>
      simp only [step] at stepped
      split at stepped
      · rename_i raw e here ended
        cases stepped
        exact .goes here ⟨rfl, rfl⟩ (by simp) rfl rfl
      · cases stepped
  | returns i place =>
      simp only [step, Option.ite_none_right_eq_some, Option.some.injEq] at stepped
      obtain ⟨⟨here, within⟩, rfl⟩ := stepped
      exact .returns here within

theorem step_counted {move : TaskMove σ} (counted : s.Counted)
    (stepped : s.step limits texts move = some s') : s'.Counted := by
  obtain ⟨running, places⟩ := counted
  cases moves stepped with
  | loop unfinished went =>
      have grown := (step_running unfinished went).length_le
      refine ⟨?_, by dsimp only; omega⟩
      dsimp only
      rw [List.countP_append, List.countP_replicate, running]
      rfl
  | @goes _ i a b served here holds going panics same =>
      have moved := countP_moves here TaskStage.holds b
      rw [holds.1, holds.2] at moved
      refine ⟨?_, ?_⟩
      · exact running.trans (Nat.add_right_cancel moved).symm
      · rw [same]
        exact places
  | returns here within =>
      have moved := countP_moves here TaskStage.holds .returned
      have fewer := List.length_eraseIdx_add_one within
      simp only [TaskStage.holds, Bool.toNat_true, Bool.toNat_false] at moved
      exact ⟨by dsimp only; omega, by dsimp only; omega⟩

/-- The tasks that panicked, one for each move that says so. -/
theorem step_panicked {move : TaskMove σ} (stepped : s.step limits texts move = some s') :
    s'.panicked = s.panicked + move.panic.toNat := by
  unfold panicked
  cases moves stepped with
  | loop unfinished went =>
      rw [List.countP_append, List.countP_replicate]
      rfl
  | @goes _ i a b served here holds going panics same =>
      have moved := countP_moves here (· = .panicked) b
      rw [panics]
      simpa [going] using moved
  | returns here within =>
      have moved := countP_moves here (· = .panicked) .returned
      simpa [TaskMove.panic] using moved

theorem run_panicked {now : Nat} {run : List (TaskMove σ)}
    (ran : (machine limits texts now).runFrom s run = some s') :
    s'.panicked = s.panicked + run.countP TaskMove.panic := by
  induction run generalizing s with
  | nil =>
      cases ran
      rfl
  | cons move run ih =>
      obtain ⟨u, stepped, ran⟩ := Option.bind_eq_some_iff.mp ran
      rw [ih ran, step_panicked stepped, List.countP_cons, Bool.toNat, Bool.cond_eq_ite]
      omega

/-- What holds a place is alive, or has panicked. -/
theorem countP_holds (tasks : List TaskStage) :
    tasks.countP TaskStage.holds =
      tasks.countP TaskStage.alive + tasks.countP (· = .panicked) := by
  induction tasks with
  | nil => rfl
  | cons a tasks ih =>
      simp only [List.countP_cons, ih]
      cases a <;> simp [TaskStage.holds, TaskStage.alive] <;> omega

end Tasked

/-- The counter is exact in a run if and only if none of its tasks panics. -/
theorem busy_exact {σ : Type} (limits : SocketLimits) (texts : Texts) (now : Nat)
    (run : List (TaskMove σ)) (s : Tasked)
    (ran : (Tasked.machine limits texts now).run run = some s) :
    s.Exact ↔ ∀ i, .panics i ∉ run := by
  have counted : s.Counted :=
    Machine.run_keeps (I := Tasked.Counted) ⟨rfl, rfl⟩ (fun _ _ _ => Tasked.step_counted) ran
  have panicked : s.panicked = 0 + run.countP TaskMove.panic := Tasked.run_panicked ran
  have holds := Tasked.countP_holds s.tasks
  have none : s.panicked = 0 ↔ ∀ i, .panics i ∉ run := by
    rw [panicked, Nat.zero_add, List.countP_eq_zero]
    refine ⟨fun each i mem => each _ mem rfl, fun each move mem panics => ?_⟩
    cases move with
    | panics i => exact each i mem
    | _ => cases panics
  rw [← none]
  constructor
  · intro exact'
    have same := exact'.running
    rw [counted.running, holds] at same
    exact Nat.add_eq_left.mp same
  · intro quiet
    have same : s.running = s.alive := by
      rw [counted.running, holds]
      exact Nat.add_eq_left.mpr quiet
    refine ⟨same, fun idle accepted => ?_⟩
    have nothing : s.served.running = [] := List.length_eq_zero_iff.mp (by rw [counted.places]; omega)
    simp [Served.busy, nothing, accepted]

section Panics

abbrev counted : Machine Tasked (TaskMove Unit) := Tasked.machine roomy blank 0

/-- A call of an async method is read, and its task started. -/
def called : List (TaskMove Unit) :=
  [.loop (.wake ⟨0, false, false, false, false, false⟩), .loop .accept, .loop (.read callRead)]

theorem busy_exact_call : ∃ s, counted.run (called ++ [.answers 0 none, .returns 0 0]) = some s ∧
    (s.Exact ↔ ∀ i, .panics i ∉ called ++ [.answers 0 none, .returns 0 0]) :=
  ⟨_, rfl, busy_exact roomy blank 0 _ _ rfl⟩

/-- Its method panics: no task is left, and the connection is busy from then on. -/
theorem panicked_busy : ¬∀ (limits : SocketLimits) (texts : Texts) (now : Nat)
    (run : List (TaskMove Unit)) (s : Tasked),
    (Tasked.machine limits texts now).run run = some s → s.Exact := by
  intro exact'
  have ran : ∃ s, counted.run (called ++ [.panics 0]) = some s ∧ s.running = 1 ∧ s.alive = 0 :=
    ⟨_, rfl, rfl, rfl⟩
  obtain ⟨s, ran, running, none⟩ := ran
  have same := (exact' roomy blank 0 _ s ran).running
  rw [running, none] at same
  cases same

end Panics

end PlexusTransport.Ws.Conn
