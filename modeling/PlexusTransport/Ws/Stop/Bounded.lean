import PlexusTransport.Ws.Stop

/-! # How long a stop takes

With timers on time and every woken task run, a stop is over once a handshake, a graceful
shutdown and a close have had their time.
-/

namespace PlexusTransport.Ws.Stop

open Tasks

/-- Time may go on to `time`: what is due by then is done, and what can move at once has. -/
def AcceptLoop.Waits (asked : Bool) (time : Nat) : AcceptLoop → Prop
  | .waiting => asked = false
  | .pausing due => time ≤ due
  | .leaving n => n = 0

def HttpTask.Waits (asked : Bool) (time : Nat) : HttpTask → Prop
  | .handshake due | .draining due _ => time ≤ due
  | .serving _ => asked = false
  | .leaving n => n = 0

/-- The connection itself is over. -/
def HttpTask.left : HttpTask → Bool
  | .leaving _ => true
  | _ => false

/-- An upgrade resolves once its connection is over, if not before. -/
def SocketTask.Waits (conns : List HttpTask) (asked : Bool) (time : Nat) : SocketTask → Prop
  | .waiting i => conns[i]?.any (!·.left) = true
  | .running => asked = false
  | .closing _ due => time ≤ due
  | .gone => True

/-- Timers fire on time, and a task that is woken runs before time goes on. -/
def Prompt (s : Server) : Act → Prop
  | .tick time =>
      s.accepting.Waits s.asked time ∧ (∀ c ∈ s.conns, c.Waits s.asked time) ∧
        ∀ k ∈ s.sockets, k.Waits s.conns s.asked time
  | _ => True

section Decide

variable (asked : Bool) (time : Nat)

instance : (a : AcceptLoop) → Decidable (a.Waits asked time)
  | .waiting => inferInstanceAs (Decidable (asked = false))
  | .pausing due => inferInstanceAs (Decidable (time ≤ due))
  | .leaving n => inferInstanceAs (Decidable (n = 0))

instance : (c : HttpTask) → Decidable (c.Waits asked time)
  | .handshake due | .draining due _ => inferInstanceAs (Decidable (time ≤ due))
  | .serving _ => inferInstanceAs (Decidable (asked = false))
  | .leaving n => inferInstanceAs (Decidable (n = 0))

instance (conns : List HttpTask) : (k : SocketTask) → Decidable (k.Waits conns asked time)
  | .waiting i => inferInstanceAs (Decidable (conns[i]?.any (!·.left) = true))
  | .running => inferInstanceAs (Decidable (asked = false))
  | .closing _ due => inferInstanceAs (Decidable (time ≤ due))
  | .gone => inferInstanceAs (Decidable True)

instance (s : Server) (a : Act) : Decidable (Prompt s a) := by
  unfold Prompt
  split <;> infer_instance

end Decide

/-- No task is left. -/
structure Server.Gone (s : Server) : Prop where
  accepting : s.accepting = .leaving 0
  conns : Each (fun _ c => c = .leaving 0) s.conns
  sockets : Each (fun _ k => k = .gone) s.sockets

/-- A connection's task, due by `shakenBy` to be past its handshake and by `drainedBy` to be
    over. -/
def HttpTask.Within (shakenBy drainedBy now : Nat) : HttpTask → Prop
  | .handshake due => now ≤ due ∧ due ≤ shakenBy
  | .serving _ => now ≤ shakenBy
  | .draining due _ => now ≤ due ∧ due ≤ drainedBy
  | .leaving n => n = 0 ∨ now ≤ drainedBy

def SocketTask.Within (drainedBy goneBy now : Nat) : SocketTask → Prop
  | .waiting _ | .running => now ≤ drainedBy
  | .closing _ due => now ≤ due ∧ due ≤ goneBy
  | .gone => True

/-- Its deadline is ahead, and no further than it was set. -/
def HttpTask.Timed (headerTimeout now : Nat) : HttpTask → Prop
  | .handshake due => now ≤ due ∧ due ≤ now + headerTimeout
  | .draining due _ => now ≤ due ∧ due ≤ now + drainWait
  | .serving _ | .leaving _ => True

def SocketTask.Timed (now : Nat) : SocketTask → Prop
  | .closing _ due => now ≤ due ∧ due ≤ now + closeWait
  | .waiting _ | .running | .gone => True

/-- The deadlines of any state. -/
structure Timed (p : Port) (s : Server) : Prop where
  left : ∀ n, s.accepting = .leaving n → s.asked = true
  conns : Each (fun _ c => c.Timed p.headerTimeout s.now) s.conns
  sockets : Each (fun _ k => k.Timed s.now) s.sockets

/-- The deadlines once the accept loop has left, at `left`. -/
structure Ending (p : Port) (left : Nat) (s : Server) : Prop where
  asked : s.asked = true
  accepting : s.accepting = .leaving 0 ∨ ∃ n, s.accepting = .leaving n ∧ s.now ≤ left
  conns : Each (fun _ c => c.Within (left + p.headerTimeout) (left + p.headerTimeout + drainWait)
    s.now) s.conns
  sockets : Each (fun _ k => k.Within (left + p.headerTimeout + drainWait)
    (left + p.headerTimeout + drainWait + closeWait) s.now) s.sockets

namespace Server

variable {p : Port} {s t : Server} {a : Act} {left : Nat}

theorem tick_ending {time : Nat} (ending : Ending p left s) (prompt : Prompt s (.tick time)) :
    Ending p left { s with now := time } := by
  obtain ⟨accepting, conns, sockets⟩ := prompt
  rw [ending.asked] at accepting conns sockets
  refine ⟨ending.asked, ?_, fun i c here => ?_, fun j k here => ?_⟩
  · rcases ending.accepting with none | ⟨n, holds, -⟩
    · exact .inl none
    · rw [holds] at accepting
      exact .inl (holds.trans (congrArg _ accepting))
  · have waits := conns c (List.mem_of_getElem? here)
    have within := ending.conns i c here
    cases c with
    | handshake due | draining due _ => exact ⟨waits, within.2⟩
    | serving _ => cases waits
    | leaving n => exact .inl waits
  · have waits := sockets k (List.mem_of_getElem? here)
    have within := ending.sockets j k here
    cases k with
    | waiting i =>
        -- Its connection is not over, and keeps to its own deadline.
        obtain ⟨c, at_, going⟩ := (Option.any_eq_true _ _).mp waits
        have due := conns c (List.mem_of_getElem? at_)
        have by_ := ending.conns i c at_
        simp only [SocketTask.Within]
        cases c with
        | handshake _ | draining _ _ =>
            simp only [HttpTask.Waits, HttpTask.Within] at due by_
            omega
        | serving _ => cases due
        | leaving _ => cases going
    | running => cases waits
    | closing seen due => exact ⟨waits, within.2⟩
    | gone => trivial

theorem step_ending (ending : Ending p left s) (prompt : Prompt s a)
    (stepped : s.step p a = some t) : Ending p left t := by
  have asked := step_asked ending.asked stepped
  cases step_stepped stepped with
  | handles => exact ⟨asked, ending.accepting, ending.conns, ending.sockets⟩
  | accept waiting =>
      rcases ending.accepting with none | ⟨n, holds, -⟩
      · cases waiting.symm.trans none
      · cases waiting.symm.trans holds
  | accepting moves shared =>
      refine ⟨asked, ?_, ending.conns, ending.sockets⟩
      rcases ending.accepting with none | ⟨n, holds, early⟩
      · rw [none] at moves
        cases moves
      · rw [holds] at moves
        cases moves
        exact .inr ⟨_, rfl, early⟩
  | conn here moves shared =>
      refine ⟨asked, ending.accepting, ending.conns.set ?_, ending.sockets⟩
      have within := ending.conns _ _ here
      cases moves <;> simp only [HttpTask.Within] at within ⊢ <;> omega
  | upgrade here clone shared =>
      refine ⟨asked, ending.accepting, ending.conns, ending.sockets.append ?_⟩
      have within := ending.conns _ _ here
      obtain rfl | ⟨due, rfl⟩ := clone <;>
        simp only [HttpTask.Within, SocketTask.Within] at within ⊢ <;> omega
  | socket here moves shared =>
      refine ⟨asked, ending.accepting, ending.conns, ending.sockets.set ?_⟩
      have within := ending.sockets _ _ here
      cases moves <;> simp only [SocketTask.Within] at within ⊢ <;> omega
  | tick later => exact tick_ending ending prompt

theorem step_timed (timed : Timed p s) (prompt : Prompt s a) (stepped : s.step p a = some t) :
    Timed p t := by
  have asked := fun before => step_asked (p := p) (a := a) before stepped
  cases step_stepped stepped with
  | handles =>
      exact ⟨fun n left => asked (timed.left n left), timed.conns, timed.sockets⟩
  | accept waiting =>
      refine ⟨fun n left => asked (timed.left n left), timed.conns.append ?_, timed.sockets⟩
      split
      · exact ⟨Nat.le_add_right _ _, Nat.le_refl _⟩
      · trivial
  | accepting moves shared =>
      refine ⟨fun n left => asked ?_, timed.conns, timed.sockets⟩
      generalize was : s.accepting = before at moves
      cases moves with
      | fails | resumes _ => cases left
      | breaks stop => exact stop
      | drops m => exact timed.left _ was
  | conn here moves shared =>
      refine ⟨fun n left => asked (timed.left n left), timed.conns.set ?_, timed.sockets⟩
      have held := timed.conns _ _ here
      cases moves <;> simp only [HttpTask.Timed] at held ⊢ <;> omega
  | upgrade here clone shared =>
      exact ⟨fun n left => asked (timed.left n left), timed.conns, timed.sockets.append trivial⟩
  | socket here moves shared =>
      refine ⟨fun n left => asked (timed.left n left), timed.conns, timed.sockets.set ?_⟩
      cases moves with
      | seen | ends => exact ⟨Nat.le_add_right _ _, Nat.le_refl _⟩
      | opened _ | failed _ | stopped _ | closed _ => trivial
  | tick later =>
      obtain ⟨-, conns, sockets⟩ := prompt
      refine ⟨fun n left => asked (timed.left n left), fun i c here => ?_, fun j k here => ?_⟩
      · have waits := conns c (List.mem_of_getElem? here)
        have held := timed.conns i c here
        cases c <;> simp only [HttpTask.Timed, HttpTask.Waits] at held waits ⊢ <;> omega
      · have waits := sockets k (List.mem_of_getElem? here)
        have held := timed.sockets j k here
        cases k with
        | closing seen due => exact ⟨waits, held.2.trans (Nat.add_le_add_right later _)⟩
        | waiting _ | running | gone => trivial

/-- At the accept loop's leaving, everything is due as it is to be. -/
theorem timed_ending (timed : Timed p s) {n : Nat} (left : s.accepting = .leaving n) :
    Ending p s.now s := by
  refine ⟨timed.left n left, .inr ⟨n, left, Nat.le_refl _⟩, fun i c here => ?_, fun j k here => ?_⟩
  · have held := timed.conns i c here
    cases c <;> simp only [HttpTask.Timed, HttpTask.Within] at held ⊢ <;> omega
  · have held := timed.sockets j k here
    cases k <;> simp only [SocketTask.Timed, SocketTask.Within] at held ⊢ <;> omega

theorem ending_gone (ending : Ending p left s)
    (late : left + p.headerTimeout + drainWait + closeWait < s.now) : s.Gone := by
  refine ⟨?_, fun i c here => ?_, fun j k here => ?_⟩
  · rcases ending.accepting with none | ⟨n, -, early⟩
    · exact none
    · omega
  · have within := ending.conns i c here
    cases c <;> simp only [HttpTask.Within] at within <;> first | omega | exact congrArg _ (by omega)
  · have within := ending.sockets j k here
    cases k <;> simp only [SocketTask.Within] at within <;> first | omega | rfl

end Server

/-- With every timer on time, no task of the server's is left past a handshake's, a graceful
    shutdown's and a close's time from the moment the accept loop has left, whatever the
    peers do. -/
theorem stop_bounded (p : Port) (as bs : List Act) (s t : Server) (n : Nat)
    (prompt : p.server.Allows Prompt p.server.start (as ++ bs)) (ran : p.server.run as = some s)
    (left : s.accepting = .leaving n) (later : p.server.runFrom s bs = some t)
    (late : s.now + p.headerTimeout + drainWait + closeWait < t.now) :
    t.Gone ∧ t.isStopped = true := by
  obtain ⟨before, after⟩ := Machine.allows_append prompt ran
  have timed : Timed p s := by
    refine Machine.runFrom_keeps (I := Timed p) (fun s a t => Server.step_timed) before ran ?_
    exact ⟨fun n left => (by cases left), each_nil, each_nil⟩
  have ending : Ending p s.now t :=
    Machine.runFrom_keeps (I := Ending p s.now) (fun s a t => Server.step_ending) after later
      (Server.timed_ending timed left)
  have gone := Server.ending_gone ending late
  refine ⟨gone, ?_⟩
  have exact_ : t.Exact :=
    Machine.runFrom_always (I := Server.Exact) (fun _ _ _ => Server.step_exact) later (run_exact ran)
  refine WatchChannel.isClosed_iff.mpr ((Server.over_iff exact_).mpr ?_)
  exact ⟨gone.accepting, gone.conns, fun j k here => .inl (gone.sockets j k here)⟩

/-- The first connection never ends its handshake; the second is stopped in a request. -/
def stuck : List Act :=
  [.accept, .accept, .handshook 1 true, .request 1, .stop, .acceptBreaks]

def unstuck : List Act :=
  [.acceptDrops, .acceptDrops, .drains 1, .tick 500, .upgrade 1, .tick 1000, .finishes 1, .drops 1,
    .drops 1, .upgraded 0 true, .ends 0 true, .tick 3000, .returns 0, .tick 30000, .handshook 0 false,
    .drops 0, .drops 0, .tick 33001]

theorem stop_bounded_stuck :
    ∃ s t, (⟨true, 30000⟩ : Port).server.run stuck = some s ∧
      (⟨true, 30000⟩ : Port).server.runFrom s unstuck = some t ∧ t.Gone ∧ t.isStopped = true :=
  ⟨_, _, rfl, rfl,
    stop_bounded ⟨true, 30000⟩ stuck unstuck _ _ 2 (by decide +kernel) rfl rfl rfl (by decide)⟩

end PlexusTransport.Ws.Stop
