import PlexusTransport.Lib.Machine
import PlexusTransport.Lib.WatchChannel

/-! # The server's stop

A `watch` tells the accept loop and every connection to stop, and its receivers, one for
each holder of a `StopHandle`, tell the handle which of them are left. Times are in
milliseconds.
-/

namespace PlexusTransport.Ws.Stop

open Tasks

/-- The accept loop: at its `select`, pausing after a failed accept, or with what it still
    holds once it has broken off. -/
inductive AcceptLoop where
  | waiting
  | pausing (due : Nat)
  | leaving (held : Nat)
  deriving DecidableEq, Repr

/-- An accepted connection's task: in its TLS handshake, at its `select`, shutting down
    gracefully, or with what it still holds. `clones`: of the service, for its requests. -/
inductive HttpTask where
  | handshake (due : Nat)
  | serving (clones : Nat)
  | draining (due : Nat) (clones : Nat)
  | leaving (held : Nat)
  deriving DecidableEq, Repr

/-- The task of a request's upgrade: waiting for the stream, in the loop, in `Loop::end`, or
    gone. `seen`: the loop ended because its `stopping` had resolved, and that future, which
    owns the receiver, dropped it then. -/
inductive SocketTask where
  | waiting (conn : Nat)
  | running
  | closing (seen : Bool) (due : Nat)
  | gone
  deriving DecidableEq, Repr

/-- The `select`'s shutdown, the loop's own handle, and its service's. -/
def AcceptLoop.held : AcceptLoop → Nat
  | .waiting | .pausing _ => 3
  | .leaving n => n

/-- The service's, a handle or the `select`'s shutdown, and each clone's. -/
def HttpTask.held : HttpTask → Nat
  | .handshake _ => 2
  | .serving clones => clones + 2
  | .draining _ clones => clones + 1
  | .leaving n => n

def SocketTask.held : SocketTask → Nat
  | .waiting _ | .running => 1
  | .closing seen _ => if seen then 0 else 1
  | .gone => 0

def acceptPause : Nat := 50

def drainWait : Nat := 1000

def closeWait : Nat := 2000

/-- A task's step, and what it does to the receivers. -/
abbrev Move (α : Type) : Type := α → Option (α × Share)

namespace AcceptLoop

def fails (now : Nat) : Move AcceptLoop
  | .waiting => some (.pausing (now + acceptPause), .keeps)
  | _ => none

def resumes (now : Nat) : Move AcceptLoop
  | .pausing due => if due ≤ now then some (.waiting, .keeps) else none
  | _ => none

/-- The `select` finds the shutdown resolved. -/
def breaks : Move AcceptLoop
  | .waiting => some (.leaving 2, .drops)
  | _ => none

def dropsOne : Move AcceptLoop
  | .leaving (n + 1) => some (.leaving n, .drops)
  | _ => none

end AcceptLoop

namespace HttpTask

def handshook (ok : Bool) : Move HttpTask
  | .handshake _ => some (if ok then .serving 0 else .leaving 2, .keeps)
  | _ => none

/-- A request takes the service, or a layer of the service the next one. -/
def request : Move HttpTask
  | .serving clones => some (.serving (clones + 1), .clones)
  | .draining due clones => some (.draining due (clones + 1), .clones)
  | _ => none

def answered : Move HttpTask
  | .serving (clones + 1) => some (.serving clones, .drops)
  | .draining due (clones + 1) => some (.draining due clones, .drops)
  | _ => none

/-- The `select` finds the shutdown or the connection's own close, and its shutdown is
    dropped. -/
def drains (now : Nat) : Move HttpTask
  | .serving clones => some (.draining (now + drainWait) clones, .drops)
  | _ => none

/-- The connection is over, or its second is. -/
def finishes : Move HttpTask
  | .serving clones => some (.leaving (clones + 2), .keeps)
  | .draining _ clones => some (.leaving (clones + 1), .keeps)
  | _ => none

def dropsOne : Move HttpTask
  | .leaving (n + 1) => some (.leaving n, .drops)
  | _ => none

end HttpTask

namespace SocketTask

/-- `hyper::upgrade::on` resolves. -/
def upgraded (ok : Bool) : Move SocketTask
  | .waiting _ => some (if ok then (.running, .keeps) else (.gone, .drops))
  | _ => none

def ends (now : Nat) (seen : Bool) : Move SocketTask
  | .running => some (.closing seen (now + closeWait), if seen then .drops else .keeps)
  | _ => none

def returns : Move SocketTask
  | .closing seen _ => some (.gone, if seen then .keeps else .drops)
  | _ => none

end SocketTask

structure Port where
  tls : Bool
  headerTimeout : Nat

structure Server where
  now : Nat
  stop : WatchChannel Bool
  accepting : AcceptLoop
  conns : List HttpTask
  sockets : List SocketTask

/-- What the handles, the tasks and time do. A socket the accept loop drops at once, for
    want of a place, changes nothing here. -/
inductive Act where
  | cloneHandle
  | dropHandle
  | stop
  | accept
  | acceptFails
  | acceptResumes
  | acceptBreaks
  | acceptDrops
  | handshook (i : Nat) (ok : Bool)
  | request (i : Nat)
  | answered (i : Nat)
  | upgrade (i : Nat)
  | drains (i : Nat)
  | finishes (i : Nat)
  | drops (i : Nat)
  | upgraded (j : Nat) (ok : Bool)
  | ends (j : Nat) (seen : Bool)
  | returns (j : Nat)
  | tick (time : Nat)

namespace Server

/-- `stop_channel`, the upgrade's clone, and the accept loop's shutdown. -/
def new : Server := ⟨0, { WatchChannel.channel false with receivers := 3 }, .waiting, [], []⟩

/-- A `shutdown` has resolved. -/
def asked (s : Server) : Bool := s.stop.ready id

/-- `ServerHandle::stop`; `false`: it has already stopped. -/
def handleStop (s : Server) : Server × Bool :=
  match s.stop.send true with
  | some w => ({ s with stop := w }, true)
  | none => (s, false)

def isStopped (s : Server) : Bool := s.stop.isClosed

def moveAccept (s : Server) (f : Move AcceptLoop) : Option Server := do
  let (a, sh) ← f s.accepting
  let w ← s.stop.share sh
  return { s with stop := w, accepting := a }

def moveConn (s : Server) (i : Nat) (f : Move HttpTask) : Option Server := do
  let (c, sh) ← f (← s.conns[i]?)
  let w ← s.stop.share sh
  return { s with stop := w, conns := s.conns.set i c }

def moveSocket (s : Server) (j : Nat) (f : Move SocketTask) : Option Server := do
  let (k, sh) ← f (← s.sockets[j]?)
  let w ← s.stop.share sh
  return { s with stop := w, sockets := s.sockets.set j k }

/-- A connection is accepted: its service's clone, and its handle's. -/
def accept (p : Port) (s : Server) : Option Server :=
  match s.accepting with
  | .waiting => do
      let w ← s.stop.share .clones
      let w ← w.share .clones
      let c := if p.tls then .handshake (s.now + p.headerTimeout) else .serving 0
      return { s with stop := w, conns := s.conns ++ [c] }
  | _ => none

/-- A request's clone of the service upgrades it: a task, with a handle of its own. -/
def upgrade (s : Server) (i : Nat) : Option Server :=
  match s.conns[i]? with
  | some (.serving (_ + 1)) | some (.draining _ (_ + 1)) => do
      let w ← s.stop.share .clones
      return { s with stop := w, sockets := s.sockets ++ [.waiting i] }
  | _ => none

def step (p : Port) (s : Server) : Act → Option Server
  | .cloneHandle => s.stop.cloneSender.map fun w => { s with stop := w }
  | .dropHandle => s.stop.dropSender.map fun w => { s with stop := w }
  | .stop => if s.stop.senders = 0 then none else some s.handleStop.1
  | .accept => s.accept p
  | .acceptFails => s.moveAccept (AcceptLoop.fails s.now)
  | .acceptResumes => s.moveAccept (AcceptLoop.resumes s.now)
  | .acceptBreaks => if s.asked then s.moveAccept AcceptLoop.breaks else none
  | .acceptDrops => s.moveAccept AcceptLoop.dropsOne
  | .handshook i ok => s.moveConn i (HttpTask.handshook ok)
  | .request i => s.moveConn i HttpTask.request
  | .answered i => s.moveConn i HttpTask.answered
  | .upgrade i => s.upgrade i
  | .drains i => s.moveConn i (HttpTask.drains s.now)
  | .finishes i => s.moveConn i HttpTask.finishes
  | .drops i => s.moveConn i HttpTask.dropsOne
  | .upgraded j ok => s.moveSocket j (SocketTask.upgraded ok)
  | .ends j seen => if seen && !s.asked then none else s.moveSocket j (SocketTask.ends s.now seen)
  | .returns j => s.moveSocket j SocketTask.returns
  | .tick time => if s.now ≤ time then some { s with now := time } else none

end Server

def Port.server (p : Port) : Machine Server Act := ⟨Server.new, Server.step p⟩

/-- No task is left, but sockets that close because of the stop. -/
structure Server.Over (s : Server) : Prop where
  accepting : s.accepting = .leaving 0
  conns : Each (fun _ c => c = .leaving 0) s.conns
  sockets : Each (fun _ k => k = .gone ∨ ∃ due, k = .closing true due) s.sockets

/-- The receivers are the tasks'. -/
def Server.Exact (s : Server) : Prop :=
  s.stop.receivers = s.accepting.held + total HttpTask.held s.conns + total SocketTask.held s.sockets

section Moves

/-- What the accept loop may do, and what it does to the receivers. -/
inductive AcceptLoop.Moves (asked : Bool) (now : Nat) : AcceptLoop → AcceptLoop → Share → Prop where
  | fails : Moves asked now .waiting (.pausing (now + acceptPause)) .keeps
  | resumes (due : Nat) : Moves asked now (.pausing due) .waiting .keeps
  | breaks (stop : asked = true) : Moves asked now .waiting (.leaving 2) .drops
  | drops (n : Nat) : Moves asked now (.leaving (n + 1)) (.leaving n) .drops

inductive HttpTask.Moves (now : Nat) : HttpTask → HttpTask → Share → Prop where
  | handshook (due : Nat) : Moves now (.handshake due) (.serving 0) .keeps
  | refused (due : Nat) : Moves now (.handshake due) (.leaving 2) .keeps
  | request (n : Nat) : Moves now (.serving n) (.serving (n + 1)) .clones
  | requestLate (due n : Nat) : Moves now (.draining due n) (.draining due (n + 1)) .clones
  | answered (n : Nat) : Moves now (.serving (n + 1)) (.serving n) .drops
  | answeredLate (due n : Nat) : Moves now (.draining due (n + 1)) (.draining due n) .drops
  | drains (n : Nat) : Moves now (.serving n) (.draining (now + drainWait) n) .drops
  | finishes (n : Nat) : Moves now (.serving n) (.leaving (n + 2)) .keeps
  | drained (due n : Nat) : Moves now (.draining due n) (.leaving (n + 1)) .keeps
  | drops (n : Nat) : Moves now (.leaving (n + 1)) (.leaving n) .drops

inductive SocketTask.Moves (now : Nat) : SocketTask → SocketTask → Share → Prop where
  | opened (i : Nat) : Moves now (.waiting i) .running .keeps
  | failed (i : Nat) : Moves now (.waiting i) .gone .drops
  | seen : Moves now .running (.closing true (now + closeWait)) .drops
  | ends : Moves now .running (.closing false (now + closeWait)) .keeps
  | stopped (due : Nat) : Moves now (.closing true due) .gone .keeps
  | closed (due : Nat) : Moves now (.closing false due) .gone .drops

/-- What an action may do. -/
inductive Stepped (p : Port) (s : Server) : Act → Server → Prop where
  | handles {a : Act} {w : WatchChannel Bool} (receivers : w.receivers = s.stop.receivers)
      (asked : s.asked = true → w.ready id = true) : Stepped p s a { s with stop := w }
  | accept {w : WatchChannel Bool} (waiting : s.accepting = .waiting)
      (receivers : w.receivers = s.stop.receivers + 2) (same : w.ready id = s.asked) :
      Stepped p s .accept { s with
        stop := w
        conns := s.conns ++
          [if p.tls then .handshake (s.now + p.headerTimeout) else .serving 0] }
  | accepting {a : Act} {b : AcceptLoop} {sh : Share} {w : WatchChannel Bool}
      (moves : s.accepting.Moves s.asked s.now b sh) (shared : s.stop.share sh = some w) :
      Stepped p s a { s with stop := w, accepting := b }
  | conn {a : Act} {i : Nat} {c b : HttpTask} {sh : Share} {w : WatchChannel Bool}
      (here : s.conns[i]? = some c) (moves : c.Moves s.now b sh)
      (shared : s.stop.share sh = some w) :
      Stepped p s a { s with stop := w, conns := s.conns.set i b }
  | upgrade {i n : Nat} {c : HttpTask} {w : WatchChannel Bool} (here : s.conns[i]? = some c)
      (clone : c = .serving (n + 1) ∨ ∃ due, c = .draining due (n + 1))
      (shared : s.stop.share .clones = some w) :
      Stepped p s (.upgrade i) { s with stop := w, sockets := s.sockets ++ [.waiting i] }
  | socket {a : Act} {j : Nat} {k b : SocketTask} {sh : Share} {w : WatchChannel Bool}
      (here : s.sockets[j]? = some k) (moves : k.Moves s.now b sh)
      (shared : s.stop.share sh = some w) :
      Stepped p s a { s with stop := w, sockets := s.sockets.set j b }
  | tick {time : Nat} (later : s.now ≤ time) : Stepped p s (.tick time) { s with now := time }

variable {now : Nat} {asked : Bool} {sh : Share}

theorem AcceptLoop.Moves.balances {a b : AcceptLoop} (moves : a.Moves asked now b sh) :
    sh.Balances a.held b.held := by
  cases moves <;> rfl

theorem HttpTask.Moves.balances {a b : HttpTask} (moves : a.Moves now b sh) :
    sh.Balances a.held b.held := by
  cases moves with
  | request n => exact ⟨Nat.add_right_comm n 1 2, by simp [HttpTask.held]⟩
  | requestLate due n => exact ⟨rfl, by simp [HttpTask.held]⟩
  | answered n => exact Nat.add_right_comm n 2 1
  | answeredLate due n => rfl
  | handshook _ | refused _ | drains _ | finishes _ | drained _ _ | drops _ => rfl

theorem SocketTask.Moves.balances {a b : SocketTask} (moves : a.Moves now b sh) :
    sh.Balances a.held b.held := by
  cases moves <;> rfl

end Moves

namespace Server

variable {p : Port} {s t : Server} {a : Act} {i j : Nat}

/-- The accept loop's move is one of its moves. -/
theorem moveAccept_stepped {f : Move AcceptLoop}
    (is : ∀ c b sh, f c = some (b, sh) → c.Moves s.asked s.now b sh)
    (moved : s.moveAccept f = some t) : Stepped p s a t := by
  simp only [moveAccept, Option.bind_eq_bind, Option.bind_eq_some_iff, Option.pure_def,
    Option.some.injEq, Prod.exists] at moved
  obtain ⟨b, sh, moves, w, shared, rfl⟩ := moved
  exact .accepting (is _ b sh moves) shared

theorem moveConn_stepped {f : Move HttpTask}
    (is : ∀ c b sh, f c = some (b, sh) → c.Moves s.now b sh)
    (moved : s.moveConn i f = some t) : Stepped p s a t := by
  simp only [moveConn, Option.bind_eq_bind, Option.bind_eq_some_iff, Option.pure_def,
    Option.some.injEq, Prod.exists] at moved
  obtain ⟨c, here, b, sh, moves, w, shared, rfl⟩ := moved
  exact .conn here (is c b sh moves) shared

theorem moveSocket_stepped {f : Move SocketTask}
    (is : ∀ k b sh, f k = some (b, sh) → k.Moves s.now b sh)
    (moved : s.moveSocket j f = some t) : Stepped p s a t := by
  simp only [moveSocket, Option.bind_eq_bind, Option.bind_eq_some_iff, Option.pure_def,
    Option.some.injEq, Prod.exists] at moved
  obtain ⟨k, here, b, sh, moves, w, shared, rfl⟩ := moved
  exact .socket here (is k b sh moves) shared

theorem accept_stepped (accepted : s.accept p = some t) : Stepped p s .accept t := by
  unfold accept at accepted
  split at accepted
  · rename_i waiting
    simp only [Option.bind_eq_bind, Option.bind_eq_some_iff, Option.pure_def,
      Option.some.injEq] at accepted
    obtain ⟨w, once, w', again, rfl⟩ := accepted
    obtain ⟨same, one, -⟩ := WatchChannel.share_some once
    obtain ⟨same', two, -⟩ := WatchChannel.share_some again
    exact .accept waiting (by omega) ((same' id).trans (same id))
  · cases accepted

theorem upgrade_stepped (upgraded : s.upgrade i = some t) : Stepped p s (.upgrade i) t := by
  unfold upgrade at upgraded
  split at upgraded
  · rename_i n here
    simp only [Option.bind_eq_bind, Option.bind_eq_some_iff, Option.pure_def,
      Option.some.injEq] at upgraded
    obtain ⟨w, shared, rfl⟩ := upgraded
    exact .upgrade here (.inl rfl) shared
  · rename_i due n here
    simp only [Option.bind_eq_bind, Option.bind_eq_some_iff, Option.pure_def,
      Option.some.injEq] at upgraded
    obtain ⟨w, shared, rfl⟩ := upgraded
    exact .upgrade here (.inr ⟨due, rfl⟩) shared
  · cases upgraded

/-- The inversion of a step. -/
theorem step_stepped (stepped : s.step p a = some t) : Stepped p s a t := by
  cases a with
  | cloneHandle =>
      obtain ⟨w, cloned, rfl⟩ := Option.map_eq_some_iff.mp stepped
      obtain ⟨some_, same⟩ := Option.ite_none_left_eq_some.mp cloned
      cases same
      refine .handles rfl fun asked => ?_
      simpa [Server.asked, WatchChannel.ready, some_] using asked
  | dropHandle =>
      obtain ⟨w, dropped, rfl⟩ := Option.map_eq_some_iff.mp stepped
      obtain ⟨some_, same⟩ := Option.ite_none_left_eq_some.mp dropped
      cases same
      refine .handles rfl fun asked => ?_
      have value : s.stop.value = true := by
        simpa [Server.asked, WatchChannel.ready, some_] using asked
      simp [WatchChannel.ready, value]
  | stop =>
      obtain ⟨-, same⟩ := Option.ite_none_left_eq_some.mp stepped
      cases same
      unfold handleStop
      split
      · rename_i w sent
        obtain ⟨-, same⟩ := Option.ite_none_left_eq_some.mp sent
        cases same
        exact .handles rfl fun _ => rfl
      · exact .handles rfl fun asked => asked
  | accept => exact accept_stepped stepped
  | acceptFails =>
      refine moveAccept_stepped (fun c b sh moved => ?_) stepped
      cases c <;> cases moved
      exact .fails
  | acceptResumes =>
      refine moveAccept_stepped (fun c b sh moved => ?_) stepped
      cases c with
      | pausing due =>
          obtain ⟨-, moved⟩ := Option.ite_none_right_eq_some.mp moved
          cases moved
          exact .resumes due
      | waiting | leaving _ => cases moved
  | acceptBreaks =>
      obtain ⟨asked, stepped⟩ := Option.ite_none_right_eq_some.mp stepped
      refine moveAccept_stepped (fun c b sh moved => ?_) stepped
      cases c <;> cases moved
      exact .breaks asked
  | acceptDrops =>
      refine moveAccept_stepped (fun c b sh moved => ?_) stepped
      cases c with
      | leaving n =>
          cases n <;> cases moved
          exact .drops _
      | waiting | pausing _ => cases moved
  | handshook i ok =>
      refine moveConn_stepped (fun c b sh moved => ?_) stepped
      cases c <;> cases ok <;> cases moved
      · exact .refused _
      · exact .handshook _
  | request i =>
      refine moveConn_stepped (fun c b sh moved => ?_) stepped
      cases c <;> cases moved
      · exact .request _
      · exact .requestLate _ _
  | answered i =>
      refine moveConn_stepped (fun c b sh moved => ?_) stepped
      cases c with
      | serving n =>
          cases n <;> cases moved
          exact .answered _
      | draining due n =>
          cases n <;> cases moved
          exact .answeredLate due _
      | handshake _ | leaving _ => cases moved
  | upgrade i => exact upgrade_stepped stepped
  | drains i =>
      refine moveConn_stepped (fun c b sh moved => ?_) stepped
      cases c <;> cases moved
      exact .drains _
  | finishes i =>
      refine moveConn_stepped (fun c b sh moved => ?_) stepped
      cases c <;> cases moved
      · exact .finishes _
      · exact .drained _ _
  | drops i =>
      refine moveConn_stepped (fun c b sh moved => ?_) stepped
      cases c with
      | leaving n =>
          cases n <;> cases moved
          exact .drops _
      | handshake _ | serving _ | draining _ _ => cases moved
  | upgraded j ok =>
      refine moveSocket_stepped (fun k b sh moved => ?_) stepped
      cases k <;> cases ok <;> cases moved
      · exact .failed _
      · exact .opened _
  | ends j seen =>
      obtain ⟨-, stepped⟩ := Option.ite_none_left_eq_some.mp stepped
      refine moveSocket_stepped (fun k b sh moved => ?_) stepped
      cases k <;> cases seen <;> cases moved
      · exact .ends
      · exact .seen
  | returns j =>
      refine moveSocket_stepped (fun k b sh moved => ?_) stepped
      cases k with
      | closing seen due =>
          cases seen <;> cases moved
          · exact .closed due
          · exact .stopped due
      | waiting _ | running | gone => cases moved
  | tick time =>
      obtain ⟨later, same⟩ := Option.ite_none_right_eq_some.mp stepped
      cases same
      exact .tick later

theorem step_exact (exact_ : s.Exact) (stepped : s.step p a = some t) : t.Exact := by
  unfold Exact at exact_
  cases step_stepped stepped with
  | handles receivers => exact receivers.trans exact_
  | accept waiting receivers =>
      have new : HttpTask.held (if p.tls then .handshake (s.now + p.headerTimeout) else .serving 0) =
          2 := by
        cases p.tls <;> rfl
      simp only [Exact, total_append, new]
      omega
  | accepting moves shared =>
      have after := WatchChannel.share_total (total HttpTask.held s.conns +
        total SocketTask.held s.sockets) shared moves.balances (Nat.add_comm _ _) (by omega)
      simp only [Exact]
      omega
  | conn here moves shared =>
      have after := WatchChannel.share_total (s.accepting.held +
        total SocketTask.held s.sockets) shared moves.balances (total_set here _) (by omega)
      simp only [Exact]
      omega
  | upgrade here clone shared =>
      obtain ⟨-, one, -⟩ := WatchChannel.share_some shared
      simp only [Exact, total_append, SocketTask.held]
      omega
  | socket here moves shared =>
      have after := WatchChannel.share_total (s.accepting.held +
        total HttpTask.held s.conns) shared moves.balances (total_set here _) (by omega)
      simp only [Exact]
      omega
  | tick later => exact exact_

theorem over_iff (exact_ : s.Exact) : s.stop.receivers = 0 ↔ s.Over := by
  have accepting : s.accepting.held = 0 ↔ s.accepting = .leaving 0 := by
    cases s.accepting <;> simp [AcceptLoop.held]
  have conn : ∀ c : HttpTask, c.held = 0 ↔ c = .leaving 0 := by
    intro c
    cases c <;> simp [HttpTask.held]
  have socket : ∀ k : SocketTask, k.held = 0 ↔ k = .gone ∨ ∃ due, k = .closing true due := by
    intro k
    cases k with
    | closing seen due => cases seen <;> simp [SocketTask.held]
    | waiting _ | running | gone => simp [SocketTask.held]
  have sum : s.stop.receivers = 0 ↔ s.accepting.held = 0 ∧ total HttpTask.held s.conns = 0 ∧
      total SocketTask.held s.sockets = 0 := by
    rw [exact_]
    omega
  rw [sum, total_eq_zero, total_eq_zero, accepting]
  simp only [conn, socket]
  constructor
  · rintro ⟨first, second, third⟩
    exact ⟨first, second, third⟩
  · rintro ⟨first, second, third⟩
    exact ⟨first, second, third⟩

/-- Nothing begins once all is over; sockets that close may finish. -/
theorem step_over (finished : s.Over) (stepped : s.step p a = some t) :
    t.Over ∧ t.conns = s.conns ∧ t.sockets.length = s.sockets.length := by
  obtain ⟨accepting, conns, sockets⟩ := finished
  cases step_stepped stepped with
  | handles | tick => exact ⟨⟨accepting, conns, sockets⟩, rfl, rfl⟩
  | accept waiting => cases waiting.symm.trans accepting
  | accepting moves shared =>
      rw [accepting] at moves
      cases moves
  | conn here moves shared =>
      cases conns _ _ here
      cases moves
  | upgrade here clone shared =>
      cases conns _ _ here
      obtain same | ⟨due, same⟩ := clone <;> cases same
  | socket here moves shared =>
      obtain rfl | ⟨due, rfl⟩ := sockets _ _ here
      · cases moves
      · cases moves
        exact ⟨⟨accepting, conns, sockets.set (.inl rfl)⟩, rfl, by simp⟩

/-- What is asked once is asked for good. -/
theorem step_asked (asked : s.asked = true) (stepped : s.step p a = some t) : t.asked = true := by
  have kept : ∀ {sh : Share} {w : WatchChannel Bool}, s.stop.share sh = some w →
      w.ready id = true := fun shared => ((WatchChannel.share_some shared).1 id).trans asked
  cases step_stepped stepped with
  | handles receivers still => exact still asked
  | accept waiting receivers same => exact same.trans asked
  | accepting moves shared => exact kept shared
  | conn here moves shared => exact kept shared
  | upgrade here clone shared => exact kept shared
  | socket here moves shared => exact kept shared
  | tick later => exact asked

end Server

/-- What the handle tells of the tasks. -/
structure Told (s : Server) : Prop where
  receivers : s.Exact
  stopped : s.isStopped = true ↔ s.Over
  refused : s.handleStop.2 = false ↔ s.Over
  asks : ¬ s.Over → s.handleStop.1.asked = true

theorem start_exact : Server.new.Exact := rfl

theorem run_exact {p : Port} {as : List Act} {s : Server} (ran : p.server.run as = some s) :
    s.Exact :=
  Machine.run_keeps (I := Server.Exact) start_exact (fun _ _ _ => Server.step_exact) ran

theorem Server.Exact.told {s : Server} (exact_ : s.Exact) : Told s := by
  have done := Server.over_iff exact_
  refine ⟨exact_, WatchChannel.isClosed_iff.trans done, ?_, fun going => ?_⟩
  · rw [← done]
    by_cases none : s.stop.receivers = 0 <;> simp [Server.handleStop, WatchChannel.send, none]
  · have some_ : s.stop.receivers ≠ 0 := fun none => going (done.mp none)
    simp [Server.handleStop, WatchChannel.send, some_, Server.asked, WatchChannel.ready]

/-- In every state of every run, the handle says that the server has stopped, and `stop` fails,
    exactly when no task is left but sockets that close because of the stop; until then `stop`
    asks all of them to end. -/
theorem stop_exact (p : Port) (as : List Act) (s : Server) (ran : p.server.run as = some s) :
    Told s :=
  (run_exact ran).told

def plain : Port := ⟨false, 30000⟩

/-- A socket is opened and the server stopped: the accept loop leaves, the socket begins to
    close. -/
def closing : List Act :=
  [.accept, .request 0, .upgrade 0, .answered 0, .finishes 0, .drops 0, .drops 0, .upgraded 0 true,
    .stop, .acceptBreaks, .acceptDrops, .acceptDrops, .ends 0 true]

/-- The server has stopped and the socket's close is not yet written. -/
theorem stop_exact_closing : ∃ s, plain.server.run closing = some s ∧ Told s ∧
    s.isStopped = true ∧ s.sockets = [.closing true closeWait] :=
  ⟨_, rfl, stop_exact plain closing _ rfl, rfl, rfl⟩

/-- A server that has stopped stays so, and accepts and upgrades nothing more. -/
theorem stopped_stays (p : Port) (as bs : List Act) (s t : Server) (ran : p.server.run as = some s)
    (stopped : s.isStopped = true) (later : p.server.runFrom s bs = some t) :
    t.isStopped = true ∧ t.conns = s.conns ∧ t.sockets.length = s.sockets.length := by
  have finished := (run_exact ran).told.stopped.mp stopped
  have kept : (t.Exact ∧ t.Over) ∧ t.conns = s.conns ∧ t.sockets.length = s.sockets.length := by
    refine Machine.runFrom_always
      (I := fun t => (t.Exact ∧ t.Over) ∧ t.conns = s.conns ∧ t.sockets.length = s.sockets.length)
      ?_ later ⟨⟨run_exact ran, finished⟩, rfl, rfl⟩
    rintro u a v ⟨⟨exact_, finished⟩, conns, sockets⟩ stepped
    obtain ⟨finished', conns', sockets'⟩ := Server.step_over finished stepped
    exact ⟨⟨Server.step_exact exact_ stepped, finished'⟩, conns'.trans conns, sockets'.trans sockets⟩
  obtain ⟨⟨exact_, finished'⟩, same⟩ := kept
  exact ⟨WatchChannel.isClosed_iff.mpr ((Server.over_iff exact_).mpr finished'), same⟩

theorem stopped_stays_closing : ∃ s t, plain.server.run closing = some s ∧
    plain.server.runFrom s [.tick 1, .returns 0] = some t ∧ t.isStopped = true ∧
      t.sockets = [.gone] :=
  ⟨_, _, rfl, rfl, (stopped_stays plain closing [.tick 1, .returns 0] _ _ rfl rfl rfl).1, rfl⟩

end PlexusTransport.Ws.Stop
