import PlexusTransport.Ws.Conn.Order
import PlexusTransport.Ws.Conn.Routing

/-! # A wakeup of the loop

`Loop::poll_run`, a step for each of its parts: the stops and ticks it begins with,
then, until nothing moves, the acceptances, a message in and the frames out. Other
tasks run between any two.
-/

namespace PlexusTransport.Ws.Conn

open Json

/-- Why a socket ended. -/
inductive Ending where
  | lost
  | peerClosed
  | protocol
  | serverStopped
  | closed
  | silent
  | idle
  deriving DecidableEq, Repr

def End.ending : End → Ending
  | .peerClosed => .peerClosed

/-- Times in milliseconds. -/
structure SocketLimits where
  maxMessageSize : Nat
  pingInterval : Option Nat
  pingTimeout : Nat
  idleTimeout : Option Nat
  queue : Nat
  writeBudget : Nat

/-- With no pings no peer is closed for silence. -/
def SocketLimits.silence (limits : SocketLimits) : Option Nat :=
  limits.pingInterval.map fun _ => limits.pingTimeout

/-- How an answer is written, and the method table's refusal of a message over the cap. -/
structure Texts where
  encode : Json → Bytes
  rejectTooBigRequest : Nat → ErrorObject

def readBudget : Nat := 64

def outHigh : Nat := 1024

/-- What a message begins: an answer made at once, to a call or not, an acceptance to
    wait for, or a task that answers so many calls. -/
inductive Begun where
  | answers (called : Bool) (ws : List Written)
  | accepting
  | task (calls : Nat)

def Called.begun {σ : Type} : Called σ → Begun
  | .refused rp _ | .returned _ rp _ => .answers true (respond rp)
  | .spawned _ => .task 1
  | .accepting _ => .accepting

/-- A permit, with so many free. -/
def permit {σ : Type} (free : Nat) (s : σ) : Option σ := if 0 < free then some s else none

/-- A call, with so many subscription permits free. -/
def Dispatch.begin {σ : Type} (d : Dispatch σ) (free : Nat) (req : Request) (s : σ) : Begun :=
  (Loop.call d (permit free s) req s).begun

/-- The calls of a batch. -/
def batchCalls : Option Json → Nat
  | some (.arr items) => items.countP fun e => (Request.ofJson e).isSome
  | _ => 0

namespace Router

variable {σ : Type} (r : Router σ)

def beginSingle (free : Nat) (data : Bytes) (s : σ) : Begun :=
  match (r.parse data).bind Request.ofJson with
  | some req => r.dispatch.begin free req s
  | none =>
      if ((r.parse data).bind Notification.ofJson).isSome then .answers false []
      else if isAnswer (r.parse data) then .answers false []
      else
        let (id, code) := prepareError (r.parse data)
        .answers false (respond (.error id (.ofCode code)))

def beginByShape (free : Nat) (binary : Bool) (data : Bytes) (s : σ) : Begun :=
  let first := (data.take 128).findIdx? fun b => !isAsciiWhitespace b
  if first.isSome && !r.inputsIdle && r.takeFrame data then .answers false []
  else
    let from? := first.map data.drop
    match from?.bind List.head? with
    | some 0x7b => r.beginSingle free (from?.getD []) s
    | some 0x5b => .task (batchCalls (r.parse (from?.getD [])))
    | _ =>
        if binary then .answers false (malformed (unreadable data))
        else .answers false (respond (.error .null (.ofCode .parseError)))

def begin (free : Nat) (m : Inbound) (s : σ) : Except End Begun :=
  match m with
  | .text t => .ok (if r.hooked t then .answers false [] else r.beginByShape free false t s)
  | .binary b =>
      if r.hooked b then .ok (.answers false [])
      else if b.head? = some binaryInput then
        if r.takeBinary b = .malformed then
          .ok (.answers false
            (malformed "a binary input frame is 17 bytes of header and its payload"))
        else .ok (.answers false [])
      else .ok (r.beginByShape free true b s)
  | .ping | .pong | .frame => .ok (.answers false [])
  | .close => .error .peerClosed

variable {r} {free : Nat} {s : σ} {called : Bool} {ws : List Written}

/-- What a call begins hangs on there being a permit, and on nothing else of it. -/
theorem begin_call {d : Dispatch σ} (permits : (d.tryAcquire s).isSome = decide (0 < free))
    (req : Request) : d.begin free req s = (Loop.call d (d.tryAcquire s) req s).begun := by
  unfold Dispatch.begin Loop.call
  cases d.methodWithName req.method with
  | none => rfl
  | some callback =>
      cases callback with
      | sync cb | async cb | unsubscription cb => rfl
      | subscription cb =>
          cases acquired : d.tryAcquire s with
          | none =>
              have none : ¬ 0 < free := by simpa [acquired] using permits
              simp only [permit, if_neg none]
          | some s' =>
              have some : 0 < free := by simpa [acquired] using permits
              simp only [permit, if_pos some]
              rfl

/-- What the loop answers a call at once is all that is written for it. -/
theorem begun_written {call : Called σ} (begun : call.begun = .answers called ws) :
    ∃ s', call.written s = (ws, s') := by
  cases call with
  | refused rp s' | returned kind rp s' =>
      cases begun
      exact ⟨s', rfl⟩
  | spawned fut | accepting fut => cases begun

theorem begin_single (permits : (r.dispatch.tryAcquire s).isSome = decide (0 < free)) {data : Bytes}
    (begun : r.beginSingle free data s = .answers called ws) :
    ∃ s', r.single data s = (ws, s') := by
  unfold beginSingle at begun
  unfold single
  cases request : (r.parse data).bind Request.ofJson with
  | some req =>
      rw [request] at begun
      exact begun_written ((begin_call permits req).symm.trans begun)
  | none =>
      simp only [request] at begun ⊢
      by_cases notification : ((r.parse data).bind Notification.ofJson).isSome
      · rw [if_pos notification] at begun ⊢
        cases begun
        exact ⟨s, rfl⟩
      · rw [if_neg notification] at begun ⊢
        by_cases answer : isAnswer (r.parse data)
        · rw [if_pos answer] at begun ⊢
          cases begun
          exact ⟨s, rfl⟩
        · rw [if_neg answer] at begun ⊢
          cases begun
          exact ⟨s, rfl⟩

theorem begin_byShape (permits : (r.dispatch.tryAcquire s).isSome = decide (0 < free))
    {binary : Bool} {data : Bytes} (begun : r.beginByShape free binary data s = .answers called ws) :
    ∃ s', r.byShape binary data s = (ws, s') := by
  simp only [beginByShape] at begun
  simp only [byShape]
  by_cases taken : (((data.take 128).findIdx? fun b => !isAsciiWhitespace b).isSome &&
      !r.inputsIdle && r.takeFrame data) = true
  · rw [if_pos taken] at begun ⊢
    cases begun
    exact ⟨s, rfl⟩
  · rw [if_neg taken] at begun ⊢
    generalize ((((data.take 128).findIdx? fun b => !isAsciiWhitespace b).map data.drop).bind
      List.head?) = shape at begun ⊢
    by_cases brace : shape = some 0x7b
    · subst brace
      exact begin_single permits begun
    · by_cases bracket : shape = some 0x5b
      · subst bracket
        cases begun
      · simp only at begun ⊢
        cases binary <;>
        · cases begun
          exact ⟨s, rfl⟩

/-- What the loop answers at once is all that is written for the message. -/
theorem begin_message (permits : (r.dispatch.tryAcquire s).isSome = decide (0 < free)) {m : Inbound}
    (begun : r.begin free m s = .ok (.answers called ws)) :
    ∃ s', r.message m s = .ok (ws, s') := by
  cases m with
  | text t =>
      simp only [begin, Except.ok.injEq] at begun
      simp only [message]
      by_cases hooked : r.hooked t
      · rw [if_pos hooked] at begun ⊢
        cases begun
        exact ⟨s, rfl⟩
      · rw [if_neg hooked] at begun ⊢
        obtain ⟨s', same⟩ := begin_byShape permits begun
        exact ⟨s', by rw [same]⟩
  | binary b =>
      simp only [begin] at begun
      simp only [message]
      by_cases hooked : r.hooked b
      · rw [if_pos hooked] at begun ⊢
        cases begun
        exact ⟨s, rfl⟩
      · rw [if_neg hooked] at begun ⊢
        by_cases input : b.head? = some binaryInput
        · rw [if_pos input] at begun ⊢
          by_cases malformed : r.takeBinary b = .malformed
          · rw [if_pos malformed] at begun ⊢
            cases begun
            exact ⟨s, rfl⟩
          · rw [if_neg malformed] at begun ⊢
            cases begun
            exact ⟨s, rfl⟩
        · rw [if_neg input] at begun ⊢
          obtain ⟨s', same⟩ := begin_byShape permits (Except.ok.inj begun)
          exact ⟨s', by rw [same]⟩
  | ping | pong | frame =>
      cases begun
      exact ⟨s, rfl⟩
  | close => cases begun

end Router

/-- A subscription's acceptance; `got`: accepted, or refused with this answer. -/
structure Acceptance where
  name : Nat
  got : Option MethodResponse

/-- Where the loop is in `poll_run`; parked, it has answered `Pending`. -/
inductive Phase where
  | parked
  | accepting
  | reading
  | writing
  | ended (e : Ending)
  deriving DecidableEq, Repr

/-- What a pass of the loop hears. -/
inductive Heard where
  | acceptance (name : Nat)
  | read
  | ready (p : Polled)
  | flush (p : Polled)
  | out (waits : Nat)
  | fenced (held : Bool)
  | queue (q : Queue) (waits : Nat)
  | closed
  /-- The task's budget is spent: the poll wakes the task itself. -/
  | spent
  deriving DecidableEq, Repr

/-- The loop as a whole. Of each answer in `answered`, `asked` tells whether it is a
    call's; `came` and `withheld` are when the peer's frames came, and those of them that
    have made no message yet. -/
structure Served extends Writer where
  asked : List Bool
  accepting : List Acceptance
  named : Nat
  free : Nat
  running : List Nat
  dropped : Nat
  answeredDrops : Nat
  lastIn : Nat
  lastBusy : Nat
  clock : Nat
  came : List Nat
  withheld : List Nat
  phase : Phase
  reads : Nat
  moved : Bool
  woken : Bool
  heard : List Heard

/-- What other tasks and the peer do. -/
inductive Happening where
  | arrive (a : Arrival)
  | resolve (name : Nat) (rp : MethodResponse)
  | permitTaken
  | permitBack
  | finish (i : Nat)
  | frame (time : Nat)

/-- What `poll_run` finds before its loop; `opens`: a subscription's permit is held, or a
    place in the connection's count. -/
structure Wakeup where
  now : Nat
  stopping : Bool
  closing : Bool
  ticked : Bool
  opens : Bool
  ping : Bool

/-- What the read side answers. -/
inductive Read where
  | message (m : Inbound)
  | failed (protocol : Bool)
  | gone
  | pending

/-- The bytes of a message. -/
def Read.len : Read → Nat
  | .message (.text t) => t.length
  | .message (.binary b) => b.length
  | _ => 0

/-- A poll of the read side: when, what a message is routed by and the server's state
    then, the messages the guard drops in it, and the frames a message is made of. -/
structure Reading (σ : Type) where
  now : Nat
  router : Router σ
  server : σ
  drops : Nat
  made : List Nat
  read : Read

inductive Act (σ : Type) where
  | happen (h : Happening)
  | wake (w : Wakeup)
  | accept
  | read (x : Reading σ)
  | write (passes : List Pass) (flush : Polled)

namespace Served

variable {σ : Type} (limits : SocketLimits) (texts : Texts)

/-- A socket just upgraded: its task is polled. -/
def new (now : Nat) : Served where
  toWriter := .new limits.writeBudget
  asked := []
  accepting := []
  named := 0
  free := maxSubscriptions
  running := []
  dropped := 0
  answeredDrops := 0
  lastIn := now
  lastBusy := now
  clock := now
  came := []
  withheld := []
  phase := .parked
  reads := 0
  moved := false
  woken := true
  heard := []

/-- The acceptances still awaited, each of which holds its permit. -/
def awaited (c : Served) : Nat := c.accepting.countP (·.got.isNone)

/-- The queues are bounded. -/
def Fits (w : Writer) : Prop :=
  w.table.length ≤ limits.queue ∧ w.own.length ≤ limits.queue ∧ w.frames.length ≤ limits.queue

instance (w : Writer) : Decidable (Fits limits w) := inferInstanceAs (Decidable (_ ∧ _ ∧ _))

def happen (c : Served) : Happening → Option Served
  | .arrive a =>
      if Fits limits (c.arrive a) then some { c with toWriter := c.arrive a } else none
  | .resolve name rp =>
      some { c with accepting := c.accepting.map fun a =>
        if a.name = name ∧ a.got = none then { a with got := some rp } else a }
  | .permitTaken => if 0 < c.free then some { c with free := c.free - 1 } else none
  | .permitBack =>
      if c.free + c.awaited < maxSubscriptions then some { c with free := c.free + 1 } else none
  | .finish i =>
      if i < c.running.length then some { c with running := c.running.eraseIdx i } else none
  | .frame time =>
      if c.clock ≤ time then
        some { c with clock := time, came := c.came ++ [time], withheld := c.withheld ++ [time] }
      else none

/-- Answers into the outgoing frames. -/
def respond (called : Bool) (ws : List Written) (c : Served) : Served :=
  { c with
    toWriter := ws.foldl (fun w answer => w.respond (texts.encode answer.json)) c.toWriter
    asked := c.asked ++ ws.map fun _ => called }

def busy (opens : Bool) (c : Served) : Bool :=
  opens || !c.running.isEmpty || !c.accepting.isEmpty

/-- At each tick. -/
def liveness (now : Nat) (opens : Bool) (c : Served) : Option Ending × Served :=
  if limits.silence.any (· < now - c.lastIn) then (some .silent, c)
  else
    match limits.idleTimeout with
    | none => (none, c)
    | some idle =>
        if c.busy opens then (none, { c with lastBusy := now })
        else if idle ≤ now - c.lastBusy then (some .idle, c)
        else (none, c)

/-- `poll_run` before its loop. -/
def wake (w : Wakeup) (c : Served) : Served :=
  let c := { c with clock := w.now }
  if w.stopping then { c with phase := .ended .serverStopped }
  else if w.closing then { c with phase := .ended .closed }
  else
    match if w.ticked then c.liveness limits w.now w.opens else (none, c) with
    | (some e, c) => { c with phase := .ended e }
    | (none, c) =>
        { c with
          toWriter := if w.ping then c.pushPing else c.toWriter
          phase := .accepting
          reads := 0
          woken := false }

/-- Each acceptance that has resolved, answered in arrival order. -/
def pollAccepting (c : Served) : Served :=
  let resolved := c.accepting.filterMap (·.got)
  let awaited := c.accepting.filter (·.got.isNone)
  let answered := c.respond texts true (resolved.flatMap Conn.respond)
  { answered with
    accepting := awaited
    moved := !resolved.isEmpty
    heard := awaited.map fun a => .acceptance a.name }

/-- `-32007` for each message the guard dropped over the cap. -/
def answerDrops (c : Served) : Served :=
  let refusal := MethodResponse.error .null (texts.rejectTooBigRequest limits.maxMessageSize)
  { c.respond texts false
      ((List.replicate (c.dropped - c.answeredDrops) refusal).flatMap Conn.respond) with
    answeredDrops := max c.answeredDrops c.dropped }

/-- One inbound message, in arrival order. -/
def message (x : Reading σ) (m : Inbound) (c : Served) : Except End Served :=
  let c := { c with lastIn := x.now }
  match x.router.begin c.free m x.server with
  | .error e => .error e
  | .ok (.answers called ws) =>
      .ok ({ c with lastBusy := if called then x.now else c.lastBusy }.respond texts called ws)
  | .ok .accepting =>
      .ok { c with
        lastBusy := x.now
        free := c.free - 1
        accepting := c.accepting ++ [⟨c.named, none⟩]
        named := c.named + 1 }
  | .ok (.task calls) => .ok { c with lastBusy := x.now, running := c.running ++ [calls] }

/-- Frames in, while the answers are not backed up. -/
def pollNext (x : Reading σ) (c : Served) : Served :=
  if c.reads < readBudget ∧ c.out.length < outHigh then
    let c := { c with clock := x.now, dropped := c.dropped + x.drops }
    match x.read with
    | .message m =>
        let c := { c with reads := c.reads + 1, moved := true, withheld := c.withheld.diff x.made }
        match c.message texts x m with
        | .error e => { c with lastIn := x.now, phase := .ended e.ending }
        | .ok c => { c.answerDrops limits texts with phase := .writing }
    | .failed protocol => { c with phase := .ended (if protocol then .protocol else .lost) }
    | .gone => { c with phase := .ended .lost }
    | .pending =>
        { c.answerDrops limits texts with phase := .writing, heard := c.heard ++ [.read] }
  else { c with phase := .writing }

end Served

namespace Writer

/-- What a round hears, a queue after another, until one has a frame. -/
def byTurnsHeard (gaps : Nat → Gap) : List Nat → Writer → List Heard
  | [], _ => []
  | i :: rest, w =>
      let q := turns (w.turn + i)
      let v := w.meanwhile (gaps i)
      match poll q (gaps i).spent v with
      | (.nothing, w) =>
          (if q = .own ∧ v.ownOpen = false then .closed
            else if (gaps i).spent then .spent
            else .queue q (v.waiting q)) :: byTurnsHeard gaps rest w
      | _ => []

def nextOutHeard (gaps : Nat → Gap) (w : Writer) : List Heard :=
  match w.out with
  | _ :: _ => []
  | [] =>
      .out w.out.length :: .fenced w.fenced.isSome ::
        match w.fenced with
        | some _ => []
        | none => byTurnsHeard gaps [0, 1, 2] w

/-- What the passes of `poll_write` hear; `none`: it has not come to the last of them. -/
def gatherHeard : List Pass → Writer → Option (List Heard)
  | [], w => if w.gathered < w.budget then none else some []
  | pass :: rest, w =>
      if w.gathered < w.budget then
        match pass.ready with
        | .ready =>
            match nextOut pass.gaps w with
            | (none, _) => some (.ready .ready :: nextOutHeard pass.gaps w)
            | (some t, w') =>
                let w' := { w' with gathered := w'.gathered + t.message.len }
                if pass.takes then
                  (gatherHeard rest { w' with
                    unflushed := true, handed := w'.handed ++ [t] }).map
                      (.ready .ready :: nextOutHeard pass.gaps w ++ ·)
                else some (.ready .ready :: nextOutHeard pass.gaps w)
        | p => some [.ready p]
      else some []

def writeHeard (passes : List Pass) (flush : Polled) (w : Writer) : Option (List Heard) :=
  (w.gatherHeard passes).map fun heard =>
    match w.gather passes false with
    | (some _, w') => heard ++ if w'.unflushed then [.flush flush] else []
    | (none, _) => heard

end Writer

namespace Served

variable {σ : Type} (limits : SocketLimits) (texts : Texts)

/-- Frames out, and whether the loop goes on: nothing moved, it waits; its share read, it
    wakes itself. -/
def write (passes : List Pass) (flush : Polled) (c : Served) : Option Served :=
  match c.writeHeard passes flush with
  | none => none
  | some heard =>
      match c.pollWrite passes flush with
      | (none, _) => some { c with phase := .ended .lost }
      | (some wrote, w) =>
          let moved := c.moved || wrote
          let c := { c with
            toWriter := w
            heard := c.heard ++ heard
            woken := c.woken || heard.contains .spent }
          if !Fits limits w then none
          else if !moved then some { c with phase := .parked }
          else if readBudget ≤ c.reads then some { c with phase := .parked, woken := true }
          else some { c with phase := .accepting }

/-- A message is of frames that came, and is within the cap. -/
def Made (x : Reading σ) (c : Served) : Prop :=
  c.clock ≤ x.now ∧ (∀ t ∈ x.made, t ∈ c.withheld) ∧ x.read.len ≤ limits.maxMessageSize

instance (x : Reading σ) (c : Served) : Decidable (Made limits x c) :=
  inferInstanceAs (Decidable (_ ∧ _ ∧ _))

def step (c : Served) (a : Act σ) : Option Served :=
  match c.phase, a with
  | .ended _, _ => none
  | _, .happen h => c.happen limits h
  | .parked, .wake w => if c.clock ≤ w.now then some (c.wake limits w) else none
  | .accepting, .accept => some { c.pollAccepting texts with phase := .reading }
  | .reading, .read x => if Made limits x c then some (c.pollNext limits texts x) else none
  | .writing, .write passes flush => c.write limits passes flush
  | _, _ => none

def machine (now : Nat) : Machine Served (Act σ) := ⟨new limits now, step limits texts⟩

/-- All that a step can be. -/
inductive Steps (c : Served) : Act σ → Served → Prop where
  | happen {h c'} (going : ∀ e, c.phase ≠ .ended e) (happened : c.happen limits h = some c') :
      Steps c (.happen h) c'
  | wake {w} (phase : c.phase = .parked) (later : c.clock ≤ w.now) :
      Steps c (.wake w) (c.wake limits w)
  | accept (phase : c.phase = .accepting) :
      Steps c .accept { c.pollAccepting texts with phase := .reading }
  | read {x} (phase : c.phase = .reading) (made : Made limits x c) :
      Steps c (.read x) (c.pollNext limits texts x)
  | write {passes flush c'} (phase : c.phase = .writing)
      (written : c.write limits passes flush = some c') : Steps c (.write passes flush) c'

theorem steps {c c' : Served} {a : Act σ} (stepped : c.step limits texts a = some c') :
    Steps limits texts c a c' := by
  unfold step at stepped
  cases phase : c.phase with
  | ended e => simp [phase] at stepped
  | parked =>
      cases a with
      | happen h =>
          rw [phase] at stepped
          exact .happen (by simp [phase]) stepped
      | wake w =>
          simp only [phase, Option.ite_none_right_eq_some, Option.some.injEq] at stepped
          obtain ⟨later, rfl⟩ := stepped
          exact .wake phase later
      | accept | read x | write passes flush => simp [phase] at stepped
  | accepting =>
      cases a with
      | happen h =>
          rw [phase] at stepped
          exact .happen (by simp [phase]) stepped
      | accept =>
          rw [phase] at stepped
          cases stepped
          exact .accept phase
      | wake w | read x | write passes flush => simp [phase] at stepped
  | reading =>
      cases a with
      | happen h =>
          rw [phase] at stepped
          exact .happen (by simp [phase]) stepped
      | read x =>
          simp only [phase, Option.ite_none_right_eq_some, Option.some.injEq] at stepped
          obtain ⟨made, rfl⟩ := stepped
          exact .read phase made
      | wake w | accept | write passes flush => simp [phase] at stepped
  | writing =>
      cases a with
      | happen h =>
          rw [phase] at stepped
          exact .happen (by simp [phase]) stepped
      | write passes flush =>
          rw [phase] at stepped
          exact .write phase stepped
      | wake w | accept | read x => simp [phase] at stepped

/-- All that a wakeup can begin with. -/
inductive Wakes (w : Wakeup) (c : Served) : Served → Prop where
  | stopped : Wakes w c { c with clock := w.now, phase := .ended .serverStopped }
  | closed : Wakes w c { c with clock := w.now, phase := .ended .closed }
  | silent {timeout} (judges : w.ticked = true ∧ w.stopping = false ∧ w.closing = false)
      (limited : limits.silence = some timeout) (past : timeout < w.now - c.lastIn) :
      Wakes w c { c with clock := w.now, phase := .ended .silent }
  | idles {idle} (limited : limits.idleTimeout = some idle) (quiet : c.busy w.opens = false)
      (past : idle ≤ w.now - c.lastBusy) :
      Wakes w c { c with clock := w.now, phase := .ended .idle }
  | goes {lastBusy} (kept : lastBusy = c.lastBusy ∨ lastBusy = w.now) :
      Wakes w c { c with
        clock := w.now
        lastBusy
        toWriter := if w.ping then c.pushPing else c.toWriter
        phase := .accepting
        reads := 0
        woken := false }

theorem liveness_cases (now : Nat) (opens : Bool) (c : Served) :
    (c.liveness limits now opens = (some .silent, c) ∧
      ∃ timeout, limits.silence = some timeout ∧ timeout < now - c.lastIn) ∨
    (c.liveness limits now opens = (some .idle, c) ∧ ∃ idle, limits.idleTimeout = some idle ∧
      c.busy opens = false ∧ idle ≤ now - c.lastBusy) ∨
    ∃ lastBusy, c.liveness limits now opens = (none, { c with lastBusy }) ∧
      (lastBusy = c.lastBusy ∨ lastBusy = now) := by
  unfold liveness
  split
  · rename_i past
    obtain ⟨timeout, limited, past⟩ := (Option.any_eq_true _ _).mp past
    exact .inl ⟨rfl, timeout, limited, by simpa using past⟩
  · right
    split
    · exact .inr ⟨_, rfl, .inl rfl⟩
    · rename_i idle limited
      split
      · exact .inr ⟨_, rfl, .inr rfl⟩
      · rename_i quiet
        split
        · rename_i past
          exact .inl ⟨rfl, idle, limited, by simpa using quiet, past⟩
        · exact .inr ⟨_, rfl, .inl rfl⟩

theorem wakes (w : Wakeup) (c : Served) : Wakes limits w c (c.wake limits w) := by
  unfold wake
  dsimp only
  split
  · exact .stopped
  · rename_i going
    split
    · exact .closed
    · rename_i opened
      cases ticked : w.ticked with
      | false =>
          rw [if_neg Bool.false_ne_true]
          exact .goes (.inl rfl)
      | true =>
          rw [if_pos rfl]
          obtain ⟨same, timeout, limited, past⟩ | ⟨same, idle, limited, quiet, past⟩ |
            ⟨lastBusy, same, kept⟩ :=
            liveness_cases limits w.now w.opens { c with clock := w.now }
          · rw [same]
            exact .silent ⟨ticked, by simpa using going, by simpa using opened⟩ limited past
          · rw [same]
            exact .idles limited quiet past
          · rw [same]
            exact .goes kept

/-- All that a message taken can begin. -/
inductive Messaged (x : Reading σ) (m : Inbound) (c : Served) : Served → Prop where
  | answers {called ws} (begun : x.router.begin c.free m x.server = .ok (.answers called ws)) :
      Messaged x m c (({ c with
        lastIn := x.now, lastBusy := if called then x.now else c.lastBusy } : Served).respond
          texts called ws)
  | accepting (begun : x.router.begin c.free m x.server = .ok .accepting) :
      Messaged x m c { c with
        lastIn := x.now, lastBusy := x.now, free := c.free - 1
        accepting := c.accepting ++ [⟨c.named, none⟩], named := c.named + 1 }
  | task {calls} (begun : x.router.begin c.free m x.server = .ok (.task calls)) :
      Messaged x m c { c with
        lastIn := x.now, lastBusy := x.now, running := c.running ++ [calls] }

theorem messaged {x : Reading σ} {m : Inbound} {c c' : Served}
    (ok : c.message texts x m = .ok c') : Messaged texts x m c c' := by
  unfold message at ok
  dsimp only at ok
  split at ok
  · cases ok
  · rename_i called ws begun
    cases ok
    exact .answers begun
  · rename_i begun
    cases ok
    exact .accepting begun
  · rename_i calls begun
    cases ok
    exact .task begun

/-- A message that ends the loop begins nothing. -/
theorem message_error {x : Reading σ} {m : Inbound} {c : Served} {e : End}
    (error : c.message texts x m = .error e) : x.router.begin c.free m x.server = .error e := by
  unfold message at error
  dsimp only at error
  split at error
  · rename_i e' begun
    cases error
    exact begun
  · cases error
  · cases error
  · cases error

/-- All that a poll of the read side can be. -/
inductive Polls (x : Reading σ) (c : Served) : Served → Prop where
  | stopped (closed : ¬(c.reads < readBudget ∧ c.out.length < outHigh)) :
      Polls x c { c with phase := .writing }
  | ends {m e} (gate : c.reads < readBudget ∧ c.out.length < outHigh) (read : x.read = .message m)
      (messaged : Served.message texts x m { c with
        clock := x.now, dropped := c.dropped + x.drops, reads := c.reads + 1, moved := true,
        withheld := c.withheld.diff x.made } = .error e) :
      Polls x c { c with
        clock := x.now, dropped := c.dropped + x.drops, reads := c.reads + 1, moved := true,
        withheld := c.withheld.diff x.made, lastIn := x.now, phase := .ended e.ending }
  | takes {m c'} (gate : c.reads < readBudget ∧ c.out.length < outHigh)
      (read : x.read = .message m)
      (messaged : Served.message texts x m { c with
        clock := x.now, dropped := c.dropped + x.drops, reads := c.reads + 1, moved := true,
        withheld := c.withheld.diff x.made } = .ok c') :
      Polls x c { c'.answerDrops limits texts with phase := .writing }
  | failed {protocol} (gate : c.reads < readBudget ∧ c.out.length < outHigh)
      (read : x.read = .failed protocol) :
      Polls x c { c with
        clock := x.now, dropped := c.dropped + x.drops
        phase := .ended (if protocol then .protocol else .lost) }
  | gone (gate : c.reads < readBudget ∧ c.out.length < outHigh) (read : x.read = .gone) :
      Polls x c { c with
        clock := x.now, dropped := c.dropped + x.drops, phase := .ended .lost }
  | pending (gate : c.reads < readBudget ∧ c.out.length < outHigh) (read : x.read = .pending) :
      Polls x c
        { ({ c with clock := x.now, dropped := c.dropped + x.drops } : Served).answerDrops
            limits texts with
          phase := .writing, heard := c.heard ++ [.read] }

theorem polls (x : Reading σ) (c : Served) : Polls limits texts x c (c.pollNext limits texts x) := by
  unfold pollNext
  split
  · rename_i gate
    cases read : x.read with
    | message m =>
        dsimp only
        split
        · rename_i e messaged
          exact .ends gate read messaged
        · rename_i c' messaged
          exact .takes gate read messaged
    | failed protocol => exact .failed gate read
    | gone => exact .gone gate read
    | pending => exact .pending gate read
  · rename_i closed
    exact .stopped closed

/-- All that a write can come to. -/
inductive Writes (passes : List Pass) (flush : Polled) (c : Served) : Served → Prop where
  | lost (gone : (c.pollWrite passes flush).1 = none) :
      Writes passes flush c { c with phase := .ended .lost }
  | rests {heard w} (said : c.writeHeard passes flush = some heard)
      (wrote : c.pollWrite passes flush = (some false, w)) (fits : Fits limits w)
      (unmoved : c.moved = false) :
      Writes passes flush c { c with
        toWriter := w, heard := c.heard ++ heard
        woken := c.woken || heard.contains .spent, phase := .parked }
  | shares {heard w m} (said : c.writeHeard passes flush = some heard)
      (wrote : c.pollWrite passes flush = (some m, w)) (fits : Fits limits w)
      (share : readBudget ≤ c.reads) :
      Writes passes flush c { c with
        toWriter := w, heard := c.heard ++ heard, woken := true, phase := .parked }
  | goes {heard w m} (said : c.writeHeard passes flush = some heard)
      (wrote : c.pollWrite passes flush = (some m, w)) (fits : Fits limits w)
      (share : c.reads < readBudget) :
      Writes passes flush c { c with
        toWriter := w, heard := c.heard ++ heard
        woken := c.woken || heard.contains .spent, phase := .accepting }

theorem writes {passes : List Pass} {flush : Polled} {c c' : Served}
    (written : c.write limits passes flush = some c') : Writes limits passes flush c c' := by
  unfold write at written
  cases said : c.writeHeard passes flush with
  | none => simp [said] at written
  | some heard =>
      cases wrote : c.pollWrite passes flush with
      | mk r w =>
          simp only [said, wrote] at written
          cases r with
          | none =>
              cases written
              exact .lost (congrArg Prod.fst wrote)
          | some m =>
              dsimp only at written
              split at written
              · cases written
              · rename_i fits
                have fits : Fits limits w := by simpa using fits
                split at written
                · rename_i still
                  obtain ⟨unmoved, rfl⟩ : c.moved = false ∧ m = false := by simpa using still
                  cases written
                  exact .rests said wrote fits unmoved
                · split at written
                  · rename_i share
                    cases written
                    exact .shares said wrote fits share
                  · rename_i share
                    cases written
                    exact .goes said wrote fits (Nat.lt_of_not_le share)

end Served

end PlexusTransport.Ws.Conn
