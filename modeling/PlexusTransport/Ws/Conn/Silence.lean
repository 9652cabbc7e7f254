import PlexusTransport.Ws.Conn.Parked
import PlexusTransport.Ws.Guard

/-! # Closed for silence

The loop knows of the peer's frames only by the messages it reads. A frame that waits in
the socket, that the guard holds or drops, or that is a part of an unfinished message is
one it has not heard of.
-/

namespace PlexusTransport.Ws.Conn

/-- The peer's frames and the loop's clocks. -/
structure Heeds (c : Served) : Prop where
  came : ∀ t ∈ c.came, t ∈ c.withheld ∨ t ≤ c.lastIn
  past : ∀ t ∈ c.came, t ≤ c.clock
  withheld : ∀ t ∈ c.withheld, t ∈ c.came

/-- Nothing came within the ping timeout before now. -/
def Quiet (limits : SocketLimits) (c : Served) : Prop :=
  ∃ timeout ∈ limits.silence, ∀ t ∈ c.came, timeout < c.clock - t

/-- The liveness rules are asked. -/
def Wakeup.judges (w : Wakeup) : Bool := w.ticked && !w.stopping && !w.closing

/-- A tick that finds the last message older than the timeout finds no frame younger than
    it that has made no message. -/
def Prompt {σ : Type} (limits : SocketLimits) (c : Served) : Act σ → Prop
  | .wake w => w.judges = true → ∀ timeout ∈ limits.silence, timeout < w.now - c.lastIn →
      ∀ t ∈ c.withheld, timeout < w.now - t
  | _ => True

instance {σ : Type} (limits : SocketLimits) (c : Served) (a : Act σ) :
    Decidable (Prompt limits c a) :=
  match a with
  | .wake w => inferInstanceAs (Decidable (w.judges = true → ∀ timeout ∈ limits.silence,
      timeout < w.now - c.lastIn → ∀ t ∈ c.withheld, timeout < w.now - t))
  | .happen _ | .accept | .read _ | .write _ _ => inferInstanceAs (Decidable True)

namespace Served

variable {σ : Type} {limits : SocketLimits} {texts : Texts} {c c' : Served}

/-- What of the loop tells when the peer's frames came and were heeded. -/
def times (c : Served) : List Nat × List Nat × Nat × Nat :=
  (c.came, c.withheld, c.lastIn, c.clock)

theorem heeds_times (heeds : Heeds c) (same : c'.times = c.times) : Heeds c' := by
  obtain ⟨came, withheld, lastIn, clock⟩ : c'.came = c.came ∧ c'.withheld = c.withheld ∧
      c'.lastIn = c.lastIn ∧ c'.clock = c.clock := by simpa [times] using same
  constructor
  · rw [came, withheld, lastIn]
    exact heeds.came
  · rw [came, clock]
    exact heeds.past
  · rw [came, withheld]
    exact heeds.withheld

/-- Time goes on. -/
theorem heeds_later (heeds : Heeds c) {now : Nat} (later : c.clock ≤ now) :
    Heeds { c with clock := now } :=
  ⟨heeds.came, fun t mem => (heeds.past t mem).trans later, heeds.withheld⟩

theorem heeds_happen {h : Happening} (heeds : Heeds c)
    (happened : c.happen limits h = some c') : Heeds c' := by
  cases h with
  | frame time =>
      simp only [happen, Option.ite_none_right_eq_some, Option.some.injEq] at happened
      obtain ⟨later, rfl⟩ := happened
      refine ⟨fun t mem => ?_, fun t mem => ?_, fun t mem => ?_⟩
      · rcases List.mem_append.mp mem with old | new
        · exact (heeds.came t old).imp_left (List.mem_append_left _)
        · exact .inl (List.mem_append_right _ new)
      · rcases List.mem_append.mp mem with old | new
        · exact (heeds.past t old).trans later
        · exact (List.mem_singleton.mp new).le
      · rcases List.mem_append.mp mem with old | new
        · exact List.mem_append_left _ (heeds.withheld t old)
        · exact List.mem_append_right _ new
  | resolve name rp =>
      cases happened
      exact heeds_times heeds rfl
  | arrive a | permitTaken | permitBack | finish i =>
      simp only [happen, Option.ite_none_right_eq_some, Option.some.injEq] at happened
      obtain ⟨-, rfl⟩ := happened
      exact heeds_times heeds rfl

/-- A message tells of all that came before it. -/
theorem heeds_message {now : Nat} (heeds : Heeds c) (later : c.clock ≤ now)
    (same : c'.came = c.came) (fewer : ∀ t ∈ c'.withheld, t ∈ c.withheld)
    (lastIn : c'.lastIn = now) (clock : c'.clock = now) : Heeds c' := by
  have heard : ∀ t ∈ c'.came, t ≤ now := by
    rw [same]
    exact fun t mem => (heeds.past t mem).trans later
  refine ⟨?_, ?_, ?_⟩
  · rw [lastIn]
    exact fun t mem => .inr (heard t mem)
  · rw [clock]
    exact heard
  · rw [same]
    exact fun t mem => heeds.withheld t (fewer t mem)

theorem message_times {x : Reading σ} {m : Inbound} (messaged : c.message texts x m = .ok c') :
    c'.times = (c.came, c.withheld, x.now, c.clock) := by
  cases Served.messaged texts messaged with
  | answers | accepting | task => rfl

theorem heeds_pollNext {x : Reading σ} (heeds : Heeds c) (later : c.clock ≤ x.now) :
    Heeds (c.pollNext limits texts x) := by
  have fewer : ∀ t ∈ c.withheld.diff x.made, t ∈ c.withheld := fun t mem =>
    List.diff_subset _ _ mem
  have polled := polls limits texts x c
  generalize c.pollNext limits texts x = d at polled ⊢
  cases polled with
  | stopped closed => exact heeds_times heeds rfl
  | ends gate read messaged => exact heeds_message heeds later rfl fewer rfl rfl
  | takes gate read messaged =>
      have times := message_times messaged
      simp only [Served.times, Prod.mk.injEq] at times
      obtain ⟨came, withheld, lastIn, clock⟩ := times
      exact heeds_message heeds later came (by rw [← withheld] at fewer; exact fewer) lastIn clock
  | failed gate read | gone gate read | pending gate read =>
      exact heeds_times (heeds_later heeds later) rfl

theorem write_times {passes : List Pass} {flush : Polled}
    (written : c.write limits passes flush = some c') : c'.times = c.times := by
  cases writes limits written with
  | lost | rests | shares | goes => rfl

theorem write_silent {passes : List Pass} {flush : Polled}
    (written : c.write limits passes flush = some c') : c'.phase ≠ .ended .silent := by
  cases writes limits written with
  | lost | rests | shares | goes => simp

theorem wake_times (limits : SocketLimits) (w : Wakeup) (c : Served) :
    (c.wake limits w).times = (c.came, c.withheld, c.lastIn, w.now) := by
  have woke := wakes limits w c
  generalize c.wake limits w = d at woke ⊢
  cases woke with
  | stopped | closed | silent | idles | goes => rfl

theorem wake_silent {w : Wakeup} (silent : (c.wake limits w).phase = .ended .silent) :
    w.judges = true ∧ ∃ timeout ∈ limits.silence, timeout < w.now - c.lastIn := by
  have woke := wakes limits w c
  generalize c.wake limits w = d at woke silent
  cases woke with
  | stopped | closed | idles | goes => cases silent
  | silent judges limited past => exact ⟨by simp [Wakeup.judges, judges], _, limited, past⟩

theorem heeds_wake {w : Wakeup} (heeds : Heeds c) (later : c.clock ≤ w.now) :
    Heeds (c.wake limits w) :=
  heeds_times (heeds_later heeds later) (wake_times limits w c)

/-- Closed for silence, nothing came within the timeout just where nothing that made no
    message did. -/
theorem silent_quiet {w : Wakeup} (heeds : Heeds c)
    (silent : (c.wake limits w).phase = .ended .silent) :
    Quiet limits (c.wake limits w) ↔ Prompt (σ := σ) limits c (.wake w) := by
  obtain ⟨judges, timeout, limited, past⟩ := wake_silent silent
  have times := wake_times limits w c
  simp only [Served.times, Prod.mk.injEq] at times
  obtain ⟨came, -, -, clock⟩ := times
  simp only [Quiet, came, clock]
  have only : ∀ other ∈ limits.silence, other = timeout := by
    intro other mem
    rw [Option.mem_def] at mem limited
    rw [mem] at limited
    exact Option.some.inj limited
  constructor
  · rintro ⟨other, mem, quiet⟩ - third mem' - t held
    rw [only other mem] at quiet
    rw [only third mem']
    exact quiet t (heeds.withheld t held)
  · intro prompt
    refine ⟨timeout, limited, fun t mem => ?_⟩
    rcases heeds.came t mem with held | heard
    · exact prompt judges timeout limited past t held
    · omega

theorem happen_phase {h : Happening} (happened : c.happen limits h = some c') :
    c'.phase = c.phase := by
  cases h with
  | resolve name rp => cases happened; rfl
  | arrive a | permitTaken | permitBack | finish i | frame time =>
      simp only [happen, Option.ite_none_right_eq_some, Option.some.injEq] at happened
      obtain ⟨-, rfl⟩ := happened
      rfl

theorem pollNext_silent (x : Reading σ) (c : Served) :
    (c.pollNext limits texts x).phase ≠ .ended .silent := by
  have polled := polls limits texts x c
  generalize c.pollNext limits texts x = d at polled ⊢
  cases polled with
  | @ends m e gate read messaged =>
      cases e
      simp [End.ending]
  | @failed protocol gate read => cases protocol <;> simp
  | stopped | takes | gone | pending => simp

theorem step_quiet {a : Act σ} (heeds : Heeds c) (prompt : Prompt limits c a)
    (stepped : c.step limits texts a = some c') :
    Heeds c' ∧ (c'.phase = .ended .silent → Quiet limits c') := by
  cases steps limits texts stepped with
  | happen going happened =>
      refine ⟨heeds_happen heeds happened, fun silent => ?_⟩
      rw [happen_phase happened] at silent
      exact absurd silent (going _)
  | wake phase later =>
      exact ⟨heeds_wake heeds later, fun silent => (silent_quiet heeds silent).mpr prompt⟩
  | accept phase => exact ⟨heeds_times heeds rfl, nofun⟩
  | read phase made =>
      exact ⟨heeds_pollNext heeds made.1, fun silent => absurd silent (pollNext_silent _ c)⟩
  | write phase written =>
      exact ⟨heeds_times heeds (write_times written), fun silent => absurd silent (write_silent written)⟩

end Served

/-- A socket closed for silence was silent, while each tick past the timeout finds no frame
    younger than it that has made no message. -/
theorem silent_only {σ : Type} (limits : SocketLimits) (texts : Texts) (now : Nat)
    (acts : List (Act σ)) (c : Served)
    (ran : (Served.machine limits texts now).run acts = some c)
    (prompt : (Served.machine limits texts now).Allows (Prompt limits) (Served.new limits now) acts)
    (silent : c.phase = .ended .silent) : Quiet limits c := by
  have heeds : Heeds c ∧ (c.phase = .ended .silent → Quiet limits c) := by
    refine Machine.runFrom_keeps (I := fun c => Heeds c ∧ (c.phase = .ended .silent → Quiet limits c))
      (fun c a c' kept => Served.step_quiet kept.1) prompt ran ⟨⟨nofun, nofun, nofun⟩, nofun⟩
  exact heeds.2 silent

def timed : SocketLimits := ⟨1024, some 30, 100, none, 4, 8⟩

section Runs

def still : Nat → Gap := fun _ => ⟨[], false⟩

/-- A wakeup of the loop that writes nothing. -/
def idleWakeup (now : Nat) (ticked : Bool) (read : Read) (made : List Nat) : List (Act Unit) :=
  let pass := [.accept, .read ⟨now, bare, (), 0, made, read⟩, .write [⟨.ready, still, true⟩] .ready]
  .wake ⟨now, false, false, ticked, false, false⟩ :: pass

/-- A pong at 10, and nothing after. -/
def pongRun : List (Act Unit) :=
  .happen (.frame 10) :: idleWakeup 20 false (.message .pong) [10] ++
    [.accept, .read ⟨20, bare, (), 0, [], .pending⟩, .write [⟨.ready, still, true⟩] .ready,
      .wake ⟨130, false, false, true, false, false⟩]

theorem silent_only_pong :
    ∃ c, (Served.machine timed blank 0).run pongRun = some c ∧ c.phase = .ended .silent ∧
      c.clock = 130 ∧ Quiet timed c := by
  refine ⟨_, rfl, rfl, rfl, silent_only timed blank 0 pongRun _ rfl ?_ rfl⟩
  decide

/-- Two fragments of a message that is not over at 150. -/
def fragmentsRun : List (Act Unit) :=
  .happen (.frame 50) :: idleWakeup 50 false .pending [] ++
    .happen (.frame 140) :: idleWakeup 140 false .pending [] ++
    [.wake ⟨150, false, false, true, false, false⟩]

/-- The fragments as they are on the wire, and the guard, which holds them. -/
def fragments : Ws.Socket UInt8 :=
  ⟨[.data 0x01 [0x81, 0, 0, 0, 0, 0x22], .data 0x00 [0x81, 0, 0, 0, 0, 0x22]], .quiet⟩

theorem silent_only_fragments :
    (∃ c, (Served.machine timed blank 0).run fragmentsRun = some c ∧ c.phase = .ended .silent ∧
      c.clock = 150 ∧ c.came = [50, 140] ∧ ¬Quiet timed c) ∧
    ((Guard.new 1024 []).pollRead fragments 512).2.2 = .pending := by
  refine ⟨⟨_, rfl, rfl, rfl, rfl, ?_⟩, by decide +kernel⟩
  rintro ⟨timeout, limited, quiet⟩
  cases limited
  exact absurd (quiet 140 (.tail _ (.head _))) (by decide)

end Runs

end PlexusTransport.Ws.Conn
