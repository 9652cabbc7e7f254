import PlexusTransport.Ws.Conn.Dispatch
import PlexusTransport.Ws.Guard.Run

/-! # Refusals in their place

The loop with what came to it, in the order it came: the messages the guard dropped among
those that were read. The loop learns of a drop by the guard's count alone.
-/

namespace PlexusTransport.Ws

namespace Guard

variable {β : Type} [Octet β]

/-- What a poll of the guard drops comes before the bytes the poll hands on: nothing is ready
    then, and no frame is being passed on. -/
theorem turn_drops {g : Guard β} {s : Socket β} {out : Nat}
    (drops : (g.turn s out).guard.dropped ≠ g.dropped) :
    g.ready = [] ∧ g.state = .header ∧ ∃ g' s', g.turn s out = .again g' s' := by
  have held : ∀ g : Guard β, g.endHold.dropped = g.dropped := by
    intro g
    unfold endHold
    grind
  have moves := g.moves s out
  generalize g.turn s out = t at moves drops ⊢
  cases moves with
  | @decides h drained state legal found => exact ⟨drained, state, g.decide h, s, rfl⟩
  | endsHold => exact absurd (held g) drops
  | holds drained state left buf most same =>
      subst same
      dsimp only [Turn.guard] at drops
      split at drops <;> simp [held] at drops
  | _ => exact absurd rfl drops

end Guard

end PlexusTransport.Ws

namespace PlexusTransport.Ws.Conn

variable {σ : Type} (limits : SocketLimits) (texts : Texts)

/-- What came: a message the guard dropped, or one read and what it is answered. -/
inductive Came where
  | dropped
  | read (ws : List Written)

/-- `-32007` for a message dropped. -/
def refusal : MethodResponse := .error .null (texts.rejectTooBigRequest limits.maxMessageSize)

/-- What is to be queued for it. -/
def Came.owed : Came → List Message
  | .dropped => [text (texts.encode (refusal limits texts).json)]
  | .read ws => ws.map (Written.shown texts)

/-- The messages dropped in a poll come before the one it makes. -/
def Reading.came (x : Reading σ) (c : Served) : List Came :=
  if c.reads < readBudget ∧ c.out.length < outHigh then
    List.replicate x.drops .dropped ++
      match x.read with
      | .message m =>
          match x.router.begin c.free m x.server with
          | .ok (.answers _ ws) => [.read ws]
          | _ => []
      | _ => []
  else []

/-- The message read is answered in place, or closes the connection. -/
def Reading.InPlace (x : Reading σ) (c : Served) : Prop :=
  ∀ m, x.read = .message m →
    m = .close ∨ ∃ called ws, x.router.begin c.free m x.server = .ok (.answers called ws)

/-- A poll in which messages are dropped makes no message that is answered, and no end. -/
def Reading.Alone (x : Reading σ) (c : Served) : Prop :=
  c.reads < readBudget → c.out.length < outHigh → 0 < x.drops →
    x.read = .pending ∨ ∃ m called, x.read = .message m ∧
      x.router.begin c.free m x.server = .ok (.answers called [])

structure Queued where
  served : Served
  came : List Came

namespace Queued

def new (now : Nat) : Queued := ⟨.new limits now, []⟩

def step (s : Queued) (a : Act σ) : Option Queued :=
  (s.served.step limits texts a).map fun c =>
    match a with
    | .read x => ⟨c, s.came ++ x.came s.served⟩
    | _ => ⟨c, s.came⟩

def machine (now : Nat) : Machine Queued (Act σ) := ⟨new limits now, step limits texts⟩

def InPlace (s : Queued) : Act σ → Prop
  | .read x => x.InPlace s.served
  | _ => True

def Alone (s : Queued) : Act σ → Prop
  | .read x => x.Alone s.served
  | _ => True

/-- What is queued is what is owed for what came, in that order. -/
structure InOrder (s : Queued) : Prop where
  answered : s.served.answered = s.came.flatMap (Came.owed limits texts)
  drops : (∀ e, s.served.phase ≠ .ended e) → s.served.answeredDrops = s.served.dropped
  accepting : s.served.accepting = []

variable {limits texts} {s s' : Queued}

/-- A step that reads nothing. -/
structure Still (c c' : Served) : Prop where
  going : (∀ e, c'.phase ≠ .ended e) → ∀ e, c.phase ≠ .ended e
  dropped : c'.dropped = c.dropped
  answeredDrops : c'.answeredDrops = c.answeredDrops
  accepting : c.accepting = [] → c'.accepting = []

theorem step_still {c c' : Served} {a : Act σ} (unread : ∀ x, a ≠ .read x)
    (stepped : c.step limits texts a = some c') : Still c c' := by
  cases Served.steps limits texts stepped with
  | @happen h c' going happened =>
      cases h with
      | resolve name rp =>
          cases happened
          exact ⟨fun _ => going, rfl, rfl, fun none => by simp [none]⟩
      | arrive a | permitTaken | permitBack | finish i | frame time =>
          simp only [Served.happen, Option.ite_none_right_eq_some, Option.some.injEq] at happened
          obtain ⟨-, rfl⟩ := happened
          exact ⟨fun _ => going, rfl, rfl, id⟩
  | @wake w phase later =>
      have woke := Served.wakes limits w c
      generalize c.wake limits w = d at woke ⊢
      have going : ∀ e, c.phase ≠ .ended e := by simp [phase]
      cases woke <;> exact ⟨fun _ => going, rfl, rfl, id⟩
  | accept phase => exact ⟨by simp [phase], rfl, rfl, fun none => by simp [Served.pollAccepting, none]⟩
  | @read x phase made => exact absurd rfl (unread x)
  | write phase written =>
      have going : ∀ e, c.phase ≠ .ended e := by simp [phase]
      cases Served.writes limits written with
      | lost | rests | shares | goes => exact ⟨fun _ => going, rfl, rfl, id⟩

theorem entries_still {c : Served} {a : Act σ} (unread : ∀ x, a ≠ .read x)
    (none : c.accepting = []) : (c.entries limits texts a).flatMap Entry.written = [] := by
  cases a with
  | happen h => cases h <;> rfl
  | wake w | write passes flush => rfl
  | accept => simp [Served.entries, none]
  | read x => exact absurd rfl (unread x)

theorem refusals_owed {c : Served} {x : Reading σ} (level : c.answeredDrops = c.dropped) :
    (c.refusals limits texts x).map (Written.shown texts) =
      (List.replicate x.drops Came.dropped).flatMap (Came.owed limits texts) := by
  rw [Served.refusals, level, Nat.add_sub_cancel_left]
  generalize x.drops = n
  induction n with
  | zero => rfl
  | succ n ih =>
      rw [List.replicate_succ, List.replicate_succ, List.flatMap_cons, List.flatMap_cons,
        List.map_append, ih]
      rfl

/-- What a poll queues is owed for what came in it, in that order. -/
theorem entries_read {c : Served} {x : Reading σ} (level : c.answeredDrops = c.dropped)
    (inPlace : x.InPlace c) (alone : x.Alone c) :
    ((c.entries limits texts (.read x)).flatMap Entry.written).map (Written.shown texts) =
      (x.came c).flatMap (Came.owed limits texts) := by
  have owed : (c.refusals limits texts x).map (Written.shown texts) = _ := refusals_owed level
  have written := (Books.refused (σ := σ) (c.refusals limits texts x)).1
  have nothing : x.drops = 0 → c.refusals limits texts x = [] := by
    intro none
    rw [Served.refusals, level, none, Nat.add_zero, Nat.sub_self]
    rfl
  unfold Served.entries Reading.came
  dsimp only
  split
  · rename_i gate
    have drops : x.drops = 0 ∨ x.read = .pending ∨ ∃ m called, x.read = .message m ∧
        x.router.begin c.free m x.server = .ok (.answers called []) :=
      (Nat.eq_zero_or_pos x.drops).imp_right (alone gate.1 gate.2)
    cases read : x.read with
    | pending => simpa [written] using owed
    | failed protocol | gone =>
        have none : x.drops = 0 := by simpa [read] using drops
        simp [none]
    | message m =>
        obtain rfl | ⟨called, ws, begun⟩ := inPlace m read
        · have none : x.drops = 0 := by
            obtain none | pending | ⟨m, called, same, begun⟩ := drops
            · exact none
            · cases read.symm.trans pending
            · cases read.symm.trans same
              cases begun
          simp [none, Router.begin]
          rfl
        · have effects : (Entry.message ⟨m, x.router, x.server, c.free⟩ : Entry σ).written = ws :=
            congrArg Prod.fst (Router.effects_begin begun)
          simp only [begun, List.flatMap_cons, effects, written, List.map_append, owed,
            List.flatMap_append, List.flatMap_nil, List.append_nil, Came.owed]
          obtain none | pending | ⟨m', called', same, answered⟩ := drops
          · simp [none]
          · cases read.symm.trans pending
          · cases read.symm.trans same
            cases begun.symm.trans answered
            simp
  · rfl

theorem read_inOrder {x : Reading σ} (ordered : InOrder limits texts s)
    (going : ∀ e, s.served.phase ≠ .ended e) (inPlace : x.InPlace s.served)
    (alone : x.Alone s.served) :
    InOrder limits texts ⟨s.served.pollNext limits texts x, s.came ++ x.came s.served⟩ := by
  have level := ordered.drops going
  have books : Books texts s.served (s.served.pollNext limits texts x) _ := Books.read s.served
  refine ⟨?_, ?_, ?_⟩
  · rw [books.answered, ordered.answered, entries_read level inPlace alone, List.flatMap_append]
  · have polled := Served.polls limits texts x s.served
    generalize s.served.pollNext limits texts x = d at polled ⊢
    intro going'
    cases polled with
    | stopped closed => exact level
    | ends | failed | gone => exact absurd rfl (going' _)
    | @takes m c gate read messaged =>
        obtain ⟨dropped, answered, -⟩ := Books.message_drops messaged
        change max c.answeredDrops c.dropped = c.dropped
        rw [dropped, answered]
        exact Nat.max_eq_right (level.trans_le (Nat.le_add_right _ _))
    | pending gate read => exact Nat.max_eq_right (level.trans_le (Nat.le_add_right _ _))
  · have polled := Served.polls limits texts x s.served
    generalize s.served.pollNext limits texts x = d at polled ⊢
    cases polled with
    | stopped | ends | failed | gone | pending => exact ordered.accepting
    | @takes m c' gate read messaged =>
        obtain rfl | ⟨called, ws, begun⟩ := inPlace m read
        · cases messaged
        · cases Served.messaged texts messaged with
          | answers begun' => exact ordered.accepting
          | accepting begun' | task begun' => cases begun.symm.trans begun'

theorem step_inOrder {a : Act σ} (ordered : InOrder limits texts s) (inPlace : s.InPlace a)
    (alone : s.Alone a) (stepped : s.step limits texts a = some s') : InOrder limits texts s' := by
  obtain ⟨c, served, rfl⟩ := Option.map_eq_some_iff.mp stepped
  cases a with
  | read x =>
      cases Served.steps limits texts served with
      | read phase made =>
          exact read_inOrder ordered (by simp [phase]) inPlace alone
  | happen h | wake w | accept | write passes flush =>
      have still := step_still (by simp) served
      have books := Books.step (σ := σ) served
      refine ⟨?_, fun going => ?_, still.accepting ordered.accepting⟩
      · dsimp only
        rw [books.answered, entries_still (by simp) ordered.accepting, List.map_nil,
          List.append_nil]
        exact ordered.answered
      · dsimp only at going ⊢
        rw [still.answeredDrops, still.dropped]
        exact ordered.drops (still.going going)

end Queued

/-- While messages are dropped only in polls that answer none and do not end the loop, each
    has its refusal, queued in its place. -/
theorem drops_in_place {σ : Type} (limits : SocketLimits) (texts : Texts) (now : Nat)
    (acts : List (Act σ)) (s : Queued)
    (inPlace : (Queued.machine limits texts now).Allows Queued.InPlace (.new limits now) acts)
    (alone : (Queued.machine limits texts now).Allows Queued.Alone (.new limits now) acts)
    (ran : (Queued.machine limits texts now).run acts = some s) :
    s.served.answered = s.came.flatMap (Came.owed limits texts) := by
  have both := Machine.allows_and inPlace alone
  have ordered : Queued.InOrder limits texts s := by
    refine Machine.runFrom_keeps ?_ both ran ⟨rfl, fun _ => rfl, rfl⟩
    intro s a s' ordered allowed stepped
    exact Queued.step_inOrder ordered allowed.1 allowed.2 stepped
  exact ordered.answered

section Misplaced

/-- Answers told by the codes of their errors. -/
def codes : Texts where
  encode
    | .obj [_, _, (_, .obj ((_, .num code) :: _))] => Text.utf8 code.toList
    | _ => []
  rejectTooBigRequest _ := ⟨-32007, "Request is too big", none⟩

/-- A poll of the read side: one message dropped, and what is read after it. -/
def dropping (drops : Nat) (read : Read) : List (Act Unit) :=
  [.wake ⟨0, false, false, false, false, false⟩, .accept, .read ⟨0, bare, (), drops, [], read⟩]

/-- What is not JSON is answered that it is not. -/
def garbled : Read := .message (.text [0x78])

theorem garbled_inPlace (x : Reading Unit) (router : x.router = bare) (read : x.read = garbled)
    (c : Served) : x.InPlace c := by
  intro m same
  cases read.symm.trans same
  rw [router]
  exact .inr ⟨_, _, rfl⟩

/-- A message is dropped in one poll, the next answered in another. -/
def apart : List (Act Unit) :=
  dropping 1 .pending ++ [.write [⟨.pending, fun _ => ⟨[], false⟩, true⟩] .pending] ++
    dropping 0 garbled

theorem drops_in_place_apart : ∃ s, (Queued.machine roomy codes 0).run apart = some s ∧
    s.served.answered = s.came.flatMap (Came.owed roomy codes) := by
  have reads : ∀ x, .read x ∈ apart →
      x.read = .pending ∨ x.drops = 0 ∧ x.router = bare ∧ x.read = garbled := by
    intro x mem
    have either : x = ⟨0, bare, (), 1, [], .pending⟩ ∨ x = ⟨0, bare, (), 0, [], garbled⟩ := by
      simpa [apart, dropping] using mem
    obtain rfl | rfl := either
    · exact .inl rfl
    · exact .inr ⟨rfl, rfl, rfl⟩
  refine ⟨_, rfl, drops_in_place roomy codes 0 apart _ ?_ ?_ rfl⟩
  · refine Machine.allows_of_mem fun a mem s => ?_
    cases a with
    | read x =>
        obtain pending | ⟨none, router, read⟩ := reads x mem
        · intro m same
          cases pending.symm.trans same
        · exact garbled_inPlace x router read s.served
    | _ => trivial
  · refine Machine.allows_of_mem fun a mem s => ?_
    cases a with
    | read x =>
        intro _ _ some
        obtain pending | ⟨none, router, read⟩ := reads x mem
        · exact .inl pending
        · omega
    | _ => trivial

/-- Read together with one dropped before it, a message is answered first. -/
theorem drops_misplaced : ¬∀ (limits : SocketLimits) (texts : Texts) (now : Nat)
    (acts : List (Act Unit)) (s : Queued),
    (Queued.machine limits texts now).Allows Queued.InPlace (.new limits now) acts →
      (Queued.machine limits texts now).run acts = some s →
        s.served.answered = s.came.flatMap (Came.owed limits texts) := by
  intro inPlace
  have ran : ∃ s, (Queued.machine roomy codes 0).run (dropping 1 garbled) = some s ∧
      s.served.answered ≠ s.came.flatMap (Came.owed roomy codes) :=
    ⟨_, rfl, by decide⟩
  obtain ⟨s, ran, apart⟩ := ran
  refine apart (inPlace roomy codes 0 _ s (Machine.allows_of_mem fun a mem s => ?_) ran)
  cases a with
  | read x =>
      have same : x = ⟨0, bare, (), 1, [], garbled⟩ := by simpa [dropping] using mem
      exact garbled_inPlace x (same ▸ rfl) (same ▸ rfl) s.served
  | _ => trivial

end Misplaced

end PlexusTransport.Ws.Conn
