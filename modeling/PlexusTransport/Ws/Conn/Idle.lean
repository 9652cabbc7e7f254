import PlexusTransport.Ws.Conn.Batch
import PlexusTransport.Ws.Conn.Silence

/-! # Closed for idleness

The idle rule asks of calls alone: what is on its way to the socket is no part of it.
-/

namespace PlexusTransport.Ws.Conn

/-- A call, or a batch. -/
def Begun.called : Begun → Bool
  | .answers called _ => called
  | .accepting | .task _ => true

/-- This poll of the read side begins a call. -/
def Begins {σ : Type} (c : Served) (x : Reading σ) : Prop :=
  c.reads < readBudget ∧ c.out.length < outHigh ∧
    ∃ m b, x.read = .message m ∧ x.router.begin c.free m x.server = .ok b ∧ b.called

/-- A wakeup is told of a permit that is held. -/
def Opens {σ : Type} (c : Served) : Act σ → Prop
  | .wake w => c.free < maxSubscriptions → w.opens = true
  | .happen _ | .accept | .read _ | .write _ _ => True

instance {σ : Type} (c : Served) : (a : Act σ) → Decidable (Opens c a)
  | .wake w => inferInstanceAs (Decidable (c.free < maxSubscriptions → w.opens = true))
  | .happen _ | .accept | .read _ | .write _ _ => inferInstanceAs (Decidable True)

/-- Nothing waited to be written when it was looked for. -/
structure Cleared (c : Served) : Prop where
  out : c.out = []
  fenced : c.fenced = none
  flushed : c.unflushed = false
  queues : ∀ q, FoundEmpty c.toWriter c.heard q

section Writing

variable {w w' : Writer}

theorem nextOut_cleared {gaps : Nat → Gap} (kept : Kept w) (next : w.nextOut gaps = (none, w')) :
    w'.out = [] ∧ w'.fenced = none := by
  have out := w.nextOut_out gaps
  rw [next] at out
  unfold Writer.nextOut at next
  cases waits : w.out with
  | cons m rest => simp [waits] at next
  | nil =>
      refine ⟨by rw [out, waits]; rfl, ?_⟩
      simp only [waits] at next
      cases fenced : w.fenced with
      | some bytes =>
          simp only [fenced] at next
          cases congrArg Prod.fst next
      | none =>
          have left := byTurns_left gaps [0, 1, 2] kept fenced
          simp only [fenced] at next
          cases round : w.byTurns gaps [0, 1, 2] with
          | mk got w₁ =>
              rw [round] at left next
              cases got with
              | taken t => cases next
              | fence bytes => cases next
              | nothing =>
                  cases next
                  exact left.2

theorem gather_cleared {passes : List Pass} {heard : List Heard} (kept : Kept w)
    (said : w.gatherHeard passes = some heard)
    (gathered : w.gather passes false = (some false, w')) :
    w.budget ≤ w'.gathered ∨ heard = [.ready .pending] ∨ w'.out = [] ∧ w'.fenced = none := by
  have came := w.gathers passes false
  rw [gathered] at came
  cases came with
  | done =>
      unfold Writer.gatherHeard at said
      split at said
      · cases said
      · exact .inl (by omega)
  | full full => exact .inl full
  | pending under ready =>
      simp only [Writer.gatherHeard, if_pos under, ready] at said
      cases said
      exact .inr (.inl rfl)
  | nothing under ready next => exact .inr (.inr (nextOut_cleared kept next))
  | taken under ready next takes later => exact absurd rfl (gathered_moved later)

/-- A write that moves nothing leaves nothing of the loop's own, unless the socket is waited
    for. -/
theorem pollWrite_cleared {passes : List Pass} {flush : Polled} {heard : List Heard} (kept : Kept w)
    (level : Level w) (budget : 0 < w.budget) (said : w.writeHeard passes flush = some heard)
    (wrote : w.pollWrite passes flush = (some false, w')) :
    Backed heard ∨ w'.out = [] ∧ w'.fenced = none := by
  unfold Writer.writeHeard at said
  obtain ⟨passed, gatherSaid, rfl⟩ := Option.map_eq_some_iff.mp said
  have settled := w.settles passes flush
  rw [wrote] at settled
  generalize gathered : w.gather passes false = p at settled ⊢
  cases settled with
  | level flushed =>
      simp only [flushed, Bool.false_eq_true, if_false, List.append_nil]
      obtain full | rfl | cleared := gather_cleared kept gatherSaid gathered
      · have none := (gather_level passes level gathered).1 flushed
        omega
      · exact .inl rfl
      · exact .inr cleared
  | pending owed pending =>
      simp only [owed, if_true, pending]
      exact .inl (by simp [Backed, Heard.socket?])

end Writing

namespace Served

variable {σ : Type} {limits : SocketLimits} {texts : Texts} {c c' : Served}

/-- Parked, the loop has nothing of its own to write, or waits for the socket. -/
def Clear (c : Served) : Prop :=
  c.phase = .parked → c.woken = false → Backed c.heard ∨ c.out = [] ∧ c.fenced = none

theorem happen_clear {h : Happening} (clear : Clear c) (happened : c.happen limits h = some c') :
    Clear c' := by
  cases h with
  | arrive a =>
      simp only [happen, Option.ite_none_right_eq_some, Option.some.injEq] at happened
      obtain ⟨-, rfl⟩ := happened
      intro parked asleep
      refine (clear parked asleep).imp_right fun none => ⟨?_, ?_⟩
      · exact (c.toWriter.arrive_out a).trans none.1
      · exact (c.toWriter.arrive_fenced a).trans none.2
  | resolve name rp =>
      cases happened
      exact clear
  | permitTaken | permitBack | finish i | frame time =>
      simp only [happen, Option.ite_none_right_eq_some, Option.some.injEq] at happened
      obtain ⟨-, rfl⟩ := happened
      exact clear

theorem write_clear {budget : Nat} {passes : List Pass} {flush : Polled} (some : 0 < budget)
    (awake : Awake budget c) (written : c.write limits passes flush = .some c') : Clear c' := by
  intro parked asleep
  cases writes limits written with
  | lost | goes => cases parked
  | rests said wrote fits unmoved =>
      have positive : 0 < c.budget := awake.budget ▸ some
      exact (pollWrite_cleared awake.kept awake.level positive said wrote).imp_left
        fun backed => backed.after
  | shares said wrote fits share => cases asleep

theorem pollNext_going (x : Reading σ) (c : Served) :
    (c.pollNext limits texts x).phase ≠ .parked := by
  have polled := polls limits texts x c
  generalize c.pollNext limits texts x = d at polled ⊢
  cases polled with
  | stopped | ends | takes | failed | gone | pending => simp

theorem step_clear {budget : Nat} {a : Act σ} (some : 0 < budget) (awake : Awake budget c)
    (clear : Clear c) (stepped : c.step limits texts a = .some c') : Clear c' := by
  cases steps limits texts stepped with
  | happen going happened => exact happen_clear clear happened
  | @wake w phase later =>
      have woke := wakes limits w c
      generalize c.wake limits w = d at woke
      intro parked
      cases woke <;> cases parked
  | accept phase =>
      intro parked
      cases parked
  | @read x phase made => exact fun parked => absurd parked (pollNext_going x c)
  | write phase written => exact write_clear some awake written

/-- The clock, and when a call was last open. -/
structure Later (c c' : Served) : Prop where
  lastBusy : c.lastBusy ≤ c'.lastBusy
  clock : c'.lastBusy ≤ c'.clock

theorem message_busy {x : Reading σ} {m : Inbound} (messaged : c.message texts x m = .ok c') :
    c'.clock = c.clock ∧ (c'.lastBusy = c.lastBusy ∨ c'.lastBusy = x.now) ∧
      ∀ b, x.router.begin c.free m x.server = .ok b → b.called → c'.lastBusy = x.now := by
  cases Served.messaged texts messaged with
  | @answers called ws begun =>
      refine ⟨rfl, ?_, ?_⟩
      · cases called
        · exact .inl rfl
        · exact .inr rfl
      · intro b same call
        cases begun.symm.trans same
        exact if_pos call
  | accepting begun | task begun => exact ⟨rfl, .inr rfl, fun _ _ _ => rfl⟩

theorem pollNext_later {x : Reading σ} (past : c.lastBusy ≤ c.clock) (later : c.clock ≤ x.now) :
    Later c (c.pollNext limits texts x) ∧
      (Begins c x → (c.pollNext limits texts x).lastBusy = x.now) := by
  have polled := polls limits texts x c
  generalize c.pollNext limits texts x = d at polled ⊢
  cases polled with
  | stopped closed =>
      refine ⟨⟨Nat.le_refl _, past⟩, ?_⟩
      rintro ⟨reads, out, -⟩
      exact absurd ⟨reads, out⟩ closed
  | ends gate read messaged =>
      refine ⟨⟨Nat.le_refl _, past.trans later⟩, ?_⟩
      rintro ⟨-, -, m', b, same, begun, -⟩
      rw [read] at same
      cases same
      cases (message_error texts messaged).symm.trans begun
  | @takes m c₁ gate read messaged =>
      obtain ⟨clock, busy, begun⟩ := message_busy messaged
      refine ⟨⟨?_, ?_⟩, ?_⟩
      · change c.lastBusy ≤ c₁.lastBusy
        obtain same | same := busy
        · exact same ▸ Nat.le_refl _
        · exact same ▸ past.trans later
      · change c₁.lastBusy ≤ c₁.clock
        rw [clock]
        obtain same | same := busy
        · exact same ▸ past.trans later
        · exact same ▸ Nat.le_refl _
      · rintro ⟨-, -, m', b, same, called, call⟩
        rw [read] at same
        cases same
        exact begun b called call
  | failed gate read | gone gate read | pending gate read =>
      refine ⟨⟨Nat.le_refl _, past.trans later⟩, ?_⟩
      rintro ⟨-, -, m', b, same, -⟩
      rw [read] at same
      cases same

theorem write_busy {passes : List Pass} {flush : Polled}
    (written : c.write limits passes flush = some c') :
    c'.lastBusy = c.lastBusy ∧ c'.clock = c.clock ∧ c'.phase ≠ .ended .idle := by
  cases writes limits written with
  | lost | rests | shares | goes => exact ⟨rfl, rfl, by simp⟩

theorem happen_busy {h : Happening} (happened : c.happen limits h = some c') :
    c'.lastBusy = c.lastBusy ∧ c.clock ≤ c'.clock := by
  cases h with
  | frame time =>
      simp only [happen, Option.ite_none_right_eq_some, Option.some.injEq] at happened
      obtain ⟨later, rfl⟩ := happened
      exact ⟨rfl, later⟩
  | resolve name rp =>
      cases happened
      exact ⟨rfl, Nat.le_refl _⟩
  | arrive a | permitTaken | permitBack | finish i =>
      simp only [happen, Option.ite_none_right_eq_some, Option.some.injEq] at happened
      obtain ⟨-, rfl⟩ := happened
      exact ⟨rfl, Nat.le_refl _⟩

theorem step_later {a : Act σ} (past : c.lastBusy ≤ c.clock)
    (stepped : c.step limits texts a = some c') : Later c c' := by
  cases steps limits texts stepped with
  | happen going happened =>
      obtain ⟨same, later⟩ := happen_busy happened
      exact ⟨same ▸ Nat.le_refl _, same ▸ past.trans later⟩
  | @wake w phase later =>
      have woke := wakes limits w c
      generalize c.wake limits w = d at woke
      cases woke with
      | stopped | closed | silent | idles => exact ⟨Nat.le_refl _, past.trans later⟩
      | goes kept =>
          obtain rfl | rfl := kept
          · exact ⟨Nat.le_refl _, past.trans later⟩
          · exact ⟨past.trans later, Nat.le_refl _⟩
  | accept phase => exact ⟨Nat.le_refl _, past⟩
  | read phase made => exact (pollNext_later past made.1).1
  | write phase written =>
      obtain ⟨same, clock, -⟩ := write_busy written
      exact ⟨same ▸ Nat.le_refl _, same ▸ clock ▸ past⟩

theorem pollNext_idle (x : Reading σ) (c : Served) :
    (c.pollNext limits texts x).phase ≠ .ended .idle := by
  have polled := polls limits texts x c
  generalize c.pollNext limits texts x = d at polled ⊢
  cases polled with
  | @ends m e gate read messaged =>
      cases e
      simp [End.ending]
  | @failed protocol gate read => cases protocol <;> simp
  | stopped | takes | gone | pending => simp

/-- Only a wakeup ends the loop for idleness. -/
theorem step_idle {a : Act σ} (stepped : c.step limits texts a = some c')
    (ended : c'.phase = .ended .idle) :
    ∃ w idle, a = .wake w ∧ c.phase = .parked ∧ limits.idleTimeout = some idle ∧
      c.busy w.opens = false ∧ idle ≤ w.now - c.lastBusy ∧ c.clock ≤ w.now ∧
        c' = { c with clock := w.now, phase := .ended .idle } := by
  cases steps limits texts stepped with
  | happen going happened => exact absurd (happen_phase happened ▸ ended) (going _)
  | @wake w phase later =>
      have woke := wakes limits w c
      generalize c.wake limits w = d at woke ended
      cases woke with
      | stopped | closed | silent | goes => cases ended
      | @idles idle limited quiet past =>
          exact ⟨w, idle, rfl, phase, limited, quiet, past, later, rfl⟩
  | accept phase => cases ended
  | read phase made => exact absurd ended (pollNext_idle _ c)
  | write phase written => exact absurd ended (write_busy written).2.2

/-- What the loop's runs keep up to where it parks. -/
structure Parks (budget : Nat) (c : Served) : Prop where
  awake : Awake budget c
  clear : Clear c
  past : c.lastBusy ≤ c.clock

theorem step_parks {budget : Nat} {a : Act σ} (some : 0 < budget) (parks : Parks budget c)
    (stepped : c.step limits texts a = .some c') : Parks budget c' :=
  ⟨step_awake some parks.awake stepped, step_clear some parks.awake parks.clear stepped,
    (step_later parks.past stepped).clock⟩

theorem run_parks {now : Nat} {acts : List (Act σ)} (some : 0 < limits.writeBudget)
    (ran : (machine limits texts now).run acts = .some c) : Parks limits.writeBudget c := by
  refine Machine.run_keeps (I := Parks limits.writeBudget) ?_
    (fun _ _ _ parks stepped => step_parks some parks stepped) ran
  refine ⟨new_awake limits now, ?_, Nat.le_refl now⟩
  intro _ asleep
  cases asleep

/-- A call was open at a time no later than it is known to have been. -/
theorem begun_before {budget now : Nat} {x : Reading σ} {rest : List (Act σ)} (some : 0 < budget)
    (parks : Parks budget c) (begins : Begins c x)
    (ran : (machine limits texts now).runFrom c (.read x :: rest) = .some c') :
    x.now ≤ c'.lastBusy := by
  obtain ⟨d, stepped, ran⟩ := Option.bind_eq_some_iff.mp ran
  have stepped : c.step limits texts (.read x) = .some d := stepped
  have parked := step_parks some parks stepped
  have began : d.lastBusy = x.now := by
    cases steps limits texts stepped with
    | read phase made => exact (pollNext_later parks.past made.1).2 begins
  have kept : x.now ≤ c'.lastBusy ∧ c'.lastBusy ≤ c'.clock := by
    refine Machine.runFrom_keeps (I := fun c => x.now ≤ c.lastBusy ∧ c.lastBusy ≤ c.clock) ?_
      (Machine.allows_all d rest) ran ⟨began ▸ Nat.le_refl _, parked.past⟩
    intro c a c' ⟨since, past⟩ _ stepped
    have later := step_later past stepped
    exact ⟨since.trans later.lastBusy, later.clock⟩
  exact kept.1

/-- Closed for idleness, the socket has no call or subscription open and none begun within the
    idle time; and, had the loop not woken itself, the write side was not taking more or there
    was nothing to write when it was last looked for. -/
theorem idle_close (limits : SocketLimits) (texts : Texts) (now : Nat)
    (some : 0 < limits.writeBudget) (acts : List (Act σ)) (c' : Served)
    (ran : (machine limits texts now).run acts = .some c')
    (opens : (machine limits texts now).Allows Opens (new limits now) acts)
    (ended : c'.phase = .ended .idle) :
    ∃ before w c idle, acts = before ++ [.wake w] ∧
      (machine limits texts now).run before = .some c ∧ limits.idleTimeout = .some idle ∧
      c'.running = [] ∧ c'.accepting = [] ∧ maxSubscriptions ≤ c'.free ∧ w.opens = false ∧
      (∀ front x rest d, before = front ++ .read x :: rest →
        (machine limits texts now).run front = .some d → Begins d x → x.now + idle ≤ c'.clock) ∧
      (c.woken = false → Backed c.heard ∨ Cleared c') := by
  obtain rfl | ⟨before, a, rfl⟩ := List.eq_nil_or_concat' acts
  · cases ran
    cases ended
  · rw [Machine.run, Machine.runFrom_append] at ran
    obtain ⟨c, reached, last⟩ := Option.bind_eq_some_iff.mp ran
    obtain ⟨d, stepped, same⟩ := Option.bind_eq_some_iff.mp last
    cases same
    obtain ⟨w, idle, rfl, phase, limited, quiet, past, later, rfl⟩ := step_idle stepped ended
    have parks : Parks limits.writeBudget c := run_parks some reached
    obtain ⟨-, allowed, -⟩ := Machine.allows_append opens reached
    simp only [busy, Bool.or_eq_false_iff, Bool.not_eq_false', List.isEmpty_iff] at quiet
    obtain ⟨⟨opens, running⟩, accepting⟩ := quiet
    refine ⟨before, w, c, idle, rfl, reached, limited, running, accepting, ?_, opens, ?_, ?_⟩
    · by_contra held
      have told : w.opens = true := allowed (Nat.lt_of_not_le held)
      rw [opens] at told
      cases told
    · intro front x rest d split ranFront begins
      subst split
      rw [Machine.runFrom_append] at reached
      obtain ⟨d', ranFront', since⟩ := Option.bind_eq_some_iff.mp reached
      cases ranFront.symm.trans ranFront'
      have since := begun_before some (run_parks some ranFront) begins since
      have clock := parks.past
      change x.now + idle ≤ w.now
      omega
    · intro asleep
      have waits := parks.awake.parked phase asleep
      obtain backed | ⟨out, fenced⟩ := parks.clear phase asleep
      · exact .inl backed
      · obtain emptied | backed := waits.writing
        · exact .inr ⟨out, fenced, emptied.flushed, emptied.queues⟩
        · exact .inl backed

def resting : SocketLimits := ⟨1024, none, 0, .some 30, 4, 8⟩

def callAnswered : Reading Unit :=
  ⟨10, readingOne 35 callText callJson, (), 0, [], .message (.text callText)⟩

/-- A call answered, its answer taken by the socket, and nothing after. -/
def answeredRun : List (Act Unit) :=
  let takes : Pass := ⟨.ready, still, true⟩
  [.wake ⟨10, false, false, false, false, false⟩,
    .accept, .read callAnswered, .write [takes, takes] .ready,
    .accept, .read { callAnswered with read := .pending }, .write [takes] .ready,
    .wake ⟨50, false, false, true, false, false⟩]

theorem answered_begins {c : Served} (reads : c.reads = 0) (out : c.out = []) :
    Begins c callAnswered := by
  refine ⟨by rw [reads]; decide, by rw [out]; decide, .text callText,
    .answers true [.answer ⟨.number 5, .result (.u64 1), .methodCall⟩], rfl, ?_, rfl⟩
  rfl

/-- The run, parked before its last wakeup and after it. -/
theorem answered_ran :
    ∃ c c', (machine resting blank 0).run answeredRun.dropLast = .some c ∧ c.woken = false ∧
      (machine resting blank 0).run answeredRun = .some c' ∧ c'.phase = .ended .idle ∧
      c'.handed.length = 1 :=
  ⟨_, _, rfl, rfl, rfl, rfl, rfl⟩

theorem idle_close_answered :
    ∃ c c' idle, (machine resting blank 0).run answeredRun.dropLast = .some c ∧
      (machine resting blank 0).run answeredRun = .some c' ∧ c'.handed.length = 1 ∧
      resting.idleTimeout = .some idle ∧ c'.running = [] ∧ callAnswered.now + idle ≤ c'.clock ∧
      (Backed c.heard ∨ Cleared c') := by
  obtain ⟨c, c', reached, asleep, ran, ended, handed⟩ := answered_ran
  obtain ⟨before, w, c₁, idle, split, reached', limited, running, -, -, -, since, left⟩ :=
    idle_close resting blank 0 (Nat.succ_pos 7) answeredRun c' ran (by decide) ended
  have same : before = answeredRun.dropLast := by
    rw [split, List.dropLast_concat]
  subst same
  cases reached.symm.trans reached'
  refine ⟨c, c', idle, reached, ran, handed, limited, running, ?_, left asleep⟩
  obtain ⟨d, ranFront, reads, out⟩ : ∃ d, (machine resting blank 0).run (answeredRun.take 2) =
      .some d ∧ d.reads = 0 ∧ d.out = [] := ⟨_, rfl, rfl, rfl⟩
  exact since _ _ _ d rfl ranFront (answered_begins reads out)

/-- A call answered while the socket takes no more, and nothing after. -/
def slowRun : List (Act Unit) :=
  let asked := readingOne 35 callText callJson
  let full : List Pass := [⟨.pending, still, true⟩]
  [.wake ⟨10, false, false, false, false, false⟩,
    .accept, .read ⟨10, asked, (), 0, [], .message (.text callText)⟩, .write full .ready,
    .accept, .read ⟨10, asked, (), 0, [], .pending⟩, .write full .ready,
    .wake ⟨50, false, false, true, false, false⟩]

/-- The answer of a call is still to be written when the socket is closed for idleness. -/
theorem idle_unwritten :
    ¬∀ (limits : SocketLimits) (texts : Texts) (now : Nat) (acts : List (Act Unit)) (c : Served),
      0 < limits.writeBudget → (machine limits texts now).run acts = .some c →
      (machine limits texts now).Allows Opens (new limits now) acts → c.phase = .ended .idle →
      c.out = [] ∧ c.own = [] ∧ c.table = [] ∧ c.frames = [] ∧ c.fenced = none ∧
        c.unflushed = false := by
  intro written
  have closed := written resting blank 0 slowRun _ (Nat.succ_pos 7) rfl (by decide) rfl
  cases closed.1

end Served

end PlexusTransport.Ws.Conn
