import PlexusTransport.Lib.Machine
import PlexusTransport.Registration

/-! # The registration beside `serve`

The task that registers is spawned and never waited for; on its way out `serve` reads the
flag the task has set, and takes the registration back. Whatever either waits for may come
in any order.
-/

namespace PlexusTransport.Registration

def registerAttempts : Nat := 3

/-- `register_with_retry`, and the store that follows it. -/
inductive Task where
  | reaching (attempt : Nat)
  | asking (attempt : Nat) (ns : String)
  | sleeping (attempt : Nat)
  | confirmed
  | finished
  deriving DecidableEq, Repr

/-- How `serve` returned; `aborted`: a later listener did not start. -/
inductive Departure where
  | aborted
  | notRegistered
  | deregistered
  | failed
  | timedOut
  deriving DecidableEq, Repr

inductive Main where
  | starting
  | serving
  | stopping
  | reaching
  | asking (ns : String)
  | returned (how : Departure)
  deriving DecidableEq, Repr

structure Serve where
  task : Task
  registered : Bool
  main : Main
  sent : List Request

/-- The task's registration, this process, and how it writes events. -/
structure Setting where
  reg : RegistryRegistration
  pid : UInt32
  debug : Debug

inductive Act where
  | reached (r : Reach)
  | answered (a : Answer)
  | slept
  | stores
  | started
  | aborts
  | stops
  | looks
  | reachedOut (r : Reach)
  | answeredOut (a : Answer)
  | expires

namespace Serve

/-- Without a registration there is no task. -/
def new (configured : Bool) : Serve :=
  ⟨if configured then .reaching 1 else .finished, false, .starting, []⟩

/-- An attempt has failed. -/
def retry (attempt : Nat) (s : Serve) : Serve :=
  { s with task := if attempt < registerAttempts then .sleeping attempt else .finished }

def step (c : Setting) (s : Serve) : Act → Option Serve
  | .reached r =>
      match s.task with
      | .reaching k =>
          match r.namespace? c.reg.url with
          | none => none
          | some (.error _) => some (s.retry k)
          | some (.ok ns) =>
              some { s with task := .asking k ns, sent := s.sent ++ [registerRequest c.reg c.pid ns] }
      | _ => none
  | .answered a =>
      match s.task with
      | .asking k ns =>
          match registering.answered c.debug ns a with
          | none => none
          | some (.error _) => some (s.retry k)
          | some (.ok _) => some { s with task := .confirmed }
      | _ => none
  | .slept =>
      match s.task with
      | .sleeping k => some { s with task := .reaching (k + 1) }
      | _ => none
  | .stores => if s.task = .confirmed then some { s with task := .finished, registered := true } else none
  | .started => if s.main = .starting then some { s with main := .serving } else none
  | .aborts => if s.main = .starting then some { s with main := .returned .aborted } else none
  | .stops => if s.main = .serving then some { s with main := .stopping } else none
  | .looks =>
      if s.main = .stopping then
        some { s with main := if s.registered then .reaching else .returned .notRegistered }
      else none
  | .reachedOut r =>
      if s.main = .reaching then
        match r.namespace? c.reg.url with
        | none => none
        | some (.error _) => some { s with main := .returned .failed }
        | some (.ok ns) =>
            some { s with main := .asking ns, sent := s.sent ++ [deregisterRequest c.reg ns] }
      else none
  | .answeredOut a =>
      match s.main with
      | .asking ns =>
          match deregistering.answered c.debug ns a with
          | none => none
          | some (.error _) => some { s with main := .returned .failed }
          | some (.ok _) => some { s with main := .returned .deregistered }
      | _ => none
  | .expires =>
      match s.main with
      | .reaching | .asking _ => some { s with main := .returned .timedOut }
      | _ => none

end Serve

def Setting.serve (c : Setting) (configured : Bool) : Machine Serve Act :=
  ⟨Serve.new configured, Serve.step c⟩

/-- The events of a call confirm the registration. -/
def Act.Registers : Act → Prop
  | .answered a => a.subscribed = .ok () ∧ Confirms "backend_registered" a.stream
  | _ => False

def Act.Deregisters : Act → Prop
  | .answeredOut a => a.subscribed = .ok () ∧ Confirms "backend_deregistered" a.stream
  | _ => False

/-- No attempt is left to make. -/
def Task.Settled : Task → Prop
  | .confirmed | .finished => True
  | _ => False

/-- `n` requests have been sent by the attempts so far. -/
def Task.Within (n : Nat) : Task → Prop
  | .reaching k => n + 1 ≤ k ∧ k ≤ registerAttempts
  | .asking k _ => n ≤ k ∧ k ≤ registerAttempts
  | .sleeping k => n ≤ k ∧ k < registerAttempts
  | .confirmed | .finished => n ≤ registerAttempts

/-- `serve` has found the flag set. -/
def Main.Leaving : Main → Prop
  | .reaching | .asking _ => True
  | .returned how => how ≠ .aborted ∧ how ≠ .notRegistered
  | _ => False

/-- To whom `serve` has sent its own request. -/
def Main.Sent (out : Option String) : Main → Prop
  | .starting | .serving | .stopping | .reaching => out = none
  | .asking ns => out = some ns
  | .returned .aborted | .returned .notRegistered => out = none
  | .returned .deregistered => out.isSome
  | .returned .failed | .returned .timedOut => True

section Steps

variable {c : Setting} {s t : Serve} {a : Act} {names : List String} {out : Option String}
  {configured : Bool}

/-- What an action may do. -/
inductive Stepped (c : Setting) (s : Serve) : Act → Serve → Prop where
  | asks {r : Reach} {k : Nat} {ns : String} (there : s.task = .reaching k) :
      Stepped c s (.reached r)
        { s with task := .asking k ns, sent := s.sent ++ [registerRequest c.reg c.pid ns] }
  | failed {a : Act} {k : Nat} (there : s.task = .reaching k ∨ ∃ ns, s.task = .asking k ns) :
      Stepped c s a (s.retry k)
  | confirmed {x : Answer} {k : Nat} {ns : String} (there : s.task = .asking k ns)
      (confirms : Act.Registers (.answered x)) : Stepped c s (.answered x) { s with task := .confirmed }
  | slept {k : Nat} (there : s.task = .sleeping k) :
      Stepped c s .slept { s with task := .reaching (k + 1) }
  | stores (there : s.task = .confirmed) :
      Stepped c s .stores { s with task := .finished, registered := true }
  | early {a : Act} {m : Main} (same : ∀ out, s.main.Sent out → m.Sent out)
      (looked : m.Leaving → s.main.Leaving ∨ s.registered = true)
      (deregistered : m = .returned .deregistered → a.Deregisters) :
      Stepped c s a { s with main := m }
  | asksOut {r : Reach} {ns : String} (there : s.main = .reaching) :
      Stepped c s (.reachedOut r)
        { s with main := .asking ns, sent := s.sent ++ [deregisterRequest c.reg ns] }

/-- The inversion of a step. -/
theorem step_stepped (stepped : s.step c a = some t) : Stepped c s a t := by
  cases a with
  | reached r =>
      simp only [Serve.step] at stepped
      split at stepped
      · rename_i k there
        split at stepped
        · cases stepped
        · cases stepped
          exact .failed (.inl there)
        · cases stepped
          exact .asks there
      · cases stepped
  | answered x =>
      simp only [Serve.step] at stepped
      split at stepped
      · rename_i k ns there
        split at stepped
        · cases stepped
        · cases stepped
          exact .failed (.inr ⟨ns, there⟩)
        · rename_i ok
          cases stepped
          exact .confirmed there (answered_ok.mp ok)
      · cases stepped
  | slept =>
      simp only [Serve.step] at stepped
      split at stepped
      · rename_i k there
        cases stepped
        exact .slept there
      · cases stepped
  | stores =>
      obtain ⟨there, same⟩ := Option.ite_none_right_eq_some.mp stepped
      cases same
      exact .stores there
  | started =>
      obtain ⟨there, same⟩ := Option.ite_none_right_eq_some.mp stepped
      cases same
      exact .early (by simp [there, Main.Sent]) (by simp [Main.Leaving]) (by simp)
  | aborts =>
      obtain ⟨there, same⟩ := Option.ite_none_right_eq_some.mp stepped
      cases same
      exact .early (by simp [there, Main.Sent]) (by simp [Main.Leaving]) (by simp)
  | stops =>
      obtain ⟨there, same⟩ := Option.ite_none_right_eq_some.mp stepped
      cases same
      exact .early (by simp [there, Main.Sent]) (by simp [Main.Leaving]) (by simp)
  | looks =>
      obtain ⟨there, same⟩ := Option.ite_none_right_eq_some.mp stepped
      cases same
      refine .early (fun out sent => ?_) (fun leaving => ?_) fun back => ?_
      · rw [there] at sent
        cases s.registered <;> exact sent
      · cases flag : s.registered with
        | true => exact .inr rfl
        | false => simp [flag, Main.Leaving] at leaving
      · cases flag : s.registered <;> simp [flag] at back
  | reachedOut r =>
      simp only [Serve.step] at stepped
      split at stepped
      · rename_i there
        split at stepped
        · cases stepped
        · cases stepped
          exact .early (by simp [Main.Sent]) (fun _ => .inl (there ▸ trivial)) (by simp)
        · cases stepped
          exact .asksOut there
      · cases stepped
  | answeredOut x =>
      simp only [Serve.step] at stepped
      split at stepped
      · rename_i ns there
        split at stepped
        · cases stepped
        · cases stepped
          exact .early (by simp [Main.Sent]) (fun _ => .inl (there ▸ trivial)) (by simp)
        · rename_i ok
          cases stepped
          refine .early (fun out sent => ?_) (fun _ => .inl (there ▸ trivial))
            fun _ => answered_ok.mp ok
          rw [there] at sent
          exact Option.isSome_iff_exists.mpr ⟨ns, sent⟩
      · cases stepped
  | expires =>
      simp only [Serve.step] at stepped
      split at stepped
      · rename_i there
        cases stepped
        exact .early (by simp [Main.Sent]) (fun _ => .inl (there ▸ trivial)) (by simp)
      · rename_i ns there
        cases stepped
        exact .early (by simp [Main.Sent]) (fun _ => .inl (there ▸ trivial)) (by simp)
      · cases stepped

/-- The requests to register, and the one to take it back. -/
def requests (c : Setting) (names : List String) (out : Option String) : List Request :=
  names.map (registerRequest c.reg c.pid) ++ out.toList.map (deregisterRequest c.reg)

/-- What has been sent: to `names` to register, to `out` to take it back. -/
structure Kept (c : Setting) (names : List String) (out : Option String) (s : Serve) : Prop where
  sent : s.sent = requests c names out
  within : s.task.Within names.length
  main : s.main.Sent out
  stored : s.registered = true → s.task = .finished
  looked : s.main.Leaving → s.registered = true

theorem Kept.new (c : Setting) (configured : Bool) : Kept c [] none (Serve.new configured) where
  sent := rfl
  within := by cases configured <;> simp [Serve.new, Task.Within, registerAttempts]
  main := rfl
  stored := by simp [Serve.new]
  looked := by simp [Serve.new, Main.Leaving]

theorem Kept.leaving (kept : Kept c names out s) (asked : out.isSome = true) : s.main.Leaving := by
  have sent := kept.main
  cases out with
  | none => cases asked
  | some ns =>
      cases here : s.main with
      | starting | serving | stopping | reaching =>
          rw [here] at sent
          cases sent
      | asking ns' => trivial
      | returned how =>
          rw [here] at sent
          cases how with
          | aborted | notRegistered => cases sent
          | deregistered | failed | timedOut => exact ⟨nofun, nofun⟩

/-- Once `serve` has sent its request the task is over. -/
theorem Kept.task_finished (kept : Kept c names out s) (asked : out.isSome = true) : s.task = .finished :=
  kept.stored (kept.looked (kept.leaving asked))

theorem Kept.retry (kept : Kept c names out s) {k : Nat}
    (there : s.task = .reaching k ∨ ∃ ns, s.task = .asking k ns) : Kept c names out (s.retry k) where
  sent := kept.sent
  within := by
    have within := kept.within
    have most : names.length ≤ k ∧ k ≤ registerAttempts := by
      obtain here | ⟨ns, here⟩ := there
      · rw [here] at within
        exact ⟨Nat.le_of_succ_le within.1, within.2⟩
      · rw [here] at within
        exact within
    unfold Serve.retry
    split
    · rename_i more
      exact ⟨most.1, more⟩
    · exact most.1.trans most.2
  main := kept.main
  stored flag := by
    have ended := kept.stored flag
    obtain here | ⟨ns, here⟩ := there <;> cases here.symm.trans ended
  looked := kept.looked

/-- A step keeps it; nothing is sent to register once no attempt is left, and nothing at all
    once `serve` has sent its own. -/
theorem Kept.step (kept : Kept c names out s) (stepped : Stepped c s a t) :
    ∃ names' out', Kept c names' out' t ∧ (s.task.Settled → t.task.Settled ∧ names' = names) ∧
      (out.isSome → out' = out) := by
  have unsettled : ∀ {k}, s.task = .reaching k ∨ (∃ ns, s.task = .asking k ns) →
      ¬ s.task.Settled := by
    rintro k (there | ⟨ns, there⟩) settled <;> rw [there] at settled <;> exact settled
  have unset : s.task ≠ .finished → s.registered ≠ true := fun other flag => other (kept.stored flag)
  have alone : s.task ≠ .finished → out = none := by
    intro other
    cases out with
    | none => rfl
    | some ns => exact absurd (kept.task_finished rfl) other
  cases stepped with
  | asks there =>
      rename_i r k ns
      have none_ := alone (by simp [there])
      subst none_
      refine ⟨names ++ [ns], none, ⟨?_, ?_, kept.main, fun flag => ?_, kept.looked⟩,
        fun settled => absurd settled (unsettled (.inl there)), nofun⟩
      · simp [kept.sent, requests]
      · have within := kept.within
        rw [there] at within
        simpa [Task.Within] using within
      · exact absurd flag (unset (by simp [there]))
  | failed there =>
      exact ⟨names, out, kept.retry there, fun settled => absurd settled (unsettled there),
        fun _ => rfl⟩
  | confirmed there confirms =>
      have within := kept.within
      rw [there] at within
      exact ⟨names, out, ⟨kept.sent, within.1.trans within.2, kept.main,
        fun flag => absurd flag (unset (by simp [there])), kept.looked⟩,
        fun settled => absurd settled (unsettled (.inr ⟨_, there⟩)), fun _ => rfl⟩
  | slept there =>
      rename_i k
      have within := kept.within
      rw [there] at within
      refine ⟨names, out, ⟨kept.sent, ⟨Nat.succ_le_succ within.1, within.2⟩, kept.main,
        fun flag => absurd flag (unset (by simp [there])), kept.looked⟩, fun settled => ?_, fun _ => rfl⟩
      rw [there] at settled
      cases settled
  | stores there =>
      have within := kept.within
      rw [there] at within
      exact ⟨names, out, ⟨kept.sent, within, kept.main, fun _ => rfl, fun _ => rfl⟩,
        fun _ => ⟨trivial, rfl⟩, fun _ => rfl⟩
  | early same looked deregistered =>
      refine ⟨names, out, ⟨kept.sent, kept.within, same out kept.main, kept.stored, fun leaving => ?_⟩,
        fun settled => ⟨settled, rfl⟩, fun _ => rfl⟩
      exact (looked leaving).elim kept.looked id
  | asksOut there =>
      rename_i r ns
      have none_ : out = none := by simpa [there, Main.Sent] using kept.main
      subst none_
      have flag := kept.looked (there ▸ trivial)
      refine ⟨names, some ns, ⟨?_, kept.within, rfl, kept.stored, fun _ => flag⟩,
        fun settled => ⟨settled, rfl⟩, nofun⟩
      simp [kept.sent, requests]

theorem Kept.length_le (kept : Kept c names out s) : names.length ≤ registerAttempts := by
  have within := kept.within
  cases there : s.task with
  | reaching k =>
      rw [there] at within
      exact (Nat.le_of_succ_le within.1).trans within.2
  | asking k ns =>
      rw [there] at within
      exact within.1.trans within.2
  | sleeping k =>
      rw [there] at within
      exact within.1.trans within.2.le
  | confirmed | finished =>
      rw [there] at within
      exact within

/-- With no attempt left, only `serve`'s own request is still to come, and only if it has not. -/
theorem settled_stays {later : List Act} (settled : s.task.Settled) (kept : Kept c names out s)
    (ran : (c.serve configured).runFrom s later = some t) :
    ∃ out', Kept c names out' t ∧ (out.isSome → out' = out) := by
  have stays := Machine.runFrom_always (m := c.serve configured)
    (I := fun t => t.task.Settled ∧ ∃ out', Kept c names out' t ∧ (out.isSome → out' = out))
    (fun s a t here stepped => ?_) ran ⟨settled, out, kept, fun _ => rfl⟩
  · exact stays.2
  · obtain ⟨settled, out', kept, same⟩ := here
    obtain ⟨names'', out'', kept', stays, asked⟩ := kept.step (step_stepped stepped)
    obtain ⟨settled', rfl⟩ := stays settled
    refine ⟨settled', out'', kept', fun is => ?_⟩
    rw [asked ((same is).symm ▸ is), same is]

theorem run_kept {actions : List Act} (ran : (c.serve configured).run actions = some s) :
    ∃ names out, Kept c names out s := by
  refine Machine.run_keeps (I := fun s => ∃ names out, Kept c names out s)
    ⟨[], none, Kept.new c configured⟩ (fun s a t kept stepped => ?_) ran
  obtain ⟨names, out, kept⟩ := kept
  obtain ⟨names', out', kept', -⟩ := kept.step (step_stepped stepped)
  exact ⟨names', out', kept'⟩

/-- The flag is set only by a call's confirmation. -/
theorem run_confirmed {actions : List Act} (ran : (c.serve configured).run actions = some s)
    (flag : s.registered = true) : ∃ a ∈ actions, a.Registers := by
  have gained := Machine.runFrom_gains (m := c.serve configured)
    (P := fun s => s.task = .confirmed ∨ s.registered = true) (C := Act.Registers)
    (fun s a t stepped after => ?_) ran (.inr flag)
  · refine gained.resolve_left ?_
    cases configured <;> simp [Setting.serve, Serve.new]
  · cases step_stepped stepped with
    | asks there => exact .inl (.inr (after.resolve_left nofun))
    | failed there =>
        refine .inl (.inr (after.resolve_left fun task => ?_))
        unfold Serve.retry at task
        dsimp only at task
        split at task <;> cases task
    | confirmed there confirms => exact .inr confirms
    | slept there => exact .inl (.inr (after.resolve_left nofun))
    | stores there => exact .inl (.inl there)
    | early same looked deregistered => exact .inl after
    | asksOut there => exact .inl after

theorem run_deregistered {actions : List Act} (ran : (c.serve configured).run actions = some s)
    (back : s.main = .returned .deregistered) : ∃ a ∈ actions, a.Deregisters := by
  have gained := Machine.runFrom_gains (m := c.serve configured)
    (P := fun s => s.main = .returned .deregistered) (C := Act.Deregisters)
    (fun s a t stepped after => ?_) ran back
  · exact gained.resolve_left nofun
  · cases step_stepped stepped with
    | asks _ | failed _ | confirmed _ _ | slept _ | stores _ => exact .inl after
    | early same looked deregistered => exact .inr (deregistered after)
    | asksOut there => cases after

end Steps

/-- In any order of what the task and `serve` wait for, at most three requests to register are
    sent, all before any to take it back, and none once the registration is confirmed. `serve`
    sends at most one of its own, only when the registry has confirmed the registration, and
    nothing is ever sent after it; it returns as deregistered only when the registry has
    confirmed that too. -/
theorem registration_kept (c : Setting) (configured : Bool) (actions : List Act) (s : Serve)
    (ran : (c.serve configured).run actions = some s) :
    ∃ names out, s.sent = requests c names out ∧ names.length ≤ registerAttempts ∧
      (s.task.Settled → ∀ later t, (c.serve configured).runFrom s later = some t →
        ∃ out', t.sent = requests c names out') ∧
      (out.isSome → (∃ a ∈ actions, a.Registers) ∧
        ∀ later t, (c.serve configured).runFrom s later = some t → t.sent = s.sent) ∧
      (s.main = .returned .deregistered → out.isSome ∧ ∃ a ∈ actions, a.Deregisters) ∧
      (s.main = .returned .notRegistered ∨ s.main = .returned .aborted → out = none) := by
  obtain ⟨names, out, kept⟩ := run_kept ran
  refine ⟨names, out, kept.sent, kept.length_le, fun settled later t further => ?_,
    fun asked => ⟨run_confirmed ran (kept.looked (kept.leaving asked)), fun later t further => ?_⟩,
    fun back => ⟨?_, run_deregistered ran back⟩, fun left => ?_⟩
  · obtain ⟨out', kept', -⟩ := settled_stays settled kept further
    exact ⟨out', kept'.sent⟩
  · have settled : s.task.Settled := (kept.task_finished asked).symm ▸ trivial
    obtain ⟨out', kept', same⟩ := settled_stays settled kept further
    rw [kept'.sent, same asked, kept.sent]
  · simpa [back, Main.Sent] using kept.main
  · obtain back | back := left <;> simpa [back, Main.Sent] using kept.main

/-- A registry that names its hub and confirms what it is asked. -/
def obliging (event : String) : Answer :=
  ⟨.ok (), [.item (.obj [(some "type", str "data"),
    (some "content", .obj [(some "type", str event)])]), .ended]⟩

def obligingHub : Reach :=
  ⟨some (.ok ()), .ok (), [.item (.obj [(some "type", str "data"),
    (some "content", .obj [(some "backend", str "registry-hub")])])]⟩

def wholeLife : List Act :=
  [ .reached obligingHub, .answered (obliging "backend_registered"), .stores, .started, .stops,
    .looks, .reachedOut obligingHub, .answeredOut (obliging "backend_deregistered") ]

def localSetting : Setting :=
  ⟨⟨"ws://127.0.0.1:4444", "hub", "127.0.0.1", 4444, "1.0.0", "0"⟩, 1, fun _ => ""⟩

theorem registration_kept_whole : ∃ s, (localSetting.serve true).run wholeLife = some s ∧
    s.main = .returned .deregistered ∧ ∃ names out,
      s.sent = requests localSetting names out ∧ names.length ≤ registerAttempts ∧ out.isSome := by
  refine ⟨_, rfl, rfl, ?_⟩
  obtain ⟨names, out, sent, few, -, -, back, -⟩ :=
    registration_kept localSetting true wholeLife _ rfl
  exact ⟨names, out, sent, few, (back rfl).1⟩

end PlexusTransport.Registration
