import PlexusTransport.Lib.Machine
import PlexusTransport.Websocket.Decision

/-! # A sign-in's end closes its socket

A signed-in upgrade is watched: `watch_liveness` asks, as often as a clock
ticks, whether the sign-in still stands, and closes the connection once it does
not. The watch is started by the checks, before `Upgrade::upgrade` may refuse.
-/

namespace PlexusTransport.Websocket

open Http

def plain (status : Nat) (body : String) : Response :=
  ⟨status, [("content-type", "text/plain")], body⟩

def upgradeRequired : Response :=
  let r := plain 426 "Upgrade Required: this port speaks JSON-RPC over WebSocket only"
  { r with headers := r.headers ++
      [("upgrade", "websocket"), ("connection", "upgrade"), ("sec-websocket-version", "13")] }

/-- `Upgrade::upgrade`: the refusal, or the `101` and the socket. `free`: a place among the
    server's sockets is. -/
def upgrade (deriveAcceptKey : List UInt8 → String) (free : Bool) (req : Request) :
    Except Response Response :=
  if !isUpgradeRequest req then .error upgradeRequired
  else if (req.headers.get "sec-websocket-version").map (·.bytes) ≠ some (ascii "13") then
    .error upgradeRequired
  else
    match req.headers.get "sec-websocket-key" with
    | none => .error (plain 400 "Bad Request: no Sec-WebSocket-Key")
    | some key =>
        let accept := deriveAcceptKey key.bytes
        if req.conn.isNone then .error (plain 500 "Internal Server Error: no connection")
        else if !free then
          let r := plain 429 "Too many connections. Please try again later."
          .error { r with headers := r.headers ++ [("retry-after", "5")] }
        else
          .ok ⟨101, [("connection", "upgrade"), ("upgrade", "websocket"),
            ("sec-websocket-accept", accept)], ""⟩

/-- `watch_liveness`'s task, until it returns. -/
structure Watch where
  ctx : AuthContext
  done : Bool
  deriving DecidableEq, Repr

/-- Who closed a connection: the watch of a sign-in, or anything else, its end included. -/
inductive Closer where
  | watch (ctx : AuthContext)
  | other
  deriving DecidableEq, Repr

/-- One accepted connection: who upgraded it, once one did, the watches started on it, the
    sign-ins that have ended, who closed it, and whether it is gone. -/
structure Line where
  upgraded : Option (Option AuthContext)
  watches : List Watch
  ended : List AuthContext
  closedBy : Option Closer
  gone : Bool
  deriving DecidableEq, Repr

/-- What happens to a connection: a request, with the quotas' counts as it finds them and
    whether a place is free, a sign-in's end, a watch's tick, a close or an end of another
    cause, and the last of its holders letting it go. -/
inductive LineEvent where
  | request (r : Request) (counts : Open) (free : Bool)
  | ends (ctx : AuthContext)
  | tick (i : Nat)
  | close
  | drop

section Line

variable (m : CombinedAuthMiddleware) (deriveAcceptKey : List UInt8 → String) (conn : Connection)

/-- The watch a request starts, and whom it upgrades as, if it is upgraded. -/
def serve (r : Request) (counts : Open) (free : Bool) : List Watch × Option (Option AuthContext) :=
  let r := { r with conn := some conn }
  match (m.call counts r).2 with
  | .respond _ => ([], none)
  | .pass p =>
      let watch := if p.watched then (p.ctx.map fun ctx => ⟨ctx, false⟩).toList else []
      match upgrade deriveAcceptKey free r with
      | .error _ => (watch, none)
      | .ok _ => (watch, some p.ctx)

namespace Line

def fresh : Line := ⟨none, [], [], none, false⟩

/-- The watch returns. -/
def stop (s : Line) (i : Nat) (w : Watch) : Line :=
  { s with watches := s.watches.set i { w with done := true } }

/-- A tick of a watch still going; closed or gone, it is over. -/
def tick (s : Line) (i : Nat) (w : Watch) : Line :=
  if s.gone || s.closedBy.isSome then s.stop i w
  else if s.ended.contains w.ctx then { s.stop i w with closedBy := some (.watch w.ctx) }
  else s

def step (s : Line) : LineEvent → Option Line
  | .request r counts free =>
      if s.upgraded.isSome || s.gone then none
      else
        let (watch, who) := serve m deriveAcceptKey conn r counts free
        some { s with watches := s.watches ++ watch, upgraded := who }
  | .ends ctx => some { s with ended := ctx :: s.ended }
  | .tick i =>
      match s.watches[i]? with
      | some w => if w.done then none else some (s.tick i w)
      | none => none
  | .close => some { s with closedBy := s.closedBy.or (some .other) }
  | .drop => if s.upgraded.isSome && s.closedBy.isNone then none else some { s with gone := true }

def machine : Machine Line LineEvent := ⟨fresh, step m deriveAcceptKey conn⟩

/-- No watch but its own sign-in's can close a socket upgraded as `who`, or its sign-in is
    over. -/
def Own (s : Line) (who : Option AuthContext) : Prop :=
  (∃ ctx, who = some ctx ∧ ctx ∈ s.ended) ∨
    match s.closedBy with
    | none => ∀ w ∈ s.watches, w.done = false → who = some w.ctx
    | some (.watch ctx) => who = some ctx
    | some .other => True

/-- A request is upgraded on a connection whose watches are its own sign-in's. -/
def Alone (s : Line) : LineEvent → Prop
  | .request r counts free =>
      ∀ who, (serve m deriveAcceptKey conn r counts free).2 = some who → s.Own who
  | _ => True

/-- The socket is closed by a watch only once the sign-in that upgraded it has ended. -/
def Safe (s : Line) : Prop :=
  ∀ ctx, s.closedBy = some (.watch ctx) → ∀ who, s.upgraded = some who →
    ∃ own, who = some own ∧ own ∈ s.ended

/-- A socket whose sign-in has ended is closed, or by the next tick of a watch will be. -/
def Prompt (s : Line) : Prop :=
  ∀ own, s.upgraded = some (some own) → own ∈ s.ended →
    s.closedBy.isSome = true ∨
      ∃ i t, step m deriveAcceptKey conn s (.tick i) = some t ∧ t.closedBy.isSome = true

end Line

end Line

section Watched

variable {m : CombinedAuthMiddleware}

theorem passOn_watched {counts : Open} {r : Request} {client : Option Proxy.ForwardedClient}
    {ctx : Option AuthContext} {p : Passed} (passed : (m.passOn counts r client ctx).2 = .pass p) :
    p.watched = (p.ctx.isSome && isUpgradeRequest r && r.conn.isSome) := by
  simp only [CombinedAuthMiddleware.passOn] at passed
  split at passed
  · cases passed
  · cases passed
    rfl

theorem call_watched {counts : Open} {r : Request} {p : Passed}
    (passed : (m.call counts r).2 = .pass p) :
    p.watched = (p.ctx.isSome && isUpgradeRequest r && r.conn.isSome) := by
  simp only [CombinedAuthMiddleware.call] at passed
  split at passed
  · cases passed
  · split at passed
    · cases passed
    · split at passed
      · cases passed
      · split at passed
        · cases passed
        · split at passed
          · simp only [CombinedAuthMiddleware.session] at passed
            split at passed
            · exact passOn_watched passed
            · split at passed
              · cases passed
              · split at passed
                · exact passOn_watched passed
                · split at passed
                  · cases passed
                  · exact passOn_watched passed
          · exact passOn_watched passed

theorem upgrade_ok {deriveAcceptKey : List UInt8 → String} {free : Bool} {r : Request}
    {resp : Response} (done : upgrade deriveAcceptKey free r = .ok resp) :
    isUpgradeRequest r = true := by
  unfold upgrade at done
  split at done
  · cases done
  · rename_i asked
    simpa using asked

/-- A signed-in request that is upgraded starts the watch of its own sign-in. -/
theorem serve_upgraded {deriveAcceptKey : List UInt8 → String} {conn : Connection} {r : Request}
    {counts : Open} {free : Bool} {who : Option AuthContext}
    (upgraded : (serve m deriveAcceptKey conn r counts free).2 = some who) :
    (serve m deriveAcceptKey conn r counts free).1 = (who.map fun ctx => ⟨ctx, false⟩).toList := by
  unfold serve at upgraded ⊢
  cases answer : (m.call counts { r with conn := some conn }).2 with
  | respond resp => simp [answer] at upgraded
  | pass p =>
      simp only [answer] at upgraded ⊢
      cases done : upgrade deriveAcceptKey free { r with conn := some conn } with
      | error resp => simp [done] at upgraded
      | ok resp =>
          simp only [done, Option.some.injEq] at upgraded ⊢
          rw [call_watched answer, upgrade_ok done, upgraded]
          cases who <;> rfl

end Watched

namespace Line

/-- What holds of a connection whose every upgrade found its watches its own. -/
structure Watched (s : Line) : Prop where
  signed : ∀ ctx, s.closedBy = some (.watch ctx) → ctx ∈ s.ended
  own : ∀ who, s.upgraded = some who → s.Own who
  watch : ∀ ctx, s.upgraded = some (some ctx) → s.closedBy.isSome = true ∨ ⟨ctx, false⟩ ∈ s.watches
  held : s.gone = true → s.upgraded = none ∨ s.closedBy.isSome = true

theorem watched_fresh : Watched fresh := ⟨nofun, nofun, nofun, nofun⟩

variable {s : Line} {who : Option AuthContext}

theorem Own.watches {watches : List Watch} (own : s.Own who)
    (running : ∀ w ∈ watches, w.done = false → w ∈ s.watches ∨ who = some w.ctx) :
    ({ s with watches := watches } : Line).Own who := by
  rcases own with ended | own
  · exact .inl ended
  · refine .inr ?_
    simp only
    cases closed : s.closedBy with
    | none =>
        rw [closed] at own
        intro w mem going
        rcases running w mem going with old | mine
        · exact own w old going
        · exact mine
    | some closer =>
        rw [closed] at own
        cases closer <;> exact own

/-- A tick of a watch that goes on changes nothing; one that ends stops it, and it closes an
    open connection if its sign-in has ended. -/
theorem tick_cases (s : Line) (i : Nat) (w : Watch) :
    s.tick i w = s ∧ s.closedBy = none ∧ s.gone = false ∧ w.ctx ∉ s.ended ∨
    s.tick i w = s.stop i w ∧ (s.gone = true ∨ s.closedBy.isSome = true) ∨
    s.tick i w = { s.stop i w with closedBy := some (.watch w.ctx) } ∧ s.closedBy = none ∧
      w.ctx ∈ s.ended := by
  unfold tick
  cases closed : s.closedBy with
  | some closer => exact .inr (.inl ⟨by simp, .inr rfl⟩)
  | none =>
      cases gone : s.gone with
      | true => exact .inr (.inl ⟨by simp, .inl rfl⟩)
      | false =>
          by_cases ended : w.ctx ∈ s.ended
          · exact .inr (.inr ⟨by simp [ended], rfl, ended⟩)
          · exact .inl ⟨by simp [ended], rfl, rfl, ended⟩

theorem Watched.tick (watched : Watched s) {i : Nat} {w : Watch} (here : s.watches[i]? = some w)
    (going : w.done = false) : Watched (s.tick i w) := by
  have mem : w ∈ s.watches := List.mem_of_getElem? here
  have fewer : ∀ v ∈ s.watches.set i { w with done := true }, v.done = false → v ∈ s.watches := by
    intro v set run
    rcases List.mem_or_eq_of_mem_set set with old | rfl
    · exact old
    · cases run
  rcases tick_cases s i w with ⟨same, -⟩ | ⟨stopped, dead⟩ | ⟨closes, opened, ended⟩
  · rwa [same]
  · rw [stopped]
    refine ⟨watched.signed, fun who upgraded => ?_, fun ctx upgraded => ?_, watched.held⟩
    · exact (watched.own who upgraded).watches fun v set run => .inl (fewer v set run)
    · rcases dead with gone | closed
      · rcases watched.held gone with never | closed
        · cases never.symm.trans upgraded
        · exact .inl closed
      · exact .inl closed
  · rw [closes]
    refine ⟨?_, fun who upgraded => ?_, fun _ _ => .inl rfl, fun _ => .inr rfl⟩
    · intro ctx byWatch
      cases byWatch
      exact ended
    · rcases watched.own who upgraded with past | own
      · exact .inl past
      · rw [opened] at own
        exact .inr (own w mem going)

theorem Watched.ends (watched : Watched s) (ctx : AuthContext) :
    Watched { s with ended := ctx :: s.ended } := by
  refine ⟨fun c closed => .tail _ (watched.signed c closed), fun who upgraded => ?_,
    watched.watch, watched.held⟩
  rcases watched.own who upgraded with ⟨c, mine, ended⟩ | own
  · exact .inl ⟨c, mine, .tail _ ended⟩
  · exact .inr own

theorem Watched.close (watched : Watched s) :
    Watched { s with closedBy := s.closedBy.or (some .other) } := by
  cases closed : s.closedBy with
  | none => exact ⟨nofun, fun who _ => .inr trivial, fun _ _ => .inl rfl, fun _ => .inr rfl⟩
  | some closer =>
      have same : { s with closedBy := (some closer).or (some .other) } = s := by
        rw [Option.some_or, ← closed]
      rwa [same]

theorem Watched.drop (watched : Watched s)
    (free : ¬ (s.upgraded.isSome && s.closedBy.isNone) = true) :
    Watched { s with gone := true } := by
  refine ⟨watched.signed, watched.own, watched.watch, fun _ => ?_⟩
  cases upgraded : s.upgraded with
  | none => exact .inl rfl
  | some who =>
      cases closed : s.closedBy with
      | none => simp [upgraded, closed] at free
      | some closer => exact .inr rfl

section Run

variable {m : CombinedAuthMiddleware} {deriveAcceptKey : List UInt8 → String} {conn : Connection}

theorem Watched.request (watched : Watched s) {r : Request} {counts : Open} {free : Bool}
    (alone : Alone m deriveAcceptKey conn s (.request r counts free)) (fresh : s.gone = false) :
    Watched { s with
      watches := s.watches ++ (serve m deriveAcceptKey conn r counts free).1
      upgraded := (serve m deriveAcceptKey conn r counts free).2 } := by
  refine ⟨watched.signed, fun who upgraded => ?_, fun ctx upgraded => ?_, ?_⟩
  · refine (alone who upgraded).watches fun w mem _ => ?_
    rw [serve_upgraded upgraded] at mem
    rcases List.mem_append.mp mem with old | new
    · exact .inl old
    · cases who with
      | none => cases new
      | some ctx =>
          cases List.mem_singleton.mp new
          exact .inr rfl
  · have started := serve_upgraded upgraded
    simp only at upgraded ⊢
    rw [started]
    exact .inr (List.mem_append_right _ (.head _))
  · intro gone
    cases fresh.symm.trans gone

theorem Watched.step (watched : Watched s) {e : LineEvent} {t : Line}
    (alone : Alone m deriveAcceptKey conn s e)
    (stepped : step m deriveAcceptKey conn s e = some t) : Watched t := by
  cases e with
  | request r counts free =>
      obtain ⟨opened, same⟩ := Option.ite_none_left_eq_some.mp stepped
      cases same
      refine watched.request alone ?_
      cases gone : s.gone with
      | false => rfl
      | true => simp [gone] at opened
  | ends ctx =>
      cases stepped
      exact watched.ends ctx
  | tick i =>
      simp only [Line.step] at stepped
      cases here : s.watches[i]? with
      | none => simp [here] at stepped
      | some w =>
          rw [here] at stepped
          obtain ⟨going, same⟩ := Option.ite_none_left_eq_some.mp stepped
          cases same
          exact watched.tick here (by simpa using going)
  | close =>
      cases stepped
      exact watched.close
  | drop =>
      obtain ⟨free, same⟩ := Option.ite_none_left_eq_some.mp stepped
      cases same
      exact watched.drop free

theorem Watched.safe (watched : Watched s) : Safe s := by
  intro ctx closed who upgraded
  rcases watched.own who upgraded with past | own
  · exact past
  · rw [closed] at own
    exact ⟨ctx, own, watched.signed ctx closed⟩

theorem Watched.prompt (watched : Watched s) : Prompt m deriveAcceptKey conn s := by
  intro own upgraded ended
  rcases watched.watch own upgraded with closed | going
  · exact .inl closed
  · obtain ⟨i, here⟩ := List.mem_iff_getElem?.mp going
    refine .inr ⟨i, s.tick i ⟨own, false⟩, by simp [Line.step, here], ?_⟩
    rcases tick_cases s i ⟨own, false⟩ with ⟨-, -, -, stands⟩ | ⟨stopped, dead⟩ | ⟨closes, -⟩
    · exact absurd ended stands
    · rw [stopped]
      rcases dead with gone | closed
      · rcases watched.held gone with never | closed
        · cases never.symm.trans upgraded
        · exact closed
      · exact closed
    · rw [closes]
      rfl

/-- A sign-in ends, and its watch ticks. -/
theorem ends_tick {i : Nat} {w : Watch} (found : s.watches[i]? = some w) (going : w.done = false)
    (unclosed : s.closedBy = none) (here : s.gone = false) :
    (machine m deriveAcceptKey conn).runFrom s [.ends w.ctx, .tick i] =
      some { s with
        watches := s.watches.set i { w with done := true }
        ended := w.ctx :: s.ended
        closedBy := some (.watch w.ctx) } := by
  simp [Machine.runFrom, machine, step, found, going, tick, unclosed, here, stop]

/-- Against `Alone`, the upgraded socket is closed once another's sign-in ends. -/
theorem unsafe_later {r : Request} {counts : Open} {free : Bool} {t : Line}
    (stepped : step m deriveAcceptKey conn s (.request r counts free) = some t)
    (other : ¬ Alone m deriveAcceptKey conn s (.request r counts free)) :
    ∃ later u, (machine m deriveAcceptKey conn).runFrom t later = some u ∧ ¬ Safe u := by
  simp only [Alone, not_forall] at other
  obtain ⟨who, upgraded, other⟩ := other
  obtain ⟨opened, same⟩ := Option.ite_none_left_eq_some.mp stepped
  obtain ⟨stands, other⟩ := not_or.mp other
  have present : t.upgraded = some who ∧ t.ended = s.ended ∧ t.closedBy = s.closedBy ∧
      t.gone = s.gone ∧ ∀ w ∈ s.watches, w ∈ t.watches := by
    cases same
    exact ⟨upgraded, rfl, rfl, rfl, fun w mem => List.mem_append_left _ mem⟩
  obtain ⟨here, ended, closedBy, gone, kept⟩ := present
  cases closed : s.closedBy with
  | some closer =>
      rw [closed] at other closedBy
      cases closer with
      | other => exact absurd trivial other
      | watch ctx =>
          refine ⟨[], t, rfl, fun safe => ?_⟩
          obtain ⟨own, mine, past⟩ := safe ctx closedBy who here
          exact stands ⟨own, mine, ended ▸ past⟩
  | none =>
      rw [closed] at other closedBy
      simp only [not_forall] at other
      obtain ⟨w, mem, going, different⟩ := other
      obtain ⟨i, found⟩ := List.mem_iff_getElem?.mp (kept w mem)
      have unclosed : t.gone = false := by
        rw [gone]
        cases gone : s.gone with
        | false => rfl
        | true => simp [gone] at opened
      refine ⟨[.ends w.ctx, .tick i], _, ends_tick found going closedBy unclosed, fun safe => ?_⟩
      obtain ⟨own, mine, past⟩ := safe w.ctx rfl who here
      rcases List.mem_cons.mp past with rfl | past
      · exact different mine
      · exact stands ⟨own, mine, ended ▸ past⟩

end Run

/-- In a run whose every upgrade finds the watches on its connection its own, a watch closes the
    socket for its own sign-in's end alone, and promptly. An upgrade that finds another's is
    closed once that other's sign-in ends. -/
theorem watch_closes_own (m : CombinedAuthMiddleware) (deriveAcceptKey : List UInt8 → String)
    (conn : Connection) :
    (∀ as t, (machine m deriveAcceptKey conn).Allows (Alone m deriveAcceptKey conn) fresh as →
      (machine m deriveAcceptKey conn).run as = some t →
        Safe t ∧ Prompt m deriveAcceptKey conn t) ∧
      ∀ s r counts free t, step m deriveAcceptKey conn s (.request r counts free) = some t →
        ¬ Alone m deriveAcceptKey conn s (.request r counts free) →
          ∃ later u, (machine m deriveAcceptKey conn).runFrom t later = some u ∧ ¬ Safe u := by
  constructor
  · intro as t alone ran
    have watched : Watched t :=
      Machine.runFrom_keeps (fun s e t here alone stepped => here.step alone stepped) alone ran
        watched_fresh
    exact ⟨watched.safe, watched.prompt⟩
  · intro s r counts free t stepped other
    exact unsafe_later stepped other

def loopback : Connection := ⟨.v4 0x7f000001, false⟩

/-- An upgrade of a version of the protocol, with these lines more. -/
def upgrading (version : String) (valid : ∀ b ∈ ascii version, isValid b = true)
    (lines : List (String × HeaderValue)) : Request where
  method := "GET"
  path := "/".toList
  authority := none
  headers := ⟨[("connection", ⟨ascii "Upgrade", by decide +kernel⟩),
    ("upgrade", ⟨ascii "websocket", by decide +kernel⟩),
    ("sec-websocket-version", ⟨ascii version, valid⟩),
    ("sec-websocket-key", ⟨ascii "dGhlIHNhbXBsZSBub25jZQ==", by decide +kernel⟩)] ++ lines⟩
  conn := none

/-- Alice's upgrade, then her sign-in's end and a tick of its watch. -/
def ownEnd : List LineEvent :=
  [.request (upgrading "13" (by decide +kernel)
      [("cookie", ⟨ascii "access_token=good", valid_good⟩)]) Open.empty true,
    .ends ⟨"alice", "s1", none⟩, .tick 0]

/-- Alice's upgrade is refused; the same connection is then upgraded as nobody's. -/
def othersEnd : List LineEvent :=
  [.request (upgrading "8" (by decide +kernel)
      [("cookie", ⟨ascii "access_token=good", valid_good⟩)]) Open.empty true,
    .request (upgrading "13" (by decide +kernel) []) Open.empty true,
    .ends ⟨"alice", "s1", none⟩, .tick 0]

theorem watch_closes_own_end :
    ∃ t, (machine anonymousView (fun _ => "") loopback).run ownEnd = some t ∧
      t.closedBy = some (.watch ⟨"alice", "s1", none⟩) ∧ Safe t := by
  have ran : (machine anonymousView (fun _ => "") loopback).run ownEnd =
      some ⟨some (some ⟨"alice", "s1", none⟩), [⟨⟨"alice", "s1", none⟩, true⟩],
        [⟨"alice", "s1", none⟩], some (.watch ⟨"alice", "s1", none⟩), false⟩ := by
    decide +kernel
  have alone : (machine anonymousView (fun _ => "") loopback).Allows
      (Alone anonymousView (fun _ => "") loopback) fresh ownEnd := by
    refine ⟨fun who _ => .inr fun w mem => ?_, fun _ _ => ⟨trivial, fun _ _ => ⟨trivial, ?_⟩⟩⟩
    · cases mem
    · exact fun _ _ => trivial
  obtain ⟨safe, -⟩ := (watch_closes_own anonymousView (fun _ => "") loopback).1 ownEnd _ alone ran
  exact ⟨_, ran, rfl, safe⟩

theorem watch_closes_others_end :
    ¬ ∀ (m : CombinedAuthMiddleware) (deriveAcceptKey : List UInt8 → String) (conn : Connection),
      ∀ as t, (machine m deriveAcceptKey conn).run as = some t →
        Safe t ∧ Prompt m deriveAcceptKey conn t := by
  intro always
  have ran : (machine anonymousView (fun _ => "") loopback).run othersEnd =
      some ⟨some none, [⟨⟨"alice", "s1", none⟩, true⟩], [⟨"alice", "s1", none⟩],
        some (.watch ⟨"alice", "s1", none⟩), false⟩ := by
    decide +kernel
  obtain ⟨own, nobody, -⟩ := (always anonymousView (fun _ => "") loopback othersEnd _ ran).1 _ rfl
    none rfl
  cases nobody

end Line

end PlexusTransport.Websocket
