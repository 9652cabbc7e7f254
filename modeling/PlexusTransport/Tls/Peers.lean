import PlexusTransport.Lib.Machine
import PlexusTransport.Websocket.Middleware

/-! # Secure peers

A process-wide table counts the open TLS connections of each peer. `SecureTransport`
asks the table, `client_of` the connection.
-/

namespace PlexusTransport.Tls

open Net Http Proxy Websocket

inductive SocketAddr where
  | v4 (ip : BitVec 32) (port : UInt16)
  | v6 (ip : BitVec 128) (port : UInt16) (flowinfo scopeId : UInt32)
  deriving DecidableEq, Repr

def SocketAddr.ip : SocketAddr → IpAddr
  | .v4 ip _ => .v4 ip
  | .v6 ip _ _ _ => .v6 ip

/-- `is_tls_peer`. -/
def isTlsPeer (securePeers : Tally SocketAddr) (peer : SocketAddr) : Bool :=
  (securePeers peer).isSome

/-- A request's raw context. -/
structure RawRequestContext where
  headers : HeaderMap
  peer : Option SocketAddr

/-- `SecureTransport::check`; an error is what an unauthenticated caller is told. -/
def check (securePeers : Tally SocketAddr) (ctx : RawRequestContext) (proxies : TrustedProxies) :
    Except String Unit :=
  match ctx.peer with
  | none => .error "Secure transport required (no peer address)"
  | some peer =>
      let client := proxies.resolve peer.ip ctx.headers
      if client.secure then .ok ()
      else if !client.viaProxy && isTlsPeer securePeers peer then .ok ()
      else if client.viaProxy then
        match (ctx.headers.get "x-forwarded-proto").bind HeaderValue.toStr with
        | some p =>
            .error s!"Secure transport required, got X-Forwarded-Proto: {String.ofList p}"
        | none => .error "Secure transport required (X-Forwarded-Proto header missing)"
      else .error "Secure transport required (not through a trusted proxy)"

/-- A connection to one of the process's listeners. -/
structure Conn where
  listener : Nat
  peer : SocketAddr
  tls : Bool
  deriving DecidableEq, Repr

/-- The connection as its requests carry it. -/
def Conn.stamp (c : Conn) : Connection := ⟨c.peer.ip, c.tls⟩

/-- `leaving`: the peers whose TLS connection is closed, its place not given back yet. -/
structure Process where
  securePeers : Tally SocketAddr
  opened : List Conn
  leaving : List SocketAddr

/-- `dropped`: a closed TLS connection's `SecurePeer` is, after its stream. -/
inductive ConnEvent where
  | opens (c : Conn)
  | closes (c : Conn)
  | dropped (peer : SocketAddr)

namespace Process

def start : Process := ⟨Tally.empty, [], []⟩

/-- A listener has one connection from a peer at a time. -/
def Free (s : Process) (c : Conn) : Prop :=
  ∀ d ∈ s.opened, d.listener ≠ c.listener ∨ d.peer ≠ c.peer

instance (s : Process) (c : Conn) : Decidable (s.Free c) :=
  inferInstanceAs (Decidable (∀ d ∈ s.opened, _))

def step (s : Process) : ConnEvent → Option Process
  | .opens c =>
      if s.Free c then
        some { s with
          securePeers := if c.tls then s.securePeers.up c.peer else s.securePeers
          opened := c :: s.opened }
      else none
  | .closes c =>
      if c ∈ s.opened then
        some { s with
          opened := s.opened.erase c
          leaving := if c.tls then c.peer :: s.leaving else s.leaving }
      else none
  | .dropped peer =>
      if peer ∈ s.leaving then
        (s.securePeers.down peer).map fun securePeers =>
          { s with securePeers := securePeers, leaving := s.leaving.erase peer }
      else none

def machine : Machine Process ConnEvent := ⟨start, step⟩

/-- The peers whose places are held. -/
def held (s : Process) : List SocketAddr :=
  s.leaving ++ (s.opened.filter (·.tls)).map (·.peer)

variable {s t : Process}

/-- The table counts the places held. -/
theorem step_tallies (tallies : s.securePeers.Tallies s.held) {e : ConnEvent}
    (stepped : s.step e = some t) : t.securePeers.Tallies t.held := by
  cases e with
  | opens c =>
      simp only [step, Option.ite_none_right_eq_some, Option.some.injEq] at stepped
      obtain ⟨-, rfl⟩ := stepped
      cases tls : c.tls with
      | false => simpa [held, tls] using tallies
      | true =>
          refine (tallies.up c.peer).perm ?_
          simp only [held, List.filter_cons, tls, if_true, List.map_cons]
          exact List.perm_middle.symm
  | closes c =>
      simp only [step, Option.ite_none_right_eq_some, Option.some.injEq] at stepped
      obtain ⟨mem, rfl⟩ := stepped
      have same : s.opened.Perm (c :: s.opened.erase c) := List.perm_cons_erase mem
      have places := ((same.filter (·.tls)).map (·.peer)).append_left s.leaving
      refine tallies.perm (places.trans ?_)
      cases tls : c.tls with
      | false => simp [held, tls]
      | true =>
          simp only [held, List.filter_cons, tls, if_true, List.map_cons]
          exact List.perm_middle
  | dropped peer =>
      simp only [step, Option.ite_none_right_eq_some, Option.map_eq_some_iff] at stepped
      obtain ⟨mem, securePeers, down, rfl⟩ := stepped
      have same : s.held.Perm (peer ::
          (s.leaving.erase peer ++ (s.opened.filter (·.tls)).map (·.peer))) :=
        (List.perm_cons_erase mem).append_right _
      obtain ⟨m, down', left⟩ := (tallies.perm same).down
      cases down.symm.trans down'
      exact left

theorem run_tallies {events : List ConnEvent} (ran : machine.run events = some s) :
    s.securePeers.Tallies s.held :=
  Machine.run_keeps (I := fun s => s.securePeers.Tallies s.held) Tally.tallies_nil
    (fun _ _ _ tallies stepped => step_tallies tallies stepped) ran

theorem mem_held (s : Process) (peer : SocketAddr) :
    peer ∈ s.held ↔ peer ∈ s.leaving ∨ ∃ d ∈ s.opened, d.tls = true ∧ d.peer = peer := by
  simp [held, and_assoc]

theorem isTlsPeer_iff (tallies : s.securePeers.Tallies s.held) (peer : SocketAddr) :
    isTlsPeer s.securePeers peer = true ↔ peer ∈ s.held := by
  rw [isTlsPeer, tallies peer, ← List.count_pos_iff]
  split
  · rename_i none
    simp [none]
  · rename_i some
    simp [Nat.pos_iff_ne_zero, some]

/-- A place is always there to give back. -/
theorem dropped_steps (tallies : s.securePeers.Tallies s.held) {peer : SocketAddr}
    (leaving : peer ∈ s.leaving) : ∃ t, s.step (.dropped peer) = some t := by
  have same : s.held.Perm (peer ::
      (s.leaving.erase peer ++ (s.opened.filter (·.tls)).map (·.peer))) :=
    (List.perm_cons_erase leaving).append_right _
  obtain ⟨m, down, -⟩ := (tallies.perm same).down
  exact ⟨_, by rw [step, if_pos leaving, down]; rfl⟩

end Process

theorem check_ok (securePeers : Tally SocketAddr) (h : HeaderMap) (peer : SocketAddr)
    (proxies : TrustedProxies) :
    check securePeers ⟨h, some peer⟩ proxies = .ok () ↔
      (proxies.resolve peer.ip h).secure = true ∨
        (proxies.resolve peer.ip h).viaProxy = false ∧ isTlsPeer securePeers peer = true := by
  simp only [check]
  cases (proxies.resolve peer.ip h).secure <;> cases (proxies.resolve peer.ip h).viaProxy <;>
    cases isTlsPeer securePeers peer <;> simp
  all_goals split <;> simp

theorem clientOf_secure (proxies : TrustedProxies) (c : Conn) (h : HeaderMap) :
    (clientOf proxies c.stamp h).secure = true ↔
      (proxies.resolve c.peer.ip h).secure = true ∨
        (proxies.resolve c.peer.ip h).viaProxy = false ∧ c.tls = true := by
  unfold clientOf Conn.stamp
  dsimp only
  split
  · rename_i both
    simp_all
  · rename_i neither
    simp only [Bool.and_eq_true, Bool.not_eq_true', not_and, Bool.not_eq_false] at neither
    constructor
    · exact .inl
    · rintro (secure | ⟨via, tls⟩)
      · exact secure
      · rw [neither tls] at via
        cases via

/-- The two agree on a request just if it is secure by its proxies or through one, or on TLS,
    or no other connection holds a place for its peer. -/
theorem check_client (events : List ConnEvent) (s : Process)
    (ran : Process.machine.run events = some s) (c : Conn) (live : c ∈ s.opened)
    (proxies : TrustedProxies) (h : HeaderMap) :
    (check s.securePeers ⟨h, some c.peer⟩ proxies = .ok () ↔
        (clientOf proxies c.stamp h).secure = true) ↔
      (proxies.resolve c.peer.ip h).secure = true ∨
        (proxies.resolve c.peer.ip h).viaProxy = true ∨ c.tls = true ∨
          c.peer ∉ s.leaving ∧ ∀ d ∈ s.opened, d.tls = true → d.peer ≠ c.peer := by
  have held := Process.mem_held s c.peer
  have own : c.tls = true → c.peer ∈ s.held := fun tls => held.mpr (.inr ⟨c, live, tls, rfl⟩)
  have others : c.peer ∉ s.held ↔
      c.peer ∉ s.leaving ∧ ∀ d ∈ s.opened, d.tls = true → d.peer ≠ c.peer := by
    simp [held]
  rw [check_ok, clientOf_secure, Process.isTlsPeer_iff (Process.run_tallies ran), ← others]
  by_cases secure : (proxies.resolve c.peer.ip h).secure = true
  · simp [secure]
  · cases via : (proxies.resolve c.peer.ip h).viaProxy with
    | true => simp [secure]
    | false =>
        cases tls : c.tls with
        | true => simp [secure, own tls]
        | false => simp [secure]

def direct : TrustedProxies := ⟨[], true⟩

def visitor : SocketAddr := .v4 0xcb007105 5000

def neighbour : SocketAddr := .v4 0xcb007105 5001

theorem check_client_neighbours :
    (check (Tally.empty.up neighbour) ⟨⟨[]⟩, some visitor⟩ direct = .ok () ↔
      (clientOf direct (Conn.stamp ⟨0, visitor, false⟩) ⟨[]⟩).secure = true) :=
  (check_client [.opens ⟨0, neighbour, true⟩, .opens ⟨0, visitor, false⟩]
    ⟨Tally.empty.up neighbour, [⟨0, visitor, false⟩, ⟨0, neighbour, true⟩], []⟩ rfl
    ⟨0, visitor, false⟩ (.head _) direct ⟨[]⟩).mpr (by decide)

/-- A TLS connection, then a plain one from the same address and port to another listener. -/
def twice : List ConnEvent := [.opens ⟨0, visitor, true⟩, .opens ⟨1, visitor, false⟩]

theorem check_plain_secure :
    ¬ ∀ (events : List ConnEvent) (s : Process), Process.machine.run events = some s →
      ∀ c ∈ s.opened, ∀ (proxies : TrustedProxies) (h : HeaderMap),
        (check s.securePeers ⟨h, some c.peer⟩ proxies = .ok () ↔
          (clientOf proxies c.stamp h).secure = true) := by
  intro agree
  have both := agree twice
    ⟨Tally.empty.up visitor, [⟨1, visitor, false⟩, ⟨0, visitor, true⟩], []⟩ rfl ⟨1, visitor, false⟩
    (.head _) direct ⟨[]⟩
  have plain : (clientOf direct (Conn.stamp ⟨1, visitor, false⟩) ⟨[]⟩).secure = false := by decide
  rw [plain] at both
  exact absurd (both.mp rfl) Bool.false_ne_true

end PlexusTransport.Tls
