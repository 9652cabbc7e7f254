import PlexusTransport.Lib.Tasks
import PlexusTransport.Proxy
import PlexusTransport.Websocket.Quotas

/-! # Sockets not yet upgraded

The places of the sockets accepted from each address and not yet upgraded. A connection
holds its place, every handle on the connection keeps it alive, and the place is given
back at the upgrade or with the last handle.
-/

namespace PlexusTransport.Websocket

open Net Proxy

/-- How many sockets of each address are not yet upgraded. -/
abbrev Pending := Tally IpAddr

structure PendingPlace where
  ip : IpAddr
  deriving DecidableEq, Repr

/-- `entry(ip).or_default()` first: an address that was not there is, even if it is refused. -/
def Pending.take (m : Pending) (ip : IpAddr) (max : UInt32) : Pending × Option PendingPlace :=
  let n := Tally.get m ip
  let m : Pending := Function.update m ip (some n)
  if max.toNat ≤ n then (m, none) else (Function.update m ip (some (n + 1)), some ⟨ip⟩)

/-- `Drop for PendingPlace`; `none`: the count would underflow. -/
def PendingPlace.drop (place : PendingPlace) (m : Pending) : Option Pending := Tally.down m place.ip

/-- What the accept loop is given. -/
structure Bounds where
  maxPendingPerIp : Option UInt32
  quotas : ConnectionQuotas
  proxies : TrustedProxies

namespace Bounds

def perIp (b : Bounds) : UInt32 := b.maxPendingPerIp.getD b.quotas.maxPerIp

def perProxy (b : Bounds) : UInt32 := max b.quotas.maxConnections b.perIp

def bound (b : Bounds) (ip : IpAddr) : UInt32 := if b.proxies.contains ip then b.perProxy else b.perIp

end Bounds

/-- A connection, how many handles there are on it, and how many times a place of its was
    given back. -/
structure Accepted where
  peer : IpAddr
  pending : Option PendingPlace
  handles : Nat
  upgraded : Bool
  released : Nat

/-- The accept loop's counts, and every connection it ever took. -/
structure Accepting where
  pending : Pending
  conns : List Accepted

inductive AcceptEvent where
  | accept (ip : IpAddr)
  | clone (i : Nat)
  -- A refused handshake drops the one handle there is.
  | drop (i : Nat)
  | upgraded (i : Nat)

namespace Accepting

def new : Accepting := ⟨Tally.empty, []⟩

/-- The connection is left as `c`, its place dropped. -/
def giveBack (s : Accepting) (i : Nat) (c : Accepted) : Option Accepting :=
  match c.pending with
  | some place =>
      (place.drop s.pending).map fun m =>
        ⟨m, s.conns.set i { c with pending := none, released := c.released + 1 }⟩
  | none => some { s with conns := s.conns.set i c }

/-- One event; a handle that is gone does nothing. -/
def step (b : Bounds) (s : Accepting) : AcceptEvent → Option Accepting
  | .accept ip =>
      match s.pending.take ip (b.bound ip) with
      | (m, some place) => some ⟨m, s.conns ++ [⟨ip, some place, 1, false, 0⟩]⟩
      | (m, none) => some ⟨m, s.conns⟩
  | .clone i =>
      match s.conns[i]? with
      | some ⟨peer, pending, handles + 1, upgraded, released⟩ =>
          some { s with conns := s.conns.set i ⟨peer, pending, handles + 2, upgraded, released⟩ }
      | _ => none
  | .drop i =>
      match s.conns[i]? with
      | some ⟨peer, pending, 1, upgraded, released⟩ =>
          s.giveBack i ⟨peer, pending, 0, upgraded, released⟩
      | some ⟨peer, pending, handles + 2, upgraded, released⟩ =>
          some { s with conns := s.conns.set i ⟨peer, pending, handles + 1, upgraded, released⟩ }
      | _ => none
  | .upgraded i =>
      match s.conns[i]? with
      | some ⟨peer, pending, handles + 1, _, released⟩ =>
          s.giveBack i ⟨peer, pending, handles + 1, true, released⟩
      | _ => none

def machine (b : Bounds) : Machine Accepting AcceptEvent := ⟨new, step b⟩

end Accepting

/-- The addresses whose places these connections hold. -/
def places (conns : List Accepted) : List IpAddr := conns.filterMap fun c => c.pending.map (·.ip)

/-- Upgraded, or ended. -/
def Accepted.past (c : Accepted) : Bool := c.upgraded || c.handles == 0

/-- It holds its place until its upgrade or its end, and gave it back once then. -/
structure Accepted.Once (c : Accepted) : Prop where
  pending : c.pending = if c.past then none else some ⟨c.peer⟩
  released : c.released = c.past.toNat

/-- The counts are of the places held. -/
structure Counted (b : Bounds) (s : Accepting) : Prop where
  count : ∀ ip, Tally.get s.pending ip = (places s.conns).count ip
  bounded : ∀ ip, Tally.get s.pending ip ≤ (b.bound ip).toNat
  entries : ∀ ip, (s.pending ip).isSome = true → ip ∈ places s.conns
  once : Tasks.Each (fun _ => Accepted.Once) s.conns
  drops : ∀ c ∈ s.conns, ∀ place ∈ c.pending, (place.drop s.pending).isSome = true

/-- A take that is refused leaves the counts as they were. -/
def Pending.Spared (m : Pending) (ip : IpAddr) (max : UInt32) : Prop :=
  (m.take ip max).2 = none → (m.take ip max).1 = m

/-- The places are exact, and a take would be refused without a trace, whoever it is for. -/
structure PlacesExact (b : Bounds) (s : Accepting) : Prop extends Counted b s where
  refused : ∀ ip, s.pending.Spared ip (b.bound ip)

/-- The places are exact, and the takes of the run itself were refused without a trace. -/
structure TakesExact (b : Bounds) (events : List AcceptEvent) (s : Accepting) : Prop
    extends Counted b s where
  refused : ∀ before ip rest t, events = before ++ .accept ip :: rest →
    (Accepting.machine b).run before = some t → t.pending.Spared ip (b.bound ip)

section Places

variable {m : Pending} {max : UInt32}

/-- A place is refused and nothing changes, or taken and counted; `room`: there are to be
    places at all. -/
theorem take_cases (ip : IpAddr) (room : 0 < max.toNat) :
    (m.take ip max = (m, none) ∧ max.toNat ≤ Tally.get m ip) ∨
      (m.take ip max = (Tally.up m ip, some ⟨ip⟩) ∧ Tally.get m ip < max.toNat) := by
  unfold Pending.take
  by_cases full : max.toNat ≤ Tally.get m ip
  · left
    refine ⟨?_, full⟩
    have entry : m ip = some (Tally.get m ip) := by
      cases entry : m ip with
      | none =>
          have none : Tally.get m ip = 0 := by rw [Tally.get, entry, Option.getD_none]
          omega
      | some n => rw [Tally.get, entry, Option.getD_some]
    simp only [if_pos full, ← entry, Function.update_eq_self]
  · right
    refine ⟨?_, by omega⟩
    simp only [if_neg full, Function.update_idem]
    rfl

theorem take_spared (ip : IpAddr) (room : 0 < max.toNat) : m.Spared ip max := by
  intro refused
  obtain ⟨same, -⟩ | ⟨taken, -⟩ := take_cases (m := m) ip room
  · rw [same]
  · simp [taken] at refused

/-- With no place to give, a place that is refused is left behind as an entry. -/
theorem take_zero (ip : IpAddr) (nothing : max.toNat = 0) :
    m.take ip max = (Function.update m ip (some (Tally.get m ip)), none) := by
  simp [Pending.take, nothing]

theorem spared_entry {ip : IpAddr} (spared : m.Spared ip max) (nothing : max.toNat = 0) :
    (m ip).isSome = true := by
  have same := spared (by rw [take_zero ip nothing])
  rw [take_zero ip nothing] at same
  rw [← same]
  simp

/-- Every entry that is there after a take was there before it, or is what it is for. -/
theorem take_entry {ip ip' : IpAddr} (there : ((m.take ip' max).1 ip).isSome = true) :
    (m ip).isSome = true ∨ ip' = ip := by
  by_cases same : ip = ip'
  · exact .inr same.symm
  · left
    simp only [Pending.take] at there
    split at there <;> simpa [same] using there

theorem drop_entry {ip : IpAddr} {place : PendingPlace} {m' : Pending}
    (dropped : place.drop m = some m') (there : (m' ip).isSome = true) : (m ip).isSome = true := by
  unfold PendingPlace.drop Tally.down at dropped
  split at dropped
  · cases dropped
    exact there
  · cases dropped
  · rename_i n here
    cases dropped
    by_cases same : ip = place.ip
    · rw [same, here]
      rfl
    · simpa [same] using there

theorem places_set {conns : List Accepted} {i : Nat} {c c' : Accepted} (here : conns[i]? = some c)
    (same : c'.pending = c.pending) : places (conns.set i c') = places conns := by
  induction conns generalizing i with
  | nil => rfl
  | cons d conns ih =>
      cases i with
      | zero =>
          cases here
          rw [List.set_cons_zero, places, places, List.filterMap_cons, List.filterMap_cons, same]
      | succ i =>
          have later := ih here
          simp only [places, List.set_cons_succ, List.filterMap_cons] at later ⊢
          rw [later]

theorem places_give {conns : List Accepted} {i : Nat} {c : Accepted} {place : PendingPlace}
    (here : conns[i]? = some c) (held : c.pending = some place) {c' : Accepted}
    (given : c'.pending = none) :
    (places conns).Perm (place.ip :: places (conns.set i c')) := by
  induction conns generalizing i with
  | nil => cases here
  | cons d conns ih =>
      cases i with
      | zero =>
          cases here
          simp [places, held, given]
      | succ i =>
          have later := ih here
          simp only [places, List.set_cons_succ, List.filterMap_cons] at later ⊢
          cases d.pending with
          | none => exact later
          | some other => exact (later.cons _).trans (.swap _ _ _)

end Places

/-- What a run keeps while every address may hold a place. -/
structure Held (b : Bounds) (s : Accepting) : Prop where
  tallies : Tally.Tallies s.pending (places s.conns)
  bounded : ∀ ip, (places s.conns).count ip ≤ (b.bound ip).toNat
  once : Tasks.Each (fun _ => Accepted.Once) s.conns

namespace Accepting

variable {b : Bounds} {s s' : Accepting}

theorem giveBack_held {i : Nat} {c c' : Accepted} (held : Held b s) (here : s.conns[i]? = some c)
    (given : s.giveBack i c' = some s') (pending : c'.pending = c.pending)
    (released : c'.released = c.released) (past : c'.past = true) : Held b s' := by
  obtain ⟨pendingOnce, releasedOnce⟩ := held.once i c here
  cases holds : c'.pending with
  | none =>
      simp only [giveBack, holds] at given
      cases given
      have before : c.past = true := by
        cases was : c.past with
        | true => rfl
        | false => simp [was, ← pending, holds] at pendingOnce
      have same := places_set here pending
      refine ⟨same ▸ held.tallies, same ▸ held.bounded, held.once.set ⟨?_, ?_⟩⟩
      · rw [past, holds]
        rfl
      · rw [past, released, releasedOnce, before]
  | some place =>
      have before : c.past = false := by
        cases was : c.past with
        | false => rfl
        | true => simp [was, ← pending, holds] at pendingOnce
      have perm : (places s.conns).Perm (place.ip :: places (s.conns.set i
          { c' with pending := none, released := c'.released + 1 })) :=
        places_give here (pending ▸ holds) rfl
      obtain ⟨m, down, tallies⟩ := Tally.Tallies.down (held.tallies.perm perm)
      have dropped : place.drop s.pending = some m := down
      simp only [giveBack, holds, dropped, Option.map_some, Option.some.injEq] at given
      subst given
      refine ⟨tallies, fun ip => ?_, held.once.set ⟨?_, ?_⟩⟩
      · have bounded := held.bounded ip
        rw [perm.count_eq, List.count_cons] at bounded
        exact (Nat.le_add_right _ _).trans bounded
      · change none = if c'.past then none else _
        rw [past]
        rfl
      · change c'.released + 1 = c'.past.toNat
        rw [past, released, releasedOnce, before]
        rfl

theorem set_held {i : Nat} {c c' : Accepted} (held : Held b s) (here : s.conns[i]? = some c)
    (pending : c'.pending = c.pending) (peer : c'.peer = c.peer)
    (released : c'.released = c.released) (past : c'.past = c.past) :
    Held b { s with conns := s.conns.set i c' } := by
  have same := places_set here pending
  have once := held.once i c here
  refine ⟨same ▸ held.tallies, same ▸ held.bounded, held.once.set ⟨?_, ?_⟩⟩
  · rw [pending, past, peer, once.pending]
  · rw [released, past, once.released]

/-- Where a socket is accepted from, a place may be held. -/
def Roomy (b : Bounds) (e : AcceptEvent) : Prop := ∀ ip, e = .accept ip → 0 < (b.bound ip).toNat

theorem step_held {e : AcceptEvent} (room : Roomy b e) (held : Held b s)
    (stepped : s.step b e = some s') : Held b s' := by
  cases e with
  | accept ip =>
      obtain ⟨refused, full⟩ | ⟨taken, below⟩ := take_cases (m := s.pending) ip (room ip rfl)
      · simp only [step, refused] at stepped
        cases stepped
        exact held
      · simp only [step, taken] at stepped
        cases stepped
        have more : places (s.conns ++ [⟨ip, some ⟨ip⟩, 1, false, 0⟩]) =
            places s.conns ++ [ip] := by simp [places]
        have perm : (ip :: places s.conns).Perm (places s.conns ++ [ip]) :=
          (List.perm_append_singleton ip _).symm
        refine ⟨?_, fun other => ?_, held.once.append ⟨rfl, rfl⟩⟩
        · rw [more]
          exact (held.tallies.up ip).perm perm
        · rw [more, ← perm.count_eq]
          rw [held.tallies.get] at below
          exact count_within held.bounded below other
  | clone i =>
      simp only [step] at stepped
      split at stepped
      · rename_i here
        cases stepped
        exact set_held held here rfl rfl rfl rfl
      · cases stepped
  | drop i =>
      simp only [step] at stepped
      split at stepped
      · rename_i here
        exact giveBack_held held here stepped rfl rfl (by simp [Accepted.past])
      · rename_i here
        cases stepped
        exact set_held held here rfl rfl rfl (by simp [Accepted.past])
      · cases stepped
  | upgraded i =>
      simp only [step] at stepped
      split at stepped
      · rename_i here
        exact giveBack_held held here stepped rfl rfl rfl
      · cases stepped

theorem run_held {events : List AcceptEvent} (room : ∀ e ∈ events, Roomy b e)
    (ran : (machine b).run events = some s) : Held b s := by
  have start : Held b new := ⟨Tally.tallies_nil, fun ip => Nat.zero_le _, Tasks.each_nil⟩
  exact Machine.runFrom_keeps (I := Held b) (fun _ _ _ held room => step_held room held)
    (Machine.allows_of_mem fun e mem _ => room e mem) ran start

theorem held_counted (held : Held b s) : Counted b s := by
  have counts := held.tallies.get
  refine ⟨counts, fun ip => (counts ip).trans_le (held.bounded ip), fun ip entry => ?_, held.once,
    fun c mem place holds => ?_⟩
  · rw [held.tallies ip] at entry
    by_contra absent
    simp [List.count_eq_zero.mpr absent] at entry
  · obtain ⟨i, here⟩ := List.mem_iff_getElem?.mp mem
    have perm : (places s.conns).Perm
        (place.ip :: places (s.conns.set i { c with pending := none })) :=
      places_give here holds rfl
    obtain ⟨m, down, -⟩ := Tally.Tallies.down (held.tallies.perm perm)
    have dropped : place.drop s.pending = some m := down
    rw [dropped]
    rfl

theorem giveBack_entry {i : Nat} {c : Accepted} {ip : IpAddr} (given : s.giveBack i c = some s')
    (there : (s'.pending ip).isSome = true) : (s.pending ip).isSome = true := by
  unfold giveBack at given
  split at given
  · obtain ⟨m, dropped, same⟩ := Option.map_eq_some_iff.mp given
    cases same
    exact drop_entry dropped there
  · cases given
    exact there

/-- Only a socket's accept puts an entry in. -/
theorem step_entry {e : AcceptEvent} {ip : IpAddr} (stepped : s.step b e = some s')
    (there : (s'.pending ip).isSome = true) : (s.pending ip).isSome = true ∨ e = .accept ip := by
  cases e with
  | accept ip' =>
      have took : ((s.pending.take ip' (b.bound ip')).1 ip).isSome = true := by
        simp only [step] at stepped
        split at stepped <;>
        · rename_i taken
          cases stepped
          rw [taken]
          exact there
      obtain before | same := take_entry took
      · exact .inl before
      · exact .inr (same ▸ rfl)
  | clone i =>
      simp only [step] at stepped
      split at stepped
      · cases stepped
        exact .inl there
      · cases stepped
  | drop i =>
      simp only [step] at stepped
      split at stepped
      · exact .inl (giveBack_entry stepped there)
      · cases stepped
        exact .inl there
      · cases stepped
  | upgraded i =>
      simp only [step] at stepped
      split at stepped
      · exact .inl (giveBack_entry stepped there)
      · cases stepped

theorem run_entry {events : List AcceptEvent} {ip : IpAddr} (ran : (machine b).run events = some s)
    (there : (s.pending ip).isSome = true) : .accept ip ∈ events := by
  have gained := Machine.runFrom_gains (P := fun s => (s.pending ip).isSome = true)
    (C := fun e => e = .accept ip) (fun _ _ _ => step_entry) ran there
  obtain start | ⟨e, mem, rfl⟩ := gained
  · cases start
  · exact mem

end Accepting

/-- In every state of every run the places not yet upgraded are exact if and only if every
    address may hold one; and in every run, with its own takes, if and only if every address
    that it accepts a socket from may. -/
theorem pending_exact (b : Bounds) (events : List AcceptEvent) (s : Accepting)
    (ran : (Accepting.machine b).run events = some s) :
    (PlacesExact b s ↔ ∀ ip, 0 < (b.bound ip).toNat) ∧
      (TakesExact b events s ↔ ∀ ip, .accept ip ∈ events → 0 < (b.bound ip).toNat) := by
  constructor
  · constructor
    · intro places ip
      by_contra nothing
      have nothing : (b.bound ip).toNat = 0 := by omega
      have held := List.count_pos_iff.mpr
        (places.entries ip (spared_entry (places.refused ip) nothing))
      have bounded := places.bounded ip
      rw [places.count] at bounded
      omega
    · intro room
      have held := Accepting.run_held (fun _ _ ip _ => room ip) ran
      exact ⟨Accepting.held_counted held, fun ip => take_spared ip (room ip)⟩
  · constructor
    · intro takes ip mem
      by_contra nothing
      have nothing : (b.bound ip).toNat = 0 := by omega
      -- The address's first take: nothing has put its entry in before.
      obtain ⟨before, rest, split, first⟩ := List.eq_append_cons_of_mem mem
      subst split
      have reached := ran
      rw [Machine.run, Machine.runFrom_append] at reached
      obtain ⟨t, front, -⟩ := Option.bind_eq_some_iff.mp reached
      have spared := takes.refused before ip rest t rfl front
      exact first (Accepting.run_entry front (spared_entry spared nothing))
    · intro room
      have each : ∀ e ∈ events, Accepting.Roomy b e := fun e mem ip same => room ip (same ▸ mem)
      refine ⟨Accepting.held_counted (Accepting.run_held each ran), ?_⟩
      intro before ip rest t split _
      exact take_spared ip (room ip (by simp [split]))

section Zero

def direct (maxPendingPerIp : Option UInt32) : Bounds :=
  ⟨maxPendingPerIp, ⟨4, 2, 2, 2, 1⟩, ⟨[], true⟩⟩

/-- One socket is upgraded and one's handshake is refused; a third finds no room. -/
def sockets : List AcceptEvent :=
  [.accept (.v4 7), .accept (.v4 7), .accept (.v4 7), .clone 0, .upgraded 0, .drop 1, .drop 0]

theorem pending_exact_sockets : ∃ s, (Accepting.machine (direct none)).run sockets = some s ∧
    PlacesExact (direct none) s ∧ TakesExact (direct none) sockets s := by
  have room : ∀ ip, 0 < ((direct none).bound ip).toNat := by
    intro ip
    simp [direct, Bounds.bound, Bounds.perIp, TrustedProxies.contains]
  have places := pending_exact (direct none) sockets _ rfl
  exact ⟨_, rfl, places.1.mpr room, places.2.mpr fun ip _ => room ip⟩

/-- An address that may hold no place is left in the map by the socket it is refused. -/
theorem pending_left : ¬∀ (b : Bounds) (events : List AcceptEvent) (s : Accepting),
    (Accepting.machine b).run events = some s → PlacesExact b s := by
  intro exact'
  have ran : (Accepting.machine (direct (some 0))).run [.accept (.v4 7)] =
      some ⟨Function.update Tally.empty (.v4 7) (some 0), []⟩ := rfl
  have none := (exact' _ _ _ ran).entries (.v4 7) (by simp)
  cases none

end Zero

end PlexusTransport.Websocket
