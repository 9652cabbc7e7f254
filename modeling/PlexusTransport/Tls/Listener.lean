import PlexusTransport.Lib.Mpsc.Drains
import PlexusTransport.Tls.Peers

/-! # A TLS listener for axum

Every accepted connection shakes hands in a task of its own. One whose handshake is done is
sent to axum through a bounded channel; the peer of each is among the process's secure ones
for as long as its stream lives.
-/

namespace PlexusTransport.Tls

open Net Tasks

/-! ## What is said of a refusal -/

/-- `said`: the addresses whose refusal has been. `warned`: the warnings, in order. -/
structure Refusals where
  said : List IpAddr
  warned : List IpAddr

namespace Refusals

/-- A set that grows no further. -/
def mostSaid : Nat := 4096

/-- What it is before an address is looked for in it. -/
def cleared (r : Refusals) : List IpAddr := if mostSaid ≤ r.said.length then [] else r.said

def refuse (r : Refusals) (ip : IpAddr) : Refusals :=
  if ip ∈ r.cleared then { r with said := r.cleared }
  else ⟨r.cleared ++ [ip], r.warned ++ [ip]⟩

def start : Refusals := ⟨[], []⟩

/-- The warnings come in rounds: in each every address once, and all but the last full. -/
structure Rounds (r : Refusals) : Prop where
  rounds : ∃ full : List (List IpAddr), r.warned = full.flatten ++ r.said ∧
    ∀ round ∈ full, round.Nodup ∧ round.length = mostSaid
  once : r.said.Nodup
  most : r.said.length ≤ mostSaid

theorem cleared_rounds {r : Refusals} (rounds : Rounds r) :
    Rounds { r with said := r.cleared } ∧ r.cleared.length < mostSaid := by
  obtain ⟨⟨full, warned, each⟩, once, most⟩ := rounds
  unfold cleared
  split
  · rename_i filled
    refine ⟨⟨⟨full ++ [r.said], by simp [warned], fun round mem => ?_⟩, .nil, Nat.zero_le _⟩,
      by decide⟩
    rcases List.mem_append.mp mem with before | now
    · exact each round before
    · cases List.mem_singleton.mp now
      exact ⟨once, Nat.le_antisymm most filled⟩
  · rename_i room
    exact ⟨⟨⟨full, warned, each⟩, once, most⟩, Nat.lt_of_not_le room⟩

theorem refuse_rounds {r : Refusals} (rounds : Rounds r) (ip : IpAddr) : Rounds (r.refuse ip) := by
  obtain ⟨cleared, room⟩ := cleared_rounds rounds
  unfold refuse
  split
  · exact cleared
  · rename_i new
    obtain ⟨⟨full, warned, each⟩, once, -⟩ := cleared
    refine ⟨⟨full, ?_, each⟩, ?_, by simpa using room⟩
    · exact (congrArg (· ++ [ip]) warned).trans (List.append_assoc ..)
    · exact List.nodup_append.mpr ⟨once, List.nodup_singleton ip, by
        rintro a mem _ (_ | ⟨_, ⟨⟩⟩) rfl
        exact new mem⟩

theorem refuse_warned {r : Refusals} (rounds : Rounds r) (ip other : IpAddr) :
    other ∈ (r.refuse ip).warned ↔ other ∈ r.warned ∨ other = ip := by
  unfold refuse
  split
  · rename_i mem
    obtain ⟨⟨full, warned, -⟩, -, -⟩ := (cleared_rounds rounds).1
    constructor
    · exact .inl
    · rintro (before | rfl)
      · exact before
      · exact warned ▸ List.mem_append.mpr (.inr mem)
  · simp

theorem count_flatten {full : List (List IpAddr)} (each : ∀ round ∈ full, round.Nodup)
    (ip : IpAddr) : full.flatten.count ip ≤ full.length := by
  rw [List.count_flatten]
  calc (full.map (List.count ip)).sum ≤ (full.map fun _ => 1).sum :=
        List.sum_le_sum fun round mem => (List.nodup_iff_count_le_one.mp (each round mem)) ip
    _ = full.length := by simp

theorem start_rounds : Rounds start := ⟨⟨[], rfl, nofun⟩, .nil, Nat.zero_le _⟩

theorem run_rounds (ips : List IpAddr) :
    Rounds (ips.foldl refuse start) ∧ ∀ ip, ip ∈ (ips.foldl refuse start).warned ↔ ip ∈ ips := by
  induction ips using List.reverseRecOn with
  | nil => exact ⟨start_rounds, fun _ => Iff.rfl⟩
  | append_singleton ips last ih =>
      obtain ⟨rounds, warned⟩ := ih
      rw [List.foldl_concat]
      refine ⟨refuse_rounds rounds last, fun ip => ?_⟩
      rw [refuse_warned rounds, warned]
      simp

theorem Rounds.count {r : Refusals} (rounds : Rounds r) (ip : IpAddr) :
    r.warned.count ip * mostSaid ≤ r.warned.length + mostSaid := by
  obtain ⟨⟨full, warned, each⟩, once, -⟩ := rounds
  have early := count_flatten (fun round mem => (each round mem).1) ip
  have late := List.nodup_iff_count_le_one.mp once ip
  have length : full.flatten.length = full.length * mostSaid := by
    rw [List.length_flatten, List.map_congr_left fun round mem => (each round mem).2,
      List.map_const', List.sum_replicate, smul_eq_mul]
  calc r.warned.count ip * mostSaid ≤ (full.length + 1) * mostSaid := by
        rw [warned, List.count_append]
        exact Nat.mul_le_mul_right _ (by omega)
    _ ≤ r.warned.length + mostSaid := by
        rw [warned, List.length_append, length, Nat.add_mul]
        omega

/-- However often whoever is refused: the addresses warned of are the refused ones, each at most
    once more than the warnings fill the set, which is bounded. -/
theorem refusals_warned (ips : List IpAddr) :
    (ips.foldl refuse start).said.length ≤ mostSaid ∧
      (∀ ip, ip ∈ (ips.foldl refuse start).warned ↔ ip ∈ ips) ∧
        ∀ ip, (ips.foldl refuse start).warned.count ip * mostSaid ≤
          (ips.foldl refuse start).warned.length + mostSaid :=
  ⟨(run_rounds ips).1.most, (run_rounds ips).2, (run_rounds ips).1.count⟩

end Refusals

/-! ## The listener -/

/-- `HANDSHAKE_TIMEOUT`. -/
def handshakeTimeout : Nat := 10000

/-- The channel's bound. -/
def readyBound : Nat := 128

def acceptPause : Nat := 50

inductive Accepting where
  | waiting
  | pausing (due : Nat)
  | gone
  deriving DecidableEq, Repr

/-- `passing`: the handshake is done, and its stream sent to axum; `held`: the peer's place is. -/
inductive Shake where
  | shaking (due : Nat)
  | refused
  | passing (send : Nat) (held : Bool)
  deriving DecidableEq, Repr

structure Shaken where
  peer : SocketAddr
  shake : Shake
  deriving DecidableEq, Repr

def Shaken.send? (c : Shaken) : Option Nat :=
  match c.shake with
  | .passing j _ => some j
  | _ => none

/-- `ready`: the streams on their way to axum, each by its connection. `others`: the peers of the
    process's other TLS connections. -/
structure Listener where
  now : Nat
  accepting : Accepting
  conns : List Shaken
  ready : Mpsc Nat
  refusals : Refusals
  securePeers : Tally SocketAddr
  others : List SocketAddr

/-- `timesOut`: a handshake is out of time. `passes`: a task goes on with its send. `serves`:
    axum accepts a stream. `drops`: the listener is. `gives`: a stream is dropped, by its task,
    with the channel or by axum. -/
inductive ListenAct where
  | accept (peer : SocketAddr)
  | acceptFails
  | acceptResumes
  | acceptBreaks
  | handshook (k : Nat) (ok : Bool)
  | timesOut (k : Nat)
  | passes (j : Nat)
  | serves
  | drops
  | gives (k : Nat)
  | otherOpens (peer : SocketAddr)
  | otherCloses (peer : SocketAddr)
  | tick (time : Nat)
  deriving DecidableEq, Repr

namespace Listener

/-- Over a process's other connections. -/
def new (securePeers : Tally SocketAddr) (others : List SocketAddr) : Listener :=
  ⟨0, .waiting, [], .channel readyBound, .start, securePeers, others⟩

def accept (s : Listener) (peer : SocketAddr) : Listener :=
  { s with conns := s.conns ++ [⟨peer, .shaking (s.now + handshakeTimeout)⟩] }

/-- Its handshake is done: its peer is a secure one, and its stream is sent. -/
def shakes (s : Listener) (k : Nat) (peer : SocketAddr) : Listener :=
  { s with
    conns := s.conns.set k ⟨peer, .passing s.ready.sends.length true⟩
    ready := s.ready.send k
    securePeers := s.securePeers.up peer }

def refuses (s : Listener) (k : Nat) (peer : SocketAddr) : Listener :=
  { s with
    conns := s.conns.set k ⟨peer, .refused⟩
    refusals := s.refusals.refuse peer.ip }

/-- A stream may be dropped where it is: no longer on its way. -/
def arrived (st : Mpsc.Stage) : Bool :=
  match st with
  | .received | .lost | .dropped => true
  | _ => false

def gives (s : Listener) (k : Nat) : Option Listener :=
  match s.conns[k]? with
  | some ⟨peer, .passing j true⟩ =>
      if (s.ready.stage j).any arrived then
        (s.securePeers.down peer).map fun securePeers =>
          { s with conns := s.conns.set k ⟨peer, .passing j false⟩, securePeers := securePeers }
      else none
  | _ => none

def step (s : Listener) : ListenAct → Option Listener
  | .accept peer => if s.accepting = .waiting then some (s.accept peer) else none
  | .acceptFails =>
      if s.accepting = .waiting then some { s with accepting := .pausing (s.now + acceptPause) }
      else none
  | .acceptResumes =>
      match s.accepting with
      | .pausing due => if due ≤ s.now then some { s with accepting := .waiting } else none
      | _ => none
  | .acceptBreaks =>
      if s.accepting = .waiting ∧ s.ready.closed = true then some { s with accepting := .gone }
      else none
  | .handshook k ok =>
      match s.conns[k]? with
      | some ⟨peer, .shaking _⟩ => some (if ok then s.shakes k peer else s.refuses k peer)
      | _ => none
  | .timesOut k =>
      match s.conns[k]? with
      | some ⟨peer, .shaking due⟩ => if due ≤ s.now then some (s.refuses k peer) else none
      | _ => none
  | .passes j => (s.ready.step (.complete j)).map fun c => { s with ready := c }
  | .serves => (s.ready.step .recv).map fun c => { s with ready := c }
  | .drops => some { s with ready := s.ready.close.drop }
  | .gives k => s.gives k
  | .otherOpens peer =>
      some { s with securePeers := s.securePeers.up peer, others := peer :: s.others }
  | .otherCloses peer =>
      if peer ∈ s.others then
        (s.securePeers.down peer).map fun securePeers =>
          { s with securePeers := securePeers, others := s.others.erase peer }
      else none
  | .tick time => if s.now ≤ time then some { s with now := time } else none

def machine (securePeers : Tally SocketAddr) (others : List SocketAddr) :
    Machine Listener ListenAct := ⟨new securePeers others, step⟩

/-- The connections axum was given, in order. -/
def served (s : Listener) : List Nat := s.ready.taken.filterMap s.ready.value

/-- The peer's place, while it is held. -/
def place? (c : Shaken) : Option SocketAddr :=
  match c.shake with
  | .passing _ true => some c.peer
  | _ => none

def held (s : Listener) : List SocketAddr := s.others ++ s.conns.filterMap place?

/-- No handshake has longer than its time. -/
def Timely (now : Nat) (conns : List Shaken) : Prop :=
  ∀ c ∈ conns, ∀ due, c.shake = .shaking due → due ≤ now + handshakeTimeout

/-- The send of a connection's stream. -/
def send? (s : Listener) (k : Nat) : Option Nat := s.conns[k]?.bind Shaken.send?

/-- What every step keeps: each send is a connection's own, whose handshake is done. -/
structure Keeps (s : Listener) : Prop where
  fits : s.ready.Fits
  bound : s.ready.capacity = readyBound
  sends : ∀ j k, s.ready.value j = some k ↔ s.send? k = some j
  secure : s.securePeers.Tallies s.held
  rounds : s.refusals.Rounds
  warned : ∀ ip, ip ∈ s.refusals.warned ↔ ∃ c ∈ s.conns, c.shake = .refused ∧ c.peer.ip = ip
  left : s.accepting = .gone → s.ready.closed = true
  timely : Timely s.now s.conns

section Steps

variable {s t : Listener}

theorem Timely.set {now : Nat} {conns : List Shaken} (timely : Timely now conns) {k : Nat}
    {c : Shaken} (settled : ∀ due, c.shake ≠ .shaking due) : Timely now (conns.set k c) := by
  intro d mem due shaking
  rcases List.mem_or_eq_of_mem_set mem with before | rfl
  · exact timely d before due shaking
  · exact absurd shaking (settled due)

theorem Timely.later {now time : Nat} {conns : List Shaken} (timely : Timely now conns)
    (later : now ≤ time) : Timely time conns :=
  fun c mem due shaking => (timely c mem due shaking).trans (Nat.add_le_add_right later _)

theorem set_send {k : Nat} {c : Shaken} (here : s.conns[k]? = some c) (c' : Shaken) (i : Nat) :
    (s.conns.set k c')[i]?.bind Shaken.send? = if i = k then c'.send? else s.send? i := by
  obtain ⟨within, -⟩ := List.getElem?_eq_some_iff.mp here
  rw [List.getElem?_set]
  by_cases same : i = k
  · subst same
    simp [within]
  · simp [same, Ne.symm same, send?]

theorem set_send_same {k : Nat} {c : Shaken} (here : s.conns[k]? = some c) (c' : Shaken)
    (same : c'.send? = c.send?) (i : Nat) :
    (s.conns.set k c')[i]?.bind Shaken.send? = s.send? i := by
  rw [set_send here]
  split
  · rename_i at_
    rw [at_, same, send?, here]
    rfl
  · rfl

/-- The refused stay so, and none comes to be. -/
theorem set_refused {k : Nat} {c c' : Shaken} (here : s.conns[k]? = some c)
    (unrefused : c.shake ≠ .refused) (ip : IpAddr) :
    (∃ d ∈ s.conns.set k c', d.shake = .refused ∧ d.peer.ip = ip) ↔
      (∃ d ∈ s.conns, d.shake = .refused ∧ d.peer.ip = ip) ∨
        c'.shake = .refused ∧ c'.peer.ip = ip := by
  obtain ⟨within, at_⟩ := List.getElem?_eq_some_iff.mp here
  constructor
  · rintro ⟨d, mem, is_⟩
    rcases List.mem_or_eq_of_mem_set mem with before | rfl
    · exact .inl ⟨d, before, is_⟩
    · exact .inr is_
  · rintro (⟨d, mem, is_⟩ | is_)
    · obtain ⟨i, there, same⟩ := List.mem_iff_getElem.mp mem
      refine ⟨d, List.mem_iff_getElem.mpr ⟨i, by simpa using there, ?_⟩, is_⟩
      have other : k ≠ i := by
        rintro rfl
        rw [at_] at same
        exact unrefused (same ▸ is_.1)
      rw [List.getElem_set_ne other, same]
    · exact ⟨c', List.mem_set within c', is_⟩

theorem new_keeps {securePeers : Tally SocketAddr} {others : List SocketAddr}
    (tallies : securePeers.Tallies others) : Keeps (new securePeers others) where
  fits := Mpsc.start_fits readyBound
  bound := rfl
  sends := by simp [new, Mpsc.channel, Mpsc.value, send?]
  secure := by simpa [new, held] using tallies
  rounds := Refusals.start_rounds
  warned := by simp [new, Refusals.start]
  left := nofun
  timely := by simp [Timely, new]

theorem ready_keeps (keeps : Keeps s) {op : Mpsc.Op Nat} (old : op.asks = false) {c : Mpsc Nat}
    (stepped : s.ready.step op = some c) : Keeps { s with ready := c } := by
  have shared := Mpsc.step_shared stepped
  refine ⟨Mpsc.step_fits keeps.fits stepped, ?_, fun j k => ?_, keeps.secure, keeps.rounds,
    keeps.warned, fun gone => ?_, keeps.timely⟩
  · exact (congrArg (·.1) shared).trans keeps.bound
  · rw [Mpsc.step_value_eq stepped old]
    exact keeps.sends j k
  · have closed : c.closed = (s.ready.closed || op.closes) := congrArg (·.2.1) shared
    rw [closed, keeps.left gone]
    rfl

theorem accept_keeps (keeps : Keeps s) (peer : SocketAddr) : Keeps (s.accept peer) := by
  refine ⟨keeps.fits, keeps.bound, fun j k => ?_, ?_, keeps.rounds, fun ip => ?_, keeps.left,
    fun c mem due shaking => ?_⟩
  · refine (keeps.sends j k).trans ?_
    unfold send? accept
    dsimp only
    rw [List.getElem?_append]
    split
    · rfl
    · rename_i past
      have none : s.conns[k]? = none := List.getElem?_eq_none_iff.mpr (Nat.le_of_not_lt past)
      rw [none]
      cases later : k - s.conns.length <;> simp [Shaken.send?]
  · have same : (s.accept peer).held = s.held := by
      simp [held, accept, List.filterMap_append, place?]
    rw [same]
    exact keeps.secure
  · rw [show (s.accept peer).refusals = s.refusals from rfl, keeps.warned]
    simp [accept]
  · rcases List.mem_append.mp mem with before | new
    · exact keeps.timely c before due shaking
    · cases List.mem_singleton.mp new
      cases shaking
      exact Nat.le_refl _

theorem shakes_keeps (keeps : Keeps s) {k due : Nat} {peer : SocketAddr}
    (here : s.conns[k]? = some ⟨peer, .shaking due⟩) : Keeps (s.shakes k peer) := by
  have stepped : s.ready.step (.send k) = some (s.ready.send k) := rfl
  have shared := Mpsc.step_shared stepped
  have new : s.ready.value s.ready.sends.length = none := by simp [Mpsc.value]
  have unsent : s.send? k = none := by simp [send?, here, Shaken.send?]
  refine ⟨Mpsc.step_fits keeps.fits stepped, (congrArg (·.1) shared).trans keeps.bound,
    fun j i => ?_, ?_, keeps.rounds, fun ip => ?_, fun gone => ?_, keeps.timely.set (by simp)⟩
  · have value : (s.ready.send k).value j =
        if j = s.ready.sends.length then some k else s.ready.value j := Mpsc.ask_value ..
    unfold send? shakes
    dsimp only
    rw [value, set_send here]
    have before := keeps.sends j i
    by_cases last : j = s.ready.sends.length
    · rw [last, new] at before
      rw [if_pos last]
      split
      · rename_i same
        simp [same, last, Shaken.send?]
      · rename_i other
        rw [last, ← before]
        simp [Ne.symm other]
    · rw [if_neg last, before]
      split
      · rename_i same
        rw [same, unsent]
        simp [Shaken.send?, Ne.symm last]
      · rfl
  · refine (keeps.secure.up peer).perm ?_
    have moved := filterMap_set_perm (f := place?) here ⟨peer, .passing s.ready.sends.length true⟩
    simp only [place?, Option.toList_none, List.append_nil, Option.toList_some] at moved
    have front := (moved.trans (List.perm_append_singleton peer _)).symm
    exact List.perm_middle.symm.trans (front.append_left s.others)
  · unfold shakes
    dsimp only
    rw [keeps.warned, set_refused here (by simp)]
    simp
  · have closed : (s.ready.send k).closed = (s.ready.closed || false) := congrArg (·.2.1) shared
    exact closed.trans (by rw [keeps.left gone]; rfl)

theorem refuses_keeps (keeps : Keeps s) {k due : Nat} {peer : SocketAddr}
    (here : s.conns[k]? = some ⟨peer, .shaking due⟩) : Keeps (s.refuses k peer) := by
  refine ⟨keeps.fits, keeps.bound, fun j i => ?_, ?_, Refusals.refuse_rounds keeps.rounds _,
    fun ip => ?_, keeps.left, keeps.timely.set (by simp)⟩
  · have same : (s.refuses k peer).send? i = s.send? i :=
      set_send_same here ⟨peer, .refused⟩ rfl i
    rw [same]
    exact keeps.sends j i
  · have moved := filterMap_set_perm (f := place?) here ⟨peer, .refused⟩
    simp only [place?, Option.toList_none, List.append_nil] at moved
    exact keeps.secure.perm (moved.symm.append_left s.others)
  · unfold refuses
    dsimp only
    rw [Refusals.refuse_warned keeps.rounds, keeps.warned, set_refused here (by simp)]
    simp [eq_comm]

theorem gives_keeps (keeps : Keeps s) {k : Nat} (gave : s.gives k = some t) : Keeps t := by
  unfold gives at gave
  split at gave
  · rename_i peer j here
    obtain ⟨-, gave⟩ := Option.ite_none_right_eq_some.mp gave
    obtain ⟨securePeers, down, rfl⟩ := Option.map_eq_some_iff.mp gave
    have moved := filterMap_set_perm (f := place?) here ⟨peer, .passing j false⟩
    simp only [place?, Option.toList_none, List.append_nil, Option.toList_some] at moved
    have places : s.held.Perm (peer :: (s.others ++ (s.conns.set k ⟨peer, .passing j false⟩).filterMap
        place?)) :=
      (moved.symm.append_left s.others).trans
        ((List.append_assoc ..).symm ▸ List.perm_append_singleton peer _)
    obtain ⟨m, down', tallies⟩ := (keeps.secure.perm places).down
    cases down.symm.trans down'
    refine ⟨keeps.fits, keeps.bound, fun j' i => ?_, tallies, keeps.rounds, fun ip => ?_, keeps.left,
      keeps.timely.set (by simp)⟩
    · rw [keeps.sends, ← set_send_same here ⟨peer, .passing j false⟩ rfl i]
      rfl
    · rw [keeps.warned, set_refused here (by simp)]
      simp
  · cases gave

theorem others_keeps (keeps : Keeps s) {peer : SocketAddr} (mem : peer ∈ s.others)
    {securePeers : Tally SocketAddr} (down : s.securePeers.down peer = some securePeers) :
    Keeps { s with securePeers := securePeers, others := s.others.erase peer } := by
  have places : s.held.Perm (peer :: (s.others.erase peer ++ s.conns.filterMap place?)) :=
    (List.perm_cons_erase mem).append_right _
  obtain ⟨m, down', tallies⟩ := (keeps.secure.perm places).down
  cases down.symm.trans down'
  exact ⟨keeps.fits, keeps.bound, keeps.sends, tallies, keeps.rounds, keeps.warned, keeps.left,
    keeps.timely⟩

theorem step_keeps {a : ListenAct} (keeps : Keeps s) (stepped : s.step a = some t) : Keeps t := by
  cases a with
  | accept peer =>
      obtain ⟨-, same⟩ := Option.ite_none_right_eq_some.mp stepped
      cases same
      exact accept_keeps keeps peer
  | acceptFails =>
      obtain ⟨-, same⟩ := Option.ite_none_right_eq_some.mp stepped
      cases same
      exact ⟨keeps.fits, keeps.bound, keeps.sends, keeps.secure, keeps.rounds, keeps.warned, nofun,
        keeps.timely⟩
  | acceptResumes =>
      simp only [step] at stepped
      split at stepped
      · obtain ⟨-, same⟩ := Option.ite_none_right_eq_some.mp stepped
        cases same
        exact ⟨keeps.fits, keeps.bound, keeps.sends, keeps.secure, keeps.rounds, keeps.warned, nofun,
          keeps.timely⟩
      · cases stepped
  | acceptBreaks =>
      obtain ⟨⟨-, closed⟩, same⟩ := Option.ite_none_right_eq_some.mp stepped
      cases same
      exact ⟨keeps.fits, keeps.bound, keeps.sends, keeps.secure, keeps.rounds, keeps.warned,
        fun _ => closed, keeps.timely⟩
  | handshook k ok =>
      simp only [step] at stepped
      split at stepped
      · rename_i here
        cases stepped
        cases ok with
        | true => exact shakes_keeps keeps here
        | false => exact refuses_keeps keeps here
      · cases stepped
  | timesOut k =>
      simp only [step] at stepped
      split at stepped
      · rename_i here
        obtain ⟨-, same⟩ := Option.ite_none_right_eq_some.mp stepped
        cases same
        exact refuses_keeps keeps here
      · cases stepped
  | passes j | serves =>
      obtain ⟨c, went, rfl⟩ := Option.map_eq_some_iff.mp stepped
      exact ready_keeps keeps rfl went
  | drops =>
      cases stepped
      have closes : s.ready.step .close = some s.ready.close := rfl
      have dropped : s.ready.close.step .drop = some s.ready.close.drop := rfl
      exact ready_keeps (ready_keeps keeps rfl closes) rfl dropped
  | gives k => exact gives_keeps keeps stepped
  | otherOpens peer =>
      cases stepped
      exact ⟨keeps.fits, keeps.bound, keeps.sends, keeps.secure.up peer, keeps.rounds, keeps.warned,
        keeps.left, keeps.timely⟩
  | otherCloses peer =>
      obtain ⟨mem, stepped⟩ := Option.ite_none_right_eq_some.mp stepped
      obtain ⟨securePeers, down, rfl⟩ := Option.map_eq_some_iff.mp stepped
      exact others_keeps keeps mem down
  | tick time =>
      obtain ⟨later, same⟩ := Option.ite_none_right_eq_some.mp stepped
      cases same
      exact ⟨keeps.fits, keeps.bound, keeps.sends, keeps.secure, keeps.rounds, keeps.warned,
        keeps.left, keeps.timely.later later⟩

theorem run_keeps {securePeers : Tally SocketAddr} {others : List SocketAddr}
    (tallies : securePeers.Tallies others) {as : List ListenAct}
    (ran : (machine securePeers others).run as = some s) : Keeps s :=
  Machine.run_keeps (m := machine securePeers others) (new_keeps tallies)
    (fun _ _ _ keeps stepped => step_keeps keeps stepped) ran

/-- What a channel's operation is here. -/
def ofOp : Mpsc.Op Nat → ListenAct
  | .complete j => .passes j
  | _ => .serves

theorem mem_served (keeps : Keeps s) (k : Nat) :
    k ∈ s.served ↔ ∃ j, s.send? k = some j ∧ s.ready.stage j = some .received := by
  simp only [served, List.mem_filterMap, keeps.fits.received, keeps.sends]
  exact exists_congr fun j => and_comm

theorem served_once (keeps : Keeps s) : s.served.Nodup := by
  obtain ⟨gone, order, -⟩ := keeps.fits.order
  have once := order ▸ keeps.fits.once
  refine (List.nodup_append.mp (List.nodup_append.mp once).1).1.filterMap fun i j k at_ there => ?_
  have one := (keeps.sends i k).mp at_
  exact Option.some.inj (one.symm.trans ((keeps.sends j k).mp there))

/-- No handshake holds up another: as the listener lives, each stream on its way to axum gets
    there, with every connection's handshake left where it is. -/
theorem serves_all (keeps : Keeps s) (securePeers : Tally SocketAddr) (others : List SocketAddr)
    (opened : s.ready.closed = false) :
    ∃ (ops : List (Mpsc.Op Nat)) (t : Listener), (∀ op ∈ ops, op.runs = true) ∧
      (machine securePeers others).runFrom s (ops.map ofOp) = some t ∧ t.conns = s.conns ∧
      ∀ k j st, s.send? k = some j → s.ready.stage j = some st → 0 < st.left → k ∈ t.served := by
  have some_ : 0 < s.ready.capacity := by
    rw [keeps.bound]
    decide
  obtain ⟨ops, c, each, ran, received⟩ := Mpsc.drains keeps.fits opened some_ readyBound
  have simulates : ∀ (u : Listener) (op : Mpsc.Op Nat) (c : Mpsc Nat),
      Keeps u ∧ u.conns = s.conns → op.runs = true →
      (Mpsc.machine Nat readyBound).step u.ready op = some c →
      ∃ v, (machine securePeers others).step u (ofOp op) = some v ∧ v.ready = c ∧
        Keeps v ∧ v.conns = s.conns := by
    rintro u op c ⟨kept, same⟩ runs stepped
    have went : u.ready.step op = some c := stepped
    cases op with
    | recv | complete j =>
        refine ⟨{ u with ready := c }, ?_, rfl, ready_keeps kept rfl went, same⟩
        exact Option.map_eq_some_iff.mpr ⟨c, went, rfl⟩
    | trySend _ | send _ | cancel _ | close | drop => cases runs
  obtain ⟨t, ran', rfl, kept, same⟩ := Machine.runFrom_simulates simulates each ran ⟨keeps, rfl⟩
  refine ⟨ops, t, each, ran', same, fun k j st sent here pending => ?_⟩
  have still : t.send? k = some j := by rw [← sent, send?, send?, same]
  refine (mem_served kept k).mpr ⟨j, still, ?_⟩
  rw [received j st here, Mpsc.Stage.last, if_pos pending]

/-- What is so of a listener whatever its peers, its tasks, axum and the process's other
    connections do. `served` to `order`: axum is given the streams whose handshake is done, each
    once, in the order they came into the channel. `bound` and `waits`: of those at most so many
    wait, and only then does a task. `passes`: no handshake holds up another. `timely`: nor does
    one hang for longer than its time. `secure`: a peer is
    secure as long as a stream of its, or another connection's, lives. `warned`: exactly the
    refused are said to be. -/
structure Exact (securePeers : Tally SocketAddr) (others : List SocketAddr) (s : Listener) :
    Prop where
  served : ∀ k, k ∈ s.served ↔ ∃ j, s.send? k = some j ∧ s.ready.stage j = some .received
  once : s.served.Nodup
  order : s.ready.taken <+: s.ready.put
  bound : s.ready.queue.length ≤ readyBound
  waits : s.ready.closed = false → ∀ j, s.ready.stage j = some .waiting →
    s.ready.used = readyBound
  passes : s.ready.closed = false → ∃ (ops : List (Mpsc.Op Nat)) (t : Listener),
    (∀ op ∈ ops, op.runs = true) ∧
      (machine securePeers others).runFrom s (ops.map ofOp) = some t ∧ t.conns = s.conns ∧
      ∀ k j st, s.send? k = some j → s.ready.stage j = some st → 0 < st.left → k ∈ t.served
  secure : ∀ peer, isTlsPeer s.securePeers peer = true ↔
    peer ∈ s.others ∨ ∃ c ∈ s.conns, place? c = some peer
  warned : ∀ ip, ip ∈ s.refusals.warned ↔ ∃ c ∈ s.conns, c.shake = .refused ∧ c.peer.ip = ip
  left : s.accepting = .gone → s.ready.closed = true
  timely : ∀ k peer due, s.conns[k]? = some ⟨peer, .shaking due⟩ → ∀ time, due ≤ time →
    s.now ≤ time → due ≤ s.now + handshakeTimeout ∧
      ∃ t, (machine securePeers others).runFrom s [.tick time, .timesOut k] = some t ∧
        t.conns[k]? = some ⟨peer, .refused⟩

theorem Keeps.exact (keeps : Keeps s) (securePeers : Tally SocketAddr) (others : List SocketAddr) :
    Exact securePeers others s := by
  refine ⟨mem_served keeps, served_once keeps, ?_, keeps.bound ▸ keeps.fits.queue_le,
    fun opened j waits => keeps.bound ▸ keeps.fits.full opened j waits,
    serves_all keeps securePeers others, fun peer => ?_, keeps.warned, keeps.left,
    fun k peer due here time late later => ?_⟩
  · obtain ⟨gone, order, -⟩ := keeps.fits.order
    rw [order, List.append_assoc]
    exact List.prefix_append _ _
  · rw [isTlsPeer, keeps.secure.isSome_iff, held, List.mem_append, List.mem_filterMap]
  · refine ⟨keeps.timely _ (List.mem_of_getElem? here) due rfl,
      ({ s with now := time } : Listener).refuses k peer, ?_, ?_⟩
    · simp [Machine.runFrom, machine, step, later, here, late]
    · obtain ⟨within, -⟩ := List.getElem?_eq_some_iff.mp here
      simp [refuses, within]

/-- In every run, from whatever connections the process has. -/
theorem listener_exact (securePeers : Tally SocketAddr) (others : List SocketAddr)
    (tallies : securePeers.Tallies others) (as : List ListenAct) (s : Listener)
    (ran : (machine securePeers others).run as = some s) : Exact securePeers others s :=
  (run_keeps tallies ran).exact securePeers others

/-- Two visitors: one served, the other out of time. -/
def slowFirst : List ListenAct :=
  [.accept visitor, .accept neighbour, .handshook 1 true, .passes 0, .serves, .tick 10000,
    .timesOut 0]

theorem listener_exact_slow : ∃ s, (machine Tally.empty []).run slowFirst = some s ∧
    Exact Tally.empty [] s ∧ s.served = [1] :=
  ⟨_, rfl, listener_exact Tally.empty [] Tally.tallies_nil slowFirst _ rfl, by decide⟩

end Steps

end Listener

end PlexusTransport.Tls
