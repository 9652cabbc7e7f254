import PlexusTransport.Websocket.Quotas

/-! # What a socket holds, from its admission to its end

A socket's quota permit rides in its request's extensions, which the loop and
the calls clone; its place among `max_connections` is held by the task that
serves it. The two are given back at different moments.
-/

namespace PlexusTransport.Websocket

open Net

/-- Who holds what: the extensions (and the permit in them) and the place. -/
inductive Stage where
  /-- The request passed the quotas; the upgrade is next. -/
  | admitted
  /-- `101` is answered, the task waits for the upgraded stream. -/
  | upgrading
  /-- The upgrade failed: what the task holds is dropped, in no order of the source's. -/
  | failing (ext place : Bool)
  /-- The loop runs. -/
  | serving
  /-- `Loop::end` dropped the extensions first; the close and its answer are awaited. -/
  | ending
  | ended
  deriving DecidableEq, Repr

namespace Stage

def ext : Stage → Bool
  | .admitted | .upgrading | .serving => true
  | .failing ext _ => ext
  | .ending | .ended => false

def place : Stage → Bool
  | .upgrading | .serving | .ending => true
  | .failing _ place => place
  | .admitted | .ended => false

end Stage

/-- `clones`: the extensions as cloned by calls that still run. -/
structure Sock where
  permit : QuotaPermit
  stage : Stage
  clones : Nat
  deriving DecidableEq, Repr

namespace Sock

def holdsPermit (s : Sock) : Bool := s.stage.ext || 0 < s.clones

def holdsPlace (s : Sock) : Bool := s.stage.place

def anonymousPlace (s : Sock) : Bool := s.permit.isAnonymous && s.holdsPlace

/-- `Upgrade::upgrade`; with no place left, or anything amiss in the request, the
    request is dropped. -/
def upgrade (room : Bool) (s : Sock) : Option Sock :=
  match s.stage with
  | .admitted => some { s with stage := if room then .upgrading else .ended }
  | _ => none

/-- `hyper::upgrade::on` resolves. -/
def upgraded (ok : Bool) (s : Sock) : Option Sock :=
  match s.stage with
  | .upgrading => some { s with stage := if ok then .serving else .failing true true }
  | _ => none

def dropExt (s : Sock) : Option Sock :=
  match s.stage with
  | .failing true place => some { s with stage := .failing false place }
  | _ => none

def dropPlace (s : Sock) : Option Sock :=
  match s.stage with
  | .failing ext true => some { s with stage := .failing ext false }
  | _ => none

def clone (s : Sock) : Option Sock :=
  if s.holdsPermit then some { s with clones := s.clones + 1 } else none

def dropClone (s : Sock) : Option Sock :=
  match s.clones with
  | 0 => none
  | n + 1 => some { s with clones := n }

/-- `Loop::end` begins, whatever ended the loop. -/
def ends (s : Sock) : Option Sock :=
  match s.stage with
  | .serving => some { s with stage := .ending }
  | _ => none

/-- `run` returns, and drops the place. -/
def returns (s : Sock) : Option Sock :=
  match s.stage with
  | .ending => some { s with stage := .ended }
  | _ => none

end Sock

structure Server where
  counts : Open
  socks : List Sock

inductive Event where
  | admitSocket (ip : IpAddr) (principal : Option String)
  /-- The request is an upgrade the port can answer, or not. -/
  | upgrade (i : Nat) (well : Bool)
  | upgraded (i : Nat) (ok : Bool)
  | dropExt (i : Nat)
  | dropPlace (i : Nat)
  | clone (i : Nat)
  | dropClone (i : Nat)
  | ends (i : Nat)
  | returns (i : Nat)
  deriving Repr

namespace Server

def places (s : Server) : Nat := (s.socks.filter (·.holdsPlace)).length

def anonymousPlaces (s : Server) : Nat := (s.socks.filter (·.anonymousPlace)).length

/-- The counts once a socket has moved on: the last holder of its permit gone, the
    permit is dropped. -/
def released (s : Server) (sock sock' : Sock) : Option Open :=
  if sock.holdsPermit && !sock'.holdsPermit then sock.permit.drop s.counts else some s.counts

def move (s : Server) (i : Nat) (f : Sock → Option Sock) : Option Server := do
  let sock ← s.socks[i]?
  let sock' ← f sock
  let counts ← s.released sock sock'
  return ⟨counts, s.socks.set i sock'⟩

end Server

/-- Every socket of a server, from its admission on. -/
def Quotas.server (q : Quotas) : Machine Server Event where
  start := ⟨Open.empty, []⟩
  step s
    | .admitSocket ip principal =>
        match q.admitSocket s.counts ip principal with
        | (o, .ok permit) => some ⟨o, s.socks ++ [⟨permit, .admitted, 0⟩]⟩
        | (o, .error _) => some ⟨o, s.socks⟩
    | .upgrade i well =>
        s.move i (Sock.upgrade (well && s.places < q.limits.maxConnections.toNat))
    | .upgraded i ok => s.move i (Sock.upgraded ok)
    | .dropExt i => s.move i Sock.dropExt
    | .dropPlace i => s.move i Sock.dropPlace
    | .clone i => s.move i Sock.clone
    | .dropClone i => s.move i Sock.dropClone
    | .ends i => s.move i Sock.ends
    | .returns i => s.move i Sock.returns

/-- The permits that sockets hold. -/
def live (socks : List Sock) : List QuotaPermit := (socks.filter (·.holdsPermit)).map (·.permit)

/-- An anonymous socket that still holds anything. -/
def Sock.occupies (s : Sock) : Bool := s.permit.isAnonymous && (s.holdsPermit || s.holdsPlace)

def occupying (socks : List Sock) : Nat := (socks.filter (·.occupies)).length

/-- A move that takes up nothing new but a place under a permit. -/
def Loses (f : Sock → Option Sock) : Prop :=
  ∀ s s', f s = some s' → s'.permit = s.permit ∧ (s'.holdsPermit = true → s.holdsPermit = true) ∧
    (s'.holdsPlace = true → s.holdsPermit = true ∨ s.holdsPlace = true)

section Loses

theorem upgrade_loses (room : Bool) : Loses (Sock.upgrade room) := by
  rintro ⟨permit, stage, clones⟩ s' moved
  cases stage <;> simp only [Sock.upgrade, Option.some.injEq, reduceCtorEq] at moved
  subst moved
  cases room <;> simp [Sock.holdsPermit, Sock.holdsPlace, Stage.ext, Stage.place]

theorem upgraded_loses (ok : Bool) : Loses (Sock.upgraded ok) := by
  rintro ⟨permit, stage, clones⟩ s' moved
  cases stage <;> simp only [Sock.upgraded, Option.some.injEq, reduceCtorEq] at moved
  subst moved
  cases ok <;> simp [Sock.holdsPermit, Sock.holdsPlace, Stage.ext, Stage.place]

theorem dropExt_loses : Loses Sock.dropExt := by
  rintro ⟨permit, stage, clones⟩ s' moved
  cases stage with
  | failing ext place =>
      cases ext <;> simp only [Sock.dropExt, Option.some.injEq, reduceCtorEq] at moved
      subst moved
      simp [Sock.holdsPermit, Sock.holdsPlace, Stage.ext, Stage.place]
  | _ => simp [Sock.dropExt] at moved

theorem dropPlace_loses : Loses Sock.dropPlace := by
  rintro ⟨permit, stage, clones⟩ s' moved
  cases stage with
  | failing ext place =>
      cases place <;> simp only [Sock.dropPlace, Option.some.injEq, reduceCtorEq] at moved
      subst moved
      simp [Sock.holdsPermit, Sock.holdsPlace, Stage.ext, Stage.place]
  | _ => simp [Sock.dropPlace] at moved

theorem clone_loses : Loses Sock.clone := by
  rintro s s' moved
  obtain ⟨holds, moved⟩ := Option.ite_none_right_eq_some.mp moved
  cases moved
  exact ⟨rfl, fun _ => holds, .inr⟩

theorem dropClone_loses : Loses Sock.dropClone := by
  rintro ⟨permit, stage, clones⟩ s' moved
  cases clones with
  | zero => simp [Sock.dropClone] at moved
  | succ n =>
      cases moved
      exact ⟨rfl, fun _ => by simp [Sock.holdsPermit], .inr⟩

theorem ends_loses : Loses Sock.ends := by
  rintro ⟨permit, stage, clones⟩ s' moved
  cases stage <;> simp only [Sock.ends, Option.some.injEq, reduceCtorEq] at moved
  subst moved
  simp [Sock.holdsPermit, Sock.holdsPlace, Stage.ext, Stage.place]

theorem returns_loses : Loses Sock.returns := by
  rintro ⟨permit, stage, clones⟩ s' moved
  cases stage <;> simp only [Sock.returns, Option.some.injEq, reduceCtorEq] at moved
  subst moved
  simp [Sock.holdsPermit, Sock.holdsPlace, Stage.ext, Stage.place]

end Loses

theorem live_perm {socks socks' : List Sock} (same : socks.Perm socks') :
    (live socks).Perm (live socks') :=
  (same.filter _).map _

theorem occupying_perm {socks socks' : List Sock} (same : socks.Perm socks') :
    occupying socks = occupying socks' :=
  (same.filter _).length_eq

/-- A socket's move keeps the counts exact, and takes up nothing. -/
theorem move_exact {s t : Server} {i : Nat} {f : Sock → Option Sock} (loses : Loses f)
    (exact : Exact s.counts (live s.socks)) (moved : s.move i f = some t) :
    Exact t.counts (live t.socks) ∧ occupying t.socks ≤ occupying s.socks := by
  simp only [Server.move, Option.bind_eq_bind, Option.bind_eq_some_iff, Option.pure_def,
    Option.some.injEq] at moved
  obtain ⟨sock, found, sock', moved, counts, dropped, rfl⟩ := moved
  obtain ⟨bound, rfl⟩ := List.getElem?_eq_some_iff.mp found
  obtain ⟨same, permit, place⟩ := loses _ _ moved
  have before : s.socks.Perm (s.socks[i] :: s.socks.eraseIdx i) :=
    (List.getElem_cons_eraseIdx_perm bound).symm
  have after : (s.socks.set i sock').Perm (sock' :: s.socks.eraseIdx i) :=
    List.set_perm_cons_eraseIdx bound sock'
  have exact := exact.perm (live_perm before)
  constructor
  · refine Exact.perm (live_perm after).symm ?_
    cases holds : s.socks[i].holdsPermit with
    | false =>
        have none : sock'.holdsPermit = false := by
          cases holds' : sock'.holdsPermit with
          | false => rfl
          | true => exact absurd (permit holds') (by simp [holds])
        simp only [Server.released, holds, Bool.false_and, Bool.false_eq_true, if_false,
          Option.some.injEq] at dropped
        subst dropped
        simpa [live, holds, none] using exact
    | true =>
        cases holds' : sock'.holdsPermit with
        | true =>
            simp only [Server.released, holds, holds', Bool.not_true, Bool.and_false,
              Bool.false_eq_true, if_false, Option.some.injEq] at dropped
            subst dropped
            simpa [live, holds, holds', same] using exact
        | false =>
            simp only [live, holds, List.filter_cons_of_pos, List.map_cons] at exact
            obtain ⟨o, lowered, next⟩ := drop_live exact
            simp only [Server.released, holds, holds', Bool.not_false, Bool.and_self, if_true,
              lowered, Option.some.injEq] at dropped
            subst dropped
            simpa [live, holds'] using next
  · rw [occupying_perm before, occupying_perm after]
    have fewer : sock'.occupies = true → s.socks[i].occupies = true := by
      simp only [Sock.occupies, same, Bool.and_eq_true, Bool.or_eq_true]
      rintro ⟨anonymous, holds⟩
      exact ⟨anonymous, holds.elim (fun h => .inl (permit h)) place⟩
    cases occupies : sock'.occupies with
    | false =>
        rw [occupying, List.filter_cons_of_neg (by simp [occupies])]
        exact ((List.sublist_cons_self _ _).filter _).length_le
    | true => simp [occupying, occupies, fewer occupies]

/-- No anonymous socket is admitted while one lives on in its place alone. -/
def Quotas.Careful (q : Quotas) (s : Server) : Event → Prop
  | .admitSocket ip none => (q.admitSocket s.counts ip none).2.isOk = true →
      ∀ sock ∈ s.socks, sock.anonymousPlace = true → sock.holdsPermit = true
  | _ => True

/-- The counts are exact, and those who proved no one are within their limit. -/
structure Bounded (q : Quotas) (s : Server) : Prop where
  exact : Exact s.counts (live s.socks)
  anonymous : occupying s.socks ≤ q.limits.maxAnonymous.toNat

/-- With no socket in a place alone, those that hold anything hold permits. -/
theorem occupying_live {socks : List Sock}
    (held : ∀ sock ∈ socks, sock.anonymousPlace = true → sock.holdsPermit = true) :
    occupying socks = (anonymousIps (live socks)).length := by
  have same : socks.filter (·.occupies) =
      (socks.filter (·.holdsPermit)).filter (·.permit.isAnonymous) := by
    rw [List.filter_filter]
    apply List.filter_congr
    intro sock mem
    have place := held sock mem
    simp only [Sock.anonymousPlace, Sock.occupies] at place ⊢
    cases anonymous : sock.permit.isAnonymous <;> cases holds : sock.holdsPermit <;>
      cases there : sock.holdsPlace <;> simp_all
  rw [occupying, same, anonymousIps, live, List.filter_map, List.length_map, List.length_map]
  rfl

theorem step_bounded {q : Quotas} (signed : q.identities = true) {s t : Server} {e : Event}
    (here : Bounded q s) (careful : q.Careful s e) (stepped : q.server.step s e = some t) :
    Bounded q t := by
  obtain ⟨exact, anonymous⟩ := here
  have move : ∀ {i : Nat} {f : Sock → Option Sock}, Loses f → s.move i f = some t →
      Bounded q t := by
    intro i f loses moved
    obtain ⟨exact', fewer⟩ := move_exact loses exact moved
    exact ⟨exact', fewer.trans anonymous⟩
  cases e with
  | admitSocket ip principal =>
      have signedPermit : q.permit ip principal = ⟨ip, some principal⟩ := by
        rw [Quotas.permit, signed]
        rfl
      rcases admit_cases q exact ip principal with ⟨full, refused, -⟩ | ⟨o, admitted, room, next⟩
      · simp only [Quotas.server, refused, Option.some.injEq] at stepped
        subst stepped
        exact ⟨exact, anonymous⟩
      · simp only [Quotas.server, admitted, Option.some.injEq] at stepped
        subst stepped
        rw [signedPermit] at next ⊢
        have came : live (s.socks ++ [⟨⟨ip, some principal⟩, .admitted, 0⟩]) =
            live s.socks ++ [⟨ip, some principal⟩] := by
          simp [live, Sock.holdsPermit, Stage.ext]
        refine ⟨?_, ?_⟩
        · rw [came]
          exact next.perm (List.perm_append_singleton _ _).symm
        · cases principal with
          | some p => simpa [occupying, Sock.occupies, QuotaPermit.isAnonymous] using anonymous
          | none =>
              have isOk : (q.admitSocket s.counts ip none).2.isOk = true := by
                rw [admitted]
                rfl
              have below := (room.2 signed).1
              rw [← occupying_live (careful isOk)] at below
              simpa [occupying, Sock.occupies, Sock.holdsPermit, Stage.ext,
                QuotaPermit.isAnonymous, Nat.succ_le_iff] using below
  | upgrade i well => exact move (upgrade_loses _) stepped
  | upgraded i ok => exact move (upgraded_loses ok) stepped
  | dropExt i => exact move dropExt_loses stepped
  | dropPlace i => exact move dropPlace_loses stepped
  | clone i => exact move clone_loses stepped
  | dropClone i => exact move dropClone_loses stepped
  | ends i => exact move ends_loses stepped
  | returns i => exact move returns_loses stepped


/-- In every run that admits no anonymous socket while one lives on in its place alone,
    the anonymous sockets never hold more places than `max_anonymous`. -/
theorem anonymous_places (q : Quotas) (signed : q.identities = true) (es : List Event) (s : Server)
    (careful : q.server.Allows q.Careful q.server.start es) (ran : q.server.run es = some s) :
    s.anonymousPlaces ≤ q.limits.maxAnonymous.toNat := by
  have start : Bounded q q.server.start := ⟨Exact.empty, Nat.zero_le _⟩
  have bounded := Machine.runFrom_keeps
    (fun _ _ _ here careful stepped => step_bounded signed here careful stepped) careful ran start
  refine Nat.le_trans ?_ bounded.anonymous
  refine (List.monotone_filter_right s.socks ?_).length_le
  intro sock place
  simp only [Sock.anonymousPlace, Sock.occupies, Bool.and_eq_true, Bool.or_eq_true] at place ⊢
  exact ⟨place.1, .inr place.2⟩

theorem anonymous_places_one :
    ∃ s, (Quotas.server ⟨⟨4, 4, 4, 1, 1⟩, true⟩).run [.admitSocket (.v4 7) none, .upgrade 0 true] =
        some s ∧ s.anonymousPlaces ≤ 1 := by
  refine ⟨_, rfl, ?_⟩
  refine anonymous_places ⟨⟨4, 4, 4, 1, 1⟩, true⟩ rfl [.admitSocket (.v4 7) none, .upgrade 0 true] _
    ⟨?_, fun _ _ => ⟨trivial, fun _ _ => trivial⟩⟩ rfl
  intro _ sock mem
  cases mem

/-- Two anonymous sockets where one may be: the first is being closed, its permit gone,
    its place not. -/
theorem places_outlive_permits :
    ((Quotas.server ⟨⟨4, 4, 4, 1, 1⟩, true⟩).run
      [.admitSocket (.v4 7) none, .upgrade 0 true, .upgraded 0 true, .ends 0, .admitSocket (.v4 8) none,
        .upgrade 1 true]).map Server.anonymousPlaces = some 2 := by
  decide +kernel

end PlexusTransport.Websocket
