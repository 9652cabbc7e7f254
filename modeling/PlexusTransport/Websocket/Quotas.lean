import PlexusTransport.Lib.Machine
import PlexusTransport.Lib.Tally
import PlexusTransport.Net.Addr

/-! # Connection quotas

The open sockets, counted against `ConnectionQuotas`: by address, by
principal, anonymous, and anonymous by address. Each admitted socket holds a
permit and gives its places back when the permit is dropped.
-/

namespace PlexusTransport.Websocket

open Net

structure ConnectionQuotas where
  maxConnections : UInt32
  maxPerIp : UInt32
  maxPerPrincipal : UInt32
  maxAnonymous : UInt32
  maxAnonymousPerIp : UInt32

/-- `identities`: a socket can be anyone, a session validator is configured. -/
structure Quotas where
  limits : ConnectionQuotas
  identities : Bool

structure Open where
  perIp : Tally IpAddr
  perPrincipal : Tally String
  anonymous : Nat
  anonymousPerIp : Tally IpAddr

def Open.empty : Open := ⟨Tally.empty, Tally.empty, 0, Tally.empty⟩

/-- `who`: signed in, anonymous, and neither without a validator. -/
structure QuotaPermit where
  ip : IpAddr
  who : Option (Option String)
  deriving DecidableEq, Repr

/-- Which quota is full. -/
inductive Full where
  | perIp
  | perPrincipal (p : String)
  | anonymous
  | anonymousPerIp
  deriving DecidableEq, Repr

/-- What a refused caller is told, its address as displayed. -/
def Full.text (l : ConnectionQuotas) (ip : String) : Full → String
  | .perIp => s!"too many connections from {ip} (at most {l.maxPerIp})"
  | .perPrincipal p => s!"too many connections as {p} (at most {l.maxPerPrincipal})"
  | .anonymous => s!"too many anonymous connections (at most {l.maxAnonymous}): sign in"
  | .anonymousPerIp =>
      s!"too many anonymous connections from {ip} (at most {l.maxAnonymousPerIp}): sign in"

/-- A place for a socket: the counts after it, and the permit or the quota that is full. -/
def Quotas.admitSocket (q : Quotas) (o : Open) (ip : IpAddr) (principal : Option String) :
    Open × Except Full QuotaPermit :=
  let l := q.limits
  if l.maxPerIp.toNat ≤ o.perIp.get ip then (o, .error .perIp)
  else
    let placed (o : Open) (who : Option (Option String)) : Open × Except Full QuotaPermit :=
      ({ o with perIp := o.perIp.up ip }, .ok ⟨ip, who⟩)
    match if q.identities then some principal else none with
    | some (some p) =>
        if l.maxPerPrincipal.toNat ≤ o.perPrincipal.get p then (o, .error (.perPrincipal p))
        else placed { o with perPrincipal := o.perPrincipal.up p } (some (some p))
    | some none =>
        if l.maxAnonymous.toNat ≤ o.anonymous then (o, .error .anonymous)
        else if l.maxAnonymousPerIp.toNat ≤ o.anonymousPerIp.get ip then
          (o, .error .anonymousPerIp)
        else
          placed { o with
            anonymous := o.anonymous + 1
            anonymousPerIp := o.anonymousPerIp.up ip } (some none)
    | none => placed o none

/-- `Drop for QuotaPermit`; `none`: a count would underflow. -/
def QuotaPermit.drop (permit : QuotaPermit) (o : Open) : Option Open := do
  let perIp ← o.perIp.down permit.ip
  let o := { o with perIp := perIp }
  match permit.who with
  | some (some p) =>
      let perPrincipal ← o.perPrincipal.down p
      return { o with perPrincipal := perPrincipal }
  | some none =>
      guard (0 < o.anonymous)
      let anonymousPerIp ← o.anonymousPerIp.down permit.ip
      return { o with anonymous := o.anonymous - 1, anonymousPerIp := anonymousPerIp }
  | none => return o

namespace QuotaPermit

def principal (permit : QuotaPermit) : Option String := permit.who.join

def isAnonymous (permit : QuotaPermit) : Bool := permit.who == some none

end QuotaPermit

/-- The addresses, principals and anonymous addresses of the live permits. -/
def ips (live : List QuotaPermit) : List IpAddr := live.map (·.ip)

def principals (live : List QuotaPermit) : List String := live.filterMap (·.principal)

def anonymousIps (live : List QuotaPermit) : List IpAddr :=
  (live.filter (·.isAnonymous)).map (·.ip)

@[simp] theorem ips_cons (ip : IpAddr) (who : Option (Option String)) (live : List QuotaPermit) :
    ips (⟨ip, who⟩ :: live) = ip :: ips live := rfl

@[simp] theorem principals_signed (ip : IpAddr) (p : String) (live : List QuotaPermit) :
    principals (⟨ip, some (some p)⟩ :: live) = p :: principals live := rfl

@[simp] theorem principals_anonymous (ip : IpAddr) (live : List QuotaPermit) :
    principals (⟨ip, some none⟩ :: live) = principals live := rfl

@[simp] theorem principals_uncounted (ip : IpAddr) (live : List QuotaPermit) :
    principals (⟨ip, none⟩ :: live) = principals live := rfl

@[simp] theorem anonymousIps_signed (ip : IpAddr) (p : String) (live : List QuotaPermit) :
    anonymousIps (⟨ip, some (some p)⟩ :: live) = anonymousIps live := rfl

@[simp] theorem anonymousIps_anonymous (ip : IpAddr) (live : List QuotaPermit) :
    anonymousIps (⟨ip, some none⟩ :: live) = ip :: anonymousIps live := rfl

@[simp] theorem anonymousIps_uncounted (ip : IpAddr) (live : List QuotaPermit) :
    anonymousIps (⟨ip, none⟩ :: live) = anonymousIps live := rfl

/-- The counts are those of the live permits. -/
structure Exact (o : Open) (live : List QuotaPermit) : Prop where
  perIp : o.perIp.Tallies (ips live)
  perPrincipal : o.perPrincipal.Tallies (principals live)
  anonymous : o.anonymous = (anonymousIps live).length
  anonymousPerIp : o.anonymousPerIp.Tallies (anonymousIps live)

/-- The live permits are within the limits. -/
structure Within (l : ConnectionQuotas) (live : List QuotaPermit) : Prop where
  perIp : ∀ ip, (ips live).count ip ≤ l.maxPerIp.toNat
  perPrincipal : ∀ p, (principals live).count p ≤ l.maxPerPrincipal.toNat
  anonymous : (anonymousIps live).length ≤ l.maxAnonymous.toNat
  anonymousPerIp : ∀ ip, (anonymousIps live).count ip ≤ l.maxAnonymousPerIp.toNat

/-- Every count that applies to the request is below its limit. -/
def Quotas.Room (q : Quotas) (live : List QuotaPermit) (ip : IpAddr) (principal : Option String) :
    Prop :=
  (ips live).count ip < q.limits.maxPerIp.toNat ∧
    (q.identities = true → match principal with
      | some p => (principals live).count p < q.limits.maxPerPrincipal.toNat
      | none => (anonymousIps live).length < q.limits.maxAnonymous.toNat ∧
          (anonymousIps live).count ip < q.limits.maxAnonymousPerIp.toNat)

/-- The permit such a request is given. -/
def Quotas.permit (q : Quotas) (ip : IpAddr) (principal : Option String) : QuotaPermit :=
  ⟨ip, if q.identities then some principal else none⟩

theorem Exact.empty : Exact Open.empty [] :=
  ⟨Tally.tallies_nil, Tally.tallies_nil, rfl, Tally.tallies_nil⟩

theorem Within.empty (l : ConnectionQuotas) : Within l [] := by
  constructor <;> simp [ips, principals, anonymousIps]

theorem Exact.perm {o : Open} {live live' : List QuotaPermit} (same : live.Perm live')
    (exact : Exact o live) : Exact o live' where
  perIp := exact.perIp.perm (same.map _)
  perPrincipal := exact.perPrincipal.perm (same.filterMap _)
  anonymous := exact.anonymous.trans ((same.filter _).map _).length_eq
  anonymousPerIp := exact.anonymousPerIp.perm ((same.filter _).map _)

theorem Within.sublist {l : ConnectionQuotas} {live live' : List QuotaPermit}
    (part : live'.Sublist live) (within : Within l live) : Within l live' where
  perIp ip := ((part.map _).count_le ip).trans (within.perIp ip)
  perPrincipal p := ((part.filterMap _).count_le p).trans (within.perPrincipal p)
  anonymous := ((part.filter _).map _).length_le.trans within.anonymous
  anonymousPerIp ip := (((part.filter _).map _).count_le ip).trans (within.anonymousPerIp ip)

/-- What `admitSocket` does: it is refused and counts nothing, or there is room, and the
    permit is counted. -/
theorem admit_cases (q : Quotas) {o : Open} {live : List QuotaPermit} (exact : Exact o live)
    (ip : IpAddr) (principal : Option String) :
    (∃ full, q.admitSocket o ip principal = (o, .error full) ∧ ¬ q.Room live ip principal) ∨
      ∃ o', q.admitSocket o ip principal = (o', .ok (q.permit ip principal)) ∧
        q.Room live ip principal ∧ Exact o' (q.permit ip principal :: live) := by
  obtain ⟨perIp, perPrincipal, anonymous, anonymousPerIp⟩ := exact
  unfold Quotas.admitSocket Quotas.Room Quotas.permit
  rw [perIp.get ip]
  by_cases fullIp : q.limits.maxPerIp.toNat ≤ (ips live).count ip
  · left
    refine ⟨.perIp, by simp [fullIp], ?_⟩
    intro room
    omega
  · have below : (ips live).count ip < q.limits.maxPerIp.toNat := by omega
    have placed := perIp.up ip
    simp only [if_neg fullIp, below, true_and]
    cases identities : q.identities with
    | false =>
        right
        exact ⟨_, rfl, by simp, placed, perPrincipal, anonymous, anonymousPerIp⟩
    | true =>
        cases principal with
        | some p =>
            simp only [if_true, perPrincipal.get p, true_implies]
            by_cases full : q.limits.maxPerPrincipal.toNat ≤ (principals live).count p
            · left
              exact ⟨.perPrincipal p, by simp [full], by omega⟩
            · right
              rw [if_neg full]
              exact ⟨_, rfl, by omega, placed, perPrincipal.up p, anonymous, anonymousPerIp⟩
        | none =>
            simp only [if_true, anonymousPerIp.get ip, anonymous, true_implies]
            by_cases full : q.limits.maxAnonymous.toNat ≤ (anonymousIps live).length
            · left
              exact ⟨.anonymous, by simp [full], by omega⟩
            · rw [if_neg full]
              by_cases fullHere :
                  q.limits.maxAnonymousPerIp.toNat ≤ (anonymousIps live).count ip
              · left
                exact ⟨.anonymousPerIp, by simp [fullHere], by omega⟩
              · right
                rw [if_neg fullHere]
                exact ⟨_, rfl, by omega, placed, perPrincipal, rfl, anonymousPerIp.up ip⟩

theorem count_within {κ : Type} [DecidableEq κ] {keys : List κ} {k : κ} {limit : κ → Nat}
    (within : ∀ k, keys.count k ≤ limit k) (room : keys.count k < limit k) (other : κ) :
    (k :: keys).count other ≤ limit other := by
  rw [List.count_cons]
  split
  · rename_i same
    cases beq_iff_eq.mp same
    omega
  · exact within other

theorem within_admitted {q : Quotas} {live : List QuotaPermit} {ip : IpAddr}
    {principal : Option String} (room : q.Room live ip principal)
    (within : Within q.limits live) : Within q.limits (q.permit ip principal :: live) := by
  obtain ⟨perIp, perPrincipal, anonymous, anonymousPerIp⟩ := within
  obtain ⟨roomIp, room⟩ := room
  have placed := count_within perIp roomIp
  unfold Quotas.permit
  cases identities : q.identities with
  | false => exact ⟨placed, perPrincipal, anonymous, anonymousPerIp⟩
  | true =>
      have room := room identities
      cases principal with
      | some p => exact ⟨placed, count_within perPrincipal room, anonymous, anonymousPerIp⟩
      | none => exact ⟨placed, perPrincipal, room.1, count_within anonymousPerIp room.2⟩

/-- A live permit can be dropped: no count underflows. -/
theorem drop_live {permit : QuotaPermit} {o : Open} {live : List QuotaPermit}
    (exact : Exact o (permit :: live)) : ∃ o', permit.drop o = some o' ∧ Exact o' live := by
  obtain ⟨ip, who⟩ := permit
  obtain ⟨perIp, perPrincipal, anonymous, anonymousPerIp⟩ := exact
  obtain ⟨perIp', lowered, here⟩ := Tally.Tallies.down perIp
  match who with
  | none =>
      refine ⟨{ o with perIp := perIp' }, ?_, here, perPrincipal, anonymous, anonymousPerIp⟩
      simp [QuotaPermit.drop, lowered]
  | some none =>
      obtain ⟨anonymousPerIp', lowered', anonymousPerIp⟩ := Tally.Tallies.down anonymousPerIp
      refine ⟨{ o with
        perIp := perIp', anonymous := o.anonymous - 1, anonymousPerIp := anonymousPerIp' },
        ?_, here, perPrincipal, ?_, anonymousPerIp⟩
      · simp [QuotaPermit.drop, lowered, lowered', anonymous]
      · simp [anonymous]
  | some (some p) =>
      obtain ⟨perPrincipal', lowered', perPrincipal⟩ := Tally.Tallies.down perPrincipal
      refine ⟨{ o with perIp := perIp', perPrincipal := perPrincipal' },
        ?_, here, perPrincipal, anonymous, anonymousPerIp⟩
      simp [QuotaPermit.drop, lowered, lowered']

/-- The counts, and the permits that are out. -/
structure Admitted where
  counts : Open
  live : List QuotaPermit

inductive Admission where
  | admitSocket (ip : IpAddr) (principal : Option String)
  | drop (permit : QuotaPermit)

/-- Sockets come and go, in any order. A drop that would underflow has no step. -/
def Quotas.machine (q : Quotas) : Machine Admitted Admission where
  start := ⟨Open.empty, []⟩
  step s
    | .admitSocket ip principal =>
        match q.admitSocket s.counts ip principal with
        | (o, .ok permit) => some ⟨o, permit :: s.live⟩
        | (o, .error _) => some ⟨o, s.live⟩
    | .drop permit =>
        if permit ∈ s.live then (permit.drop s.counts).map fun o => ⟨o, s.live.erase permit⟩
        else none

theorem step_exact {q : Quotas} {s t : Admitted} {a : Admission}
    (here : Exact s.counts s.live ∧ Within q.limits s.live)
    (stepped : q.machine.step s a = some t) : Exact t.counts t.live ∧ Within q.limits t.live := by
  obtain ⟨exact, within⟩ := here
  cases a with
  | admitSocket ip principal =>
      rcases admit_cases q exact ip principal with ⟨full, refused, -⟩ | ⟨o, admitted, room, next⟩
      · simp only [Quotas.machine, refused, Option.some.injEq] at stepped
        subst stepped
        exact ⟨exact, within⟩
      · simp only [Quotas.machine, admitted, Option.some.injEq] at stepped
        subst stepped
        exact ⟨next, within_admitted room within⟩
  | drop permit =>
      simp only [Quotas.machine, Option.ite_none_right_eq_some] at stepped
      obtain ⟨mem, dropped⟩ := stepped
      obtain ⟨o, lowered, next⟩ := drop_live (exact.perm (List.perm_cons_erase mem))
      rw [lowered, Option.map_some, Option.some.injEq] at dropped
      subst dropped
      exact ⟨next, within.sublist (List.erase_sublist)⟩

/-- In every state of every run the counts are exact and within the limits, every live
    permit can be dropped, and a request is admitted exactly when there is room. -/
theorem quotas_exact (q : Quotas) (as : List Admission) (s : Admitted)
    (ran : q.machine.run as = some s) :
    Exact s.counts s.live ∧ Within q.limits s.live ∧
      (∀ entries : List IpAddr, entries.Nodup →
        (∀ ip, ip ∈ entries ↔ (s.counts.anonymousPerIp ip).isSome = true) →
        s.counts.anonymous = (entries.map s.counts.anonymousPerIp.get).sum) ∧
      (∀ permit ∈ s.live, (permit.drop s.counts).isSome = true) ∧
      ∀ ip principal,
        ((q.admitSocket s.counts ip principal).2.isOk = true ↔ q.Room s.live ip principal) ∧
        ((q.admitSocket s.counts ip principal).2.isOk = false →
          (q.admitSocket s.counts ip principal).1 = s.counts) := by
  have start : Exact q.machine.start.counts q.machine.start.live ∧
      Within q.limits q.machine.start.live := ⟨Exact.empty, Within.empty _⟩
  obtain ⟨exact, within⟩ := Machine.run_keeps start (fun _ _ _ => step_exact) ran
  refine ⟨exact, within, ?_, ?_, ?_⟩
  · intro entries once all
    rw [exact.anonymous, exact.anonymousPerIp.sum once all]
  · intro permit mem
    obtain ⟨o, lowered, -⟩ := drop_live (exact.perm (List.perm_cons_erase mem))
    rw [lowered]
    rfl
  · intro ip principal
    rcases admit_cases q exact ip principal with ⟨full, refused, none⟩ | ⟨o, admitted, room, -⟩
    · rw [refused]
      refine ⟨⟨?_, fun room => absurd room none⟩, fun _ => rfl⟩
      intro admitted
      cases admitted
    · rw [admitted]
      refine ⟨⟨fun _ => room, fun _ => rfl⟩, ?_⟩
      intro refused
      cases refused

/-- An anonymous socket comes, a second one from its address finds no room, it goes. -/
theorem quotas_exact_refused :
    let q : Quotas := ⟨⟨4, 2, 2, 2, 1⟩, true⟩
    ∃ s, q.machine.run [.admitSocket (.v4 7) none, .admitSocket (.v4 7) none] = some s ∧
      s.live = [⟨.v4 7, some none⟩] ∧ Exact s.counts s.live := by
  intro q
  refine ⟨_, rfl, rfl, ?_⟩
  exact (quotas_exact q [.admitSocket (.v4 7) none, .admitSocket (.v4 7) none] _ rfl).1

end PlexusTransport.Websocket
