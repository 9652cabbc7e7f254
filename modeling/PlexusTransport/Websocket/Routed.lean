import PlexusTransport.ProtectedResource
import PlexusTransport.Websocket.Liveness

/-! # The host's routes beside the socket

`Routed` splits a port's requests: the socket's path, and all that begins with the
metadata's well-known path, to the socket's checks and its upgrade; the rest, past the
`Host` check, to the host's router.
-/

namespace PlexusTransport.Websocket

open Http Net Proxy Text

/-- A request with its query. -/
structure Incoming extends Request where
  query : Option Text

structure Negotiated where
  batch : Nat
  deriving DecidableEq, Repr

/-- `str::parse::<usize>`. -/
def parseUsize (t : Text) : Option Nat :=
  let digits :=
    match t with
    | '+' :: c :: rest => c :: rest
    | t => t
  match readNumber 10 none true (2 ^ 64) digits with
  | some (n, []) => some n
  | _ => none

/-- What an upgrade offers of batches: the first `batch` of its query. -/
def batchOffer (maxBatch : Nat) (query : Option Text) : Nat :=
  let pairs := ((query.getD []).splitOn '&').map fun pair => (splitOnce '=' pair).getD (pair, [])
  match pairs.find? (·.1 = "batch".toList) with
  | none => 0
  | some (_, []) => maxBatch
  | some (_, n) => ((parseUsize n).map (min · maxBatch)).getD 0

/-- What is answered, and the socket that is opened with it. -/
structure Reply where
  response : Response
  opened : Option Negotiated
  deriving DecidableEq, Repr

/-- The codec's accept key, and the most items of a batch. -/
structure Upgrade where
  deriveAcceptKey : List UInt8 → String
  maxBatch : Nat

/-- `free`: the places left in the total. -/
def Upgrade.upgrade (u : Upgrade) (free : Nat) (req : Incoming) : Reply :=
  match Websocket.upgrade u.deriveAcceptKey (0 < free) req.toRequest with
  | .error refusal => ⟨refusal, none⟩
  | .ok switching => ⟨switching, some ⟨batchOffer u.maxBatch req.query⟩⟩

/-- The port's service with `HostRoutes`. -/
structure Routed where
  socket : CombinedAuthMiddleware
  upgrade : Upgrade
  routes : Incoming → Option ForwardedClient → Response
  socketPath : Text
  hosts : List Text
  proxies : TrustedProxies

namespace Routed

/-- As it is served: of the socket's hosts and proxies. -/
def new (socket : CombinedAuthMiddleware) (upgrade : Upgrade) (socketPath : Text)
    (routes : Incoming → Option ForwardedClient → Response) : Routed :=
  ⟨socket, upgrade, routes, socketPath, socket.allowedHosts, socket.proxies⟩

/-- The socket's checks, and the upgrade past them. -/
def serveSocket (r : Routed) (counts : Open) (free : Nat) (req : Incoming) : Open × Reply :=
  match r.socket.call counts req.toRequest with
  | (counts, .respond response) => (counts, ⟨response, none⟩)
  | (counts, .pass _) => (counts, r.upgrade.upgrade free req)

def call (r : Routed) (counts : Open) (free : Nat) (req : Incoming) : Open × Reply :=
  if req.path = r.socketPath ∨ wellKnownPath <+: req.path then r.serveSocket counts free req
  else
    match Host.refused r.hosts req.toRequest with
    | some _ => (counts, ⟨misdirected, none⟩)
    | none =>
        let client := req.conn.map fun conn => clientOf r.proxies conn req.headers
        (counts, ⟨r.routes req client, none⟩)

end Routed

/-- A GET of the metadata's own path, trailing slashes apart. -/
def Policy.Own (p : Policy) (req : Request) : Prop :=
  ∃ m, p.metadata = some m ∧ req.method = "GET" ∧ trimEndMatches '/' req.path = m.path

/-- The metadata as it is served. -/
def Prepared.document (m : Prepared) : Response :=
  ⟨200, [("content-type", "application/json"), ("access-control-allow-origin", "*"),
    ("cache-control", "max-age=3600")], m.body⟩

/-- The host router's answer, after the `Host` check. -/
def Routed.hostAnswer (r : Routed) (req : Incoming) : Reply :=
  match Host.refused r.hosts req.toRequest with
  | some _ => ⟨misdirected, none⟩
  | none => ⟨r.routes req (req.conn.map fun conn => clientOf r.proxies conn req.headers), none⟩

/-- What a port answers a request: a socket at its path, the metadata at its own, and the
    host router's answer to the rest. -/
structure Routed.Split (r : Routed) (req : Incoming) (reply : Reply) : Prop where
  opens : reply.opened.isSome = true → req.path = r.socketPath
  document : ∀ m, r.socket.policy.metadata = some m → reply.response = m.document →
    r.socket.policy.Own req.toRequest ∨ reply = r.hostAnswer req
  rest : req.path ≠ r.socketPath → ¬ r.socket.policy.Own req.toRequest → reply = r.hostAnswer req

/-- No request but the socket's and the metadata's own begins with the well-known path,
    unless it is refused for its host. -/
def Apart (socket : CombinedAuthMiddleware) (socketPath : Text) (req : Incoming) : Prop :=
  req.path = socketPath ∨ ¬ wellKnownPath <+: req.path ∨ socket.policy.Own req.toRequest ∨
    (Host.refused socket.allowedHosts req.toRequest).isSome = true

/-- A status the socket's side refuses with, or opens a socket with. -/
def Refuses (status : Nat) : Prop := 100 < status ∧ status ≠ 200

instance (status : Nat) : Decidable (Refuses status) := inferInstanceAs (Decidable (_ ∧ _))

section Socket

variable {m : CombinedAuthMiddleware} {counts : Open} {request : Request} {resp : Response}

theorem metadataResponse_eq {p : Policy} (asked : p.metadataResponse request = some resp) :
    ∃ m, p.metadata = some m ∧ p.Own request ∧ resp = m.document := by
  unfold Policy.metadataResponse at asked
  split at asked
  · cases asked
  · rename_i m configured
    obtain ⟨own, same⟩ := Option.ite_none_right_eq_some.mp asked
    cases same
    exact ⟨m, configured, ⟨m, configured, own⟩, rfl⟩

theorem metadataResponse_own {p : Policy} (own : p.Own request) :
    (p.metadataResponse request).isSome = true := by
  obtain ⟨m, configured, get, path⟩ := own
  simp [Policy.metadataResponse, configured, get, path]

theorem passOn_status {client : Option ForwardedClient} {ctx : Option AuthContext}
    (refused : (m.passOn counts request client ctx).2 = .respond resp) : resp.status = 429 := by
  unfold CombinedAuthMiddleware.passOn at refused
  dsimp only at refused
  split at refused
  · rename_i counts' response full
    cases refused
    unfold takeQuota at full
    split at full
    · cases full
    · split at full
      · cases full
      · split at full
        · cases full
        · split at full
          · cases full
          · cases full
            rfl
  · cases refused

theorem session_status {validator : SessionValidator} {client : Option ForwardedClient}
    (refused : (m.session validator counts request client).2 = .respond resp) :
    Refuses resp.status := by
  have passed : ∀ ctx, (m.passOn counts request client ctx).2 = .respond resp →
      Refuses resp.status := by
    intro ctx full
    rw [passOn_status full]
    decide
  have unauthorized : Refuses 401 := by decide
  unfold CombinedAuthMiddleware.session at refused
  dsimp only at refused
  split at refused
  · exact passed _ refused
  · split at refused
    · cases refused
      exact unauthorized
    · split at refused
      · exact passed _ refused
      · split at refused
        · cases refused
          exact unauthorized
        · exact passed _ refused

/-- What the checks answer: the metadata, to a GET of its path, or a refusal. -/
theorem call_status (answered : (m.call counts request).2 = .respond resp) :
    (∃ d, m.policy.metadata = some d ∧ m.policy.Own request ∧ resp = d.document) ∨
      Refuses resp.status := by
  unfold CombinedAuthMiddleware.call at answered
  dsimp only at answered
  split at answered
  · cases answered
    exact .inr (by decide)
  · split at answered
    · rename_i asked
      cases answered
      exact .inl (metadataResponse_eq asked)
    · right
      split at answered
      · cases answered
        decide
      · split at answered
        · rename_i refused
          cases answered
          rw [keyRefused_status refused]
          decide
        · split at answered
          · exact session_status answered
          · rw [passOn_status answered]
            decide

end Socket

theorem upgrade_status (u : Upgrade) (free : Nat) (req : Incoming) :
    Refuses (u.upgrade free req).response.status := by
  have switching : Refuses 101 := by decide
  unfold Upgrade.upgrade
  split
  · rename_i refusal refused
    unfold Websocket.upgrade at refused
    dsimp only at refused
    repeat' split at refused
    all_goals cases refused
    all_goals decide
  · rename_i resp opened
    unfold Websocket.upgrade at opened
    dsimp only at opened
    repeat' split at opened
    all_goals cases opened
    exact switching

namespace Routed

variable {r : Routed} {counts : Open} {free : Nat} {req : Incoming}

/-- The socket's service serves the metadata to a GET of its path, and refuses or opens a
    socket otherwise. -/
theorem serveSocket_status (r : Routed) (counts : Open) (free : Nat) (req : Incoming) :
    (∃ m, r.socket.policy.metadata = some m ∧ r.socket.policy.Own req.toRequest ∧
        (r.serveSocket counts free req).2 = ⟨m.document, none⟩) ∨
      Refuses (r.serveSocket counts free req).2.response.status := by
  unfold serveSocket
  split
  · rename_i counts' response answered
    obtain ⟨m, configured, own, same⟩ | refused := call_status (congrArg Prod.snd answered)
    · exact .inl ⟨m, configured, own, by rw [same]⟩
    · exact .inr refused
  · exact .inr (upgrade_status _ _ _)

theorem serveSocket_refused (host : (Host.refused r.socket.allowedHosts req.toRequest).isSome = true) :
    (r.serveSocket counts free req).2 = ⟨misdirected, none⟩ := by
  obtain ⟨name, refused⟩ := Option.isSome_iff_exists.mp host
  have answered : r.socket.call counts req.toRequest = (counts, .respond misdirected) := by
    unfold CombinedAuthMiddleware.call
    simp only [refused]
  rw [serveSocket, answered]

/-- No socket is opened at the metadata's own path. -/
theorem serveSocket_own (own : r.socket.policy.Own req.toRequest) :
    (r.serveSocket counts free req).2.opened = none := by
  obtain ⟨resp, asked⟩ := Option.isSome_iff_exists.mp (metadataResponse_own own)
  cases host : Host.refused r.socket.allowedHosts req.toRequest with
  | some name => rw [serveSocket_refused (by rw [host]; rfl)]
  | none =>
      have answered : r.socket.call counts req.toRequest = (counts, .respond resp) := by
        unfold CombinedAuthMiddleware.call
        simp only [host, asked]
      rw [serveSocket, answered]

theorem call_elsewhere (host : (Host.refused r.hosts req.toRequest).isSome = true ∨
      ¬ (req.path = r.socketPath ∨ wellKnownPath <+: req.path))
    (same : r.hosts = r.socket.allowedHosts) :
    (r.call counts free req).2 = r.hostAnswer req := by
  unfold call hostAnswer
  split
  · rename_i inside
    obtain refused | outside := host
    · rw [serveSocket_refused (same ▸ refused)]
      obtain ⟨name, refused⟩ := Option.isSome_iff_exists.mp refused
      rw [refused]
    · exact absurd inside outside
  · split <;> rfl

theorem hostAnswer_opened (req : Incoming) : (r.hostAnswer req).opened = none := by
  unfold hostAnswer
  split <;> rfl

/-- What the port answers is split as it is to be, whatever the host's router answers, if
    and only if the request does not only begin like the metadata's path. -/
theorem call_split (socket : CombinedAuthMiddleware) (upgrade : Upgrade) (socketPath : Text)
    (counts : Open) (free : Nat) (req : Incoming) :
    (∀ routes, (new socket upgrade socketPath routes).Split req
        ((new socket upgrade socketPath routes).call counts free req).2) ↔
      Apart socket socketPath req := by
  constructor
  · intro split
    by_contra apart
    simp only [Apart, not_or, not_not] at apart
    obtain ⟨elsewhere, inside, own, host⟩ := apart
    -- A router whose answer the socket's service never gives.
    let r := new socket upgrade socketPath fun _ _ => plain 0 ""
    have reply : (r.call counts free req).2 = ⟨plain 0 "", none⟩ := by
      rw [(split _).rest elsewhere own, hostAnswer]
      have none : Host.refused r.hosts req.toRequest = none := Option.not_isSome_iff_eq_none.mp host
      rw [none]
      rfl
    have served : r.call counts free req = r.serveSocket counts free req := if_pos (.inr inside)
    rw [served] at reply
    obtain ⟨m, configured, own', -⟩ | refuses :=
      serveSocket_status r counts free req
    · exact own own'
    · rw [reply] at refuses
      exact absurd refuses.1 (by decide)
  · intro apart routes
    let r := new socket upgrade socketPath routes
    by_cases elsewhere : (Host.refused r.hosts req.toRequest).isSome = true ∨
        ¬ (req.path = socketPath ∨ wellKnownPath <+: req.path)
    · have reply : (r.call counts free req).2 = r.hostAnswer req := call_elsewhere elsewhere rfl
      refine ⟨fun opened => ?_, fun _ _ _ => .inr reply, fun _ _ => reply⟩
      rw [reply, hostAnswer_opened] at opened
      cases opened
    · rw [not_or, not_not] at elsewhere
      obtain ⟨host, inside⟩ := elsewhere
      have served : r.call counts free req = r.serveSocket counts free req := if_pos inside
      rw [served]
      by_cases path : req.path = socketPath
      · refine ⟨fun _ => path, fun m configured same => ?_, fun other => absurd path other⟩
        obtain ⟨-, -, own, -⟩ | refuses :=
          serveSocket_status r counts free req
        · exact .inl own
        · rw [same] at refuses
          exact absurd rfl refuses.2
      · have own : socket.policy.Own req.toRequest := by
          obtain at' | outside | own | refused := apart
          · exact absurd at' path
          · exact absurd (inside.resolve_left path) outside
          · exact own
          · exact absurd refused host
        refine ⟨fun opened => ?_, fun _ _ _ => .inl own, fun _ other => absurd own other⟩
        rw [serveSocket_own (r := r) own] at opened
        cases opened

section Prefixed

/-- A port with no checks of its own. -/
def openPort : CombinedAuthMiddleware where
  apiKey := none
  apiKeyHeader := "x-plexus-api-key"
  sessionValidator := none
  rejectOnSessionFailure := false
  allowedOrigins := []
  allowedHosts := []
  policy := ⟨false, [], none⟩
  quotas := none
  proxies := ⟨[], true⟩

theorem valid_version : ∀ b ∈ ascii "13", isValid b = true := by decide +kernel

/-- An upgrade at this path. -/
def upgradeAt (path : String) : Incoming where
  toRequest := { Line.upgrading "13" valid_version [] with
    path := path.toList
    conn := some ⟨.v4 7, false⟩ }
  query := none

/-- A socket is opened at a path that only begins like the metadata's. -/
theorem prefixed_opens : ¬∀ (socket : CombinedAuthMiddleware) (upgrade : Upgrade)
    (socketPath : Text) (routes : Incoming → Option ForwardedClient → Response) (counts : Open)
    (free : Nat) (req : Incoming),
    (new socket upgrade socketPath routes).Split req
      ((new socket upgrade socketPath routes).call counts free req).2 := by
  intro split
  have split := split openPort ⟨fun _ => "", 1024⟩ "/ws".toList (fun _ _ => plain 404 "")
    Open.empty 1 (upgradeAt "/.well-known/oauth-protected-resource-status")
  have opens := split.opens (by decide +kernel)
  exact absurd opens (by decide)

end Prefixed

end Routed

end PlexusTransport.Websocket
