import PlexusTransport.Websocket.Routed

/-! # The metadata's URL

The URL a challenge names is made in one place, the path it is served at compared in
another.
-/

namespace PlexusTransport.Websocket

open Http Net Proxy Text

/-- The metadata, prepared once. -/
def Prepared.of (p : ProtectedResource) : Prepared :=
  ⟨p.metadataPath, String.ofList p.metadataUrl, String.ofList p.toJson⟩

/-- A character a header value may hold. -/
def isHeaderText (c : Char) : Bool := (32 ≤ c.toNat && c.toNat != 127) || c == '\t'

/-- The challenge of an answer has this URL in it, verbatim and between quotes. -/
def NamesUrl (resp : Response) (url : Text) : Prop :=
  ∃ challenge front, ("www-authenticate", challenge) ∈ resp.headers ∧
    challenge.toList = front ++ "resource_metadata=\"".toList ++ url ++ ['"']

/-- What a quoted string reads as, past its opening quote: a backslash stands for the
    character after it. -/
def unquoted : Text → Option Text
  | [] => none
  | '"' :: _ => some []
  | '\\' :: c :: rest => (unquoted rest).map (c :: ·)
  | c :: rest => (unquoted rest).map (c :: ·)

/-- The challenge of an answer has a quoted string in it that reads as this URL. -/
def ReadsUrl (resp : Response) (url : Text) : Prop :=
  ∃ challenge front quoted, ("www-authenticate", challenge) ∈ resp.headers ∧
    challenge.toList = front ++ "resource_metadata=\"".toList ++ quoted ∧
      unquoted quoted = some url

theorem unquoted_verbatim {url : Text} (quote : '"' ∉ url) (escape : '\\' ∉ url) :
    unquoted (url ++ ['"']) = some url := by
  induction url with
  | nil => rfl
  | cons c rest ih =>
      rw [List.mem_cons, not_or] at quote escape
      rw [List.cons_append, unquoted]
      · rw [ih quote.2 escape.2]
        rfl
      · exact fun same => quote.1 same.symm
      · exact fun _ _ same => absurd same.symm escape.1

theorem NamesUrl.reads {resp : Response} {url : Text} (names : NamesUrl resp url)
    (quote : '"' ∉ url) (escape : '\\' ∉ url) : ReadsUrl resp url := by
  obtain ⟨challenge, front, sent, text⟩ := names
  refine ⟨challenge, front, url ++ ['"'], sent, ?_, unquoted_verbatim quote escape⟩
  rw [text, List.append_assoc _ url]

/-- A GET of this path, with or without trailing slashes. -/
def Asks (path : Text) (req : Request) : Prop :=
  req.method = "GET" ∧ ∃ n, req.path = path ++ List.replicate n '/'

/-- The URL named is the URL served, and no other; one that is no header value is not named.
    Without a quote or a backslash in it, it is what the quoted string reads as, too. -/
structure Advertised (socket : CombinedAuthMiddleware) (p : ProtectedResource) (origin path : Text) :
    Prop where
  url : p.metadataUrl = origin ++ path
  named : p.metadataUrl.all isHeaderText = true → ∀ body presented,
    NamesUrl (socket.policy.sessionUnauthorized body presented) p.metadataUrl
  read : p.metadataUrl.all isHeaderText = true → '"' ∉ p.metadataUrl → '\\' ∉ p.metadataUrl →
    ∀ body presented, ReadsUrl (socket.policy.sessionUnauthorized body presented) p.metadataUrl
  unnamed : p.metadataUrl.all isHeaderText = false → ∀ body presented,
    socket.policy.sessionUnauthorized body presented = unauthorized body
  served : ∀ req, Asks path req →
    socket.policy.metadataResponse req = some (Prepared.of p).document
  alone : ∀ req, ¬ Asks path req → socket.policy.metadataResponse req = none
  handed : ∀ (upgrade : Upgrade) (socketPath : Text)
      (routes : Incoming → Option ForwardedClient → Response) (counts : Open) (free : Nat)
      (req : Incoming), Asks path req.toRequest →
    let r := Routed.new socket upgrade socketPath routes
    r.call counts free req = r.serveSocket counts free req ∧
      (Host.refused socket.allowedHosts req.toRequest = none →
        r.call counts free req = (counts, ⟨(Prepared.of p).document, none⟩))

section Paths

variable {t u : Text}

/-- What is before the slashes at a text's end. -/
theorem trimEndMatches_eq (bare : u.getLast? ≠ some '/') :
    trimEndMatches '/' t = u ↔ ∃ n, t = u ++ List.replicate n '/' := by
  constructor
  · rintro rfl
    refine ⟨(t.rtakeWhile (· == '/')).length, ?_⟩
    have slashes : t.rtakeWhile (· == '/') = List.replicate (t.rtakeWhile (· == '/')).length '/' := by
      rw [List.eq_replicate_iff]
      exact ⟨rfl, fun c mem => by simpa using List.mem_rtakeWhile_imp mem⟩
    rw [← slashes]
    exact List.rdropWhile_append_rtakeWhile.symm
  · rintro ⟨n, rfl⟩
    induction n with
    | zero =>
        rw [List.replicate_zero, List.append_nil, trimEndMatches, List.rdropWhile_eq_self_iff]
        intro some last
        rw [List.getLast?_eq_some_getLast some] at bare
        exact bare (congrArg _ (by simpa using last))
    | succ n ih =>
        rw [List.replicate_succ', ← List.append_assoc, trimEndMatches,
          List.rdropWhile_concat_pos _ _ _ (by simp)]
        exact ih

theorem trimEndMatches_bare (t : Text) : (trimEndMatches '/' t).getLast? ≠ some '/' := by
  intro last
  have some : t.rdropWhile (· == '/') ≠ [] := by
    intro none
    rw [trimEndMatches, none] at last
    cases last
  have other := List.rdropWhile_last_not _ _ some
  rw [trimEndMatches, List.getLast?_eq_some_getLast some, Option.some.injEq] at last
  exact other (by rw [last]; rfl)

/-- The path of the URL: the well-known one, and what is the resource's own of it. -/
def urlPath (path : Text) : Text := wellKnownPath ++ trimEndMatches '/' path

theorem urlPath_bare (path : Text) : (urlPath path).getLast? ≠ some '/' := by
  unfold urlPath
  cases own : trimEndMatches '/' path with
  | nil => decide +kernel
  | cons c rest =>
      have bare := trimEndMatches_bare path
      rw [own] at bare
      rwa [List.getLast?_append_of_ne_nil _ (List.cons_ne_nil c rest)]

end Paths

section Advertised

variable {socket : CombinedAuthMiddleware} {p : ProtectedResource} {r : ResourceParts}

theorem metadataPath_parts (resource : p.resource = r.text) : p.metadataPath = urlPath r.path := by
  rw [ProtectedResource.metadataPath, resource, r.splitOrigin_text]
  rfl

theorem metadataUrl_parts (resource : p.resource = r.text) :
    p.metadataUrl = r.origin ++ urlPath r.path := by
  rw [ProtectedResource.metadataUrl, metadataPath_parts resource, resource, r.splitOrigin_text]

theorem own_iff (resource : p.resource = r.text)
    (configured : socket.policy.metadata = some (.of p)) (req : Request) :
    socket.policy.Own req ↔ Asks (urlPath r.path) req := by
  have path : (Prepared.of p).path = urlPath r.path := metadataPath_parts resource
  unfold Policy.Own Asks
  rw [configured]
  simp [path, trimEndMatches_eq (urlPath_bare r.path)]

/-- A GET of the path is answered with the document. -/
theorem served_document (resource : p.resource = r.text)
    (configured : socket.policy.metadata = some (.of p)) {req : Request}
    (asks : Asks (urlPath r.path) req) :
    socket.policy.metadataResponse req = some (Prepared.of p).document := by
  have own := (own_iff resource configured req).mpr asks
  obtain ⟨resp, answered⟩ := Option.isSome_iff_exists.mp (metadataResponse_own own)
  obtain ⟨m, same, -, rfl⟩ := metadataResponse_eq answered
  cases configured.symm.trans same
  exact answered

/-- A challenge that is a header value is sent as it is, another is not sent. -/
theorem unauthorizedWith_eq (body challenge : String) :
    unauthorizedWith body challenge =
      ⟨401, [("www-authenticate", if challenge.toList.all isHeaderText then challenge
        else "Bearer realm=\"plexus\""), ("content-type", "text/plain")], body⟩ := rfl

/-- The challenge made for a session's refusal: some text of the server's own, then the URL. -/
theorem sessionUnauthorized_eq {policy : Policy} {m : Prepared}
    (configured : policy.metadata = some m) (body : String) (presented : Bool) :
    ∃ challenge front, policy.sessionUnauthorized body presented = unauthorizedWith body challenge ∧
      challenge.toList = front ++ "resource_metadata=\"".toList ++ m.url.toList ++ ['"'] ∧
        front.all isHeaderText = true := by
  let base := if presented then "Bearer realm=\"plexus\"" ++ ", error=\"invalid_token\""
    else "Bearer realm=\"plexus\""
  have plain : (base.toList ++ ", ".toList).all isHeaderText = true := by
    cases presented <;> decide +kernel
  refine ⟨base ++ s!", resource_metadata=\"{m.url}\"", base.toList ++ ", ".toList, ?_, ?_, plain⟩
  · unfold Policy.sessionUnauthorized
    rw [configured]
  · simp [toString]

end Advertised

/-- The metadata is advertised where it is served, for every resource. -/
theorem metadata_advertised (socket : CombinedAuthMiddleware) (p : ProtectedResource)
    (r : ResourceParts) (resource : p.resource = r.text)
    (configured : socket.policy.metadata = some (.of p)) :
    Advertised socket p r.origin (urlPath r.path) := by
  have url : (Prepared.of p).url.toList = p.metadataUrl := String.toList_ofList
  have quoted : "resource_metadata=\"".toList.all isHeaderText = true ∧
      ['"'].all isHeaderText = true := by decide +kernel
  have named : p.metadataUrl.all isHeaderText = true → ∀ body presented,
      NamesUrl (socket.policy.sessionUnauthorized body presented) p.metadataUrl := by
    intro valid body presented
    obtain ⟨challenge, front, same, text, plain⟩ := sessionUnauthorized_eq configured body presented
    rw [url] at text
    have sent : challenge.toList.all isHeaderText = true := by
      simp only [text, List.all_append, plain, quoted, valid, Bool.and_true]
    rw [same, unauthorizedWith_eq, if_pos sent]
    exact ⟨challenge, front, .head _, text⟩
  refine ⟨metadataUrl_parts resource, named,
    fun valid quote escape body presented => (named valid body presented).reads quote escape,
    fun invalid body presented => ?_, fun req asks => served_document resource configured asks,
    fun req other => ?_, fun upgrade socketPath routes counts free req asks => ?_⟩
  · obtain ⟨challenge, front, same, text, -⟩ := sessionUnauthorized_eq configured body presented
    rw [url] at text
    have unsent : challenge.toList.all isHeaderText = false := by
      simp only [text, List.all_append, invalid, Bool.and_false, Bool.false_and]
    rw [same, unauthorizedWith_eq, unsent]
    rfl
  · cases answered : socket.policy.metadataResponse req with
    | none => rfl
    | some resp =>
        obtain ⟨m, -, own, -⟩ := metadataResponse_eq answered
        exact absurd ((own_iff resource configured req).mp own) other
  · obtain ⟨n, path⟩ := asks.2
    have inside : wellKnownPath <+: req.path := by
      rw [path, urlPath, List.append_assoc]
      exact List.prefix_append _ _
    have handed : (Routed.new socket upgrade socketPath routes).call counts free req =
        (Routed.new socket upgrade socketPath routes).serveSocket counts free req :=
      if_pos (.inr inside)
    refine ⟨handed, fun host => ?_⟩
    have answered : socket.call counts req.toRequest =
        (counts, .respond (Prepared.of p).document) := by
      unfold CombinedAuthMiddleware.call
      simp only [host, served_document resource configured asks]
    rw [handed, Routed.serveSocket]
    simp only [Routed.new, answered]

section Unfit

/-- A resource of its own, with no authorization server. -/
def protecting (r : ResourceParts) : ProtectedResource := ⟨r.text, [], none, ["header".toList]⟩

def protectedPort (r : ResourceParts) : CombinedAuthMiddleware :=
  { Routed.openPort with policy := ⟨false, [], some (.of (protecting r))⟩ }

/-- `https://h.example/api/?q`. -/
def api : ResourceParts :=
  ⟨"https".toList, "h.example".toList, "/api/".toList, "?q".toList, by decide, by decide, by decide,
    by decide⟩

theorem metadata_advertised_api :
    Advertised (protectedPort api) (protecting api) api.origin (urlPath api.path) :=
  metadata_advertised (protectedPort api) (protecting api) api rfl rfl

/-- An authority with a line's end. -/
def unfit : ResourceParts :=
  ⟨"http".toList, ['h', '\n'], [], [], by decide, by decide, by decide, by decide⟩

/-- Such a URL is no part of a header value, and the challenge is sent without it. -/
theorem metadata_unnamed : ¬∀ (socket : CombinedAuthMiddleware) (p : ProtectedResource)
    (r : ResourceParts), p.resource = r.text → socket.policy.metadata = some (.of p) →
      ∀ body presented,
        NamesUrl (socket.policy.sessionUnauthorized body presented) p.metadataUrl := by
  intro named
  obtain ⟨challenge, front, sent, text⟩ :=
    named (protectedPort unfit) (protecting unfit) unfit rfl rfl "" false
  have headers : ((protectedPort unfit).policy.sessionUnauthorized "" false).headers =
      [("www-authenticate", "Bearer realm=\"plexus\""), ("content-type", "text/plain")] := by
    decide +kernel
  have plain : challenge = "Bearer realm=\"plexus\"" := by simpa [headers] using sent
  have url : 21 < (protecting unfit).metadataUrl.length := by decide +kernel
  have short : "Bearer realm=\"plexus\"".toList.length = 21 := by decide +kernel
  have long := congrArg List.length text
  rw [plain] at long
  simp only [List.length_append] at long
  omega

end Unfit

end PlexusTransport.Websocket
