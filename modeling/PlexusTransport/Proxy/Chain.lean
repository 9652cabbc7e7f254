import PlexusTransport.Proxy

/-! # Chains of proxies

Each proxy of a chain appends to the lines it received what it knows of its
own caller. The client wrote what was there before.
-/

namespace PlexusTransport.Proxy

open Http Net Text

/-- What a proxy appends to a header: an entry with no comma in it, after a comma on
    the last line or on a line of its own. -/
structure Append where
  ownLine : Bool
  bytes : List UInt8
  text : Text
  spelled : toStr bytes = some text
  one : ',' ∉ text

namespace Append

/-- The entry as `list` reads it. -/
def entry (a : Append) : Text := trim a.text

def write (lines : List (List UInt8)) (a : Append) : List (List UInt8) :=
  match lines.getLast? with
  | none => [a.bytes]
  | some last =>
      if a.ownLine then lines ++ [a.bytes] else lines.dropLast ++ [last ++ 44 :: a.bytes]

end Append

/-- The last line does not read as text. -/
def unread (lines : List (List UInt8)) : Bool :=
  lines.getLast?.any fun last => (toStr last).isNone

theorem toStr_append_comma (line bytes : List UInt8) :
    toStr (line ++ 44 :: bytes) =
      (toStr line).bind fun t => (toStr bytes).map fun u => t ++ ',' :: u := by
  have comma : isVisibleAscii 44 = true := rfl
  cases left : line.all isVisibleAscii with
  | false => simp [toStr, List.all_append, left]
  | true =>
      cases right : bytes.all isVisibleAscii with
      | false => simp [toStr, List.all_append, left, right]
      | true =>
          simp only [toStr, List.all_append, List.all_cons, left, right, comma, Bool.and_self,
            if_true, List.map_append, List.map_cons, Option.bind_some, Option.map_some]
          rfl

@[simp] theorem entries_append (a b : List (List UInt8)) :
    entries (a ++ b) = entries a ++ entries b := by
  simp [entries]

theorem entries_own (a : Append) : entries [a.bytes] = [a.entry] := by
  simp [entries, a.spelled, List.splitOn_eq_singleton a.one, Append.entry]

theorem entries_comma (line : List UInt8) (a : Append) :
    entries [line ++ 44 :: a.bytes] =
      if (toStr line).isNone then [] else entries [line] ++ [a.entry] := by
  cases read : toStr line with
  | none => simp [entries, toStr_append_comma, read]
  | some t =>
      simp [entries, toStr_append_comma, read, a.spelled, List.splitOn_append_cons_self,
        List.splitOn_eq_singleton a.one, Append.entry]

theorem entries_unread {line : List UInt8} (none : toStr line = none) : entries [line] = [] := by
  simp [entries, none]

/-- An entry after a comma is lost with a line that does not read as text. -/
theorem entries_write (lines : List (List UInt8)) (a : Append) :
    entries (a.write lines) =
      if !a.ownLine && unread lines then entries lines else entries lines ++ [a.entry] := by
  cases lines using List.reverseRecOn with
  | nil =>
      rw [unread, List.getLast?_nil, Option.any_none, Bool.and_false]
      exact entries_own a
  | append_singleton front last =>
      have whole : (front ++ [last]).getLast? = some last := by simp
      simp only [Append.write, unread, whole, Option.any_some, List.dropLast_concat]
      cases a.ownLine with
      | true =>
          rw [if_pos rfl, Bool.not_true, Bool.false_and, if_neg Bool.false_ne_true,
            entries_append _ [a.bytes], entries_own]
      | false =>
          simp only [Bool.false_eq_true, if_false, Bool.not_false, Bool.true_and, entries_append,
            entries_comma]
          cases read : toStr last with
          | none => simp [entries_unread read]
          | some t => simp

theorem unread_write (lines : List (List UInt8)) (a : Append) :
    unread (a.write lines) = (!a.ownLine && unread lines) := by
  have own : unread [a.bytes] = false := by simp [unread, a.spelled]
  cases lines using List.reverseRecOn with
  | nil => simpa [unread, Append.write] using own
  | append_singleton front last =>
      have whole : (front ++ [last]).getLast? = some last := by simp
      cases ownLine : a.ownLine with
      | true => simp [Append.write, unread, whole, ownLine, a.spelled]
      | false =>
          simp only [Append.write, unread, whole, ownLine, Bool.false_eq_true, if_false,
            List.dropLast_concat, List.getLast?_concat, Option.any_some, toStr_append_comma,
            a.spelled]
          cases toStr last <;> rfl

/-- Once the last line reads as text, no later entry is lost. -/
theorem entries_writes {lines : List (List UInt8)} (read : unread lines = false)
    (as : List Append) :
    entries (as.foldl Append.write lines) = entries lines ++ as.map Append.entry := by
  induction as generalizing lines with
  | nil => simp
  | cons a as ih =>
      have next : unread (a.write lines) = false := by rw [unread_write, read, Bool.and_false]
      rw [List.foldl_cons, ih next, entries_write, read]
      simp

/-- After a line that does not read as text, the entries are lost up to the first one
    on a line of its own. -/
theorem entries_lost {lines : List (List UInt8)} (stuck : unread lines = true)
    (as : List Append) :
    ∃ kept, kept <:+ as ∧
      entries (as.foldl Append.write lines) = entries lines ++ kept.map Append.entry := by
  induction as generalizing lines with
  | nil => exact ⟨[], List.suffix_refl [], by simp⟩
  | cons a as ih =>
      rw [List.foldl_cons]
      cases ownLine : a.ownLine with
      | true =>
          have next : unread (a.write lines) = false := by rw [unread_write, ownLine]; rfl
          refine ⟨a :: as, List.suffix_refl _, ?_⟩
          rw [entries_writes next, entries_write, ownLine]
          simp
      | false =>
          have next : unread (a.write lines) = true := by rw [unread_write, ownLine, stuck]; rfl
          obtain ⟨kept, suffix, same⟩ := ih next
          refine ⟨kept, suffix.trans (List.suffix_cons a as), ?_⟩
          rw [same, entries_write, ownLine, stuck]
          rfl

/-- The entries of a chain are all there, once the first lands on a line that is read. -/
theorem entries_kept {mine : List (List UInt8)} {first : Append} (later : List Append)
    (kept : first.ownLine = true ∨ unread mine = false) :
    entries ((first :: later).foldl Append.write mine) =
      entries mine ++ first.entry :: later.map Append.entry := by
  have read : (!first.ownLine && unread mine) = false := by
    rcases kept with own | read
    · rw [own]
      rfl
    · rw [read, Bool.and_false]
  have next : unread (first.write mine) = false := by rw [unread_write, read]
  rw [List.foldl_cons, entries_writes next, entries_write, read]
  simp

namespace TrustedProxies

variable (p : TrustedProxies)

/-- A hop that is a trusted proxy. -/
def Trusted (hop : Text) : Prop := ∃ ip, parseHop hop = some ip ∧ p.contains ip = true

/-- The walk from the right of these hops. -/
def walkBack (hops : List Text) (nearest : IpAddr × Option Nat) : IpAddr × Option Nat :=
  p.walk hops.zipIdx.reverse nearest

theorem walkBack_concat (hops : List Text) (hop : Text) (nearest : IpAddr × Option Nat) :
    p.walkBack (hops ++ [hop]) nearest =
      match parseHop hop with
      | some ip =>
          if p.contains ip then p.walkBack hops (ip, some hops.length)
          else (ip, some hops.length)
      | none => nearest := by
  rw [walkBack, List.zipIdx_append, List.reverse_append, Nat.zero_add]
  rfl

theorem walkBack_trusted (hops : List Text) {later : List Text}
    (trusted : ∀ hop ∈ later, p.Trusted hop) {nearest : IpAddr × Option Nat}
    (mine : p.contains nearest.1 = true) :
    ∃ nearest', p.contains nearest'.1 = true ∧
      p.walkBack (hops ++ later) nearest = p.walkBack hops nearest' := by
  induction later using List.reverseRecOn generalizing nearest with
  | nil => exact ⟨nearest, mine, by simp⟩
  | append_singleton later hop ih =>
      obtain ⟨ip, reads, inside⟩ := trusted hop (by simp)
      have earlier : ∀ hop ∈ later, p.Trusted hop := by
        intro hop mem
        exact trusted hop (by simp [mem])
      have back := @ih earlier (ip, some (hops ++ later).length) inside
      rw [← List.append_assoc, walkBack_concat, reads]
      simpa [inside] using back

/-- The walk stops at the first hop from the right that is no trusted proxy. -/
theorem walkBack_client (hops : List Text) {hop : Text} {later : List Text} {client : IpAddr}
    (reads : parseHop hop = some client) (outside : p.contains client = false)
    (trusted : ∀ hop ∈ later, p.Trusted hop) {nearest : IpAddr × Option Nat}
    (mine : p.contains nearest.1 = true) :
    p.walkBack (hops ++ hop :: later) nearest = (client, some hops.length) := by
  obtain ⟨nearest', -, skipped⟩ := p.walkBack_trusted (hops ++ [hop]) trusted mine
  rw [List.append_assoc, List.singleton_append] at skipped
  rw [skipped, walkBack_concat, reads]
  simp [outside]

/-- The rightmost of these hops that is no trusted proxy reads as this address. -/
def Names (hops : List Text) (client : IpAddr) : Prop :=
  ∃ front hop later, hops = front ++ hop :: later ∧ parseHop hop = some client ∧
    ∀ hop ∈ later, p.Trusted hop

theorem walkBack_names (hops : List Text) {client : IpAddr} (outside : p.contains client = false)
    {nearest : IpAddr × Option Nat} (mine : p.contains nearest.1 = true) :
    (p.walkBack hops nearest).1 = client ↔ p.Names hops client := by
  constructor
  · intro named
    induction hops using List.reverseRecOn generalizing nearest with
    | nil =>
        have same : nearest.1 = client := named
        rw [same, outside] at mine
        contradiction
    | append_singleton hops hop ih =>
        rw [walkBack_concat] at named
        cases reads : parseHop hop with
        | none =>
            simp only [reads] at named
            rw [named, outside] at mine
            contradiction
        | some ip =>
            simp only [reads] at named
            cases inside : p.contains ip with
            | false =>
                simp only [inside, Bool.false_eq_true, if_false] at named
                exact ⟨hops, hop, [], rfl, named ▸ reads, by simp⟩
            | true =>
                simp only [inside, if_true] at named
                obtain ⟨front, hop', later, rfl, reads', trusted⟩ := ih inside named
                refine ⟨front, hop', later ++ [hop], by simp, reads', ?_⟩
                intro other mem
                rcases List.mem_append.mp mem with mem | mem
                · exact trusted other mem
                · cases List.mem_singleton.mp mem
                  exact ⟨ip, reads, inside⟩
  · rintro ⟨front, hop, later, rfl, reads, trusted⟩
    rw [p.walkBack_client front reads outside trusted mine]

end TrustedProxies

/-- A proxy of a chain, as it records who called it. -/
structure Leg where
  caller : IpAddr
  hop : Append
  records : parseHop hop.entry = some (canonical caller)

/-- A client that is no trusted proxy, behind one or more that are: each calls the
    next, and the last of them calls us. -/
structure Chain (p : TrustedProxies) where
  first : Leg
  later : List Leg
  outside : p.contains first.caller = false
  inside : ∀ leg ∈ later, p.contains leg.caller = true

namespace Chain

variable {p : TrustedProxies}

def client (c : Chain p) : IpAddr := canonical c.first.caller

/-- The lines that reach us, when the client sent these. -/
def lines (c : Chain p) (mine : List (List UInt8)) : List (List UInt8) :=
  (c.first.hop :: c.later.map Leg.hop).foldl Append.write mine

theorem client_outside (c : Chain p) : p.contains c.client = false := by
  rw [client, TrustedProxies.contains_canonical, c.outside]

theorem later_trusted (c : Chain p) :
    ∀ hop ∈ (c.later.map Leg.hop).map Append.entry, p.Trusted hop := by
  intro hop mem
  simp only [List.map_map, List.mem_map] at mem
  obtain ⟨leg, mem, rfl⟩ := mem
  refine ⟨_, leg.records, ?_⟩
  rw [TrustedProxies.contains_canonical, c.inside leg mem]

/-- The client's entry is lost with the line it lands on. -/
def Swallowed (c : Chain p) (mine : List (List UInt8)) : Prop :=
  c.first.hop.ownLine = false ∧ unread mine = true

theorem entries_lines (c : Chain p) {mine : List (List UInt8)} (kept : ¬ c.Swallowed mine) :
    entries (c.lines mine) =
      entries mine ++ c.first.hop.entry :: (c.later.map Leg.hop).map Append.entry := by
  apply entries_kept
  cases own : c.first.hop.ownLine <;> simp_all [Swallowed]

theorem entries_swallowed (c : Chain p) {mine : List (List UInt8)} (swallowed : c.Swallowed mine) :
    ∃ later, (∀ hop ∈ later, p.Trusted hop) ∧
      entries (c.lines mine) = entries mine ++ later := by
  obtain ⟨comma, stuck⟩ := swallowed
  have lost : (!c.first.hop.ownLine && unread mine) = true := by rw [comma, stuck]; rfl
  have next : unread (c.first.hop.write mine) = true := by rw [unread_write, lost]
  obtain ⟨kept, suffix, same⟩ := entries_lost next (c.later.map Leg.hop)
  refine ⟨kept.map Append.entry, ?_, ?_⟩
  · intro hop mem
    exact c.later_trusted hop ((suffix.map Append.entry).subset mem)
  · rw [lines, List.foldl_cons, same, entries_write, lost]
    rfl

end Chain

theorem resolve_untrusted {p : TrustedProxies} {peer : IpAddr} (stranger : p.contains peer = false)
    (h : HeaderMap) :
    p.resolve peer h =
      ⟨canonical peer, canonical peer, false, !p.behindProxy && (canonical peer).isLoopback⟩ := by
  rw [TrustedProxies.resolve, TrustedProxies.contains_canonical, stranger]
  rfl

theorem resolve_trusted {p : TrustedProxies} {peer : IpAddr} (proxy : p.contains peer = true)
    (h : HeaderMap) :
    (p.resolve peer h).ip =
      (p.walkBack (list h "x-forwarded-for") (canonical peer, none)).1 := by
  rw [TrustedProxies.resolve, TrustedProxies.contains_canonical, proxy]
  rfl

/-- What a chain of trusted proxies forwards names the client, whatever it sent, unless
    the first entry is lost with a line of the client's that does not read as text; then
    only what is left of the client's own lines can name it. Headers of anyone else are
    not looked at. -/
theorem resolve_client (p : TrustedProxies) (peer : IpAddr) :
    (p.contains peer = false → ∀ h h', p.resolve peer h = p.resolve peer h') ∧
    (p.contains peer = true → ∀ (c : Chain p) (mine : List (List UInt8)) (h : HeaderMap),
      (h.getAll "x-forwarded-for").map (·.bytes) = c.lines mine →
        ((p.resolve peer h).ip = c.client ↔
          ¬ c.Swallowed mine ∨ p.Names (entries mine) c.client)) := by
  constructor
  · intro stranger h h'
    rw [resolve_untrusted stranger, resolve_untrusted stranger]
  · intro proxy c mine h sent
    have nearest : p.contains (canonical peer, (none : Option Nat)).1 = true := by
      rw [TrustedProxies.contains_canonical, proxy]
    rw [resolve_trusted proxy, list, sent]
    by_cases swallowed : c.Swallowed mine
    · obtain ⟨later, trusted, same⟩ := c.entries_swallowed swallowed
      obtain ⟨nearest', mine', skipped⟩ := p.walkBack_trusted (entries mine) trusted nearest
      rw [same, skipped, p.walkBack_names _ c.client_outside mine']
      simp [swallowed]
    · have named := p.walkBack_client (entries mine) c.first.records c.client_outside
        c.later_trusted nearest
      rw [c.entries_lines swallowed]
      simp only [swallowed, not_false_eq_true, true_or, iff_true]
      exact congrArg Prod.fst named

/-- `10.0.0.0/8` is trusted. -/
def edge : TrustedProxies := ⟨[.v4 0x0a000000#32 8], false⟩

/-- `203.0.113.9`, behind `10.0.0.9`, behind the proxy that calls us. -/
def visitor : Chain edge where
  first :=
    ⟨.v4 0xcb007109#32,
      ⟨false, ascii "203.0.113.9", "203.0.113.9".toList, by decide +kernel, by decide⟩,
      by decide +kernel⟩
  later :=
    [⟨.v4 0x0a000009#32,
      ⟨false, ascii " 10.0.0.9:443", " 10.0.0.9:443".toList, by decide +kernel, by decide⟩,
      by decide +kernel⟩]
  outside := by decide +kernel
  inside := by decide +kernel

def claimed : HeaderMap :=
  ⟨[("x-forwarded-for", ⟨ascii "6.6.6.6,203.0.113.9, 10.0.0.9:443", by decide +kernel⟩)]⟩

theorem resolve_client_claimed :
    (edge.resolve (.v4 0x0a000001#32) claimed).ip = .v4 0xcb007109#32 := by
  have read : ¬ visitor.Swallowed [ascii "6.6.6.6"] := by
    intro swallowed
    exact absurd swallowed.2 (by decide +kernel)
  have proxy : edge.contains (.v4 0x0a000001#32) = true := by decide +kernel
  exact ((resolve_client edge (.v4 0x0a000001#32)).2 proxy visitor [ascii "6.6.6.6"] claimed
    (by decide +kernel)).mpr (.inl read)

/-- The client's last line is no text: the proxies' entries go with it, and the client
    names itself. -/
def forged : HeaderMap :=
  ⟨[("x-forwarded-for", ⟨ascii "6.6.6.6", by decide +kernel⟩),
    ("x-forwarded-for", ⟨0x80 :: ascii ",203.0.113.9, 10.0.0.9:443", by decide +kernel⟩)]⟩

theorem resolve_forged :
    edge.contains (.v4 0x0a000001#32) = true ∧
      (forged.getAll "x-forwarded-for").map (·.bytes) =
        visitor.lines [ascii "6.6.6.6", [0x80]] ∧
      visitor.client = .v4 0xcb007109#32 ∧
      (edge.resolve (.v4 0x0a000001#32) forged).ip = .v4 0x06060606#32 := by
  decide +kernel

/-- The scheme is the one the proxy nearest the client recorded, if the client sent as
    many hops as schemes, and else the one the proxy nearest us recorded. -/
theorem resolve_secure {p : TrustedProxies} {peer : IpAddr} (proxy : p.contains peer = true)
    (c : Chain p) (nearest : Append) (others : List Append)
    (each : others.length = c.later.length) {hops schemes : List (List UInt8)}
    (kept : ¬ c.Swallowed hops) (kept' : nearest.ownLine = true ∨ unread schemes = false)
    {h : HeaderMap} (sent : (h.getAll "x-forwarded-for").map (·.bytes) = c.lines hops)
    (sent' : (h.getAll "x-forwarded-proto").map (·.bytes) =
      (nearest :: others).foldl Append.write schemes) :
    (p.resolve peer h).secure =
      if (entries hops).length = (entries schemes).length then isSecure nearest.entry
      else isSecure ((nearest :: others).getLast (by simp)).entry := by
  have hopList := c.entries_lines kept
  have protoList := entries_kept others kept'
  rw [← sent] at hopList
  rw [← sent'] at protoList
  have mine : p.contains (canonical peer, (none : Option Nat)).1 = true := by
    rw [TrustedProxies.contains_canonical, proxy]
  have walked := p.walkBack_client (entries hops) c.first.records c.client_outside
    c.later_trusted mine
  rw [← hopList] at walked
  have long : (list h "x-forwarded-proto").length = (list h "x-forwarded-for").length ↔
      (entries hops).length = (entries schemes).length := by
    simp only [list, hopList, protoList, List.length_append, List.length_cons, List.length_map]
    omega
  have secure : (p.resolve peer h).secure =
      (if (entries hops).length = (entries schemes).length
        then (list h "x-forwarded-proto")[(entries hops).length]?
        else (list h "x-forwarded-proto").getLast?).any isSecure := by
    rw [TrustedProxies.resolve, TrustedProxies.contains_canonical, proxy]
    simp only [TrustedProxies.walkBack] at walked
    simp only [Bool.not_true, Bool.false_eq_true, if_false, list, walked]
    simp only [list] at long
    simp only [long]
  rw [secure, list, protoList]
  split
  · rename_i same
    rw [same]
    simp
  · have last : (entries schemes ++ nearest.entry :: others.map Append.entry).getLast? =
        some ((nearest :: others).getLast (by simp)).entry := by
      rw [← List.map_cons, List.getLast?_append_of_ne_nil _ (by simp), List.getLast?_map,
        List.getLast?_eq_getLast_of_ne_nil (by simp)]
      rfl
    rw [last]
    rfl

def overHttps : Append :=
  ⟨false, ascii "https", "https".toList, by decide +kernel, by decide⟩

def overHttp : Append :=
  ⟨false, ascii " http", " http".toList, by decide +kernel, by decide⟩

/-- `https` from the client, `http` between the proxies; the client sent a hop and a scheme
    of its own. -/
def mixed : HeaderMap :=
  ⟨[("x-forwarded-for", ⟨ascii "6.6.6.6,203.0.113.9, 10.0.0.9:443", by decide +kernel⟩),
    ("x-forwarded-proto", ⟨ascii "http,https, http", by decide +kernel⟩)]⟩

theorem resolve_secure_mixed : (edge.resolve (.v4 0x0a000001#32) mixed).secure = true := by
  have kept : ¬ visitor.Swallowed [ascii "6.6.6.6"] := by
    intro swallowed
    exact absurd swallowed.2 (by decide +kernel)
  have proxy : edge.contains (.v4 0x0a000001#32) = true := by decide +kernel
  have kept' : overHttps.ownLine = true ∨ unread [ascii "http"] = false :=
    .inr (by decide +kernel)
  exact (resolve_secure proxy visitor overHttps [overHttp] rfl kept kept'
    (by decide +kernel) (by decide +kernel)).trans (by decide +kernel)

/-- The same with the client's hop alone. -/
def lengthened : HeaderMap :=
  ⟨[("x-forwarded-for", ⟨ascii "6.6.6.6,203.0.113.9, 10.0.0.9:443", by decide +kernel⟩),
    ("x-forwarded-proto", ⟨ascii "https, http", by decide +kernel⟩)]⟩

theorem resolve_lengthened :
    edge.contains (.v4 0x0a000001#32) = true ∧
      (lengthened.getAll "x-forwarded-for").map (·.bytes) = visitor.lines [ascii "6.6.6.6"] ∧
      (lengthened.getAll "x-forwarded-proto").map (·.bytes) =
        [overHttps, overHttp].foldl Append.write [] ∧
      isSecure overHttps.entry = true ∧
      (edge.resolve (.v4 0x0a000001#32) lengthened).secure = false := by
  decide +kernel

end PlexusTransport.Proxy
