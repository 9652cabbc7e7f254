import PlexusTransport.Lib.Text

/-! # OAuth 2.0 Protected Resource Metadata

Where a resource's metadata is: at the well-known path, followed by the resource's own path.
-/

namespace PlexusTransport

open Text

def wellKnownPath : Text := "/.well-known/oauth-protected-resource".toList

structure ProtectedResource where
  resource : Text
  authorizationServers : List Text
  scopesSupported : Option (List Text)
  bearerMethodsSupported : List Text

/-- `("scheme://authority", "/path…")`: query and fragment dropped. -/
def splitOrigin (resource : Text) : Text × Text :=
  let resource := resource.takeWhile fun c => c ≠ '?' && c ≠ '#'
  let afterScheme := ((find "://".toList resource).map (· + 3)).getD 0
  match (resource.drop afterScheme).findIdx? (· = '/') with
  | some i => resource.splitAt (afterScheme + i)
  | none => (resource, [])

/-- `serde_json`'s text of a string. -/
def jsonString (t : Text) : Text :=
  let escaped (c : Char) : Text :=
    if c = '"' then "\\\"".toList
    else if c = '\\' then "\\\\".toList
    else if c = '\n' then "\\n".toList
    else if c = '\r' then "\\r".toList
    else if c = '\t' then "\\t".toList
    else if c.toNat = 8 then "\\b".toList
    else if c.toNat = 12 then "\\f".toList
    else if c.toNat < 32 then
      "\\u00".toList ++ [Nat.digitChar (c.toNat / 16), Nat.digitChar (c.toNat % 16)]
    else [c]
  '"' :: t.flatMap escaped ++ ['"']

def jsonStrings (ts : List Text) : Text := '[' :: [','].intercalate (ts.map jsonString) ++ [']']

namespace ProtectedResource

variable (p : ProtectedResource)

def metadataPath : Text := wellKnownPath ++ trimEndMatches '/' (splitOrigin p.resource).2

def metadataUrl : Text := (splitOrigin p.resource).1 ++ p.metadataPath

/-- The document: no scopes named, or no way to present a token, and the field is left out. -/
def toJson : Text :=
  let field (name : String) (value : Text) : Text := jsonString name.toList ++ ':' :: value
  let fields := [field "resource" (jsonString p.resource),
      field "authorization_servers" (jsonStrings p.authorizationServers)] ++
    p.scopesSupported.toList.map (fun scopes => field "scopes_supported" (jsonStrings scopes)) ++
    if p.bearerMethodsSupported.isEmpty then []
    else [field "bearer_methods_supported" (jsonStrings p.bearerMethodsSupported)]
  '\x7b' :: [','].intercalate fields ++ ['\x7d']

end ProtectedResource

/-- `scheme://authority[/path][?query][#fragment]`, any text in its parts. -/
structure ResourceParts where
  scheme : Text
  authority : Text
  path : Text
  rest : Text
  schemeText : ':' ∉ scheme ∧ '?' ∉ scheme ∧ '#' ∉ scheme
  authorityText : '/' ∉ authority ∧ '?' ∉ authority ∧ '#' ∉ authority
  pathText : (path = [] ∨ path.head? = some '/') ∧ '?' ∉ path ∧ '#' ∉ path
  restText : rest = [] ∨ rest.head? = some '?' ∨ rest.head? = some '#'

namespace ResourceParts

variable (r : ResourceParts)

def origin : Text := r.scheme ++ "://".toList ++ r.authority

def text : Text := r.origin ++ r.path ++ r.rest

theorem find_scheme {scheme : Text} (plain : ':' ∉ scheme) (t : Text) :
    find "://".toList (scheme ++ ("://".toList ++ t)) = some scheme.length := by
  unfold find
  induction scheme with
  | nil => rfl
  | cons c scheme ih =>
      have other : c ≠ ':' := fun same => plain (same ▸ .head _)
      have later : ':' ∉ scheme := fun mem => plain (.tail _ mem)
      rw [List.cons_append, List.tails_cons, List.findIdx?_cons, ih later]
      simp [List.isPrefixOf, Ne.symm other]

/-- Nothing before the query or fragment looks like either. -/
theorem origin_path_plain : ∀ c ∈ r.origin ++ r.path, c ≠ '?' ∧ c ≠ '#' := by
  obtain ⟨-, schemeQuery, schemeFragment⟩ := r.schemeText
  obtain ⟨-, authorityQuery, authorityFragment⟩ := r.authorityText
  obtain ⟨-, pathQuery, pathFragment⟩ := r.pathText
  intro c mem
  simp only [origin, List.mem_append] at mem
  obtain ((scheme | sign) | authority) | path := mem
  · exact ⟨fun same => schemeQuery (same ▸ scheme), fun same => schemeFragment (same ▸ scheme)⟩
  · have either : c = ':' ∨ c = '/' := by simpa using sign
    obtain rfl | rfl := either <;> decide
  · exact ⟨fun same => authorityQuery (same ▸ authority),
      fun same => authorityFragment (same ▸ authority)⟩
  · exact ⟨fun same => pathQuery (same ▸ path), fun same => pathFragment (same ▸ path)⟩

theorem takeWhile_text :
    (r.text.takeWhile fun c => c ≠ '?' && c ≠ '#') = r.origin ++ r.path := by
  have front : ∀ c ∈ r.origin ++ r.path, (c ≠ '?' && c ≠ '#') = true := by
    intro c mem
    simpa using r.origin_path_plain c mem
  have back : (r.rest.takeWhile fun c => c ≠ '?' && c ≠ '#') = [] := by
    cases rest : r.rest with
    | nil => rfl
    | cons c after =>
        have sign : c = '?' ∨ c = '#' := by simpa [rest] using r.restText
        obtain rfl | rfl := sign <;> rfl
  rw [text, List.takeWhile_append_of_pos front, back, List.append_nil]

/-- Its origin and its own path. -/
theorem splitOrigin_text : splitOrigin r.text = (r.origin, r.path) := by
  have begins : find "://".toList (r.origin ++ r.path) = some r.scheme.length := by
    rw [origin, List.append_assoc, List.append_assoc]
    exact find_scheme r.schemeText.1 (r.authority ++ r.path)
  have after : (r.origin ++ r.path).drop (r.scheme.length + 3) = r.authority ++ r.path := by
    rw [origin, List.append_assoc]
    exact List.drop_left' (by simp)
  unfold splitOrigin
  simp only [r.takeWhile_text, begins, Option.map_some, Option.getD_some, after]
  have none : r.authority.findIdx? (· = '/') = none := by
    rw [List.findIdx?_eq_none_iff]
    intro c mem
    have other : c ≠ '/' := fun same => r.authorityText.1 (same ▸ mem)
    simpa using other
  rw [List.findIdx?_append, none]
  cases path : r.path with
  | nil => simp
  | cons c path' =>
      have slash : c = '/' := by simpa [path] using r.pathText.1
      have here : ('/' :: path').findIdx? (· = '/') = some 0 := rfl
      have length : r.scheme.length + 3 + r.authority.length = r.origin.length := by
        simp [origin]
        omega
      rw [slash, here]
      simp only [Option.none_or, Option.map_some, Nat.zero_add, length, List.splitAt_eq,
        List.take_left, List.drop_left]

end ResourceParts

end PlexusTransport
