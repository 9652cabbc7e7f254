import PlexusTransport.Http.Timeout
import PlexusTransport.Mcp.Names

/-! # The methods served over REST

`MethodRegistry`: a map from a method's full name, its namespace and name joined with a
dot, to its verb and cardinality.
-/

namespace PlexusTransport.Http.Registry

open Plexus Mcp

inductive HttpMethod where
  | get
  | post
  | put
  | delete
  | patch
  deriving DecidableEq, Repr

/-- `http_method_to_verb`. -/
def HttpMethod.verb : HttpMethod → String
  | .get => "GET"
  | .post => "POST"
  | .put => "PUT"
  | .delete => "DELETE"
  | .patch => "PATCH"

/-- What the registry reads of a method's schema. -/
structure MethodSchema where
  name : Text
  cardinality : Cardinality
  httpMethod : HttpMethod

structure PluginSchema where
  space : Text
  methods : List MethodSchema

structure RestMethodInfo where
  space : Text
  method : Text
  cardinality : Cardinality
  httpMethod : HttpMethod
  deriving DecidableEq, Repr

def RestMethodInfo.fullName (info : RestMethodInfo) : Text := toolName info.space info.method

structure MethodRegistry where
  methods : AList fun _ : Text => RestMethodInfo

namespace MethodRegistry

def insert (r : MethodRegistry) (info : RestMethodInfo) : MethodRegistry :=
  ⟨r.methods.insert info.fullName info⟩

/-- The methods of the schemas, in the order they are inserted. -/
def infos (schemas : List PluginSchema) : List RestMethodInfo :=
  schemas.flatMap fun schema =>
    schema.methods.map fun method =>
      ⟨schema.space, method.name, method.cardinality, method.httpMethod⟩

def fromSchemas (schemas : List PluginSchema) : MethodRegistry :=
  (infos schemas).foldl insert ⟨∅⟩

def get (r : MethodRegistry) (space method : Text) : Option RestMethodInfo :=
  r.methods.lookup (toolName space method)

def hasNamespace (r : MethodRegistry) (space : Text) : Bool :=
  r.methods.entries.any fun entry => entry.2.space == space

end MethodRegistry

/-- The last method of that full name. -/
def lastNamed (infos : List RestMethodInfo) (name : Text) : Option RestMethodInfo :=
  infos.reverse.find? fun info => info.fullName == name

/-- What a lookup finds, and which namespaces are known: the last method of each full name
    and no other. -/
structure Resolves (schemas : List PluginSchema) (r : MethodRegistry) : Prop where
  found : ∀ space method,
    r.get space method = lastNamed (MethodRegistry.infos schemas) (toolName space method)
  same : ∀ space method info, r.get space method = some info →
    info.fullName = toolName space method ∧ (info.space = space ↔ info.method = method)
  known : ∀ space, r.hasNamespace space = true ↔
    ∃ info ∈ MethodRegistry.infos schemas, info.space = space ∧
      lastNamed (MethodRegistry.infos schemas) info.fullName = some info

section Lookup

variable {infos : List RestMethodInfo} {name space method : Text} {info : RestMethodInfo}

theorem lastNamed_append (infos : List RestMethodInfo) (info : RestMethodInfo) (name : Text) :
    lastNamed (infos ++ [info]) name =
      if info.fullName = name then some info else lastNamed infos name := by
  rw [lastNamed, List.reverse_append, List.reverse_singleton, List.singleton_append,
    List.find?_cons]
  split
  · rename_i same
    rw [if_pos (by simpa using same)]
  · rename_i other
    rw [if_neg (by simpa using other)]
    rfl

theorem lastNamed_some (found : lastNamed infos name = some info) :
    info ∈ infos ∧ info.fullName = name :=
  ⟨List.mem_reverse.mp (List.mem_of_find?_eq_some found), by simpa using List.find?_some found⟩

/-- A map filled in this order holds the last of each name. -/
theorem lookup_foldl (infos : List RestMethodInfo) (name : Text) :
    (infos.foldl MethodRegistry.insert ⟨∅⟩).methods.lookup name = lastNamed infos name := by
  induction infos using List.reverseRecOn with
  | nil => rfl
  | append_singleton infos info ih =>
      rw [List.foldl_append, lastNamed_append]
      simp only [List.foldl_cons, List.foldl_nil, MethodRegistry.insert]
      split
      · rename_i same
        rw [← same, AList.lookup_insert]
      · rename_i other
        rw [AList.lookup_insert_ne (Ne.symm other), ih]

/-- Two pairs of one full name have both parts the same, or neither. -/
theorem toolName_parts (same : toolName info.space info.method = toolName space method) :
    info.space = space ↔ info.method = method := by
  constructor
  · rintro rfl
    simpa [toolName] using same
  · intro methods
    rw [methods] at same
    exact List.append_cancel_right same

end Lookup

/-- A lookup finds the last method of that full name. -/
theorem get_eq_lastNamed (schemas : List PluginSchema) (space method : Text) :
    (MethodRegistry.fromSchemas schemas).get space method =
      lastNamed (MethodRegistry.infos schemas) (toolName space method) :=
  lookup_foldl _ _

theorem get_fullName {schemas : List PluginSchema} {space method : Text} {info : RestMethodInfo}
    (got : (MethodRegistry.fromSchemas schemas).get space method = some info) :
    info.fullName = toolName space method :=
  (lastNamed_some ((get_eq_lastNamed schemas space method).symm.trans got)).2

theorem fromSchemas_resolves (schemas : List PluginSchema) :
    Resolves schemas (MethodRegistry.fromSchemas schemas) := by
  refine ⟨get_eq_lastNamed schemas, fun space method info got => ?_, fun space => ?_⟩
  · exact ⟨get_fullName got, toolName_parts (get_fullName got)⟩
  · rw [MethodRegistry.hasNamespace, List.any_eq_true]
    constructor
    · rintro ⟨⟨name, info⟩, entry, same⟩
      have looked : lastNamed (MethodRegistry.infos schemas) name = some info := by
        rw [← lookup_foldl]
        exact AList.mem_lookup_iff.mpr entry
      obtain ⟨mem, rfl⟩ := lastNamed_some looked
      exact ⟨info, mem, by simpa using same, looked⟩
    · rintro ⟨info, -, rfl, looked⟩
      rw [← lookup_foldl] at looked
      exact ⟨⟨info.fullName, info⟩, AList.mem_lookup_iff.mp looked, by simp⟩

end PlexusTransport.Http.Registry
