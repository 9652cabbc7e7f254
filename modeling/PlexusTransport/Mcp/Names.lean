import PlexusTransport.Mcp.Bridge

/-! # A tool's name and its method

Listing joins a namespace and a method with a dot; a call splits the name again.
-/

namespace PlexusTransport.Mcp

open ActivationMcpBridge

/-- A bridge of one activation, with no router. -/
def alone (s : PluginSchema)
    (call : Text → Object → Except McpError (List (Bool × Plexus.PlexusStreamItem))) :
    ActivationMcpBridge :=
  ⟨s, call, none, none⟩

/-- The namespace and method of each tool. -/
def pairs (schemas : List PluginSchema) : List (Text × Text) :=
  schemas.flatMap fun s => s.methods.map fun m => (s.space, m.name)

/-- The bridge is of these schemas. -/
def Of (b : ActivationMcpBridge) (schemas : List PluginSchema) : Prop :=
  b.flatSchemas.getD [b.pluginSchema] = schemas

/-- A bridge of these schemas lists tools whose schemas are objects' and whose names are
    not shared, and one activation's tool calls the method it was made from. -/
structure RoundTrips (schemas : List PluginSchema) : Prop where
  rooted : ∀ b, Of b schemas → ∀ t ∈ b.listTools, t.inputSchema.get "type" = some object
  distinct : ∀ b, Of b schemas → (b.listTools.map (·.name)).Nodup
  calls : ∀ s, schemas = [s] → ∀ m ∈ s.methods, ∀ call arguments,
    (alone s call).stream (toolName s.space m.name) arguments =
      (call m.name arguments).mapError plexusToMcpError

/-- What the namespaces, methods and parameters have to be for it. -/
structure Plain (schemas : List PluginSchema) : Prop where
  typed : ∀ s ∈ schemas, ∀ m ∈ s.methods, ∀ o v, m.params = some (.object o) →
    o.get "type" = some v → v = object
  apart : ∀ p ∈ pairs schemas, ∀ q ∈ pairs schemas, ∀ front, q.1 = p.1 ++ '.' :: front →
    p.2 ≠ front ++ '.' :: q.2
  split : ∀ s, schemas = [s] → ∀ m ∈ s.methods,
    ('.' ∉ s.space ∧ '.' ∉ m.name) ∨ (s.space.splitOn '.')[1]? = some m.name

theorem inputSchema_type (params : Option Schema) :
    (inputSchema params).get "type" = some object ↔
      ∀ o v, params = some (.object o) → o.get "type" = some v → v = object := by
  unfold inputSchema
  cases params with
  | none => simp
  | some schema =>
      cases schema with
      | bool b => simp
      | object o =>
          dsimp only
          constructor
          · intro typed o' v same found
            cases same
            rw [if_pos (by simp [Object.containsKey, found]), found] at typed
            exact Option.some.inj typed
          · intro only
            split
            · rename_i root
              obtain ⟨v, found⟩ := Option.isSome_iff_exists.mp root
              rw [found, only o v rfl found]
            · exact Object.get_insert o "type" object

theorem rooted_iff (schemas : List PluginSchema) :
    (∀ t ∈ schemasToRmcpTools schemas, t.inputSchema.get "type" = some object) ↔
      ∀ s ∈ schemas, ∀ m ∈ s.methods, ∀ o v, m.params = some (.object o) →
        o.get "type" = some v → v = object := by
  constructor
  · intro rooted s mem m here
    exact (inputSchema_type m.params).mp
      (rooted ⟨toolName s.space m.name, m.description, inputSchema m.params⟩
        (List.mem_flatMap.mpr ⟨s, mem, List.mem_map.mpr ⟨m, here, rfl⟩⟩))
  · intro typed t tool
    obtain ⟨s, mem, tool⟩ := List.mem_flatMap.mp tool
    obtain ⟨m, here, rfl⟩ := List.mem_map.mp tool
    exact (inputSchema_type m.params).mpr (typed s mem m here)

/-- Two names are the same if their parts are, or if one's namespace runs on into the
    other's method. -/
theorem toolName_eq {space space' method method' : Text} :
    toolName space method = toolName space' method' ↔
      (space = space' ∧ method = method') ∨
        (∃ front, space' = space ++ '.' :: front ∧ method = front ++ '.' :: method') ∨
          ∃ front, space = space' ++ '.' :: front ∧ method' = front ++ '.' :: method := by
  unfold toolName
  constructor
  · intro same
    rcases List.append_eq_append_iff.mp same with ⟨more, rfl, rest⟩ | ⟨more, rfl, rest⟩
    · cases more with
      | nil => exact .inl ⟨by simp, by simpa using rest⟩
      | cons c front =>
          obtain ⟨rfl, rest⟩ := List.cons.inj rest
          exact .inr (.inl ⟨front, rfl, by simpa using rest⟩)
    · cases more with
      | nil => exact .inl ⟨by simp, by simpa using rest.symm⟩
      | cons c front =>
          obtain ⟨rfl, rest⟩ := List.cons.inj rest
          exact .inr (.inr ⟨front, rfl, by simpa using rest⟩)
  · rintro (⟨rfl, rfl⟩ | ⟨front, rfl, rfl⟩ | ⟨front, rfl, rfl⟩) <;> simp

theorem tool_names (schemas : List PluginSchema) :
    (schemasToRmcpTools schemas).map (·.name) =
      (pairs schemas).map fun p => toolName p.1 p.2 := by
  simp [schemasToRmcpTools, pairs, List.map_flatMap, Function.comp_def]

theorem distinct_iff {schemas : List PluginSchema} (once : (pairs schemas).Nodup) :
    ((schemasToRmcpTools schemas).map (·.name)).Nodup ↔
      ∀ p ∈ pairs schemas, ∀ q ∈ pairs schemas, ∀ front, q.1 = p.1 ++ '.' :: front →
        p.2 ≠ front ++ '.' :: q.2 := by
  rw [tool_names, List.nodup_map_iff_inj_on once]
  constructor
  · intro injective p memP q memQ front space method
    have same : p = q := injective p memP q memQ (toolName_eq.mpr (.inr (.inl ⟨front, space, method⟩)))
    rw [same] at space
    simp at space
  · intro apart p memP q memQ same
    rcases toolName_eq.mp same with ⟨space, method⟩ | ⟨front, space, method⟩ | ⟨front, space, method⟩
    · exact Prod.ext space method
    · exact absurd method (apart p memP q memQ front space)
    · exact absurd method (apart q memQ p memP front space)

theorem methodOf_toolName {space method : Text} :
    methodOf (toolName space method) = method ↔
      ('.' ∉ space ∧ '.' ∉ method) ∨ (space.splitOn '.')[1]? = some method := by
  have dotted : '.' ∈ toolName space method := by simp [toolName]
  rw [methodOf, if_pos dotted, toolName, List.splitOn_append_cons_self]
  by_cases dot : '.' ∈ space
  · obtain ⟨front, back, rfl⟩ := List.append_of_mem dot
    have two : 1 < ((front ++ '.' :: back).splitOn '.').length := by
      have one := List.length_pos_of_ne_nil (List.splitOn_ne_nil '.' front)
      have more := List.length_pos_of_ne_nil (List.splitOn_ne_nil '.' back)
      rw [List.splitOn_append_cons_self, List.length_append]
      omega
    rw [List.getElem?_append_left two, List.getElem?_eq_getElem two]
    simp
  · have whole : space.splitOn '.' = [space] := List.splitOn_eq_singleton dot
    rw [whole]
    cases pieces : method.splitOn '.' with
    | nil => exact absurd pieces (List.splitOn_ne_nil _ _)
    | cons piece more =>
        simp only [List.cons_append, List.nil_append, List.getElem?_cons_succ,
          List.getElem?_cons_zero, Option.getD_some, List.getElem?_nil, reduceCtorEq, or_false]
        constructor
        · rintro rfl
          exact ⟨dot, Text.not_mem_of_splitOn (by rw [pieces]; exact .head _)⟩
        · rintro ⟨-, plain⟩
          rw [List.splitOn_eq_singleton plain] at pieces
          exact (List.cons.inj pieces).1.symm

/-- An activation with one method, that says what it is called with. -/
def echo (method : Text) (_ : Object) :
    Except McpError (List (Bool × Plexus.PlexusStreamItem)) :=
  .error ⟨0, String.ofList method, none⟩

/-- A hub's bridge. -/
def hub (schemas : List PluginSchema) : ActivationMcpBridge :=
  ⟨⟨[], []⟩, echo, some schemas, none⟩

/-- What is listed hangs on the schemas alone. -/
theorem listTools_iff {schemas : List PluginSchema} (P : List Tool → Prop) :
    (∀ b, Of b schemas → P b.listTools) ↔ P (schemasToRmcpTools schemas) := by
  constructor
  · exact fun each => each (hub schemas) rfl
  · rintro here b rfl
    exact here

theorem listed_rooted {schemas : List PluginSchema} :
    (∀ b, Of b schemas → ∀ t ∈ b.listTools, t.inputSchema.get "type" = some object) ↔
      ∀ s ∈ schemas, ∀ m ∈ s.methods, ∀ o v, m.params = some (.object o) →
        o.get "type" = some v → v = object :=
  (listTools_iff fun tools => ∀ t ∈ tools, t.inputSchema.get "type" = some object).trans
    (rooted_iff schemas)

theorem listed_distinct {schemas : List PluginSchema} (once : (pairs schemas).Nodup) :
    (∀ b, Of b schemas → (b.listTools.map (·.name)).Nodup) ↔
      ∀ p ∈ pairs schemas, ∀ q ∈ pairs schemas, ∀ front, q.1 = p.1 ++ '.' :: front →
        p.2 ≠ front ++ '.' :: q.2 :=
  (listTools_iff fun tools => (tools.map (·.name)).Nodup).trans (distinct_iff once)

theorem calls_iff (s : PluginSchema) (m : MethodSchema) :
    (∀ call arguments, (alone s call).stream (toolName s.space m.name) arguments =
      (call m.name arguments).mapError plexusToMcpError) ↔
      ('.' ∉ s.space ∧ '.' ∉ m.name) ∨ (s.space.splitOn '.')[1]? = some m.name := by
  rw [← methodOf_toolName]
  constructor
  · intro calls
    have said := calls echo .empty
    simp only [stream, alone, echo, Except.mapError, plexusToMcpError, Except.error.injEq,
      McpError.mk.injEq, true_and, and_true] at said
    exact String.ofList_injective said
  · intro same call arguments
    rw [stream, alone, same]

theorem tools_round_trip (schemas : List PluginSchema) (once : (pairs schemas).Nodup) :
    RoundTrips schemas ↔ Plain schemas := by
  constructor
  · rintro ⟨rooted, distinct, calls⟩
    refine ⟨listed_rooted.mp rooted, (listed_distinct once).mp distinct, ?_⟩
    intro s only m mem
    exact (calls_iff s m).mp (calls s only m mem)
  · rintro ⟨typed, apart, split⟩
    refine ⟨listed_rooted.mpr typed, (listed_distinct once).mpr apart, ?_⟩
    intro s only m mem
    exact (calls_iff s m).mpr (split s only m mem)

def bash : PluginSchema := ⟨"bash".toList, [⟨"execute".toList, "", none⟩]⟩

theorem tools_round_trip_bash : RoundTrips [bash] := by
  refine (tools_round_trip [bash] (by decide)).mpr ⟨?_, ?_, ?_⟩
  · rintro s mem m here o v params
    simp only [bash, List.mem_singleton] at mem
    subst mem
    rw [List.mem_singleton.mp here] at params
    cases params
  · intro p memP q memQ front space
    rw [List.mem_singleton.mp memP, List.mem_singleton.mp memQ] at space
    simp at space
  · intro s only m mem
    cases only
    rw [List.mem_singleton.mp mem]
    exact .inl (by decide)

/-- A namespace with a dot in it. -/
def nested : PluginSchema := ⟨"hub.bash".toList, [⟨"execute".toList, "", none⟩]⟩

theorem tools_misdirect :
    ¬ ∀ schemas : List PluginSchema, (pairs schemas).Nodup → RoundTrips schemas := by
  intro trips
  have calls := (trips [nested] (by decide)).calls nested rfl _ (.head _) echo .empty
  have said : (alone nested echo).stream (toolName nested.space "execute".toList) .empty =
      .error ⟨0, "bash", none⟩ := by rfl
  have right : (echo "execute".toList .empty).mapError plexusToMcpError =
      .error ⟨0, "execute", none⟩ := by rfl
  have same := said.symm.trans (calls.trans right)
  simp at same

end PlexusTransport.Mcp
