import PlexusTransport.Server.Registered

/-! # What is not built

A key over a mount that takes anyone, and methods that read a sign-in no one can have.
-/

namespace PlexusTransport.Server

open Text

/-- A key is called for, and the bridge that is mounted takes callers with no credential. -/
def KeyOverMount (methods : List Method) : Prop :=
  (∃ key, last Method.apiKey? methods = some (some key)) ∧
    ∃ m, last Method.mcp? methods = some m ∧ m.admitsAnonymous = true

/-- A parameter of the method is taken from the caller's sign-in. -/
def MethodSchema.ReadsAuth (m : MethodSchema) : Prop :=
  ∃ params props name prop, m.params = some params ∧
    Mcp.member "properties" params = some (.obj props) ∧ (name, prop) ∈ props ∧
      fromAuth prop = true

/-- No key and no validator are called for, nor the check opted out of, though a method reads
    a sign-in. -/
def Unguarded (a : Activation) (methods : List Method) : Prop :=
  (last Method.apiKey? methods).getD none = none ∧ last Method.sessionValidator? methods = none ∧
    methods.any Method.isAllowMissingAuth = false ∧ ∃ m ∈ a.schema.methods, m.ReadsAuth

/-- How many methods there are, then a line for each of the first eight, in their order, and
    one for how many are left. -/
def Listed (gated : List Text) (text : Text) : Prop :=
  ∃ advice, text =
    ("RED-4: " ++ toString gated.length ++ " auth-gated method(s) declared").toList ++ advice ++
      (gated.take 8).flatMap (fun m => "\n  - ".toList ++ m) ++
      if gated.length ≤ 8 then []
      else ("\n  ... (" ++ toString (gated.length - 8) ++ " more)").toList

theorem intercalate_lines (sep : Text) {lines : List Text} (some : lines ≠ []) :
    sep ++ sep.intercalate lines = lines.flatMap (sep ++ ·) := by
  induction lines with
  | nil => contradiction
  | cons line rest ih =>
      cases rest with
      | nil => simp
      | cons next rest =>
          rw [List.intercalate_cons_cons, List.flatMap_cons, ← ih (by simp)]
          simp only [List.append_assoc]

theorem missing_listed {gated : List Text} (some : gated ≠ []) :
    Listed gated (BuildError.missing gated).text.toList := by
  have filled : (gated.take 8).map (fun m => "  - ".toList ++ m) ≠ [] := by
    rw [ne_eq, List.map_eq_nil_iff, List.take_eq_nil_iff]
    simp [some]
  have line : "\n  - ".toList = "\n".toList ++ "  - ".toList := rfl
  have summary : "\n".toList ++
      "\n".toList.intercalate ((gated.take 8).map fun m => "  - ".toList ++ m) =
      (gated.take 8).flatMap fun m => "\n  - ".toList ++ m := by
    rw [intercalate_lines _ filled, List.flatMap_map, line]
    simp only [List.append_assoc]
  have names : ((gated.take 8).map fun m => "  - " ++ String.ofList m).map String.toList =
      (gated.take 8).map fun m => "  - ".toList ++ m := by
    simp only [List.map_map, Function.comp_def, String.toList_append, String.toList_ofList]
  refine ⟨BuildError.advice.toList, ?_⟩
  rw [← summary]
  unfold BuildError.missing BuildError.text
  simp only [String.toList_append, String.toList_intercalate, names, List.append_assoc]
  by_cases more : 8 < gated.length
  · rw [if_pos more, if_neg (Nat.not_le_of_lt more)]
    simp only [String.toList_append, List.append_assoc]
  · rw [if_neg more, if_pos (Nat.le_of_not_lt more)]
    rfl

section Build

variable {a : Activation} {methods : List Method} {e : BuildError}

theorem gated_iff (m : MethodSchema) : m.gated = true ↔ m.ReadsAuth := by
  unfold MethodSchema.gated MethodSchema.ReadsAuth
  constructor
  · intro gated
    split at gated
    · cases gated
    · rename_i params is
      split at gated
      · cases gated
      · rename_i props read
        obtain ⟨v, here, object⟩ := Option.bind_eq_some_iff.mp read
        obtain ⟨⟨name, prop⟩, mem, auth⟩ := List.any_eq_true.mp gated
        cases v with
        | obj members =>
            cases object
            exact ⟨params, props, name, prop, is, here, mem, auth⟩
        | null | bool _ | u64 _ | num _ | str _ | arr _ => cases object
  · rintro ⟨params, props, name, prop, is, here, mem, auth⟩
    simp only [is, here, Option.bind_some, asObject]
    exact List.any_eq_true.mpr ⟨(name, prop), mem, auth⟩

theorem authGated_ne_nil (s : PluginSchema) : s.authGated ≠ [] ↔ ∃ m ∈ s.methods, m.ReadsAuth := by
  simp [PluginSchema.authGated, gated_iff]

theorem unguarded_ne_nil : (TransportServerBuilder.of a methods).unguarded ≠ [] ↔
    Unguarded a methods := by
  unfold TransportServerBuilder.unguarded Unguarded
  rw [of_apiKey, of_sessionValidator, of_allowMissingAuth, of_activation, ← authGated_ne_nil]
  cases (last Method.apiKey? methods).getD none <;> cases last Method.sessionValidator? methods <;>
    cases methods.any Method.isAllowMissingAuth <;> simp

theorem unguarded_eq (unguarded : Unguarded a methods) :
    (TransportServerBuilder.of a methods).unguarded = a.schema.authGated := by
  obtain ⟨key, validator, allowed, -⟩ := unguarded
  unfold TransportServerBuilder.unguarded
  rw [of_apiKey, of_sessionValidator, of_allowMissingAuth, of_activation, key, validator, allowed]
  rfl

theorem keyOverMount_iff : KeyOverMount methods ↔
    ((TransportServerBuilder.of a methods).config.apiKey.isSome &&
      (TransportServerBuilder.of a methods).mcp.any (·.admitsAnonymous)) = true := by
  rw [of_apiKey, of_mcp, KeyOverMount, Bool.and_eq_true]
  refine and_congr ?_ ?_
  · cases last Method.apiKey? methods with
    | none => simp
    | some key => cases key <;> simp
  · cases last Method.mcp? methods <;> simp

end Build

/-- A builder is refused, in whatever order its methods were called, just where a key stands
    over a mount that takes anyone, whether the check was opted out of or not, or where some
    method's sign-in no one can have; and the refusal tells how many such methods there are,
    the names of the first eight and the number of the rest. -/
theorem build_refuses (a : Activation) (methods : List Method) (e : BuildError) :
    (TransportServerBuilder.of a methods).build = .error e ↔
      (KeyOverMount methods ∧ e = .mountUngated) ∨
        (Unguarded a methods ∧ e = .missing a.schema.authGated ∧
          Listed a.schema.authGated e.text.toList) := by
  have apart : KeyOverMount methods → ¬ Unguarded a methods := by
    rintro ⟨⟨key, keyed⟩, -⟩ ⟨none_, -⟩
    rw [keyed] at none_
    cases none_
  unfold TransportServerBuilder.build
  split
  · rename_i ungated
    have here := keyOverMount_iff.mpr ungated
    simp [here, apart here, eq_comm]
  · rename_i not_
    have fine : ¬ KeyOverMount methods := fun here => not_ (keyOverMount_iff.mp here)
    split
    · rename_i some_
      have here : Unguarded a methods := unguarded_ne_nil.mp (by simpa using some_)
      have listed := missing_listed ((authGated_ne_nil a.schema).mpr here.2.2.2)
      simp only [fine, here, unguarded_eq here, false_and, true_and, false_or, Except.error.injEq]
      constructor
      · rintro rfl
        exact ⟨rfl, listed⟩
      · exact fun refused => refused.1.symm
    · rename_i none_
      have guarded : ¬ Unguarded a methods := fun here => by
        have := unguarded_ne_nil.mpr here
        simp [this] at none_
      simp [fine, guarded]

end PlexusTransport.Server
