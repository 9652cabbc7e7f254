import Mathlib

/-! # JSON as its text says it

An object keeps its members in the order of the text, a name said twice
included. A record's fields are read from it as a derived deserializer reads
them: each at most once, names it does not know passed over.
-/

namespace PlexusTransport

/-- What a string literal says; one with an escape that is no character says nothing. -/
abbrev Literal : Type := Option String

inductive Json where
  | null
  | bool (b : Bool)
  | u64 (n : UInt64)
  | num (raw : String)
  | str (s : Literal)
  | arr (items : List Json)
  | obj (members : List (Literal × Json))

namespace Json

def isNull : Json → Bool
  | .null => true
  | _ => false

/-- The string a value is. -/
def string? : Json → Literal
  | .str s => s
  | _ => none

/-- The values said under a name. -/
def valuesOf (name : String) (members : List (Literal × Json)) : List Json :=
  members.filterMap fun (key, v) => if key = some name then some v else none

/-- Every name reads, and none of these is said twice. -/
def readable (names : List String) (members : List (Literal × Json)) : Bool :=
  members.all (·.1.isSome) && names.all fun name => (valuesOf name members).length ≤ 1

/-- A record's fields: an object's by name, an array's by position, where the last may be
    missing if the record has `defaults`. -/
def fields (names : List String) (defaults : Bool) : Json → Option (List (Option Json))
  | .obj members =>
      if readable names members then
        some (names.map fun name => (valuesOf name members).head?)
      else none
  | .arr items =>
      if items.length = names.length || (defaults && items.length < names.length) then
        some (items.map some ++ List.replicate (names.length - items.length) none)
      else none
  | _ => none

/-- An optional field: `null` is as good as absent. -/
def given : Option Json → Option Json
  | some v => if v.isNull then none else some v
  | none => none

theorem valuesOf_eq_nil {name : String} {members : List (Literal × Json)} :
    valuesOf name members = [] ↔ ∀ v, (some name, v) ∉ members := by
  simp only [valuesOf, List.filterMap_eq_nil_iff, ite_eq_right_iff, reduceCtorEq, imp_false,
    Prod.forall]
  constructor
  · intro other v mem
    exact other (some name) v mem rfl
  · rintro absent key v mem rfl
    exact absent v mem

/-- With a name said once at most, what is said under it is its first value. -/
theorem head?_valuesOf {names : List String} {members : List (Literal × Json)}
    (once : readable names members = true) {name : String} (mem : name ∈ names) {v : Json} :
    (valuesOf name members).head? = some v ↔ v ∈ valuesOf name members := by
  have short := List.all_eq_true.mp (Bool.and_eq_true_iff.mp once).2 name mem
  cases values : valuesOf name members with
  | nil => simp
  | cons w rest =>
      cases rest with
      | nil => simp [eq_comm]
      | cons w' rest => simp [values] at short

end Json

end PlexusTransport
