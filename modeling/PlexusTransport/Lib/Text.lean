import Mathlib

/-! # Text

A string slice as its characters, and what the standard library says of it.
-/

namespace PlexusTransport

abbrev Text := List Char

namespace Text

/-- Unicode's `White_Space`. -/
def isWhitespace (c : Char) : Bool :=
  let n := c.toNat
  (9 ≤ n && n ≤ 13) || n == 0x20 || n == 0x85 || n == 0xa0 || n == 0x1680 ||
    (0x2000 ≤ n && n ≤ 0x200a) || n == 0x2028 || n == 0x2029 || n == 0x202f || n == 0x205f ||
    n == 0x3000

def trim (t : Text) : Text := (t.dropWhile isWhitespace).rdropWhile isWhitespace

def trimEndMatches (c : Char) (t : Text) : Text := t.rdropWhile (· == c)

/-- The text before the first separator and after it. -/
def splitOnce {α : Type} [DecidableEq α] (sep : α) : List α → Option (List α × List α)
  | [] => none
  | c :: t =>
      if c = sep then some ([], t)
      else (splitOnce sep t).map fun (before, after) => (c :: before, after)

/-- Where a text first begins in another. -/
def find (needle t : Text) : Option Nat := t.tails.findIdx? needle.isPrefixOf

def stripPrefix (front t : Text) : Option Text :=
  if front.isPrefixOf t then some (t.drop front.length) else none

def toAsciiLowercase (t : Text) : Text := t.map Char.toLower

def eqIgnoreAsciiCase (a b : Text) : Bool := toAsciiLowercase a == toAsciiLowercase b

def utf8 (t : Text) : List UInt8 := t.flatMap String.utf8EncodeChar

theorem stripPrefix_eq_some {front t rest : Text} :
    stripPrefix front t = some rest ↔ t = front ++ rest := by
  unfold stripPrefix
  constructor
  · intro stripped
    obtain ⟨starts, same⟩ := Option.ite_none_right_eq_some.mp stripped
    obtain ⟨after, rfl⟩ := List.isPrefixOf_iff_prefix.mp starts
    cases same
    rw [List.drop_left]
  · rintro rfl
    rw [if_pos (List.isPrefixOf_iff_prefix.mpr (List.prefix_append _ _)), List.drop_left]

section Split

variable {α β : Type} {f : α → β} {a : α} {b : β}

theorem splitOnce_map [DecidableEq α] [DecidableEq β] (same : ∀ x, f x = b ↔ x = a) (l : List α) :
    splitOnce b (l.map f) =
      (splitOnce a l).map fun (before, after) => (before.map f, after.map f) := by
  induction l with
  | nil => rfl
  | cons x l ih =>
      simp only [List.map_cons, splitOnce, same, ih]
      split
      · rfl
      · simp only [Option.map_map]
        rfl

theorem splitOnce_eq [DecidableEq α] {l before after : List α}
    (split : splitOnce a l = some (before, after)) : l = before ++ a :: after := by
  induction l generalizing before with
  | nil => cases split
  | cons x l ih =>
      unfold splitOnce at split
      split at split
      · rename_i here
        cases split
        rw [here, List.nil_append]
      · obtain ⟨⟨front, back⟩, rest, same⟩ := Option.map_eq_some_iff.mp split
        cases same
        rw [ih rest, List.cons_append]

theorem splitOn_map [BEq α] [LawfulBEq α] [BEq β] [LawfulBEq β] (same : ∀ x, f x = b ↔ x = a)
    (l : List α) : (l.map f).splitOn b = (l.splitOn a).map (List.map f) := by
  have sep : ∀ x, (f x == b) = (x == a) := by
    intro x
    rw [Bool.eq_iff_iff, beq_iff_eq, beq_iff_eq, same]
  induction l with
  | nil => rfl
  | cons x l ih =>
      simp only [List.splitOn, List.map_cons, List.splitOnP_cons_eq_if_modifyHead, sep] at ih ⊢
      rw [ih]
      split
      · rfl
      · cases List.splitOnP (· == a) l <;> rfl

theorem mem_of_splitOn [BEq α] {l piece : List α} (mem : piece ∈ l.splitOn a) {x : α}
    (inside : x ∈ piece) : x ∈ l := by
  induction l generalizing piece with
  | nil =>
      simp only [List.splitOn, List.splitOnP_nil, List.mem_singleton] at mem
      exact mem ▸ inside
  | cons y l ih =>
      simp only [List.splitOn, List.splitOnP_cons_eq_if_modifyHead] at ih mem
      split at mem
      · rcases List.mem_cons.mp mem with rfl | mem
        · cases inside
        · exact .tail _ (ih mem inside)
      · cases pieces : List.splitOnP (· == a) l with
        | nil => simp [pieces] at mem
        | cons p ps =>
            simp only [pieces, List.modifyHead_cons, List.mem_cons] at mem ih
            rcases mem with rfl | mem
            · rcases List.mem_cons.mp inside with rfl | inside
              · exact .head _
              · exact .tail _ (ih (.inl rfl) inside)
            · exact .tail _ (ih (.inr mem) inside)

/-- No piece holds the separator. -/
theorem not_mem_of_splitOn [BEq α] [LawfulBEq α] {l piece : List α} (mem : piece ∈ l.splitOn a) :
    a ∉ piece := by
  induction l generalizing piece with
  | nil =>
      rw [List.splitOn_nil, List.mem_singleton] at mem
      rw [mem]
      exact List.not_mem_nil
  | cons x l ih =>
      rw [List.splitOn_cons_eq_if_modifyHead] at mem
      split at mem
      · rcases List.mem_cons.mp mem with rfl | mem
        · exact List.not_mem_nil
        · exact ih mem
      · rename_i other
        cases pieces : l.splitOn a with
        | nil => exact absurd pieces (List.splitOn_ne_nil _ _)
        | cons p ps =>
            rw [pieces, List.modifyHead_cons] at mem
            rw [pieces] at ih
            rcases List.mem_cons.mp mem with rfl | mem
            · rw [List.mem_cons, not_or]
              exact ⟨fun same => other (by simp [same]), ih (.head _)⟩
            · exact ih (.tail _ mem)

end Split

end Text

end PlexusTransport
