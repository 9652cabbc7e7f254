import PlexusTransport.Lib.Text

/-! # Lines

What is written one piece after another, each with its end, and what is read of it by
splitting at the ends.
-/

namespace PlexusTransport.Framing

variable {α : Type} {eol : α} {v w : List α}

/-- Each with its end. -/
def frames (eol : α) (pieces : List (List α)) : List α := pieces.flatMap (· ++ [eol])

/-- All that comes before an end. -/
def lines [BEq α] (eol : α) (l : List α) : List (List α) := (l.splitOn eol).dropLast

theorem frames_append (pieces more : List (List α)) :
    frames eol (pieces ++ more) = frames eol pieces ++ frames eol more :=
  List.flatMap_append

theorem frames_cons (piece : List α) (pieces : List (List α)) :
    frames eol (piece :: pieces) = piece ++ eol :: frames eol pieces := by
  simp [frames]

section Split

variable [BEq α]

/-- More only adds lines. -/
theorem lines_prefix (front : w <+: v) : lines eol w <+: lines eol v := by
  induction w generalizing v with
  | nil => exact List.nil_prefix
  | cons x w ih =>
      obtain ⟨rest, rfl⟩ := front
      have later := ih (List.prefix_append w rest)
      simp only [lines, List.cons_append, List.splitOn_cons_eq_if_modifyHead] at later ⊢
      split
      · rw [List.dropLast_cons_of_ne_nil (List.splitOn_ne_nil _ _),
          List.dropLast_cons_of_ne_nil (List.splitOn_ne_nil _ _)]
        exact List.cons_prefix_cons.mpr ⟨rfl, later⟩
      · cases here : w.splitOn eol with
        | nil => exact absurd here (List.splitOn_ne_nil _ _)
        | cons p ps =>
            cases ps with
            | nil => exact List.nil_prefix
            | cons p' ps =>
                cases there : (w ++ rest).splitOn eol with
                | nil => exact absurd there (List.splitOn_ne_nil _ _)
                | cons q qs =>
                    rw [here, there] at later
                    cases qs with
                    | nil => cases List.prefix_nil.mp later
                    | cons q' qs =>
                        obtain ⟨rfl, others⟩ := List.cons_prefix_cons.mp later
                        exact List.cons_prefix_cons.mpr ⟨rfl, others⟩

variable [LawfulBEq α]

theorem splitOn_frames {pieces : List (List α)} (whole : ∀ piece ∈ pieces, eol ∉ piece) :
    (frames eol pieces).splitOn eol = pieces ++ [[]] := by
  induction pieces with
  | nil => rfl
  | cons piece pieces ih =>
      rw [frames_cons, List.splitOn_append_cons_self_of_not_mem (whole piece (.head _)),
        ih fun p mem => whole p (.tail _ mem), List.cons_append]

/-- The lines are what was written if, and only if, no piece holds an end. -/
theorem lines_frames_iff {pieces : List (List α)} :
    lines eol (frames eol pieces) = pieces ↔ ∀ piece ∈ pieces, eol ∉ piece := by
  constructor
  · intro same piece mem
    rw [← same] at mem
    exact Text.not_mem_of_splitOn (List.mem_of_mem_dropLast mem)
  · intro whole
    rw [lines, splitOn_frames whole, List.dropLast_concat]

end Split

end PlexusTransport.Framing
