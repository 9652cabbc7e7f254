import Mathlib

/-! # Loops left early

A loop over items, each of which may end it: `foldlM` in `Except`, where an error is
what it was left with.
-/

namespace PlexusTransport.Loop

variable {σ α ρ : Type} {body : σ → α → Except ρ σ} {s t : σ} {items : List α}

/-- The item at which a loop is left, after all before it were gone through. -/
theorem left_iff {left : ρ} :
    items.foldlM body s = .error left ↔
      ∃ front item rest t, items = front ++ item :: rest ∧ front.foldlM body s = .ok t ∧
        body t item = .error left := by
  induction items generalizing s with
  | nil =>
      constructor
      · intro ended
        cases ended
      · rintro ⟨front, item, rest, t, split, -⟩
        simp at split
  | cons i items ih =>
      rw [List.foldlM_cons]
      cases pass : body s i with
      | error e =>
          constructor
          · intro ended
            exact ⟨[], i, items, s, rfl, rfl, pass.trans ended⟩
          · rintro ⟨front, item, rest, t, split, before, here⟩
            cases front with
            | nil =>
                cases split
                cases before
                exact pass.symm.trans here
            | cons j front =>
                cases split
                rw [List.foldlM_cons, pass] at before
                cases before
      | ok u =>
          refine Iff.trans (Iff.trans Iff.rfl (ih (s := u))) ?_
          constructor
          · rintro ⟨front, item, rest, t, rfl, before, here⟩
            refine ⟨i :: front, item, rest, t, rfl, ?_, here⟩
            rw [List.foldlM_cons, pass]
            exact before
          · rintro ⟨front, item, rest, t, split, before, here⟩
            cases front with
            | nil =>
                cases split
                cases before
                cases pass.symm.trans here
            | cons j front =>
                cases split
                rw [List.foldlM_cons, pass] at before
                exact ⟨front, item, rest, t, rfl, before, here⟩

/-- What a loop was left with, if it was left. -/
def left? : Except ρ σ → Option ρ
  | .error r => some r
  | .ok _ => none

@[simp] theorem left?_eq_some {r : Except ρ σ} {left : ρ} : left? r = some left ↔ r = .error left := by
  cases r with
  | error e => simp [left?]
  | ok s => simp [left?]

theorem append_singleton_ok {item : α} :
    (items ++ [item]).foldlM body s = .ok t ↔
      ∃ u, items.foldlM body s = .ok u ∧ body u item = .ok t := by
  rw [List.foldlM_append]
  cases items.foldlM body s with
  | error e =>
      constructor
      · intro went
        cases went
      · rintro ⟨u, before, -⟩
        cases before
  | ok u =>
      change ((body u item).bind .ok = .ok t) ↔ _
      constructor
      · intro went
        cases pass : body u item with
        | error e =>
            rw [pass] at went
            cases went
        | ok v =>
            rw [pass] at went
            cases went
            exact ⟨u, rfl, pass⟩
      · rintro ⟨u', before, here⟩
        cases before
        rw [here]
        rfl

/-- A loop left at an item is left so whatever follows. -/
theorem append_of_left {front rest : List α} {left : ρ}
    (ended : front.foldlM body s = .error left) :
    (front ++ rest).foldlM body s = .error left := by
  rw [List.foldlM_append, ended]
  rfl

/-- A loop gone through, where each pass goes on or not whatever the state. -/
theorem foldlM_ok_iff {passes : α → Prop} {next : σ → α → σ}
    (each : ∀ s i t, body s i = .ok t ↔ passes i ∧ t = next s i) :
    items.foldlM body s = .ok t ↔ (∀ i ∈ items, passes i) ∧ t = items.foldl next s := by
  induction items generalizing s with
  | nil =>
      refine Iff.trans ⟨fun went => ?_, fun same => ?_⟩ (and_iff_right fun _ mem => nomatch mem).symm
      · cases went
        rfl
      · cases same
        rfl
  | cons i items ih =>
      rw [List.foldlM_cons, List.forall_mem_cons, List.foldl_cons]
      cases pass : body s i with
      | error e =>
          have stops : ¬ passes i := fun goes => by
            cases pass.symm.trans ((each s i _).mpr ⟨goes, rfl⟩)
          constructor
          · intro went
            cases went
          · rintro ⟨⟨goes, -⟩, -⟩
            exact absurd goes stops
      | ok u =>
          obtain ⟨goes, rfl⟩ := (each s i u).mp pass
          refine Iff.trans (Iff.trans Iff.rfl (ih (s := next s i))) ?_
          simp [goes]

/-- A loop that does what another does, on what is seen of its state and its items. -/
theorem foldlM_simulates {τ β ρ' : Type} {view : σ → τ} {f : α → β} {body' : τ → β → Except ρ' τ}
    (simulates : ∀ s i t, body s i = .ok t → body' (view s) (f i) = .ok (view t))
    (went : items.foldlM body s = .ok t) :
    (items.map f).foldlM body' (view s) = .ok (view t) := by
  induction items generalizing s with
  | nil =>
      cases went
      rfl
  | cons i items ih =>
      rw [List.foldlM_cons] at went
      cases pass : body s i with
      | error e =>
          rw [pass] at went
          cases went
      | ok u =>
          rw [pass] at went
          rw [List.map_cons, List.foldlM_cons, simulates s i u pass]
          exact ih went

/-- Where each item sets what is read of a state or leaves it, the last that set it did. -/
theorem foldl_last {β : Type} {f : σ → α → σ} (read : σ → β) (sets : α → Option β)
    (each : ∀ s i, read (f s i) = (sets i).getD (read s)) (items : List α) (s : σ) :
    read (items.foldl f s) = (items.reverse.findSome? sets).getD (read s) := by
  induction items using List.reverseRecOn with
  | nil => rfl
  | append_singleton items i ih =>
      rw [List.foldl_append, List.reverse_append]
      simp only [List.foldl_cons, List.foldl_nil, List.reverse_singleton, List.singleton_append,
        List.findSome?_cons, each, ih]
      cases sets i <;> rfl

theorem foldl_last_some {β : Type} {f : σ → α → σ} (read : σ → Option β) (sets : α → Option β)
    (each : ∀ s i, read (f s i) = (sets i).or (read s)) (items : List α) (s : σ) :
    read (items.foldl f s) = (items.reverse.findSome? sets).or (read s) := by
  induction items using List.reverseRecOn with
  | nil => rfl
  | append_singleton items i ih =>
      rw [List.foldl_append, List.reverse_append]
      simp only [List.foldl_cons, List.foldl_nil, List.reverse_singleton, List.singleton_append,
        List.findSome?_cons, each, ih]
      cases sets i <;> rfl

/-- What an item may raise and none lowers. -/
theorem foldl_any {f : σ → α → σ} (read : σ → Bool) (raises : α → Bool)
    (each : ∀ s i, read (f s i) = (raises i || read s)) (items : List α) (s : σ) :
    read (items.foldl f s) = (items.any raises || read s) := by
  induction items generalizing s with
  | nil => simp
  | cons i items ih =>
      rw [List.foldl_cons, ih, each, List.any_cons]
      cases raises i <;> simp

theorem foldl_keeps {f : σ → α → σ} {I : σ → Prop} (keeps : ∀ s i, I s → I (f s i))
    (items : List α) {s : σ} (here : I s) : I (items.foldl f s) := by
  induction items generalizing s with
  | nil => exact here
  | cons i items ih => exact ih (keeps s i here)

end PlexusTransport.Loop
