import Mathlib

/-! # Machines

A start and a step that an action may or may not have. What holds at the
start and is kept by every step holds in every run.
-/

namespace PlexusTransport

structure Machine (σ α : Type) where
  start : σ
  step : σ → α → Option σ

namespace Machine

variable {σ α : Type} (m : Machine σ α)

/-- These actions, one after another. -/
def runFrom : σ → List α → Option σ
  | s, [] => some s
  | s, a :: as => (m.step s a).bind fun t => runFrom t as

def run (as : List α) : Option σ := m.runFrom m.start as

/-- Every step of these is taken in a state that allows it. -/
def Allows (allowed : σ → α → Prop) : σ → List α → Prop
  | _, [] => True
  | s, a :: as => allowed s a ∧ ∀ t ∈ m.step s a, Allows allowed t as

instance Allows.decidable {allowed : σ → α → Prop} [∀ s a, Decidable (allowed s a)] :
    ∀ (s : σ) (as : List α), Decidable (m.Allows allowed s as)
  | _, [] => isTrue trivial
  | s, a :: as =>
      match stepped : m.step s a with
      | none => decidable_of_iff (allowed s a) (by simp [Allows, stepped])
      | some t =>
          have : Decidable (m.Allows allowed t as) := Allows.decidable t as
          decidable_of_iff (allowed s a ∧ m.Allows allowed t as) (by simp [Allows, stepped])

variable {m}

theorem runFrom_keeps {allowed : σ → α → Prop} {I : σ → Prop}
    (keeps : ∀ s a t, I s → allowed s a → m.step s a = some t → I t) {s t : σ} {as : List α}
    (allows : m.Allows allowed s as) (ran : m.runFrom s as = some t) (here : I s) : I t := by
  induction as generalizing s with
  | nil =>
      cases ran
      exact here
  | cons a as ih =>
      obtain ⟨allows, later⟩ := allows
      obtain ⟨u, stepped, ran⟩ := Option.bind_eq_some_iff.mp ran
      exact ih (later u stepped) ran (keeps s a u here allows stepped)

theorem runFrom_append (s : σ) (as bs : List α) :
    m.runFrom s (as ++ bs) = (m.runFrom s as).bind fun t => m.runFrom t bs := by
  induction as generalizing s with
  | nil => rfl
  | cons a as ih =>
      simp only [List.cons_append, runFrom, Option.bind_assoc]
      congr 1
      funext t
      exact ih t

theorem allows_append {allowed : σ → α → Prop} {s t : σ} {as bs : List α}
    (allows : m.Allows allowed s (as ++ bs)) (ran : m.runFrom s as = some t) :
    m.Allows allowed s as ∧ m.Allows allowed t bs := by
  induction as generalizing s with
  | nil =>
      cases ran
      exact ⟨trivial, allows⟩
  | cons a as ih =>
      obtain ⟨here, later⟩ := allows
      obtain ⟨u, stepped, ran⟩ := Option.bind_eq_some_iff.mp ran
      refine ⟨⟨here, fun v stepped' => ?_⟩, (ih (later u stepped) ran).2⟩
      rw [Option.mem_def.mp stepped'] at stepped
      cases stepped
      exact (ih (later _ stepped') ran).1

theorem allows_and {P Q : σ → α → Prop} {s : σ} {as : List α} (first : m.Allows P s as)
    (second : m.Allows Q s as) : m.Allows (fun s a => P s a ∧ Q s a) s as := by
  induction as generalizing s with
  | nil => trivial
  | cons a as ih =>
      exact ⟨⟨first.1, second.1⟩, fun t stepped => ih (first.2 t stepped) (second.2 t stepped)⟩

theorem allows_of_mem {allowed : σ → α → Prop} {s : σ} {as : List α}
    (each : ∀ a ∈ as, ∀ s, allowed s a) : m.Allows allowed s as := by
  induction as generalizing s with
  | nil => trivial
  | cons a as ih => exact ⟨each a (.head _) s, fun t _ => ih fun b mem => each b (.tail _ mem)⟩

theorem allows_all (s : σ) (as : List α) : m.Allows (fun _ _ => True) s as :=
  allows_of_mem fun _ _ _ => trivial

/-- What every step keeps, a run keeps from wherever it begins. -/
theorem runFrom_always {I : σ → Prop} (keeps : ∀ s a t, I s → m.step s a = some t → I t) {s t : σ}
    {as : List α} (ran : m.runFrom s as = some t) (here : I s) : I t :=
  runFrom_keeps (fun s a t here _ => keeps s a t here) (allows_all s as) ran here

/-- What a run came to, it came to by one of its actions. -/
theorem runFrom_gains {P : σ → Prop} {C : α → Prop}
    (gains : ∀ s a t, m.step s a = some t → P t → P s ∨ C a) {s t : σ} {as : List α}
    (ran : m.runFrom s as = some t) (there : P t) : P s ∨ ∃ a ∈ as, C a := by
  induction as generalizing s with
  | nil =>
      cases ran
      exact .inl there
  | cons a as ih =>
      obtain ⟨u, stepped, ran⟩ := Option.bind_eq_some_iff.mp ran
      obtain before | ⟨b, mem, by_⟩ := ih ran
      · obtain here | by_ := gains s a u stepped before
        · exact .inl here
        · exact .inr ⟨a, .head _, by_⟩
      · exact .inr ⟨b, .tail _ mem, by_⟩

/-- What a run does seen from another machine, that machine's run does. -/
theorem runFrom_simulates {τ β : Type} {n : Machine τ β} {view : τ → σ} {act : α → β}
    {good : α → Prop} {I : τ → Prop}
    (simulates : ∀ t a s', I t → good a → m.step (view t) a = some s' →
      ∃ t', n.step t (act a) = some t' ∧ view t' = s' ∧ I t')
    {t : τ} {as : List α} {s' : σ} (each : ∀ a ∈ as, good a) (ran : m.runFrom (view t) as = some s')
    (here : I t) : ∃ t', n.runFrom t (as.map act) = some t' ∧ view t' = s' ∧ I t' := by
  induction as generalizing t with
  | nil => exact ⟨t, rfl, Option.some.inj ran, here⟩
  | cons a as ih =>
      obtain ⟨s, stepped, ran⟩ := Option.bind_eq_some_iff.mp ran
      obtain ⟨u, stepped', rfl, here'⟩ := simulates t a s here (each a (.head _)) stepped
      obtain ⟨t', ran', same, there⟩ := ih (fun b mem => each b (.tail _ mem)) ran here'
      exact ⟨t', Option.bind_eq_some_iff.mpr ⟨u, stepped', ran'⟩, same, there⟩

/-- The induction rule: an invariant of the start and of every step. -/
theorem run_keeps {I : σ → Prop} (start : I m.start)
    (keeps : ∀ s a t, I s → m.step s a = some t → I t) {t : σ} {as : List α}
    (ran : m.run as = some t) : I t :=
  runFrom_keeps (fun s a t here _ => keeps s a t here) (allows_all m.start as) ran start

end Machine

end PlexusTransport
