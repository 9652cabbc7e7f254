import PlexusTransport.Tls.Reload

/-! # What handshakes are given -/

namespace PlexusTransport.Tls

open Tasks

variable {File Certs Key Pair : Type}

/-- What a load read so far is not as it was stamped. -/
def Load.Astray (d : Files File Certs Key Pair) (l : Load File) : Prop :=
  (∃ f, l.cert = some f ∧ d.stamp f ≠ l.stamps.1) ∨ ∃ f, l.key = some f ∧ d.stamp f ≠ l.stamps.2

/-- A load that ended did so at its certificate, or having read both files. -/
theorem Load.result_cases {d : Files File Certs Key Pair} {l : Load File}
    {r : Except String Pair} (ended : l.result d = some r) :
    ∃ f, l.cert = some f ∧
      ((∃ e, d.certs f = .error e ∧ r = .error e) ∨ ∃ g, l.key = some g ∧ d.load f g = r) := by
  unfold Load.result at ended
  cases read : l.cert with
  | none => simp [read] at ended
  | some f =>
      refine ⟨f, rfl, ?_⟩
      rw [read] at ended
      dsimp only at ended
      cases chain : d.certs f with
      | error e =>
          rw [chain] at ended
          cases ended
          exact .inl ⟨e, rfl, rfl⟩
      | ok c =>
          rw [chain] at ended
          cases read' : l.key with
          | none => simp [read'] at ended
          | some g =>
              refine .inr ⟨g, rfl, ?_⟩
              rw [read'] at ended
              dsimp only at ended
              rw [Files.load, chain]
              cases secret : d.key g with
              | error e =>
                  rw [secret] at ended
                  cases ended
                  rfl
              | ok k =>
                  rw [secret] at ended
                  cases ended
                  rfl

/-- It changes no file. -/
def ReloadEvent.Quiet : ReloadEvent File → Prop
  | .cert _ | .key _ => False
  | .begins | .goes _ => True

namespace Reloading

variable (d : Files File Certs Key Pair)

/-- No load that counts went astray under the stamps of these files. -/
def Settled (cert key : File) (s : Reloading File Pair) : Prop :=
  Loads (fun l => l.Astray d → l.stamps ≠ (d.stamp cert, d.stamp key)) s

section Decide

instance (l : Load File) : Decidable (l.Astray d) :=
  inferInstanceAs (Decidable ((∃ f ∈ l.cert, d.stamp f ≠ l.stamps.1) ∨
    ∃ f ∈ l.key, d.stamp f ≠ l.stamps.2))

instance settledDecidable (cert key : File) (s : Reloading File Pair) :
    Decidable (s.Settled d cert key) :=
  let straight (l : Load File) : Prop := l.Astray d → l.stamps ≠ (d.stamp cert, d.stamp key)
  decidable_of_iff
    ((∀ r ∈ s.current, straight r.1) ∧ (∀ l ∈ s.failed, straight l) ∧
      ∀ phase ∈ s.shakes, ∀ l ∈ phase.load?, straight l) (by
    constructor
    · rintro ⟨current, failed, underWay⟩
      refine ⟨fun l p same => current (l, p) same, failed, fun i phase here l same => ?_⟩
      exact underWay phase (List.mem_of_getElem? here) l (by rw [same]; rfl)
    · rintro ⟨current, failed, underWay⟩
      refine ⟨fun r same => current r.1 r.2 same, failed, fun phase mem l same => ?_⟩
      obtain ⟨i, here⟩ := List.getElem?_of_mem mem
      cases phase <;> cases same
      exact underWay i _ here l rfl)

end Decide

/-- No file is put back as it was stamped for a load that read something else. -/
def Onward (s : Reloading File Pair) : ReloadEvent File → Prop
  | .cert f => Settled d f s.key s
  | .key f => Settled d s.cert f s
  | .begins | .goes _ => True

instance (s : Reloading File Pair) : (e : ReloadEvent File) → Decidable (s.Onward d e)
  | .cert f => inferInstanceAs (Decidable (s.Settled d f s.key))
  | .key f => inferInstanceAs (Decidable (s.Settled d s.cert f))
  | .begins | .goes _ => inferInstanceAs (Decidable True)

/-- The pair is of a certificate and a key that were there, and loaded together. -/
def Together (s : Reloading File Pair) (p : Pair) : Prop :=
  ∃ cert ∈ s.certsSeen, ∃ key ∈ s.keysSeen, d.load cert key = .ok p

/-- What a load read was there. -/
def Read (s : Reloading File Pair) (l : Load File) : Prop :=
  (∀ f, l.cert = some f → f ∈ s.certsSeen) ∧ ∀ f, l.key = some f → f ∈ s.keysSeen

structure Sound (s : Reloading File Pair) : Prop where
  cert : s.cert ∈ s.certsSeen
  key : s.key ∈ s.keysSeen
  current : ∀ l p, s.current = some (l, p) → l.result d = some (.ok p)
  failed : ∀ l, s.failed = some l → ∃ e, l.result d = some (.error e)
  read : Loads s.Read s
  given : Each (fun _ phase => ∀ p, phase = .given (some p) → s.Together d p) s.shakes

variable {d} {s t : Reloading File Pair} {i : Nat} {phase : Phase File Pair}

theorem Loads.mono {P Q : Load File → Prop} (all : Loads P s) (weaker : ∀ l, P l → Q l) :
    Loads Q s :=
  ⟨fun l p current => weaker l (all.current l p current), fun l failed => weaker l (all.failed l failed),
    all.underWay.mono fun _ _ _ each l same => weaker l (each l same)⟩

theorem start_sound (cert key : File) : (start cert key : Reloading File Pair).Sound d where
  cert := .head _
  key := .head _
  current := by simp [start]
  failed := by simp [start]
  read := ⟨by simp [start], by simp [start], each_nil⟩
  given := each_nil

/-- The pair of a load that ended well was there, and loaded together. -/
theorem together_of_load {l : Load File} {p : Pair} (ended : l.result d = some (.ok p))
    (read : s.Read l) : s.Together d p := by
  obtain ⟨f, cert, ⟨e, -, bad⟩ | ⟨g, key, loaded⟩⟩ := l.result_cases ended
  · cases bad
  · exact ⟨f, read.1 f cert, g, read.2 g key, loaded⟩

theorem Sound.pair (sound : s.Sound d) {p : Pair} (now : s.pair = some p) : s.Together d p := by
  obtain ⟨⟨l, q⟩, current, same⟩ := Option.map_eq_some_iff.mp now
  cases same
  exact together_of_load (sound.current l q current) (sound.read.current l q current)

theorem goes_sound (sound : s.Sound d) (here : s.shakes[i]? = some phase)
    (gone : Goes d s i phase t) : t.Sound d := by
  have read : Loads s.Read t := by
    refine sound.read.goes here gone (fun _ => ⟨by simp, by simp⟩) ?_ ?_
    · rintro l ⟨-, key⟩ -
      refine ⟨fun f same => ?_, key⟩
      cases same
      exact sound.cert
    · rintro l ⟨cert, -⟩ -
      refine ⟨cert, fun f same => ?_⟩
      cases same
      exact sound.key
  have quiet : ∀ phase, (∀ p, phase ≠ .given (some p)) → t = s.put i phase → t.Sound d := by
    rintro phase other rfl
    exact ⟨sound.cert, sound.key, sound.current, sound.failed, read,
      sound.given.set fun p same => absurd same (other p)⟩
  cases gone with
  | stampsCert | stampsKey | waits | loads | readsCert | readsKey => exact quiet _ (by simp) rfl
  | presented asks current same =>
      refine ⟨sound.cert, sound.key, sound.current, sound.failed, read, sound.given.set ?_⟩
      intro p same
      cases same
      exact sound.pair (by rw [pair, current]; rfl)
  | failedBefore failed same =>
      refine ⟨sound.cert, sound.key, sound.current, sound.failed, read, sound.given.set ?_⟩
      intro p same
      exact sound.pair (Phase.given.inj same)
  | @stores l p loaded =>
      refine ⟨sound.cert, sound.key, ?_, by simp [put], read, sound.given.set ?_⟩
      · intro l p same
        cases same
        exact loaded
      · intro p same
        cases same
        exact together_of_load loaded (sound.read.underWay i _ here _ rfl)
  | @fails l e loaded =>
      refine ⟨sound.cert, sound.key, sound.current, ?_, read, sound.given.set ?_⟩
      · intro l same
        cases same
        exact ⟨e, loaded⟩
      · intro p same
        exact sound.pair (Phase.given.inj same)

theorem Together.mono {p : Pair} (certs : s.certsSeen ⊆ t.certsSeen)
    (keys : s.keysSeen ⊆ t.keysSeen) (together : s.Together d p) : t.Together d p := by
  obtain ⟨f, cert, g, key, loaded⟩ := together
  exact ⟨f, certs cert, g, keys key, loaded⟩

theorem step_sound (sound : s.Sound d) {e : ReloadEvent File} (stepped : s.step d e = some t) :
    t.Sound d := by
  have changed : s.certsSeen ⊆ t.certsSeen → s.keysSeen ⊆ t.keysSeen →
      t.current = s.current → t.failed = s.failed → t.shakes = s.shakes →
      t.cert ∈ t.certsSeen → t.key ∈ t.keysSeen → t.Sound d := by
    intro certs keys current failed shakes cert key
    refine ⟨cert, key, current ▸ sound.current, failed ▸ sound.failed, ?_, ?_⟩
    · have read : Loads t.Read s := sound.read.mono fun l read =>
        ⟨fun f same => certs (read.1 f same), fun f same => keys (read.2 f same)⟩
      exact ⟨current ▸ read.current, failed ▸ read.failed, shakes ▸ read.underWay⟩
    · rw [shakes]
      exact sound.given.mono fun _ _ _ given p same => (given p same).mono certs keys
  cases e with
  | cert f =>
      cases stepped
      exact changed (List.subset_cons_self _ _) (List.Subset.refl _) rfl rfl rfl (.head _) sound.key
  | key f =>
      cases stepped
      exact changed (List.Subset.refl _) (List.subset_cons_self _ _) rfl rfl rfl sound.cert (.head _)
  | begins =>
      simp only [step, Option.ite_none_right_eq_some, Option.some.injEq] at stepped
      obtain ⟨-, rfl⟩ := stepped
      exact ⟨sound.cert, sound.key, sound.current, sound.failed,
        ⟨sound.read.current, sound.read.failed, sound.read.underWay.append (by simp)⟩,
        sound.given.append (by simp)⟩
  | goes i =>
      obtain ⟨phase, here, gone⟩ := Option.bind_eq_some_iff.mp stepped
      exact goes_sound sound here (goes_cases gone)

section Rest

variable {cert key : File} {p : Pair} {n : Nat}

end Rest

/-- Files that are numbers; a certificate goes with the key of its number. -/
def numbered : Files Nat Nat Nat Nat where
  stamp f := some ⟨0, some f, 0⟩
  certs f := .ok f
  key f := .ok f
  fromDer cert key := if cert = key then .ok cert else .error "the key is not the certificate's"

def loading (i : Nat) : List (ReloadEvent Nat) := [.goes i, .goes i, .goes i]

end Reloading

end PlexusTransport.Tls
