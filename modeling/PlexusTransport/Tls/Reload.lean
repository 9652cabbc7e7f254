import PlexusTransport.Lib.Machine
import PlexusTransport.Lib.Tasks

/-! # The pair a handshake presents

`Reloading`: each handshake stamps both files and, when they are not as they were,
reads them again. Files change at any time, and handshakes run beside each other.
-/

namespace PlexusTransport.Tls

/-- What a file is now: size, mtime, inode. -/
structure Stamp where
  len : UInt64
  modified : Option Nat
  ino : UInt64
  deriving DecidableEq, Repr

abbrev Stamps := Option Stamp × Option Stamp

/-- How files are stamped and read, one that is not there too. -/
structure Files (File Certs Key Pair : Type) where
  stamp : File → Option Stamp
  certs : File → Except String Certs
  key : File → Except String Key
  fromDer : Certs → Key → Except String Pair

variable {File Certs Key Pair : Type}

/-- Read and check one pair. -/
def Files.load (d : Files File Certs Key Pair) (cert key : File) : Except String Pair := do
  let certs ← d.certs cert
  let key ← d.key key
  d.fromDer certs key

/-- A load: the stamps taken before it, and the files it has read. -/
structure Load (File : Type) where
  stamps : Stamps
  cert : Option File
  key : Option File

/-- How a load ended; `none`: it has more to read. -/
def Load.result (d : Files File Certs Key Pair) (l : Load File) : Option (Except String Pair) :=
  match l.cert with
  | none => none
  | some cert =>
      match d.certs cert with
      | .error e => some (.error e)
      | .ok certs =>
          match l.key with
          | none => none
          | some key =>
              match d.key key with
              | .error e => some (.error e)
              | .ok key => some (d.fromDer certs key)

/-- Where a handshake is in `current`; the first is the start's own, in `new`. -/
inductive Phase (File Pair : Type) where
  | begun
  | stampedCert (cert : Option Stamp)
  | stamped (stamps : Stamps)
  | waiting (stamps : Stamps)
  | loading (l : Load File)
  | given (p : Option Pair)

def Phase.load? : Phase File Pair → Option (Load File)
  | .loading l => some l
  | _ => none

/-- `failed`: the load that failed last; of both loads the program keeps the stamps. All that
    the files have been is `certsSeen` and `keysSeen`. -/
structure Reloading (File Pair : Type) where
  cert : File
  key : File
  certsSeen : List File
  keysSeen : List File
  current : Option (Load File × Pair)
  failed : Option (Load File)
  shakes : List (Phase File Pair)

inductive ReloadEvent (File : Type) where
  | cert (f : File)
  | key (f : File)
  | begins
  | goes (i : Nat)

namespace Reloading

variable (d : Files File Certs Key Pair)

/-- Nothing is loaded yet. -/
def start (cert key : File) : Reloading File Pair := ⟨cert, key, [cert], [key], none, none, []⟩

/-- A load holds the locks. -/
def locked (s : Reloading File Pair) : Bool :=
  s.shakes.any (·.load?.isSome)

/-- The pair loaded under these stamps. -/
def presents (s : Reloading File Pair) (stamps : Stamps) : Option Pair :=
  s.current.bind fun (l, p) => if l.stamps = stamps then some p else none

def pair (s : Reloading File Pair) : Option Pair := s.current.map (·.2)

def put (s : Reloading File Pair) (i : Nat) (phase : Phase File Pair) : Reloading File Pair :=
  { s with shakes := s.shakes.set i phase }

/-- A handshake's next step. -/
def goes (s : Reloading File Pair) (i : Nat) : Phase File Pair → Option (Reloading File Pair)
  | .begun => some (s.put i (.stampedCert (d.stamp s.cert)))
  | .stampedCert cert => some (s.put i (.stamped (cert, d.stamp s.key)))
  | .stamped stamps =>
      if s.locked then none
      else
        match s.presents stamps with
        | some p => some (s.put i (.given (some p)))
        | none => some (s.put i (.waiting stamps))
  | .waiting stamps =>
      if s.locked then none
      else if (s.presents stamps).isSome ∨ s.failed.any (·.stamps = stamps) then
        some (s.put i (.given (s.pair)))
      else some (s.put i (.loading ⟨stamps, none, none⟩))
  | .loading l =>
      match l.result d with
      | some (.ok p) =>
          some ({ s with current := some (l, p), failed := none }.put i (.given (some p)))
      | some (.error _) =>
          some ({ s with failed := some l }.put i (.given (s.pair)))
      | none =>
          match l.cert with
          | none => some (s.put i (.loading { l with cert := some s.cert }))
          | some _ => some (s.put i (.loading { l with key := some s.key }))
  | .given _ => none

def step (s : Reloading File Pair) : ReloadEvent File → Option (Reloading File Pair)
  | .cert f => some { s with cert := f, certsSeen := f :: s.certsSeen }
  | .key f => some { s with key := f, keysSeen := f :: s.keysSeen }
  | .begins =>
      if s.current.isSome ∨ s.shakes.isEmpty then some { s with shakes := s.shakes ++ [.begun] }
      else none
  | .goes i => s.shakes[i]?.bind (s.goes d i)

def machine (cert key : File) : Machine (Reloading File Pair) (ReloadEvent File) :=
  ⟨start cert key, step d⟩

/-- All that a handshake's step can be. -/
inductive Goes (s : Reloading File Pair) (i : Nat) :
    Phase File Pair → Reloading File Pair → Prop where
  | stampsCert : Goes s i .begun (s.put i (.stampedCert (d.stamp s.cert)))
  | stampsKey {cert} :
      Goes s i (.stampedCert cert) (s.put i (.stamped (cert, d.stamp s.key)))
  | presented {phase stamps l p} (asks : phase = .stamped stamps ∨ phase = .waiting stamps)
      (current : s.current = some (l, p)) (same : l.stamps = stamps) :
      Goes s i phase (s.put i (.given (some p)))
  | waits {stamps} : Goes s i (.stamped stamps) (s.put i (.waiting stamps))
  | failedBefore {stamps l} (failed : s.failed = some l) (same : l.stamps = stamps) :
      Goes s i (.waiting stamps) (s.put i (.given (s.pair)))
  | loads {stamps} : Goes s i (.waiting stamps) (s.put i (.loading ⟨stamps, none, none⟩))
  | readsCert {l} (unread : l.cert = none) :
      Goes s i (.loading l) (s.put i (.loading { l with cert := some s.cert }))
  | readsKey {l f} (read : l.cert = some f) (unread : l.key = none) :
      Goes s i (.loading l) (s.put i (.loading { l with key := some s.key }))
  | stores {l p} (loaded : l.result d = some (.ok p)) :
      Goes s i (.loading l)
        ({ s with current := some (l, p), failed := none }.put i (.given (some p)))
  | fails {l e} (loaded : l.result d = some (.error e)) :
      Goes s i (.loading l)
        ({ s with failed := some l }.put i (.given (s.pair)))

variable {d} {s t : Reloading File Pair} {i : Nat} {phase : Phase File Pair}

theorem presents_eq_some {stamps : Stamps} {p : Pair} (presented : s.presents stamps = some p) :
    ∃ l, s.current = some (l, p) ∧ l.stamps = stamps := by
  obtain ⟨⟨l, q⟩, current, same⟩ := Option.bind_eq_some_iff.mp presented
  obtain ⟨stamps, same⟩ := Option.ite_none_right_eq_some.mp same
  cases same
  exact ⟨l, current, stamps⟩

theorem goes_cases (gone : s.goes d i phase = some t) : Goes d s i phase t := by
  cases phase with
  | begun =>
      cases gone
      exact .stampsCert
  | stampedCert cert =>
      cases gone
      exact .stampsKey
  | stamped stamps =>
      simp only [goes, Option.ite_none_left_eq_some] at gone
      obtain ⟨-, gone⟩ := gone
      cases presented : s.presents stamps with
      | some p =>
          rw [presented] at gone
          cases gone
          obtain ⟨l, current, same⟩ := presents_eq_some presented
          exact .presented (.inl rfl) current same
      | none =>
          rw [presented] at gone
          cases gone
          exact .waits
  | waiting stamps =>
      simp only [goes, Option.ite_none_left_eq_some] at gone
      obtain ⟨-, gone⟩ := gone
      cases presented : s.presents stamps with
      | some p =>
          rw [presented, if_pos (.inl rfl)] at gone
          cases gone
          obtain ⟨l, current, same⟩ := presents_eq_some presented
          rw [pair, current]
          exact .presented (.inr rfl) current same
      | none =>
          rw [presented] at gone
          split at gone
          · rename_i failed
            cases gone
            simp only [Option.isSome_none, Bool.false_eq_true, false_or, Option.any_eq_true,
              decide_eq_true_eq] at failed
            obtain ⟨l, failed, same⟩ := failed
            exact .failedBefore failed same
          · cases gone
            exact .loads
  | loading l =>
      simp only [goes] at gone
      cases loaded : l.result d with
      | some r =>
          rw [loaded] at gone
          cases r with
          | ok p =>
              cases gone
              exact .stores loaded
          | error e =>
              cases gone
              exact .fails loaded
      | none =>
          rw [loaded] at gone
          cases read : l.cert with
          | none =>
              rw [read] at gone
              cases gone
              exact .readsCert read
          | some f =>
              rw [read] at gone
              cases gone
              rw [← read]
              refine .readsKey read ?_
              simp only [Load.result, read] at loaded
              cases key : l.key with
              | none => rfl
              | some g =>
                  rw [key] at loaded
                  split at loaded
                  · cases loaded
                  · dsimp only at loaded
                    split at loaded <;> cases loaded
  | given p => cases gone

/-- A fact of every load that counts: the current one, the failed one, and any under way. -/
structure Loads (P : Load File → Prop) (s : Reloading File Pair) : Prop where
  current : ∀ l p, s.current = some (l, p) → P l
  failed : ∀ l, s.failed = some l → P l
  underWay : Tasks.Each (fun _ phase => ∀ l, phase = .loading l → P l) s.shakes

variable {P : Load File → Prop}

/-- What holds of a load from its start on, read by read, holds of every load. -/
theorem Loads.goes (all : Loads P s) (here : s.shakes[i]? = some phase) (gone : Goes d s i phase t)
    (new : ∀ stamps, P ⟨stamps, none, none⟩)
    (cert : ∀ l, P l → l.cert = none → P { l with cert := some s.cert })
    (key : ∀ l, P l → l.key = none → P { l with key := some s.key }) : Loads P t := by
  have quiet : ∀ phase, (∀ l, phase ≠ .loading l) → Loads P (s.put i phase) := fun phase other =>
    ⟨all.current, all.failed, all.underWay.set fun l same => absurd same (other l)⟩
  cases gone with
  | stampsCert | stampsKey | waits | presented | failedBefore => exact quiet _ (by simp)
  | loads =>
      refine ⟨all.current, all.failed, all.underWay.set ?_⟩
      intro l same
      cases same
      exact new _
  | readsCert unread =>
      have now := all.underWay i _ here _ rfl
      refine ⟨all.current, all.failed, all.underWay.set ?_⟩
      intro l same
      cases same
      exact cert _ now unread
  | readsKey read unread =>
      have now := all.underWay i _ here _ rfl
      refine ⟨all.current, all.failed, all.underWay.set ?_⟩
      intro l same
      cases same
      exact key _ now unread
  | stores loaded =>
      have now := all.underWay i _ here _ rfl
      refine ⟨?_, ?_, all.underWay.set (by simp)⟩
      · intro l p same
        cases same
        exact now
      · intro l same
        cases same
  | fails loaded =>
      have now := all.underWay i _ here _ rfl
      refine ⟨all.current, ?_, all.underWay.set (by simp)⟩
      intro l same
      cases same
      exact now

end Reloading

end PlexusTransport.Tls
