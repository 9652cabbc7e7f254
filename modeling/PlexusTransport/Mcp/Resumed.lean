import PlexusTransport.Mcp.Closed

/-! # Resumes that fail

A resume that fails leaves the sessions as they were, unless it had looked the id up in the
database and found it: `recreate_session` inserts the handle before anything else of the
resume can fail.
-/

namespace PlexusTransport.Mcp

namespace SqliteSessionManager

variable {Id E : Type}

/-- This call is the newest, beside those of `s`. -/
def Beside (s t : SqliteSessionManager Id E) (c : SessionCall Id) (stage : Stage Id E) : Prop :=
  t.calls = s.calls ++ [(c, stage)]

section Beside

variable {s t : SqliteSessionManager Id E} {c : SessionCall Id} {stage stage' : Stage Id E}

theorem Beside.here (beside : s.Beside t c stage) : t.calls[s.calls.length]? = some (c, stage) := by
  simp [show t.calls = _ from beside]

theorem Beside.put (beside : s.Beside t c stage) :
    s.Beside (t.put s.calls.length c stage') c stage' := by
  simp [Beside, SqliteSessionManager.put, show t.calls = _ from beside]

theorem Beside.writing (beside : s.Beside t c stage) :
    t.writing = (s.writing || stage.writes) := by
  simp [SqliteSessionManager.writing, show t.calls = _ from beside]

theorem Beside.ended {r : Except (SqliteSessionError Id E) (Reply Id)} (beside : s.Beside t c stage)
    (ended : t.calls[s.calls.length]? = some (c, .ended r)) : stage = .ended r := by
  rw [beside.here] at ended
  cases ended
  rfl

end Beside

variable [DecidableEq Id]

/-- Steps of one call, with no other's beside them: with the time it is at each, and how what
    the call awaits fails if it does. -/
def goesOn (maxSessionAge : Int) (t : SqliteSessionManager Id E) (i : Nat)
    (steps : List (Int × Option (Fault E))) : Option (SqliteSessionManager Id E) :=
  (machine maxSessionAge).runFrom t (steps.map fun (now, fault) => .goes i now fault)

/-- A call made here, and its steps. -/
def alone (maxSessionAge : Int) (s : SqliteSessionManager Id E) (c : SessionCall Id)
    (steps : List (Int × Option (Fault E))) : Option (SqliteSessionManager Id E) :=
  (s.begin c).goesOn maxSessionAge s.calls.length steps

/-- A `has_session` alone can answer this. -/
def Answers (maxSessionAge : Int) (s : SqliteSessionManager Id E) (id : Id)
    (r : Except (SqliteSessionError Id E) (Reply Id)) : Prop :=
  ∃ steps t, s.alone maxSessionAge (.has id) steps = some t ∧
    t.calls[s.calls.length]? = some (.has id, .ended r)

structure Unchanged (maxSessionAge : Int) (s t : SqliteSessionManager Id E) : Prop where
  sessions : t.sessions = s.sessions
  rows : t.rows = s.rows
  answers : ∀ id r, t.Answers maxSessionAge id r ↔ s.Answers maxSessionAge id r

/-- The check of the database fails: what a resume that finds no handle awaits first. -/
def checkFails : List (Int × Option (Fault E)) → Bool
  | _ :: (_, fault) :: _ => fault.isSome
  | _ => false

section Steps

variable {s t u : SqliteSessionManager Id E} {c : SessionCall Id} {stage : Stage Id E} {id : Id}
  {maxSessionAge now : Int} {fault : Option (Fault E)} {steps : List (Int × Option (Fault E))}
  {r : Except (SqliteSessionError Id E) (Reply Id)}

theorem Beside.step (beside : s.Beside t c stage)
    (stepped : (machine maxSessionAge).step t (.goes s.calls.length now fault) = some u) :
    t.goes s.calls.length now fault c stage = some u := by
  simpa [machine, SqliteSessionManager.step, beside.here] using stepped

theorem Beside.goesOn_cons (beside : s.Beside t c stage) :
    t.goesOn maxSessionAge s.calls.length ((now, fault) :: steps) =
      (t.goes s.calls.length now fault c stage).bind fun u =>
        u.goesOn maxSessionAge s.calls.length steps := by
  simp [goesOn, Machine.runFrom, machine, SqliteSessionManager.step, beside.here]

/-- What each step of a call alone keeps, its run keeps. -/
theorem goesOn_keeps {I : SqliteSessionManager Id E → Prop} {i : Nat}
    (keeps : ∀ t now fault u, I t → (machine maxSessionAge).step t (.goes i now fault) = some u → I u)
    (start : I s) (ran : s.goesOn maxSessionAge i steps = some t) : I t := by
  have allows : (machine maxSessionAge).Allows (fun _ a => ∃ now fault, a = .goes i now fault) s
      (steps.map fun (now, fault) => SessionEvent.goes i now fault) := by
    apply Machine.allows_of_mem
    intro a mem s
    obtain ⟨⟨now, fault⟩, -, rfl⟩ := List.mem_map.mp mem
    exact ⟨now, fault, rfl⟩
  apply Machine.runFrom_keeps _ allows ran start
  rintro t _ u is ⟨now, fault, rfl⟩ stepped
  exact keeps t now fault u is stepped

/-- A call here can go on to end so. -/
def Leads (maxSessionAge : Int) (i : Nat) (c : SessionCall Id)
    (r : Except (SqliteSessionError Id E) (Reply Id)) (t : SqliteSessionManager Id E) : Prop :=
  ∃ steps u, t.goesOn maxSessionAge i steps = some u ∧ u.calls[i]? = some (c, .ended r)

theorem leads_ended (beside : s.Beside t c (.ended r)) :
    Leads maxSessionAge s.calls.length c r t :=
  ⟨[], t, rfl, beside.here⟩

theorem leads_step (beside : s.Beside t c stage)
    (went : t.goes s.calls.length now fault c stage = some u)
    (leads : Leads maxSessionAge s.calls.length c r u) : Leads maxSessionAge s.calls.length c r t := by
  obtain ⟨steps, v, ran, ended⟩ := leads
  exact ⟨(now, fault) :: steps, v, by rw [beside.goesOn_cons, went]; exact ran, ended⟩

/-- Where a `has_session` alone is, and what it may have answered. -/
def HasAt (s : SqliteSessionManager Id E) (id : Id) : Stage Id E → Prop
  | .begun => True
  | .checking | .removing => s.writing = false ∧ id ∉ s.sessions
  | .ended r => s.writing = false ∧ (r = .ok (.has (decide (id ∈ s.sessions))) ∨
      id ∉ s.sessions ∧ ∃ e, r = .error (.databaseError ("Failed to check session: " ++ e)))
  | _ => False

theorem hasAt_step (sessions : t.sessions = s.sessions) (beside : s.Beside t (.has id) stage)
    (is : s.HasAt id stage) (stepped : t.goes s.calls.length now fault (.has id) stage = some u) :
    u.sessions = s.sessions ∧ ∃ stage', s.Beside u (.has id) stage' ∧ s.HasAt id stage' := by
  have writing := beside.writing
  cases stage with
  | begun =>
      simp only [goes, hasSession] at stepped
      split at stepped
      · cases stepped
      · rename_i free
        have free : s.writing = false := by simpa [writing, Stage.writes] using free
        split at stepped
        · rename_i live
          cases stepped
          exact ⟨sessions, _, beside.put, free, .inl (by simp [sessions ▸ live])⟩
        · rename_i live
          cases stepped
          exact ⟨sessions, _, beside.put, free, sessions ▸ live⟩
  | checking =>
      obtain ⟨free, live⟩ := is
      cases fault with
      | none =>
          simp only [goes, hasSession, sql] at stepped
          split at stepped
          · cases stepped
            exact ⟨sessions, _, beside.put, free, live⟩
          · cases stepped
            exact ⟨sessions, _, beside.put, free, .inl (by simp [live])⟩
      | some fault =>
          cases fault with
          | sql e =>
              cases stepped
              exact ⟨sessions, _, beside.put, free, .inr ⟨live, e, rfl⟩⟩
          | session e | eventId e => cases stepped
  | removing =>
      obtain ⟨free, live⟩ := is
      obtain rfl | rfl := bestEffort_cases stepped
      · exact ⟨sessions, _, beside.put, free, .inl (by simp [live])⟩
      · exact ⟨sessions, _, beside.put, free, .inl (by simp [live])⟩
  | _ => cases stepped

/-- What `has_session` can answer is read off the handles. -/
theorem answers_iff : s.Answers maxSessionAge id r ↔ s.HasAt id (.ended r) := by
  constructor
  · rintro ⟨steps, t, ran, ended⟩
    let I (t : SqliteSessionManager Id E) :=
      t.sessions = s.sessions ∧ ∃ stage, s.Beside t (.has id) stage ∧ s.HasAt id stage
    have keeps : ∀ t now fault u, I t →
        (machine maxSessionAge).step t (.goes s.calls.length now fault) = some u → I u := by
      rintro t now fault u ⟨sessions, stage, beside, is⟩ stepped
      exact hasAt_step sessions beside is (beside.step stepped)
    have begun : s.Beside (s.begin (.has id)) (.has id) .begun := rfl
    have start : I (s.begin (.has id)) := ⟨rfl, .begun, begun, trivial⟩
    obtain ⟨-, stage, beside, is⟩ := goesOn_keeps keeps start ran
    exact beside.ended ended ▸ is
  · rintro ⟨free, answered⟩
    have begun : s.Beside (s.begin (.has id)) (.has id) .begun := rfl
    have free : (s.begin (.has id)).writing = false := by rw [begun.writing, free]; rfl
    by_cases live : id ∈ s.sessions
    · obtain rfl | ⟨other, -⟩ := answered
      · have went : (s.begin (.has id)).goes s.calls.length 0 (none : Option (Fault E)) (.has id) .begun
            = some ((s.begin (.has id)).ends s.calls.length (.has id) (.ok (.has true))) := by
          simp only [goes, hasSession, free]
          exact if_pos live
        simp only [live]
        exact leads_step begun went (leads_ended begun.put)
      · exact absurd live other
    · have looked : (s.begin (.has id)).goes s.calls.length 0 (none : Option (Fault E)) (.has id) .begun
          = some ((s.begin (.has id)).put s.calls.length (.has id) .checking) := by
        simp only [goes, hasSession, free]
        exact if_neg live
      apply leads_step begun looked
      obtain rfl | ⟨-, e, rfl⟩ := answered
      · simp only [live]
        let t := (s.begin (.has id)).put s.calls.length (.has id) .checking
        by_cases stored : sessionExistsInDb id s.rows
        · have found : t.goes s.calls.length 0 (none : Option (Fault E)) (.has id) .checking
              = some (t.put s.calls.length (.has id) .removing) := congrArg some (if_pos stored)
          have removed : (t.put s.calls.length (.has id) .removing).goes s.calls.length 0
              (none : Option (Fault E)) (.has id) .removing = some _ := rfl
          apply leads_step begun.put found
          exact leads_step begun.put.put removed (leads_ended begun.put.put.put)
        · have absent : t.goes s.calls.length 0 (none : Option (Fault E)) (.has id) .checking
              = some (t.ends s.calls.length (.has id) (.ok (.has false))) :=
            congrArg some (if_neg stored)
          exact leads_step begun.put absent (leads_ended begun.put.put)
      · have failed : ((s.begin (.has id)).put s.calls.length (.has id) .checking).goes s.calls.length 0
            (some (Fault.sql e : Fault E)) (.has id) .checking = some _ := rfl
        exact leads_step begun.put failed (leads_ended begun.put.put)

/-- Where a resume is that inserts no handle. -/
def IdleAt (s t : SqliteSessionManager Id E) (id : Id) : Stage Id E → Prop
  | .begun | .resuming | .touching | .ended (.error _) => t.rows = s.rows
  | .checking => t.rows = s.rows ∧ sessionExistsInDb id s.rows = false
  | .ended (.ok _) => True
  | _ => False

/-- Where a resume is that has found its row. -/
def FoundAt (t : SqliteSessionManager Id E) (id : Id) : Stage Id E → Prop
  | .found => True
  | .inserted | .recreated | .again | .ended _ => id ∈ t.sessions
  | _ => False

theorem idleAt_step (apart : id ∈ s.sessions ∨ sessionExistsInDb id s.rows = false)
    (sessions : t.sessions = s.sessions) (beside : s.Beside t (.resume id) stage)
    (is : s.IdleAt t id stage) (went : t.goes s.calls.length now fault (.resume id) stage = some u) :
    u.sessions = s.sessions ∧ ∃ stage', s.Beside u (.resume id) stage' ∧ s.IdleAt u id stage' := by
  cases stage with
  | begun =>
      obtain ⟨-, went⟩ := Option.ite_none_left_eq_some.mp went
      split at went
      · cases went
        exact ⟨sessions, _, beside.put, is⟩
      · rename_i dead
        cases went
        exact ⟨sessions, _, beside.put, is, apart.resolve_left (sessions ▸ dead)⟩
  | resuming =>
      obtain rfl | ⟨e, rfl⟩ := handleResume_cases went
      · exact ⟨sessions, _, beside.put, is⟩
      · exact ⟨sessions, _, beside.put, is⟩
  | touching =>
      obtain rfl | rfl := bestEffort_cases went
      · exact ⟨sessions, _, beside.put, trivial⟩
      · exact ⟨sessions, _, beside.put, trivial⟩
  | checking =>
      obtain ⟨rows, absent⟩ := is
      obtain ⟨-, rfl⟩ | ⟨-, e, rfl⟩ := sql_cases went
      · rw [if_neg (by simp [rows, absent])]
        exact ⟨sessions, _, beside.put, rows⟩
      · exact ⟨sessions, _, beside.put, rows⟩
  | found | inserted | recreated | again => exact is.elim
  | _ => cases went

theorem foundAt_step (beside : s.Beside t (.resume id) stage) (is : t.FoundAt id stage)
    (went : t.goes s.calls.length now fault (.resume id) stage = some u) :
    ∃ stage', s.Beside u (.resume id) stage' ∧ u.FoundAt id stage' := by
  cases stage with
  | found =>
      obtain ⟨-, went⟩ := Option.ite_none_right_eq_some.mp went
      cases went
      exact ⟨_, beside.put, Finset.mem_insert_self id t.sessions⟩
  | inserted =>
      obtain ⟨-, rfl⟩ | ⟨-, e, rfl⟩ := sql_cases went
      · exact ⟨_, beside.put, is⟩
      · exact ⟨_, beside.put, is⟩
  | recreated =>
      obtain ⟨-, went⟩ := Option.ite_none_left_eq_some.mp went
      have live : id ∈ t.sessions := is
      rw [if_pos live] at went
      cases went
      exact ⟨_, beside.put, is⟩
  | again =>
      obtain rfl | ⟨e, rfl⟩ := handleResume_cases went
      · exact ⟨_, beside.put, is⟩
      · exact ⟨_, beside.put, is⟩
  | begun | resuming | touching | checking => exact is.elim
  | _ => cases went

theorem unchanged_of (sessions : t.sessions = s.sessions) (rows : t.rows = s.rows)
    (beside : s.Beside t c (.ended r)) : s.Unchanged maxSessionAge t := by
  refine ⟨sessions, rows, fun id r => ?_⟩
  have writing : t.writing = s.writing := by simp [beside.writing, Stage.writes]
  simp only [answers_iff, HasAt, sessions, writing]

/-- With its handle there, or no row of its own, a resume fails as if it had not been. -/
theorem idle_unchanged {e : SqliteSessionError Id E}
    (apart : id ∈ s.sessions ∨ sessionExistsInDb id s.rows = false)
    (ran : s.alone maxSessionAge (.resume id) steps = some t)
    (failed : t.calls[s.calls.length]? = some (.resume id, .ended (.error e))) :
    s.Unchanged maxSessionAge t := by
  let I (t : SqliteSessionManager Id E) :=
    t.sessions = s.sessions ∧ ∃ stage, s.Beside t (.resume id) stage ∧ s.IdleAt t id stage
  have keeps : ∀ t now fault u, I t →
      (machine maxSessionAge).step t (.goes s.calls.length now fault) = some u → I u := by
    rintro t now fault u ⟨sessions, stage, beside, is⟩ stepped
    exact idleAt_step apart sessions beside is (beside.step stepped)
  have begun : s.Beside (s.begin (.resume id)) (.resume id) .begun := rfl
  have start : I (s.begin (.resume id)) := ⟨rfl, .begun, begun, rfl⟩
  obtain ⟨sessions, stage, beside, is⟩ := goesOn_keeps keeps start ran
  obtain rfl := beside.ended failed
  exact unchanged_of sessions is beside

/-- A resume that has found its row leaves its handle when it ends. -/
theorem found_inserted (found : s.Beside t (.resume id) .found)
    (ran : t.goesOn maxSessionAge s.calls.length steps = some u)
    (ended : u.calls[s.calls.length]? = some (.resume id, .ended r)) : id ∈ u.sessions := by
  let I (t : SqliteSessionManager Id E) := ∃ stage, s.Beside t (.resume id) stage ∧ t.FoundAt id stage
  have keeps : ∀ t now fault u, I t →
      (machine maxSessionAge).step t (.goes s.calls.length now fault) = some u → I u := by
    rintro t now fault u ⟨stage, beside, is⟩ stepped
    exact foundAt_step beside is (beside.step stepped)
  obtain ⟨stage, beside, is⟩ := goesOn_keeps keeps ⟨.found, found, trivial⟩ ran
  obtain rfl := beside.ended ended
  exact is

theorem ended_goesOn (ended : s.Beside t (.resume id) (.ended r))
    (ran : t.goesOn maxSessionAge s.calls.length steps = some u) : u = t := by
  cases steps with
  | nil =>
      cases ran
      rfl
  | cons first steps =>
      rw [ended.goesOn_cons] at ran
      cases ran

/-- A stored session's resume, without a handle, fails at the check or has inserted one. -/
theorem stored_ends (dead : id ∉ s.sessions) (stored : sessionExistsInDb id s.rows = true)
    (ran : s.alone maxSessionAge (.resume id) steps = some t)
    (ended : t.calls[s.calls.length]? = some (.resume id, .ended r)) :
    checkFails steps = true ∧ s.Unchanged maxSessionAge t ∨
      checkFails steps = false ∧ id ∈ t.sessions := by
  have begun : s.Beside (s.begin (.resume id)) (.resume id) .begun := rfl
  cases steps with
  | nil =>
      cases ran
      cases begun.ended ended
  | cons first steps =>
      rw [alone, begun.goesOn_cons] at ran
      obtain ⟨looking, went, ran⟩ := Option.bind_eq_some_iff.mp ran
      obtain ⟨-, went⟩ := Option.ite_none_left_eq_some.mp went
      rw [if_neg (by exact dead)] at went
      cases went
      cases steps with
      | nil =>
          cases ran
          cases begun.put.ended ended
      | cons second steps =>
          rw [begun.put.goesOn_cons] at ran
          obtain ⟨checked, went, ran⟩ := Option.bind_eq_some_iff.mp ran
          obtain ⟨well, rfl⟩ | ⟨failed, e, rfl⟩ := sql_cases went
          · rw [if_pos (by exact stored)] at ran
            exact .inr ⟨by simpa [checkFails] using well, found_inserted begun.put.put ran ended⟩
          · obtain rfl := ended_goesOn begun.put.put ran
            exact .inl ⟨failed, unchanged_of rfl rfl begun.put.put⟩

/-- A failed resume changes nothing if and only if its session is live, or not stored, or the
    check of the database fails. -/
theorem resume_unchanged {e : SqliteSessionError Id E}
    (ran : s.alone maxSessionAge (.resume id) steps = some t)
    (failed : t.calls[s.calls.length]? = some (.resume id, .ended (.error e))) :
    s.Unchanged maxSessionAge t ↔
      id ∈ s.sessions ∨ sessionExistsInDb id s.rows = false ∨ checkFails steps = true := by
  by_cases apart : id ∈ s.sessions ∨ sessionExistsInDb id s.rows = false
  · have unchanged : s.Unchanged maxSessionAge t := idle_unchanged apart ran failed
    exact ⟨fun _ => or_assoc.mp (.inl apart), fun _ => unchanged⟩
  · obtain ⟨dead, stored⟩ := not_or.mp apart
    obtain ⟨checks, unchanged⟩ | ⟨checks, live⟩ :=
      stored_ends dead (by simpa using stored) ran failed
    · exact ⟨fun _ => .inr (.inr checks), fun _ => unchanged⟩
    · constructor
      · intro unchanged
        exact absurd (unchanged.sessions ▸ live) dead
      · rintro (live | absent | fails)
        · exact absurd live dead
        · exact absurd absent stored
        · rw [checks] at fails
          cases fails

end Steps

section Failed

/-- After a restart: the session is stored, and not live. -/
def stored : SqliteSessionManager Nat String := ⟨∅, [⟨1, 10, 10⟩], []⟩

/-- A resume with a text that is no event id: how it fails is not seen until the handle is in. -/
def noEventId : List (Int × Option (Fault String)) :=
  [(20, none), (20, none), (20, none), (20, none), (20, none), (20, some (.eventId "invalid digit"))]

theorem resume_unchanged_noEventId :
    ∃ t, stored.alone 60 (.resume 1) noEventId = some t ∧
      (stored.Unchanged 60 t ↔ 1 ∈ stored.sessions ∨ sessionExistsInDb 1 stored.rows = false ∨
        checkFails noEventId = true) :=
  ⟨_, rfl, resume_unchanged rfl rfl⟩

theorem failed_resume_changes : ¬∀ (maxSessionAge : Int) (s t : SqliteSessionManager Nat String)
    (id : Nat) (steps : List (Int × Option (Fault String))) (e : SqliteSessionError Nat String),
    s.alone maxSessionAge (.resume id) steps = some t →
    t.calls[s.calls.length]? = some (.resume id, .ended (.error e)) →
    s.Unchanged maxSessionAge t := by
  intro unchanged
  have same := (unchanged 60 stored _ 1 noEventId _ rfl rfl).sessions
  exact absurd same (by decide)

end Failed

end SqliteSessionManager

end PlexusTransport.Mcp
