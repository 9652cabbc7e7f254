import PlexusTransport.Mcp.Session

/-! # Sessions that were closed -/

namespace PlexusTransport.Mcp

open Tasks

namespace SqliteSessionManager

variable {Id E : Type}

/-- `create_session` made this id. -/
def Created (s : SqliteSessionManager Id E) (id : Id) : Prop := .create id ∈ s.calls.map Prod.fst

/-- The id of a `close_session` that has returned. -/
def returned : SessionCall Id × Stage Id E → Option Id
  | (.close id, .ended _) => some id
  | _ => none

def Closed (s : SqliteSessionManager Id E) (id : Id) : Prop := some id ∈ s.calls.map returned

/-- It will put this id in memory, having looked at the database or not. -/
def Inserts (id : Id) : SessionCall Id × Stage Id E → Prop
  | (.create id', .begun) | (.create id', .persisted) | (.resume id', .found) => id' = id
  | _ => False

def Pending (s : SqliteSessionManager Id E) (id : Id) : Prop := ∃ call ∈ s.calls, Inserts id call

section Decide

variable [DecidableEq Id]

instance (s : SqliteSessionManager Id E) (id : Id) : Decidable (s.Created id) :=
  inferInstanceAs (Decidable (.create id ∈ s.calls.map Prod.fst))

instance (s : SqliteSessionManager Id E) (id : Id) : Decidable (s.Closed id) :=
  inferInstanceAs (Decidable (some id ∈ s.calls.map returned))

instance (id : Id) (call : SessionCall Id × Stage Id E) : Decidable (Inserts id call) := by
  unfold Inserts
  split <;> infer_instance

instance (s : SqliteSessionManager Id E) (id : Id) : Decidable (s.Pending id) :=
  inferInstanceAs (Decidable (∃ call ∈ s.calls, Inserts id call))

end Decide

variable {s t : SqliteSessionManager Id E} {i : Nat} {c : SessionCall Id} {stage : Stage Id E}
  {now : Int} {fault : Option (Fault E)}

theorem sql_cases {failed : String} {done : SqliteSessionManager Id E}
    (ran : s.sql i c failed done fault = some t) :
    fault.isNone ∧ t = done ∨ fault.isSome ∧ ∃ e, t = s.ends i c (.error e) := by
  cases fault with
  | none =>
      cases ran
      exact .inl ⟨rfl, rfl⟩
  | some fault =>
      cases fault with
      | sql e =>
          cases ran
          exact .inr ⟨rfl, _, rfl⟩
      | session e | eventId e => cases ran

theorem handleResume_cases {done : SqliteSessionManager Id E}
    (ran : s.handleResume i c done fault = some t) : t = done ∨ ∃ e, t = s.ends i c (.error e) := by
  cases fault with
  | none =>
      cases ran
      exact .inl rfl
  | some fault =>
      cases fault with
      | session e | eventId e =>
          cases ran
          exact .inr ⟨_, rfl⟩
      | sql e => cases ran

theorem bestEffort_cases {done failed : SqliteSessionManager Id E}
    (ran : bestEffort done failed fault = some t) : t = done ∨ t = failed := by
  cases fault with
  | none =>
      cases ran
      exact .inl rfl
  | some fault =>
      cases fault with
      | sql e =>
          cases ran
          exact .inr rfl
      | session e | eventId e => cases ran

/-- What a call counts on where it is. -/
structure Stands (s : SqliteSessionManager Id E) (call : SessionCall Id × Stage Id E) : Prop where
  inserts : ∀ id, Inserts id call → s.Created id ∧ ¬ s.Closed id
  closing : ∀ id, call.1 = .close id → call.2.writes → id ∉ s.sessions

structure Sound (s : SqliteSessionManager Id E) : Prop where
  live : ∀ id ∈ s.sessions, s.Created id ∧ ¬ s.Closed id
  rows : ∀ row ∈ s.rows, s.Created row.id
  calls : Each (fun _ call => s.Stands call) s.calls

theorem writing_of_writes {call : SessionCall Id × Stage Id E} (here : s.calls[i]? = some call)
    (writes : call.2.writes) : s.writing :=
  List.any_eq_true.mpr ⟨call, List.mem_of_getElem? here, writes⟩

theorem map_put {α : Type} {f : SessionCall Id × Stage Id E → α} {stage' : Stage Id E}
    (here : s.calls[i]? = some (c, stage)) (same : f (c, stage') = f (c, stage)) :
    (s.calls.set i (c, stage')).map f = s.calls.map f := by
  rw [List.map_set, same]
  obtain ⟨within, here⟩ := List.getElem?_eq_some_iff.mp here
  rw [← here, ← List.getElem_map f (h := by simpa using within), List.set_getElem_self]

theorem created_put {sessions : Finset Id} {rows : List (SessionRow Id)} {stage' : Stage Id E}
    (here : s.calls[i]? = some (c, stage)) (id : Id) :
    Created ⟨sessions, rows, s.calls.set i (c, stage')⟩ id ↔ s.Created id := by
  have same : (s.calls.set i (c, stage')).map Prod.fst = s.calls.map Prod.fst := map_put here rfl
  simp only [Created, same]

/-- What a call's step leaves sound: all but a return of `close_session`. -/
theorem Sound.moves (sound : s.Sound) (here : s.calls[i]? = some (c, stage)) {sessions : Finset Id}
    {rows : List (SessionRow Id)} {stage' : Stage Id E}
    (same : returned (c, stage') = returned (c, stage))
    (live : ∀ id ∈ sessions, id ∈ s.sessions ∨
      s.writing = false ∧ s.Created id ∧ ¬ s.Closed id)
    (known : ∀ row ∈ rows, s.Created row.id)
    (inserts : ∀ id, Inserts id (c, stage') → s.Created id ∧ ¬ s.Closed id)
    (closing : ∀ id, c = .close id → stage'.writes → id ∉ sessions) :
    Sound ⟨sessions, rows, s.calls.set i (c, stage')⟩ := by
  have closed : ∀ id, Closed ⟨sessions, rows, s.calls.set i (c, stage')⟩ id ↔ s.Closed id :=
    fun id => iff_of_eq (congrArg (some id ∈ ·) (map_put here same))
  refine ⟨?_, fun row mem => (created_put here _).mpr (known row mem), ?_⟩
  · intro id mem
    rw [created_put here, closed]
    obtain earlier | ⟨-, now⟩ := live id mem
    · exact sound.live id earlier
    · exact now
  · refine Each.set (sound.calls.mono ?_) ⟨?_, closing⟩
    · intro j call there stands
      refine ⟨?_, ?_⟩
      · intro id next
        rw [created_put here, closed]
        exact stands.inserts id next
      · intro id close writes mem
        obtain earlier | ⟨unlocked, -⟩ := live id mem
        · exact stands.closing id close writes earlier
        · rw [writing_of_writes there writes] at unlocked
          cases unlocked
    · intro id next
      rw [created_put here, closed]
      exact inserts id next

/-- A return of `close_session` leaves sound what did not count on the session. -/
theorem Sound.returns (sound : s.Sound) {id : Id} (here : s.calls[i]? = some (.close id, stage))
    (there : stage.writes) (alone : ¬ s.Pending id) {rows : List (SessionRow Id)}
    (known : ∀ row ∈ rows, s.Created row.id) (r : Except (SqliteSessionError Id E) (Reply Id)) :
    Sound ⟨s.sessions, rows, s.calls.set i (.close id, .ended r)⟩ := by
  have gone : id ∉ s.sessions := (sound.calls i _ here).closing id rfl there
  have closed : ∀ x, x ≠ id → ¬ s.Closed x →
      ¬ Closed ⟨s.sessions, rows, s.calls.set i (.close id, .ended r)⟩ x := by
    intro x other before now
    rw [Closed, List.map_set] at now
    obtain earlier | same := List.mem_or_eq_of_mem_set now
    · exact before earlier
    · cases same
      exact other rfl
  refine ⟨?_, fun row mem => (created_put here _).mpr (known row mem), ?_⟩
  · intro x mem
    obtain ⟨made, going⟩ := sound.live x mem
    refine ⟨(created_put here x).mpr made, closed x ?_ going⟩
    rintro rfl
    exact gone mem
  · refine Each.set (sound.calls.mono ?_) ⟨?_, ?_⟩
    · intro j call there stands
      refine ⟨?_, stands.closing⟩
      intro x next
      obtain ⟨made, going⟩ := stands.inserts x next
      refine ⟨(created_put here x).mpr made, closed x ?_ going⟩
      rintro rfl
      exact alone ⟨call, List.mem_of_getElem? there, next⟩
    · intro x next
      cases next
    · intro x _ writes
      cases writes

variable [DecidableEq Id]

/-- What a call may meet: `close_session` does not return while its id is on its way into
    memory, `resume` finds no row that a close left, and `has_session` can read the database. -/
def Meets (s : SqliteSessionManager Id E) (fault : Option (Fault E)) :
    SessionCall Id × Stage Id E → Prop
  | (.close id, .closing) => fault.isSome → ¬ s.Pending id
  | (.close id, .deleting) => ¬ s.Pending id
  | (.resume id, .checking) => fault.isNone → sessionExistsInDb id s.rows → ¬ s.Closed id
  | (.has id, .checking) => s.Closed id → fault.isNone
  | _ => True

def Kept (s : SqliteSessionManager Id E) : SessionEvent Id E → Prop
  | .goes i _ fault => ∀ call ∈ s.calls[i]?, s.Meets fault call
  | .calls _ | .restarts _ => True

section Decide

instance (s : SqliteSessionManager Id E) (fault : Option (Fault E))
    (call : SessionCall Id × Stage Id E) : Decidable (s.Meets fault call) := by
  unfold Meets
  split <;> infer_instance

instance (s : SqliteSessionManager Id E) : (e : SessionEvent Id E) → Decidable (s.Kept e)
  | .goes i _ fault => inferInstanceAs (Decidable (∀ call ∈ s.calls[i]?, s.Meets fault call))
  | .calls _ | .restarts _ => inferInstanceAs (Decidable True)

end Decide

/-- All that a call's step can be. -/
inductive Goes (s : SqliteSessionManager Id E) (i : Nat) (now : Int) (fault : Option (Fault E)) :
    SessionCall Id → Stage Id E → SqliteSessionManager Id E → Prop where
  | persists {id} : Goes s i now fault (.create id) .begun
      ({ s with rows := persistSession id now s.rows }.put i (.create id) .persisted)
  | creates {id} (free : s.free) : Goes s i now fault (.create id) .persisted
      ({ s with sessions := insert id s.sessions }.ends i (.create id) (.ok (.session id)))
  | removes {id} : Goes s i now fault (.close id) .begun
      ({ s with sessions := s.sessions.erase id }.put i (.close id) .closing)
  | absent {id} (dead : id ∉ s.sessions) : Goes s i now fault (.close id) .begun
      (s.put i (.close id) .deleting)
  | handleCloses {id} : Goes s i now fault (.close id) .closing (s.put i (.close id) .deleting)
  | closes {id} : Goes s i now fault (.close id) .deleting
      ({ s with rows := removeSessionFromDb id s.rows }.ends i (.close id) (.ok .done))
  | closeFails {id stage e} (failed : fault.isSome) (there : stage.writes) :
      Goes s i now fault (.close id) stage (s.ends i (.close id) (.error e))
  | reads {id} {stage stage' : Stage Id E} (within : stage' ≠ .found)
      (going : stage.isEnded = false) :
      Goes s i now fault (.resume id) stage (s.put i (.resume id) stage')
  | touches {id stage'} {stage : Stage Id E} (within : stage' ≠ .found)
      (going : stage.isEnded = false) : Goes s i now fault (.resume id) stage
        ({ s with rows := touchSession id now s.rows }.put i (.resume id) stage')
  | finds {id} (well : fault.isNone) (row : sessionExistsInDb id s.rows) :
      Goes s i now fault (.resume id) .checking (s.put i (.resume id) .found)
  | inserts {id} (free : s.free) : Goes s i now fault (.resume id) .found
      ({ s with sessions := insert id s.sessions }.put i (.resume id) .inserted)
  | live {id} (live : id ∈ s.sessions) : Goes s i now fault (.has id) .begun
      (s.ends i (.has id) (.ok (.has true)))
  | fails {c stage e} (failed : fault.isSome) (other : ∀ id, c ≠ .close id)
      (there : (∃ id, c = .create id) ∨ stage = .checking) :
      Goes s i now fault c stage (s.ends i c (.error e))
  | looks {id} {stage stage' : Stage Id E} (there : stage = .begun ∨ stage = .checking)
      (next : stage' = .checking ∨ stage' = .removing ∨ stage' = .ended (.ok (.has false))) :
      Goes s i now fault (.has id) stage (s.put i (.has id) stage')
  | clears {id rows} (fewer : rows ⊆ s.rows) : Goes s i now fault (.has id) .removing
      ({ s with rows }.ends i (.has id) (.ok (.has false)))

theorem createSession_cases {id : Id} (gone : s.createSession i id now fault stage = some t) :
    Goes s i now fault (.create id) stage t := by
  cases stage with
  | begun =>
      obtain ⟨-, rfl⟩ | ⟨failed, e, rfl⟩ := sql_cases gone
      · exact .persists
      · exact .fails failed (by simp) (.inl ⟨id, rfl⟩)
  | persisted =>
      simp only [createSession, Option.ite_none_right_eq_some, Option.some.injEq] at gone
      obtain ⟨free, rfl⟩ := gone
      exact .creates free
  | _ => cases gone

theorem closeSession_cases {id : Id} (gone : s.closeSession i id fault stage = some t) :
    Goes s i now fault (.close id) stage t := by
  cases stage with
  | begun =>
      simp only [closeSession, Option.ite_none_right_eq_some] at gone
      obtain ⟨-, gone⟩ := gone
      split at gone
      · cases gone
        exact .removes
      · rename_i dead
        cases gone
        exact .absent dead
  | closing =>
      cases fault with
      | none =>
          cases gone
          exact .handleCloses
      | some fault =>
          cases fault with
          | session e =>
              cases gone
              exact .closeFails rfl rfl
          | sql e | eventId e => cases gone
  | deleting =>
      obtain ⟨-, rfl⟩ | ⟨failed, e, rfl⟩ := sql_cases gone
      · exact .closes
      · exact .closeFails failed rfl
  | _ => cases gone

theorem resume_cases {id : Id} (gone : s.resume i id now fault stage = some t) :
    Goes s i now fault (.resume id) stage t := by
  cases stage with
  | begun =>
      simp only [resume, Option.ite_none_left_eq_some] at gone
      obtain ⟨-, gone⟩ := gone
      split at gone
      · cases gone
        exact .reads (by simp) rfl
      · cases gone
        exact .reads (by simp) rfl
  | resuming =>
      obtain rfl | ⟨e, rfl⟩ := handleResume_cases gone
      · exact .reads (by simp) rfl
      · exact .reads (by simp) rfl
  | touching =>
      obtain rfl | rfl := bestEffort_cases gone
      · exact .touches (by simp) rfl
      · exact .reads (by simp) rfl
  | checking =>
      obtain ⟨well, rfl⟩ | ⟨failed, e, rfl⟩ := sql_cases gone
      · split
        · rename_i row
          exact .finds well row
        · exact .reads (by simp) rfl
      · exact .fails failed (by simp) (.inr rfl)
  | found =>
      simp only [resume, Option.ite_none_right_eq_some, Option.some.injEq] at gone
      obtain ⟨free, rfl⟩ := gone
      exact .inserts free
  | inserted =>
      obtain ⟨-, rfl⟩ | ⟨-, e, rfl⟩ := sql_cases gone
      · exact .touches (by simp) rfl
      · exact .reads (by simp) rfl
  | recreated =>
      simp only [resume, Option.ite_none_left_eq_some] at gone
      obtain ⟨-, gone⟩ := gone
      split at gone
      · cases gone
        exact .reads (by simp) rfl
      · cases gone
        exact .reads (by simp) rfl
  | again =>
      obtain rfl | ⟨e, rfl⟩ := handleResume_cases gone
      · exact .reads (by simp) rfl
      · exact .reads (by simp) rfl
  | _ => cases gone

theorem hasSession_cases {id : Id} (gone : s.hasSession i id fault stage = some t) :
    Goes s i now fault (.has id) stage t := by
  cases stage with
  | begun =>
      simp only [hasSession, Option.ite_none_left_eq_some] at gone
      obtain ⟨-, gone⟩ := gone
      split at gone
      · rename_i live
        cases gone
        exact .live live
      · cases gone
        exact .looks (.inl rfl) (.inl rfl)
  | checking =>
      obtain ⟨-, rfl⟩ | ⟨failed, e, rfl⟩ := sql_cases gone
      · split
        · exact .looks (.inr rfl) (.inr (.inl rfl))
        · exact .looks (.inr rfl) (.inr (.inr rfl))
      · exact .fails failed (by simp) (.inr rfl)
  | removing =>
      obtain rfl | rfl := bestEffort_cases gone
      · exact .clears (List.filter_subset_self _)
      · exact .clears (List.Subset.refl _)
  | _ => cases gone

theorem goes_cases (gone : s.goes i now fault c stage = some t) : Goes s i now fault c stage t := by
  cases c with
  | create id => exact createSession_cases gone
  | close id => exact closeSession_cases gone
  | resume id => exact resume_cases gone
  | has id => exact hasSession_cases gone

theorem sessionExistsInDb_iff {id : Id} : sessionExistsInDb id s.rows ↔ ∃ row ∈ s.rows, row.id = id := by
  simp [sessionExistsInDb]

theorem Sound.touched (sound : s.Sound) (id : Id) :
    ∀ row ∈ touchSession id now s.rows, s.Created row.id := by
  intro row mem
  obtain ⟨before, known, rfl⟩ := List.mem_map.mp mem
  split
  · exact sound.rows before known
  · exact sound.rows before known

theorem Sound.goes (sound : s.Sound) (here : s.calls[i]? = some (c, stage))
    (meets : s.Meets fault (c, stage)) (gone : Goes s i now fault c stage t) : t.Sound := by
  have stands := sound.calls i _ here
  cases gone with
  | @persists id =>
      have now := stands.inserts id rfl
      refine sound.moves here rfl (fun _ => .inl) ?_ ?_ (by simp)
      · intro row mem
        obtain earlier | new := List.mem_append.mp mem
        · exact sound.rows row (List.mem_filter.mp earlier).1
        · cases List.mem_singleton.mp new
          exact now.1
      · intro x next
        cases next
        exact now
  | @creates id free | @inserts id free =>
      have now := stands.inserts id rfl
      simp only [SqliteSessionManager.free, Bool.and_eq_true, Bool.not_eq_true'] at free
      refine sound.moves here rfl ?_ sound.rows (fun _ next => by cases next) (by simp)
      intro x mem
      obtain rfl | earlier := Finset.mem_insert.mp mem
      · exact .inr ⟨free.1, now⟩
      · exact .inl earlier
  | @removes id =>
      refine sound.moves here rfl (fun _ mem => .inl (Finset.mem_of_mem_erase mem)) sound.rows
        (fun _ next => by cases next) ?_
      intro x same _ mem
      cases same
      exact Finset.notMem_erase id s.sessions mem
  | @absent id dead =>
      refine sound.moves here rfl (fun _ => .inl) sound.rows (fun _ next => by cases next) ?_
      intro x same _
      cases same
      exact dead
  | @handleCloses id =>
      exact sound.moves here rfl (fun _ => .inl) sound.rows (fun _ next => by cases next)
        fun x same _ => stands.closing x same rfl
  | @closes id =>
      refine sound.returns here rfl meets ?_ _
      exact fun row mem => sound.rows row (List.mem_filter.mp mem).1
  | @closeFails id stage e failed there =>
      refine sound.returns here there ?_ sound.rows _
      cases stage <;> cases there
      · exact meets failed
      · exact meets
  | @reads id stage stage' within going =>
      refine sound.moves here rfl (fun _ => .inl) sound.rows (fun x next => ?_) (by simp)
      cases stage' with
      | found => exact absurd rfl within
      | _ => cases next
  | @touches id stage' stage within going =>
      refine sound.moves here rfl (fun _ => .inl) (sound.touched id) (fun x next => ?_) (by simp)
      cases stage' with
      | found => exact absurd rfl within
      | _ => cases next
  | @finds id well row =>
      refine sound.moves here rfl (fun _ => .inl) sound.rows ?_ (by simp)
      intro x next
      cases next
      obtain ⟨known, mem, same⟩ := sessionExistsInDb_iff.mp row
      exact ⟨same ▸ sound.rows known mem, meets well row⟩
  | live | looks =>
      refine sound.moves here rfl (fun _ => .inl) sound.rows (fun _ next => by cases next) (by simp)
  | fails failed other there =>
      refine sound.moves here ?_ (fun _ => .inl) sound.rows (fun _ next => ?_) ?_
      · cases c with
        | close id => exact absurd rfl (other id)
        | create id | resume id | has id => rfl
      · cases c <;> cases next
      · exact fun id same => absurd same (other id)
  | clears fewer =>
      exact sound.moves here rfl (fun _ => .inl) (fun row mem => sound.rows row (fewer mem))
        (fun _ next => by cases next) (by simp)

omit [DecidableEq Id] in
theorem begin_sound (sound : s.Sound) {c : SessionCall Id}
    (new : ∀ id, c = .create id → s.New id) : (s.begin c).Sound := by
  have closed : ∀ id, (s.begin c).Closed id ↔ s.Closed id := by
    intro id
    simp [Closed, begin, returned]
  have created : ∀ id, s.Created id → (s.begin c).Created id := by
    intro id made
    simp only [Created, begin, List.map_append, List.mem_append]
    exact .inl made
  refine ⟨?_, fun row mem => created _ (sound.rows row mem), ?_⟩
  · intro id mem
    obtain ⟨made, going⟩ := sound.live id mem
    exact ⟨created id made, fun now => going ((closed id).mp now)⟩
  · refine Each.append (sound.calls.mono ?_) ⟨?_, ?_⟩
    · intro j call there stands
      refine ⟨fun id next => ?_, stands.closing⟩
      obtain ⟨made, going⟩ := stands.inserts id next
      exact ⟨created id made, fun now => going ((closed id).mp now)⟩
    · intro id next
      obtain rfl : c = .create id := by
        cases c <;> cases next
        rfl
      refine ⟨by simp [Created, begin], fun now => ?_⟩
      obtain ⟨call, mem, same⟩ := List.mem_map.mp ((closed id).mp now)
      refine new id rfl call mem ?_
      unfold returned at same
      split at same <;> cases same
      rfl
    · intro id _ writes
      cases writes

omit [DecidableEq Id] in
theorem restart_closed {maxSessionAge : Int} (id : Id) :
    (s.restart maxSessionAge now).Closed id ↔ s.Closed id := by
  have same : ∀ call : SessionCall Id × Stage Id E,
      returned (call.1, call.2.drop) = returned call := by
    rintro ⟨c, stage⟩
    cases c <;> cases stage <;> rfl
  simp only [Closed, restart, List.map_map, Function.comp_def, same]

omit [DecidableEq Id] in
theorem restart_sound {maxSessionAge : Int} (sound : s.Sound) :
    (s.restart maxSessionAge now).Sound := by
  refine ⟨by simp [restart], ?_, ?_⟩
  · intro row mem
    have made := sound.rows row (List.mem_filter.mp mem).1
    simpa [Created, restart, Function.comp_def] using made
  · intro j call here
    obtain ⟨⟨c, stage⟩, there, rfl⟩ := List.mem_map.mp (List.mem_of_getElem? here)
    refine ⟨?_, fun _ _ _ => by simp [restart]⟩
    intro id next
    cases c <;> cases stage <;> cases next

theorem step_sound {maxSessionAge : Int} (sound : s.Sound) {e : SessionEvent Id E} (kept : s.Kept e)
    (stepped : s.step maxSessionAge e = some t) : t.Sound := by
  cases e with
  | calls c =>
      cases c with
      | create id =>
          simp only [step, Option.ite_none_right_eq_some, Option.some.injEq] at stepped
          obtain ⟨new, rfl⟩ := stepped
          refine begin_sound sound fun x same => ?_
          cases same
          exact new
      | close id | resume id | has id =>
          cases stepped
          exact begin_sound sound (by simp)
  | goes i now fault =>
      obtain ⟨⟨c, stage⟩, here, gone⟩ := Option.bind_eq_some_iff.mp stepped
      exact sound.goes here (kept _ here) (goes_cases gone)
  | restarts now =>
      cases stepped
      exact restart_sound sound

/-- Where a `has_session` may be that will not find the session live. -/
def Denied : Stage Id E → Prop
  | .begun | .checking | .removing | .dropped => True
  | .ended r => r = .ok (.has false)
  | _ => False

/-- A `close_session` of the id has returned, and the calls from the `n`th on began since. -/
structure After (id : Id) (n : Nat) (s : SqliteSessionManager Id E) : Prop where
  sound : s.Sound
  closed : s.Closed id
  denied : Each (fun j call => n ≤ j → call.1 = .has id → Denied call.2) s.calls

theorem Goes.moved (gone : Goes s i now fault c stage t) :
    ∃ stage', t.calls = s.calls.set i (c, stage') := by
  cases gone <;> exact ⟨_, rfl⟩

theorem Goes.going (gone : Goes s i now fault c stage t) : returned (c, stage) = none := by
  cases gone with
  | @closeFails id stage e failed there => cases stage <;> cases there <;> rfl
  | fails failed other there =>
      cases c with
      | close id => exact absurd rfl (other id)
      | create id | resume id | has id => rfl
  | _ => rfl

omit [DecidableEq Id] in
/-- A call that has not returned takes no return away. -/
theorem closed_mono {stage' : Stage Id E} (here : s.calls[i]? = some (c, stage))
    (going : returned (c, stage) = none) (moved : t.calls = s.calls.set i (c, stage')) {id : Id}
    (closed : s.Closed id) : t.Closed id := by
  obtain ⟨call, mem, same⟩ := List.mem_map.mp closed
  obtain ⟨j, there⟩ := List.getElem?_of_mem mem
  refine List.mem_map.mpr ⟨call, ?_, same⟩
  refine List.mem_of_getElem? (i := j) ?_
  rw [moved, List.getElem?_set_ne, there]
  rintro rfl
  rw [here] at there
  cases there
  rw [going] at same
  cases same

theorem Goes.denied {id : Id} (gone : Goes s i now fault (.has id) stage t)
    (dead : id ∉ s.sessions) (well : stage = .checking → fault.isNone) :
    ∃ stage', t.calls = s.calls.set i (.has id, stage') ∧ Denied stage' := by
  cases gone with
  | live live => exact absurd live dead
  | fails failed other there =>
      obtain ⟨id, other⟩ | rfl := there
      · cases other
      · rw [Option.isNone_iff_eq_none.mp (well rfl)] at failed
        cases failed
  | looks there next =>
      refine ⟨_, rfl, ?_⟩
      obtain rfl | rfl | rfl := next
      · trivial
      · trivial
      · rfl
  | clears fewer => exact ⟨_, rfl, rfl⟩

theorem After.goes {id : Id} {n : Nat} (after : After id n s) (here : s.calls[i]? = some (c, stage))
    (meets : s.Meets fault (c, stage)) (gone : Goes s i now fault c stage t) : After id n t := by
  obtain ⟨stage', moved⟩ := gone.moved
  refine ⟨after.sound.goes here meets gone, closed_mono here gone.going moved after.closed, ?_⟩
  by_cases asks : c = .has id
  · cases asks
    have dead : id ∉ s.sessions := fun live => (after.sound.live id live).2 after.closed
    obtain ⟨stage', moved, denied⟩ := gone.denied dead fun checks => by
      cases checks
      exact meets after.closed
    rw [moved]
    exact after.denied.set fun _ _ => denied
  · rw [moved]
    exact after.denied.set fun _ same => absurd same asks

theorem After.step {maxSessionAge : Int} {id : Id} {n : Nat} (after : After id n s)
    {e : SessionEvent Id E} (kept : s.Kept e) (stepped : s.step maxSessionAge e = some t) :
    After id n t := by
  have begins : ∀ c : SessionCall Id, (s.begin c).Sound → After id n (s.begin c) := by
    intro c sound
    refine ⟨sound, ?_, after.denied.append fun _ _ => trivial⟩
    rw [Closed, begin, List.map_append]
    exact List.mem_append_left _ after.closed
  have sound := step_sound after.sound kept stepped
  cases e with
  | calls c =>
      cases c with
      | create id =>
          simp only [SqliteSessionManager.step, Option.ite_none_right_eq_some,
            Option.some.injEq] at stepped
          obtain ⟨-, rfl⟩ := stepped
          exact begins _ sound
      | close id | resume id | has id =>
          cases stepped
          exact begins _ sound
  | goes i now fault =>
      obtain ⟨⟨c, stage⟩, here, gone⟩ := Option.bind_eq_some_iff.mp stepped
      exact after.goes here (kept _ here) (goes_cases gone)
  | restarts now =>
      cases stepped
      refine ⟨sound, (restart_closed id).mpr after.closed, ?_⟩
      intro j call here
      rw [restart, List.getElem?_map] at here
      obtain ⟨⟨c, stage⟩, there, rfl⟩ := Option.map_eq_some_iff.mp here
      intro late asks
      have before := after.denied j _ there late asks
      cases stage with
      | ended r => exact before
      | _ => trivial

omit [DecidableEq Id] in
theorem start_sound : (start : SqliteSessionManager Id E).Sound :=
  ⟨by simp [start], by simp [start], each_nil⟩

/-- In any run in which no `close_session` returns while its id is on its way into memory, no
    `resume` finds the row of a closed session and `has_session` can read the database, the live
    sessions were made and not closed, and one that was closed is denied from then on. -/
theorem closed_final (maxSessionAge : Int) :
    (∀ (events : List (SessionEvent Id E)) s, (machine maxSessionAge).run events = some s →
      (machine maxSessionAge).Allows Kept start events →
        ∀ id ∈ s.sessions, s.Created id ∧ ¬ s.Closed id) ∧
    ∀ (before after : List (SessionEvent Id E)) s t,
      (machine maxSessionAge).run before = some s →
      (machine maxSessionAge).runFrom s after = some t →
      (machine maxSessionAge).Allows Kept start (before ++ after) →
      ∀ (id : Id), s.Closed id → ∀ (j : Nat) (r : Except (SqliteSessionError Id E) (Reply Id)),
        s.calls.length ≤ j → t.calls[j]? = some (.has id, .ended r) → r = .ok (.has false) := by
  have sound : ∀ (events : List (SessionEvent Id E)) s,
      (machine maxSessionAge).run events = some s →
      (machine maxSessionAge).Allows Kept start events → s.Sound := by
    intro events s ran kept
    exact Machine.runFrom_keeps (I := Sound)
      (fun _ _ _ sound kept stepped => step_sound sound kept stepped) kept ran start_sound
  constructor
  · intro events s ran kept
    exact (sound events s ran kept).live
  · intro before after s t ran later kept id closed j r late asked
    obtain ⟨kept, keptLater⟩ := Machine.allows_append kept ran
    have now : After id s.calls.length s := by
      refine ⟨sound before s ran kept, closed, ?_⟩
      intro j call here late
      rw [List.getElem?_eq_none late] at here
      cases here
    have then' : After id s.calls.length t :=
      Machine.runFrom_keeps (I := After id s.calls.length)
        (fun _ _ _ after kept stepped => after.step kept stepped) keptLater later now
    exact then'.denied j _ asked late rfl

/-- A session made, then closed; its handle's close ends with `fault`. -/
def madeAndClosed (fault : Option (Fault Unit)) : List (SessionEvent Nat Unit) :=
  [.calls (.create 0), .goes 0 10 none, .goes 0 10 none,
    .calls (.close 0), .goes 1 20 none, .goes 1 20 fault]

/-- The client asks for its stream again, and then whether the session is there. -/
def comesBack : List (SessionEvent Nat Unit) :=
  [.calls (.resume 0), .goes 2 30 none, .goes 2 30 none, .goes 2 30 none,
    .calls (.has 0), .goes 3 40 none]

theorem closed_final_restarted :
    ∃ s t r, (machine 100).run (madeAndClosed none ++ [.goes 1 20 none]) = some s ∧
      (machine 100).runFrom s ([.restarts 25, .calls (.has 0), .goes 2 30 none, .goes 2 30 none])
        = some t ∧ t.calls[2]? = some (.has 0, .ended r) ∧ r = .ok (.has false) :=
  ⟨_, _, _, rfl, rfl, rfl, (closed_final 100).2 (madeAndClosed none ++ [.goes 1 20 none])
    [.restarts 25, .calls (.has 0), .goes 2 30 none, .goes 2 30 none] _ _ rfl rfl (by decide) 0
    (by decide) 2 _ (by decide) rfl⟩

/-- The row is left as the handle's close fails, and makes the session live again. -/
theorem closed_comes_back :
    ¬ ∀ (before after : List (SessionEvent Nat Unit)) s t, (machine 100).run before = some s →
      (machine 100).runFrom s after = some t →
      (∀ i now e, .goes i now (some (.sql e)) ∉ before ++ after) →
      ∀ id, s.Closed id → ∀ (j : Nat) r, s.calls.length ≤ j →
        t.calls[j]? = some (.has id, .ended r) → r = .ok (.has false) := by
  intro final
  have same := final (madeAndClosed (some (.session ()))) comesBack _ _ rfl rfl
    (by simp [madeAndClosed, comesBack]) 0 (by decide) 3 (.ok (.has true)) (by decide) rfl
  cases same

end SqliteSessionManager

end PlexusTransport.Mcp
