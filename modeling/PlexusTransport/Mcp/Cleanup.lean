import PlexusTransport.Mcp.Session

/-! # Sessions that are cleaned up for their age

The cutoff is an `i64`, of two `u64`s of seconds that are cast to it. It is the exact one
while neither has its top bit; an age that has it makes a cutoff past the time it is.
-/

namespace PlexusTransport.Mcp

/-- `std::time::Duration` -/
structure Duration where
  secs : UInt64
  nanos : Fin 1000000000

namespace Duration

/-- `Duration::MAX` -/
def max : Duration := ⟨18446744073709551615, 999999999⟩

def asSecs (d : Duration) : UInt64 := d.secs

def asNanos (d : Duration) : Nat := d.secs.toNat * 1000000000 + d.nanos

end Duration

/-- `a - b` overflows. -/
def SubOverflows (a b : Int64) : Prop := BitVec.ssubOverflow a.toBitVec b.toBitVec

instance (a b : Int64) : Decidable (SubOverflows a b) :=
  inferInstanceAs (Decidable (BitVec.ssubOverflow a.toBitVec b.toBitVec = true))

/-- `a - b`, as it is built: with overflow checks it panics, without them it wraps. -/
def subI64 (checks : Bool) (a b : Int64) : Option Int64 :=
  if checks ∧ SubOverflows a b then none else some (a - b)

namespace Cleanup

variable {Id E : Type}

/-- `now`: the time it is, since the epoch, `as_secs`. -/
def cutoff (checks : Bool) (maxSessionAge : Duration) (now : UInt64) : Option Int64 :=
  subI64 checks now.toInt64 maxSessionAge.asSecs.toInt64

/-- `cleanup_old_sessions`: how many sessions it says it deleted, and what it leaves. -/
def cleanupOldSessions (checks : Bool) (maxSessionAge : Duration) (now : UInt64)
    (failed : Option String) (rows : List (SessionRow Id)) :
    Option (Except (SqliteSessionError Id E) Nat × List (SessionRow Id)) :=
  (cutoff checks maxSessionAge now).map fun cutoff =>
    match failed with
    | some e => (.error (.databaseError ("Failed to cleanup sessions: " ++ e)), rows)
    | none =>
        (.ok (rows.countP (·.lastSeenAt < cutoff.toInt)),
          rows.filter (cutoff.toInt ≤ ·.lastSeenAt))

/-- In nanoseconds, with no bound on them. -/
def Older (maxSessionAge : Duration) (now : UInt64) (row : SessionRow Id) : Prop :=
  maxSessionAge.asNanos < (now.toNat - row.lastSeenAt) * 1000000000

instance (maxSessionAge : Duration) (now : UInt64) (row : SessionRow Id) :
    Decidable (Older maxSessionAge now row) :=
  inferInstanceAs (Decidable (_ < _))

/-- The sessions past the age are deleted and no other, when the statement goes through. -/
def Exact (E : Type) (checks : Bool) (maxSessionAge : Duration) (now : UInt64)
    (rows : List (SessionRow Id)) : Prop :=
  cleanupOldSessions (E := E) checks maxSessionAge now none rows =
    some (.ok (rows.countP fun row => Older maxSessionAge now row),
      rows.filter fun row => ¬ Older maxSessionAge now row)

structure Cleans (E : Type) (checks : Bool) (maxSessionAge : Duration) (now : UInt64)
    (rows : List (SessionRow Id)) : Prop where
  exact : Exact E checks maxSessionAge now rows
  nowCast : now.toInt64.toInt = now.toNat
  ageCast : maxSessionAge.asSecs.toInt64.toInt = maxSessionAge.asSecs.toNat
  subtracts : ¬ SubOverflows now.toInt64 maxSessionAge.asSecs.toInt64

theorem toInt_toInt64 (n : UInt64) : n.toInt64.toInt = (n.toNat : Int).bmod (2 ^ 64) := by
  show n.toBitVec.toInt = _
  rw [BitVec.toInt_eq_toNat_bmod]
  rfl

theorem toInt64_exact {n : UInt64} : n.toInt64.toInt = n.toNat ↔ n.toNat < 2 ^ 63 := by
  have := n.toNat_lt
  rw [toInt_toInt64, Int.bmod_def]
  split <;> omega

variable {checks : Bool} {maxSessionAge : Duration} {now : UInt64} {rows : List (SessionRow Id)}

theorem not_subOverflows (age : maxSessionAge.asSecs.toNat < 2 ^ 63) (time : now.toNat < 2 ^ 63) :
    ¬ SubOverflows now.toInt64 maxSessionAge.asSecs.toInt64 := by
  have age' := toInt64_exact.mpr age
  have time' := toInt64_exact.mpr time
  change now.toInt64.toBitVec.toInt = _ at time'
  change maxSessionAge.asSecs.toInt64.toBitVec.toInt = _ at age'
  simp only [SubOverflows, BitVec.ssubOverflow, Bool.or_eq_true, decide_eq_true_eq, age', time']
  omega

theorem cutoff_exact (age : maxSessionAge.asSecs.toNat < 2 ^ 63) (time : now.toNat < 2 ^ 63) :
    ∃ c, cutoff checks maxSessionAge now = some c ∧
      c.toInt = now.toNat - maxSessionAge.asSecs.toNat := by
  refine ⟨_, if_neg fun panics => not_subOverflows age time panics.2, ?_⟩
  rw [Int64.toInt_sub, toInt64_exact.mpr age, toInt64_exact.mpr time]
  apply Int.bmod_eq_of_le <;> omega

/-- Whole seconds of age are past one with nanoseconds when they are past its seconds. -/
theorem older_iff {row : SessionRow Id} :
    Older maxSessionAge now row ↔ row.lastSeenAt < now.toNat - maxSessionAge.asSecs.toNat := by
  have nanos := maxSessionAge.nanos.isLt
  unfold Older Duration.asNanos Duration.asSecs
  omega

theorem exact_of_cutoff {c : Int64} (cut : cutoff checks maxSessionAge now = some c)
    (is : c.toInt = now.toNat - maxSessionAge.asSecs.toNat) :
    Exact E checks maxSessionAge now rows := by
  simp only [Exact, cleanupOldSessions, cut, is, older_iff, not_lt, Option.map_some]

/-- What a restart leaves of the rows, of the seconds it is given as they are. -/
theorem cleanup_rows (age : maxSessionAge.asSecs.toNat < 2 ^ 63) (time : now.toNat < 2 ^ 63) :
    (cleanupOldSessions (E := E) checks maxSessionAge now none rows).map Prod.snd =
      some (Mcp.cleanupOldSessions now.toNat rows maxSessionAge.asSecs.toNat) := by
  obtain ⟨c, (cut : cutoff checks maxSessionAge now = _), is⟩ := cutoff_exact age time
  simp only [cleanupOldSessions, cut, is, Option.map_some, Mcp.cleanupOldSessions]

/-- A cleanup deletes exactly the sessions past the age, and nothing it computes wraps, if and
    only if the age's whole seconds, and the time's, have no top bit. -/
theorem cleans_exactly (E : Type) (checks : Bool) (maxSessionAge : Duration) (now : UInt64)
    (rows : List (SessionRow Id)) :
    Cleans E checks maxSessionAge now rows ↔
      maxSessionAge.asSecs.toNat < 2 ^ 63 ∧ now.toNat < 2 ^ 63 := by
  constructor
  · intro cleans
    exact ⟨toInt64_exact.mp cleans.ageCast, toInt64_exact.mp cleans.nowCast⟩
  · rintro ⟨age, time⟩
    obtain ⟨c, cut, is⟩ := cutoff_exact age time
    exact ⟨exact_of_cutoff cut is, toInt64_exact.mpr time, toInt64_exact.mpr age,
      not_subOverflows age time⟩

/-- An age past the time by more than an `i64` holds deletes all there is. -/
theorem cleanup_all (time : now.toNat < 2 ^ 63)
    (late : now.toNat + 2 ^ 63 < maxSessionAge.asSecs.toNat)
    (past : ∀ row ∈ rows, row.lastSeenAt ≤ now.toNat) :
    cleanupOldSessions (E := E) checks maxSessionAge now none rows = some (.ok rows.length, []) := by
  have secs := maxSessionAge.asSecs.toNat_lt
  have nowCast := toInt64_exact.mpr time
  have ageCast : maxSessionAge.asSecs.toInt64.toInt = maxSessionAge.asSecs.toNat - 2 ^ 64 := by
    rw [toInt_toInt64, Int.bmod_def]
    split <;> omega
  have within : ¬ SubOverflows now.toInt64 maxSessionAge.asSecs.toInt64 := by
    change now.toInt64.toBitVec.toInt = _ at nowCast
    change maxSessionAge.asSecs.toInt64.toBitVec.toInt = _ at ageCast
    simp only [SubOverflows, BitVec.ssubOverflow, Bool.or_eq_true, decide_eq_true_eq, nowCast, ageCast]
    omega
  obtain ⟨c, cut, ahead⟩ : ∃ c, cutoff checks maxSessionAge now = some c ∧ now.toNat < c.toInt := by
    refine ⟨_, if_neg fun panics => within panics.2, ?_⟩
    rw [Int64.toInt_sub, nowCast, ageCast, Int.bmod_eq_of_le] <;> omega
  have deleted : ∀ row ∈ rows, row.lastSeenAt < c.toInt := fun row mem =>
    lt_of_le_of_lt (past row mem) ahead
  simp only [cleanupOldSessions, cut, Option.map_some, Option.some.injEq, Prod.mk.injEq,
    Except.ok.injEq]
  constructor
  · exact List.countP_eq_length.mpr (by simpa using deleted)
  · exact List.filter_eq_nil_iff.mpr (by simpa using deleted)

/-- An age of `Duration::MAX` deletes a session seen in this second. -/
theorem max_deletes : ¬∀ (checks : Bool) (maxSessionAge : Duration) (now : UInt64)
    (rows : List (SessionRow Nat)), (∀ row ∈ rows, row.lastSeenAt ≤ now.toNat) →
    Exact String checks maxSessionAge now rows := by
  intro exact
  have kept := exact true .max 1700000000 [⟨1, 1700000000, 1700000000⟩] (by decide)
  have deleted : cleanupOldSessions (E := String) true .max 1700000000 none
      [⟨1, 1700000000, 1700000000⟩] = some (.ok 1, []) :=
    cleanup_all (by decide) (by decide) (by decide)
  have left := congrArg (Option.map Prod.snd) (deleted.symm.trans kept)
  exact absurd left (by decide)

end Cleanup

end PlexusTransport.Mcp
