import PlexusTransport.Lib.Machine

/-! # Taking turns

`n` queues served by turns. A round looks at each, from the one whose turn it is, takes
the first item it finds and gives the turn to the queue after. An item of the `gate`
queue may be set aside when it is taken: nothing is then taken but what waits on the
`feed` queue, until that is empty and the item is released.
-/

namespace PlexusTransport

@[ext] structure Turns (n : Nat) where
  waits : Fin n → Nat
  turn : Fin n
  /-- How many queues this round has found empty. -/
  looked : Nat
  aside : Bool

namespace Turns

inductive Move (n : Nat) where
  | arrive (q : Fin n)
  | look
  | rest
  | take (q : Fin n)
  | setAside
  | drain
  | release
  deriving DecidableEq

variable {n : Nat}

/-- How many queues a round looks at before this one. -/
def dist (v : Turns n) (q : Fin n) : Nat := (q - v.turn).val

/-- With one item more, or less, on a queue. -/
def put (v : Turns n) (q : Fin n) (k : Nat) : Turns n :=
  { v with waits := fun p => if p = q then k else v.waits p }

@[simp] theorem put_waits_self (v : Turns n) (q : Fin n) (k : Nat) : (v.put q k).waits q = k :=
  if_pos rfl

theorem put_waits_ne (v : Turns n) {p q : Fin n} (other : p ≠ q) (k : Nat) :
    (v.put q k).waits p = v.waits p := if_neg other

@[simp] theorem put_dist (v : Turns n) (p q : Fin n) (k : Nat) : (v.put q k).dist p = v.dist p := rfl
@[simp] theorem put_looked (v : Turns n) (q : Fin n) (k : Nat) : (v.put q k).looked = v.looked := rfl
@[simp] theorem put_aside (v : Turns n) (q : Fin n) (k : Nat) : (v.put q k).aside = v.aside := rfl

section Counts

variable (feed gate : Fin n)

/-- The queue a move hands an item of. -/
def Move.hands : Move n → Option (Fin n)
  | .take q => some q
  | .drain => some feed
  | .release => some gate
  | _ => none

/-- The items of a queue that these moves hand, and those of the others. -/
def handed (q : Fin n) (ms : List (Move n)) : Nat :=
  ms.countP fun m => m.hands feed gate == some q

def others (q : Fin n) (ms : List (Move n)) : Nat :=
  ms.countP fun m => (m.hands feed gate).any (· != q)

/-- How many other queues may have their turn first. -/
def reach (v : Turns n) (q : Fin n) : Nat := if v.dist q < v.looked then n else v.dist q

/-- What is handed before the queues have their turns again. -/
def owed (v : Turns n) : Nat := if v.aside then v.waits feed + 1 else 0

/-- How many items of other queues the head of this one may yet wait for, but for those
    that will stand on the feed; `slot`: it is itself set aside. -/
def lag (v : Turns n) (q : Fin n) (slot : Bool) : Nat :=
  if slot then v.waits feed else v.reach q + v.owed feed

/-- The items of a queue that come before its head: the one set aside. -/
def front (v : Turns n) (q : Fin n) : Nat :=
  if v.aside = true ∧ q = gate then 1 else 0

/-- Where the head of a queue is, with `k` items of it to be handed before. -/
def Line (v : Turns n) (q : Fin n) (slot : Bool) (k : Nat) : Prop :=
  if slot then q = gate ∧ v.aside = true ∧ k = 0 else 0 < v.waits q ∧ k = v.front gate q

variable {feed gate}

theorem dist_lt (v : Turns n) (q : Fin n) : v.dist q < n := (q - v.turn).isLt

theorem handed_one (q : Fin n) (m : Move n) :
    handed feed gate q [m] = if m.hands feed gate = some q then 1 else 0 := by
  simp [handed, List.countP_cons, List.countP_nil]

theorem others_one (q : Fin n) {m : Move n} {p : Fin n} (hands : m.hands feed gate = some p) :
    others feed gate q [m] = if p = q then 0 else 1 := by
  simp [others, hands, List.countP_cons, List.countP_nil]

theorem others_none (q : Fin n) {m : Move n} (hands : m.hands feed gate = none) :
    others feed gate q [m] = 0 := by
  simp [others, hands]

theorem owed_none {v : Turns n} (none : v.aside = false) : v.owed feed = 0 := by
  simp [owed, none]

theorem owed_some {v : Turns n} (aside : v.aside = true) : v.owed feed = v.waits feed + 1 := by
  simp [owed, aside]

theorem handed_cons (q : Fin n) (m : Move n) (ms : List (Move n)) :
    handed feed gate q (m :: ms) = handed feed gate q [m] + handed feed gate q ms := by
  rw [handed, handed, handed, ← List.singleton_append, List.countP_append]

theorem others_cons (q : Fin n) (m : Move n) (ms : List (Move n)) :
    others feed gate q (m :: ms) = others feed gate q [m] + others feed gate q ms := by
  rw [others, others, others, ← List.singleton_append, List.countP_append]

end Counts

section Moves

variable [NeZero n] (feed gate : Fin n)

/-- The round ends with an item of this queue. -/
def taken (v : Turns n) (q : Fin n) : Turns n :=
  { v.put q (v.waits q - 1) with turn := q + 1, looked := 0 }

/-- It is this queue's turn in the round, and it has an item. -/
def Finds (v : Turns n) (q : Fin n) : Prop :=
  v.aside = false ∧ v.dist q = v.looked ∧ 0 < v.waits q

instance (v : Turns n) (q : Fin n) : Decidable (v.Finds q) := inferInstanceAs (Decidable (_ ∧ _ ∧ _))

def move (v : Turns n) : Move n → Option (Turns n)
  | .arrive q => some (v.put q (v.waits q + 1))
  | .look =>
      if v.aside = false ∧ ∀ q, v.dist q = v.looked → v.waits q = 0 then
        some { v with looked := v.looked + 1 }
      else none
  | .rest => some { v with looked := 0 }
  | .take q => if v.Finds q then some (v.taken q) else none
  | .setAside => if v.Finds gate then some { v.taken gate with aside := true } else none
  | .drain =>
      if v.aside = true ∧ 0 < v.waits feed then some (v.put feed (v.waits feed - 1)) else none
  | .release => if v.aside = true ∧ v.waits feed = 0 then some { v with aside := false } else none

def machine (start : Turns n) : Machine (Turns n) (Move n) := ⟨start, move feed gate⟩

/-- What stood on the feed each time an item was set aside. -/
def stood : Turns n → List (Move n) → Nat
  | _, [] => 0
  | v, m :: ms =>
      (if m = .setAside then v.waits feed else 0) +
        (v.move feed gate m).elim 0 fun v' => stood v' ms

/-- Nothing reaches the feed while an item is set aside. -/
def Calm (v : Turns n) (m : Move n) : Prop := v.aside = true → m ≠ .arrive feed

instance (v : Turns n) (m : Move n) : Decidable (Calm feed v m) :=
  inferInstanceAs (Decidable (_ → _))

variable {feed gate}

/-- While an item is aside, only the feed is served. -/
theorem move_aside {v v' : Turns n} {m : Move n} (aside : v.aside = true)
    (moved : v.move feed gate m = some v') (held : m ≠ .release) :
    v'.aside = true ∧ v'.dist = v.dist ∧
      (m = .drain ∧ 0 < v.waits feed ∧ v' = v.put feed (v.waits feed - 1) ∨
        (∃ q, m = .arrive q ∧ v' = v.put q (v.waits q + 1)) ∨
          m = .rest ∧ v' = { v with looked := 0 }) := by
  cases m with
  | arrive q =>
      cases moved
      exact ⟨aside, rfl, .inr (.inl ⟨q, rfl, rfl⟩)⟩
  | rest =>
      cases moved
      exact ⟨aside, rfl, .inr (.inr ⟨rfl, rfl⟩)⟩
  | drain =>
      simp only [move, aside, true_and, Option.ite_none_right_eq_some, Option.some.injEq] at moved
      obtain ⟨some, rfl⟩ := moved
      exact ⟨aside, rfl, .inl ⟨rfl, some, rfl⟩⟩
  | look => simp [move, aside] at moved
  | take q => simp [move, Finds, aside] at moved
  | setAside => simp [move, Finds, aside] at moved
  | release => contradiction

/-- An item set aside waits for what stands on the feed, and for what comes to it. -/
theorem drains {start v v' : Turns n} {ms : List (Move n)}
    (ran : (machine feed gate start).runFrom v ms = some v') (aside : v.aside = true)
    (held : .release ∉ ms) :
    ms.count .drain + v'.waits feed = v.waits feed + ms.count (.arrive feed) := by
  induction ms generalizing v with
  | nil =>
      cases ran
      simp
  | cons m ms ih =>
      obtain ⟨u, moved, ran⟩ := Option.bind_eq_some_iff.mp ran
      rw [List.mem_cons, not_or] at held
      obtain ⟨aside', -, what⟩ := move_aside aside moved (Ne.symm held.1)
      have later := ih ran aside' held.2
      rcases what with ⟨rfl, some, rfl⟩ | ⟨q, rfl, rfl⟩ | ⟨rfl, rfl⟩
      · simp only [put_waits_self] at later
        simp
        omega
      · by_cases same : q = feed
        · subst same
          simp only [put_waits_self] at later
          simp
          omega
        · rw [put_waits_ne v (Ne.symm same)] at later
          simp [same]
          omega
      · simpa using later

theorem calm_aside {start v v' : Turns n} {ms : List (Move n)}
    (ran : (machine feed gate start).runFrom v ms = some v') (aside : v.aside = true)
    (held : .release ∉ ms) (calm : (machine feed gate start).Allows (Calm feed) v ms) :
    ms.count (.arrive feed) = 0 := by
  induction ms generalizing v with
  | nil => rfl
  | cons m ms ih =>
      obtain ⟨u, moved, ran⟩ := Option.bind_eq_some_iff.mp ran
      rw [List.mem_cons, not_or] at held
      obtain ⟨aside', -, -⟩ := move_aside aside moved (Ne.symm held.1)
      rw [List.count_cons_of_ne (calm.1 aside)]
      exact ih ran aside' held.2 (calm.2 u moved)

/-- Nearer queues are reached first. -/
theorem sub_next {t p q : Fin n} (nearer : (p - t).val < (q - t).val) :
    (q - (p + 1)).val + ((p - t).val + 1) = (q - t).val := by
  obtain ⟨k, rfl⟩ := Nat.exists_eq_succ_of_ne_zero (NeZero.ne n)
  have shift : q - (p + 1) = (q - t) - ((p - t) + 1) := by abel
  have last : p - t < Fin.last k := by
    have := (q - t).isLt
    rw [Fin.lt_def, Fin.val_last]
    omega
  have next := Fin.val_add_one_of_lt last
  have within : (p - t) + 1 ≤ q - t := by
    rw [Fin.le_def, next]
    exact nearer
  rw [shift, Fin.sub_val_of_le within, next]
  omega

/-- Once another queue had its turn, this one is nearer, or had been passed over. -/
theorem taken_dist {v : Turns n} {p q : Fin n} (finds : v.Finds p) (other : q ≠ p) :
    (v.taken p).dist q + 1 ≤ v.reach q := by
  obtain ⟨-, here, -⟩ := finds
  have short : (v.taken p).dist q < n := dist_lt _ q
  unfold reach
  split
  · omega
  · rename_i later
    have apart : v.dist q ≠ v.dist p := by
      intro same
      exact other (sub_left_injective (Fin.val_injective same))
    have next : (v.taken p).dist q + (v.dist p + 1) = v.dist q := sub_next (by
      unfold dist at *
      omega)
    omega

/-- A move serves another queue at the cost of the lag, until the head is handed. -/
structure Nearer (feed gate : Fin n) (v v' : Turns n) (q : Fin n) (slot : Bool) (k : Nat)
    (m : Move n) (slot' : Bool) : Prop where
  line : Line gate v' q slot' (k - handed feed gate q [m])
  lag : others feed gate q [m] + lag feed v' q slot' ≤
    lag feed v q slot + if m = .setAside then v.waits feed else 0

theorem lag_slot {v v' : Turns n} {q : Fin n} {k : Nat} {m : Move n} (apart : feed ≠ gate)
    (line : Line gate v q true k) (moved : v.move feed gate m = some v') (calm : Calm feed v m)
    (waiting : handed feed gate q [m] ≤ k) : Nearer feed gate v v' q true k m true := by
  obtain ⟨rfl, aside, rfl⟩ := line
  have held : m ≠ .release := by
    rintro rfl
    simp [handed_one, Move.hands] at waiting
  obtain ⟨aside', -, what⟩ := move_aside aside moved held
  refine ⟨⟨rfl, aside', Nat.zero_sub _⟩, ?_⟩
  simp only [lag, if_true]
  rcases what with ⟨rfl, some, rfl⟩ | ⟨p, rfl, rfl⟩ | ⟨rfl, rfl⟩
  · rw [others_one q rfl, if_neg apart, put_waits_self]
    omega
  · have other : feed ≠ p := fun same => calm aside (by rw [same])
    rw [others_none q rfl, put_waits_ne v other]
    omega
  · rw [others_none q rfl, Nat.zero_add]
    exact Nat.le_add_right _ _

omit [NeZero n] in
/-- The head stays where it is. -/
theorem Nearer.queue {v v' : Turns n} {q : Fin n} {m : Move n} (head : 0 < v'.waits q)
    (same : v'.front gate q = v.front gate q - handed feed gate q [m])
    (less : others feed gate q [m] + (v'.reach q + v'.owed feed) ≤
      v.reach q + v.owed feed + if m = .setAside then v.waits feed else 0) :
    Nearer feed gate v v' q false (v.front gate q) m false :=
  ⟨⟨head, same.symm⟩, less⟩

theorem lag_queue {v v' : Turns n} {q : Fin n} {m : Move n} (apart : feed ≠ gate)
    (head : 0 < v.waits q) (moved : v.move feed gate m = some v') (calm : Calm feed v m)
    (waiting : handed feed gate q [m] ≤ v.front gate q) :
    ∃ slot', Nearer feed gate v v' q false (v.front gate q) m slot' := by
  cases m with
  | arrive p =>
      cases moved
      have none : (Move.arrive p).hands feed gate = none := rfl
      refine ⟨false, .queue ?_ ?_ ?_⟩
      · by_cases same : q = p
        · rw [same, put_waits_self]
          omega
        · rwa [put_waits_ne v same]
      · rw [handed_one, none]
        rfl
      · have owes : (v.put p (v.waits p + 1)).owed feed = v.owed feed := by
          cases aside : v.aside with
          | true =>
              have other : feed ≠ p := fun same => calm aside (by rw [same])
              rw [owed_some aside, owed_some (by exact aside), put_waits_ne v other]
          | false => rw [owed_none aside, owed_none (by exact aside)]
        rw [others_none q none, owes, Nat.zero_add]
        exact Nat.le_add_right _ _
  | look =>
      simp only [move, Option.ite_none_right_eq_some, Option.some.injEq] at moved
      obtain ⟨⟨aside, empty⟩, rfl⟩ := moved
      have none : (Move.look : Move n).hands feed gate = none := rfl
      have seen : v.dist q ≠ v.looked := fun here => absurd (empty q here) (by omega)
      refine ⟨false, .queue head ?_ ?_⟩
      · rw [handed_one, none]
        rfl
      · have passed : v.dist q < v.looked + 1 ↔ v.dist q < v.looked := by omega
        have reaches : reach { v with looked := v.looked + 1 } q = v.reach q :=
          if_congr passed rfl rfl
        rw [others_none q none, reaches, Nat.zero_add]
        exact Nat.le_add_right _ _
  | rest =>
      cases moved
      have none : (Move.rest : Move n).hands feed gate = none := rfl
      have short := dist_lt v q
      refine ⟨false, .queue head ?_ ?_⟩
      · rw [handed_one, none]
        rfl
      · have reaches : reach { v with looked := 0 } q ≤ v.reach q := by
          have fresh : reach { v with looked := 0 } q = v.dist q := if_neg (Nat.not_lt_zero _)
          rw [fresh]
          unfold reach
          split <;> omega
        rw [others_none q none, Nat.zero_add]
        exact (Nat.add_le_add_right reaches _).trans (Nat.le_add_right _ _)
  | take p =>
      simp only [move, Option.ite_none_right_eq_some, Option.some.injEq] at moved
      obtain ⟨finds, rfl⟩ := moved
      have aside := finds.1
      have fronts : v.front gate q = 0 := by simp [front, aside]
      have hands : (Move.take p).hands feed gate = some p := rfl
      have other : q ≠ p := by
        rintro rfl
        simp [handed_one, hands, fronts] at waiting
      have nearer := taken_dist finds other
      refine ⟨false, .queue ?_ ?_ ?_⟩
      · rwa [taken, put_waits_ne v other]
      · simp [handed_one, hands, Ne.symm other, front, taken, aside]
      · have reaches : (v.taken p).reach q = (v.taken p).dist q := if_neg (Nat.not_lt_zero _)
        have owes : (v.taken p).owed feed = 0 := owed_none aside
        rw [others_one q hands, if_neg (Ne.symm other), reaches, owes]
        omega
  | setAside =>
      simp only [move, Option.ite_none_right_eq_some, Option.some.injEq] at moved
      obtain ⟨finds, rfl⟩ := moved
      have aside := finds.1
      have none : (Move.setAside : Move n).hands feed gate = none := rfl
      have fronts : v.front gate q = 0 := by simp [front, aside]
      have feeds : (v.taken gate).waits feed = v.waits feed := put_waits_ne v apart _
      by_cases own : q = gate
      · refine ⟨true, ⟨own, rfl, ?_⟩, ?_⟩
        · rw [fronts, Nat.zero_sub]
        · rw [others_none q none, if_pos rfl, Nat.zero_add]
          exact feeds.le.trans (Nat.le_add_left _ _)
      · have nearer := taken_dist finds own
        refine ⟨false, .queue ?_ ?_ ?_⟩
        · change 0 < (v.taken gate).waits q
          rwa [taken, put_waits_ne v own]
        · simp [handed_one, none, front, own]
        · have reaches : reach { v.taken gate with aside := true } q = (v.taken gate).dist q :=
            if_neg (Nat.not_lt_zero _)
          have owes : owed feed { v.taken gate with aside := true } = v.waits feed + 1 :=
            (owed_some rfl).trans (congrArg (· + 1) feeds)
          rw [others_none q none, reaches, owes, if_pos rfl]
          omega
  | drain =>
      simp only [move, Option.ite_none_right_eq_some, Option.some.injEq] at moved
      obtain ⟨⟨aside, some⟩, rfl⟩ := moved
      have hands : (Move.drain : Move n).hands feed gate = .some feed := rfl
      have other : q ≠ feed := by
        rintro rfl
        simp [handed_one, hands, front, apart] at waiting
      refine ⟨false, .queue ?_ ?_ ?_⟩
      · rwa [put_waits_ne v other]
      · rw [handed_one, hands, if_neg (by simp [Ne.symm other])]
        rfl
      · have owes : (v.put feed (v.waits feed - 1)).owed feed + 1 = v.owed feed := by
          rw [owed_some aside, owed_some (by exact aside), put_waits_self]
          omega
        have reaches : (v.put feed (v.waits feed - 1)).reach q = v.reach q := rfl
        rw [others_one q hands, if_neg (Ne.symm other), reaches]
        omega
  | release =>
      simp only [move, Option.ite_none_right_eq_some, Option.some.injEq] at moved
      obtain ⟨⟨aside, empty⟩, rfl⟩ := moved
      have hands : (Move.release : Move n).hands feed gate = some gate := rfl
      refine ⟨false, .queue head ?_ ?_⟩
      · by_cases own : gate = q
        · subst own
          simp [handed_one, hands, front, aside]
        · simp [handed_one, hands, own, front, Ne.symm own]
      · have owes : owed feed { v with aside := false } = 0 := owed_none rfl
        have reaches : reach { v with aside := false } q = v.reach q := rfl
        rw [others_one q hands, owes, reaches, owed_some aside]
        split <;> omega

/-- With an item set aside, a new round is to begin. -/
theorem fresh_aside {start v : Turns n} {ms : List (Move n)}
    (fresh : start.aside = true → start.looked = 0)
    (ran : (machine feed gate start).run ms = some v) : v.aside = true → v.looked = 0 := by
  refine Machine.run_keeps (I := fun v => v.aside = true → v.looked = 0) fresh ?_ ran
  intro v m u fresh moved aside
  have moved : v.move feed gate m = some u := moved
  cases m with
  | arrive q =>
      cases moved
      exact fresh aside
  | rest =>
      cases moved
      rfl
  | look =>
      simp only [move, Option.ite_none_right_eq_some, Option.some.injEq] at moved
      obtain ⟨guard, rfl⟩ := moved
      exact absurd aside (Bool.eq_false_iff.mp guard.1)
  | take q | setAside =>
      simp only [move, Option.ite_none_right_eq_some, Option.some.injEq] at moved
      obtain ⟨-, rfl⟩ := moved
      rfl
  | drain =>
      simp only [move, Option.ite_none_right_eq_some, Option.some.injEq] at moved
      obtain ⟨-, rfl⟩ := moved
      exact fresh aside
  | release =>
      simp only [move, Option.ite_none_right_eq_some, Option.some.injEq] at moved
      obtain ⟨-, rfl⟩ := moved
      cases aside

omit [NeZero n] in
theorem lag_le {v : Turns n} (fresh : v.aside = true → v.looked = 0) (q : Fin n) :
    lag feed v q false ≤ n + if v.aside then v.waits feed else 0 := by
  have short := dist_lt v q
  rw [lag, if_neg Bool.false_ne_true]
  cases aside : v.aside with
  | false =>
      rw [owed_none aside, reach]
      split <;> omega
  | true =>
      have nearest : v.reach q = v.dist q := if_neg (by rw [fresh aside]; omega)
      rw [owed_some aside, nearest, if_pos rfl]
      omega

/-- A move takes an item from ahead of the head, or leaves what is ahead of it. -/
theorem nearer {v v' : Turns n} {q : Fin n} {slot : Bool} {k : Nat} {m : Move n}
    (apart : feed ≠ gate) (line : Line gate v q slot k) (moved : v.move feed gate m = some v')
    (calm : Calm feed v m) (waiting : handed feed gate q [m] ≤ k) :
    ∃ slot', Nearer feed gate v v' q slot k m slot' := by
  cases slot with
  | true => exact ⟨true, lag_slot apart line moved calm waiting⟩
  | false =>
      obtain ⟨head, rfl⟩ := line
      exact lag_queue apart head moved calm waiting

/-- Until the head of a queue is handed, items of other queues go before it no more than
    its lag and what stood on the feed each time an item was set aside. -/
theorem overtaken {start v v' : Turns n} {q : Fin n} {slot : Bool} {k : Nat} {ms : List (Move n)}
    (apart : feed ≠ gate) (line : Line gate v q slot k)
    (ran : (machine feed gate start).runFrom v ms = some v')
    (calm : (machine feed gate start).Allows (Calm feed) v ms)
    (waiting : handed feed gate q ms ≤ k) :
    others feed gate q ms ≤ lag feed v q slot + stood feed gate v ms := by
  induction ms generalizing v slot k with
  | nil => simp [others]
  | cons m ms ih =>
      obtain ⟨u, moved, ran⟩ := Option.bind_eq_some_iff.mp ran
      rw [handed_cons] at waiting
      obtain ⟨slot', line', less⟩ := nearer apart line moved calm.1 (by omega)
      have later := ih line' ran (calm.2 u moved) (by omega)
      have stands : stood feed gate v (m :: ms) =
          (if m = .setAside then v.waits feed else 0) + stood feed gate u ms := by
        have moved : v.move feed gate m = some u := moved
        rw [stood, moved]
        rfl
      rw [others_cons, stands]
      omega

end Moves

end Turns

end PlexusTransport
