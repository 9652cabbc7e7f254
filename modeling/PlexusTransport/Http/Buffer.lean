import PlexusTransport.Http.Handler

/-! # What one JSON body buffers -/

namespace PlexusTransport.Http

open Plexus

/-- The stream ends with this item. -/
def ends (item : PlexusStreamItem) : Bool := item.isDone || item.error?.isSome

/-- The stream is still open after these. -/
def Going (items : List PlexusStreamItem) : Prop := ∀ item ∈ items, ends item = false

def written (content : Content) : Nat := (content.toVec.getD []).length

/-- With an item kept, whatever the limits. -/
def Collected.keep (c : Collected) : PlexusStreamItem → Collected
  | .data content _ =>
      { c with
        dataItems := c.dataItems ++ [content]
        totalBytes := c.totalBytes + written content }
  | .progress content _ => { c with progressItems := c.progressItems ++ [content] }
  | _ => c

/-- All that these items have to keep. -/
def held (items : List PlexusStreamItem) : Collected := items.foldl Collected.keep .empty

/-- The data items alone are within the limits. -/
def Collected.DataFits (c : Collected) : Prop :=
  c.dataItems.length ≤ maxBufferedItems ∧ c.totalBytes ≤ maxBufferBytes

instance (c : Collected) : Decidable c.DataFits := inferInstanceAs (Decidable (_ ∧ _))

/-- All that is kept is within the limits, a progress value written as `toVec` writes it. -/
def Collected.InLimits (toVec : Json → List UInt8) (c : Collected) : Prop :=
  c.dataItems.length + c.progressItems.length ≤ maxBufferedItems ∧
    (c.dataItems.map written).sum + (c.progressItems.map fun v => (toVec v).length).sum ≤
      maxBufferBytes

variable {toVec : Json → List UInt8} {c c' : Collected} {item : PlexusStreamItem}
  {items : List PlexusStreamItem}

theorem held_append (items : List PlexusStreamItem) (item : PlexusStreamItem) :
    held (items ++ [item]) = (held items).keep item := by
  rw [held, List.foldl_append]
  rfl

theorem going_append : Going (items ++ [item]) ↔ Going items ∧ ends item = false := by
  simp [Going, or_imp, forall_and]

theorem going_cons : Going (item :: items) ↔ ends item = false ∧ Going items := by
  simp [Going]

theorem Collected.DataFits.of_keep (fits : (c.keep item).DataFits) : c.DataFits := by
  obtain ⟨few, small⟩ := fits
  cases item with
  | data content _ =>
      simp only [keep, List.length_append] at few small
      exact ⟨by omega, by omega⟩
  | progress _ _ | error _ _ | done | request _ _ _ => exact ⟨few, small⟩

/-- An item is gone past just if it leaves the stream open and its data fits. -/
theorem collectItem_ok (fits : c.DataFits) :
    collectItem c item = .ok c' ↔
      ends item = false ∧ (c.keep item).DataFits ∧ c' = c.keep item := by
  cases item with
  | data content _ =>
      simp only [collectItem, ends, PlexusStreamItem.isDone, PlexusStreamItem.error?,
        Collected.DataFits, Collected.keep, List.length_append, List.length_singleton, written,
        Option.isSome_none, Bool.or_false, true_and]
      split
      · rename_i full
        constructor
        · intro went
          cases went
        · rintro ⟨⟨few, -⟩, -⟩
          omega
      · split
        · rename_i large
          constructor
          · intro went
            cases went
          · rintro ⟨⟨-, small⟩, -⟩
            omega
        · rename_i room space
          constructor
          · intro went
            cases went
            exact ⟨⟨by omega, by omega⟩, rfl⟩
          · rintro ⟨-, rfl⟩
            rfl
  | progress _ _ | request _ _ _ =>
      constructor
      · intro went
        cases went
        exact ⟨rfl, fits, rfl⟩
      · rintro ⟨-, -, rfl⟩
        rfl
  | error _ _ | done =>
      constructor
      · intro went
        cases went
      · rintro ⟨ended, -⟩
        cases ended

/-- The loop goes past these items just if they leave it open and their data fits, and then
    it has kept them all. -/
theorem collect_ok : collect items = .ok c ↔ Going items ∧ (held items).DataFits ∧ c = held items := by
  induction items using List.reverseRecOn generalizing c with
  | nil =>
      constructor
      · intro went
        cases went
        exact ⟨by simp [Going], ⟨Nat.zero_le _, Nat.zero_le _⟩, rfl⟩
      · rintro ⟨-, -, rfl⟩
        rfl
  | append_singleton items item ih =>
      rw [going_append, held_append, collect, Loop.append_singleton_ok]
      constructor
      · rintro ⟨before, first, last⟩
        obtain ⟨going, fits, rfl⟩ := ih.mp first
        obtain ⟨open_, fits', rfl⟩ := (collectItem_ok fits).mp last
        exact ⟨⟨going, open_⟩, fits', rfl⟩
      · rintro ⟨⟨going, open_⟩, fits, rfl⟩
        have first := ih.mpr ⟨going, fits.of_keep, rfl⟩
        exact ⟨held items, first, (collectItem_ok fits.of_keep).mpr ⟨open_, fits, rfl⟩⟩

/-- An item that ends no stream and is not gone past is past a limit. -/
theorem collectItem_limit {left : Left} (open_ : ends item = false)
    (refused : collectItem c item = .error left) :
    ∃ r, left = .limit r ∧ r.status = 413 := by
  cases item with
  | data content _ =>
      simp only [collectItem] at refused
      split at refused
      · cases refused
        exact ⟨_, rfl, rfl⟩
      · split at refused
        · cases refused
          exact ⟨_, rfl, rfl⟩
        · cases refused
  | progress _ _ | request _ _ _ => cases refused
  | error _ _ | done => cases open_

/-- Some front of the stream has more to keep than the limits allow. -/
def Exceeds (toVec : Json → List UInt8) (items : List PlexusStreamItem) : Prop :=
  ∃ front, front <+: items ∧ Going front ∧ ¬ (held front).InLimits toVec

/-- What is buffered is bounded, and past the bound the stream is refused at once. -/
structure Bounded (toVec : Json → List UInt8) (items : List PlexusStreamItem) : Prop where
  within : ∀ front c, front <+: items → collect front = .ok c → c.InLimits toVec
  refuses : Exceeds toVec items →
    ∃ front item rest c r, items = front ++ item :: rest ∧ collect front = .ok c ∧
      collectItem c item = .error (.limit r) ∧ collectAndRespond items = r ∧ r.status = 413

/-- Wherever the data alone is within the limits, so is the data with the progress. -/
def Room (toVec : Json → List UInt8) (items : List PlexusStreamItem) : Prop :=
  ∀ front, front <+: items → Going front → (held front).DataFits → (held front).InLimits toVec

/-- A stream that is too much for its data alone is refused at an item of it. -/
theorem collect_refuses {front : List PlexusStreamItem} (prior : front <+: items)
    (going : Going front) (large : ¬ (held front).DataFits) :
    ∃ front item rest c r, items = front ++ item :: rest ∧ collect front = .ok c ∧
      collectItem c item = .error (.limit r) ∧ collectAndRespond items = r ∧ r.status = 413 := by
  cases went : collect front with
  | ok c => exact absurd (collect_ok.mp went).2.1 large
  | error left =>
      obtain ⟨rest', rfl⟩ := prior
      obtain ⟨before, item, rest, c, rfl, first, here⟩ := Loop.left_iff.mp went
      obtain ⟨r, rfl, status⟩ := collectItem_limit (going item (by simp)) here
      refine ⟨before, item, rest ++ rest', c, r, by simp, first, here, ?_, status⟩
      rw [collectAndRespond, collect, Loop.append_of_left went]

theorem buffer_bounded (toVec : Json → List UInt8) (items : List PlexusStreamItem) :
    Bounded toVec items ↔ Room toVec items := by
  constructor
  · intro bounded front prior going fits
    exact bounded.within front _ prior (collect_ok.mpr ⟨going, fits, rfl⟩)
  · intro room
    refine ⟨?_, ?_⟩
    · intro front c prior went
      obtain ⟨going, fits, rfl⟩ := collect_ok.mp went
      exact room front prior going fits
    · rintro ⟨front, prior, going, past⟩
      exact collect_refuses prior going fun fits => past (room front prior going fits)

/-- A stream of progress alone. -/
def chatter : List PlexusStreamItem :=
  List.replicate (maxBufferedItems + 1) (.progress .null "m.p")

theorem held_chatter (n : Nat) :
    held (List.replicate n (.progress .null "m.p")) = ⟨[], List.replicate n .null, 0⟩ := by
  induction n with
  | zero => rfl
  | succ n ih => rw [List.replicate_succ', held_append, ih, List.replicate_succ']; rfl

/-- Progress is buffered without a limit. -/
theorem buffer_unbounded :
    ¬ ∀ (toVec : Json → List UInt8) (items : List PlexusStreamItem), Bounded toVec items := by
  intro bounded
  have kept : collect chatter = .ok ⟨[], List.replicate (maxBufferedItems + 1) .null, 0⟩ := by
    refine collect_ok.mpr ⟨?_, ?_, (held_chatter _).symm⟩
    · intro item mem
      rw [List.eq_of_mem_replicate mem]
      rfl
    · rw [chatter, held_chatter]
      exact ⟨Nat.zero_le _, Nat.zero_le _⟩
  obtain ⟨few, -⟩ := (bounded (fun _ => []) chatter).within _ _ List.prefix_rfl kept
  simp at few

end PlexusTransport.Http
