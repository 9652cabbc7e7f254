import PlexusTransport.Http.Buffer
import PlexusTransport.Mcp.Bridge

/-! # How a call ended, over REST and over MCP -/

namespace PlexusTransport.Mcp

open Plexus Http

/-- What REST fails a stream for, and the data values its loop collected. -/
def restFailed (items : List PlexusStreamItem) : Option RemoteError :=
  match collect items with
  | .error (.broke _ error) => error
  | _ => none

def restData (items : List PlexusStreamItem) : List Json :=
  match collect items with
  | .error (.broke c _) | .ok c => c.dataItems.map (·.toValue)
  | .error (.limit _) => []

/-- MCP's loop over the items of a call that is not cancelled. -/
def streamedFrom (serde : Serde) (logger : Text) (token : Option String) (s : Streamed)
    (items : List PlexusStreamItem) : Streamed :=
  match (items.map (false, ·)).foldlM (streamItem serde logger token) s with
  | .error (.broke s) | .ok s => s
  | .error .cancelled => .start

def streamed (serde : Serde) (logger : Text) (token : Option String)
    (items : List PlexusStreamItem) : Streamed :=
  streamedFrom serde logger token .start items

/-- The item at which a stream fails: the first after which it has failed. -/
def failsAt (failed : List PlexusStreamItem → Option RemoteError)
    (items : List PlexusStreamItem) : Option Nat :=
  (List.range items.length).find? fun n => (failed (items.take (n + 1))).isSome

/-- Both agree on a stream: whether the call succeeded, by which item and error it failed,
    and the data before. -/
structure Agree (serde : Serde) (b : ActivationMcpBridge) (request : CallToolRequest)
    (items : List PlexusStreamItem) : Prop where
  succeeded : (collectAndRespond items).status = 200 ↔
    ∃ notices r, b.callTool serde request = .ok (notices, r) ∧ r.isError = false
  failing : failsAt restFailed items =
    failsAt (fun items => (streamed serde request.name request.progressToken items).fatal) items
  error : restFailed items = (streamed serde request.name request.progressToken items).fatal
  data : ∀ n, n = (failsAt restFailed items).getD items.length →
    restData (items.take n) =
      (streamed serde request.name request.progressToken (items.take n)).bufferedData

/-- The first error of a stream before it is done. -/
def firstError : List PlexusStreamItem → Option (RemoteError × Bool)
  | [] => none
  | .done :: _ => none
  | .error e recoverable :: _ => some (e, recoverable)
  | _ :: items => firstError items

/-- The stream's data is within the buffer's limits. -/
def Fits (items : List PlexusStreamItem) : Prop :=
  ∀ front, front <+: items → Going front → (held front).DataFits

theorem remoteErrorStatus_ne (error : RemoteError) : remoteErrorStatus error ≠ 200 := by
  unfold remoteErrorStatus
  cases error.kind <;> decide

/-- A stream up to its end: what goes on, then nothing, `done` or its first error. -/
theorem split_end (items : List PlexusStreamItem) :
    ∃ front rest, items = front ++ rest ∧ Going front ∧
      ((rest = [] ∧ firstError items = none) ∨
        (∃ after, rest = .done :: after ∧ firstError items = none) ∨
          ∃ e recoverable after, rest = .error e recoverable :: after ∧
            firstError items = some (e, recoverable)) := by
  induction items with
  | nil => exact ⟨[], [], rfl, by simp [Going], .inl ⟨rfl, rfl⟩⟩
  | cons item items ih =>
      obtain ⟨front, rest, rfl, going, ending⟩ := ih
      cases item with
      | data content _ =>
          exact ⟨_ :: front, rest, rfl, going_cons.mpr ⟨rfl, going⟩, ending⟩
      | progress content _ =>
          exact ⟨_ :: front, rest, rfl, going_cons.mpr ⟨rfl, going⟩, ending⟩
      | request _ _ _ =>
          exact ⟨_ :: front, rest, rfl, going_cons.mpr ⟨rfl, going⟩, ending⟩
      | done => exact ⟨[], _, rfl, by simp [Going], .inr (.inl ⟨_, rfl, rfl⟩)⟩
      | error e recoverable =>
          exact ⟨[], _, rfl, by simp [Going], .inr (.inr ⟨e, recoverable, _, rfl, rfl⟩)⟩

theorem failsAt_eq_some {failed : List PlexusStreamItem → Option RemoteError}
    {items : List PlexusStreamItem} {n : Nat} :
    failsAt failed items = some n ↔
      n < items.length ∧ (failed (items.take (n + 1))).isSome ∧
        ∀ k < n, failed (items.take (k + 1)) = none := by
  rw [failsAt, List.find?_range_eq_some]
  simp [and_left_comm]

theorem failsAt_eq_none {failed : List PlexusStreamItem → Option RemoteError}
    {items : List PlexusStreamItem} (never : ∀ k, failed (items.take k) = none) :
    failsAt failed items = none := by
  rw [failsAt, List.find?_range_eq_none]
  intro k _
  simp [never]

/-- What fails at an item, having not failed before it. -/
theorem failsAt_append {failed : List PlexusStreamItem → Option RemoteError}
    {front rest : List PlexusStreamItem} {item : PlexusStreamItem}
    (before : ∀ k ≤ front.length, failed (front.take k) = none)
    (here : (failed (front ++ [item])).isSome) :
    failsAt failed (front ++ item :: rest) = some front.length := by
  rw [failsAt_eq_some]
  refine ⟨by simp, ?_, ?_⟩
  · have upto : (front ++ item :: rest).take (front.length + 1) = front ++ [item] := by
      rw [List.take_length_add_append]
      rfl
    rw [upto]
    exact here
  · intro k earlier
    rw [List.take_append_of_le_length (by omega)]
    exact before (k + 1) (by omega)

section Streams

variable {serde : Serde} {logger : Text} {token : Option String} {front : List PlexusStreamItem}

/-- Over items that leave the stream open, MCP's loop fails nothing and buffers the data
    that REST's keeps. -/
theorem streamed_going (serde : Serde) (logger : Text) (token : Option String)
    (going : Going front) :
    ∃ s, (front.map (false, ·)).foldlM (streamItem serde logger token) .start = .ok s ∧
      s.fatal = none ∧ s.bufferedData = (held front).dataItems.map (·.toValue) := by
  induction front using List.reverseRecOn with
  | nil => exact ⟨_, rfl, rfl, rfl⟩
  | append_singleton front item ih =>
      obtain ⟨earlier, open_⟩ := going_append.mp going
      obtain ⟨s, went, unfailed, data⟩ := ih earlier
      have more : ∀ t, streamItem serde logger token s (false, item) = .ok t →
          ((front ++ [item]).map (false, ·)).foldlM (streamItem serde logger token) .start =
            .ok t := by
        intro t pass
        rw [List.map_append]
        exact Loop.append_singleton_ok.mpr ⟨s, went, pass⟩
      rw [held_append]
      cases item with
      | data content _ =>
          refine ⟨_, more _ rfl, unfailed, ?_⟩
          simp [Collected.keep, data]
      | progress content _ =>
          cases token with
          | none => exact ⟨_, more _ rfl, unfailed, data⟩
          | some token => exact ⟨_, more _ rfl, unfailed, data⟩
      | request _ _ _ => exact ⟨_, more _ rfl, unfailed, data⟩
      | done | error _ _ => cases open_

theorem streamedFrom_cons {s t : Streamed} {item : PlexusStreamItem}
    {rest : List PlexusStreamItem} (pass : streamItem serde logger token s (false, item) = .ok t) :
    streamedFrom serde logger token s (item :: rest) = streamedFrom serde logger token t rest := by
  rw [streamedFrom, List.map_cons, List.foldlM_cons, pass]
  rfl

theorem streamedFrom_append {s t : Streamed} {rest : List PlexusStreamItem}
    (went : (front.map (false, ·)).foldlM (streamItem serde logger token) s = .ok t) :
    streamedFrom serde logger token s (front ++ rest) =
      streamedFrom serde logger token t rest := by
  rw [streamedFrom, List.map_append, List.foldlM_append, went]
  rfl

/-- The first error that is not recoverable stays the one the call failed for. -/
theorem fatal_stays {s : Streamed} {e : RemoteError} (failed : s.fatal = some e)
    (items : List PlexusStreamItem) :
    (streamedFrom serde logger token s items).fatal = some e := by
  induction items generalizing s with
  | nil => exact failed
  | cons item items ih =>
      cases item with
      | data content _ =>
          rw [streamedFrom_cons rfl]
          exact ih failed
      | progress content _ =>
          cases token with
          | none =>
              rw [streamedFrom_cons rfl]
              exact ih failed
          | some token =>
              rw [streamedFrom_cons rfl]
              exact ih failed
      | request _ _ _ =>
          rw [streamedFrom_cons rfl]
          exact ih failed
      | error e' recoverable =>
          rw [streamedFrom_cons rfl]
          apply ih
          simp [failed]
      | done => exact failed

/-- A call that is not cancelled has its loop's result. -/
theorem callTool_streamed {b : ActivationMcpBridge} {request : CallToolRequest}
    {items : List PlexusStreamItem}
    (streams : b.stream request.name request.argumentsMap = .ok (items.map (false, ·))) :
    b.callTool serde request =
      .ok ((streamed serde request.name request.progressToken items).notices,
        result serde (streamed serde request.name request.progressToken items)) := by
  rw [ActivationMcpBridge.callTool, streams]
  dsimp only
  rw [streamed, streamedFrom]
  cases went : (items.map (false, ·)).foldlM
      (streamItem serde request.name request.progressToken) .start with
  | ok s => rfl
  | error stopped =>
      cases stopped with
      | broke s => rfl
      | cancelled =>
          obtain ⟨front, item, rest, s, split, -, here⟩ := Loop.left_iff.mp went
          have mem : item ∈ items.map (false, ·) := by simp [split]
          obtain ⟨i, -, rfl⟩ := List.mem_map.mp mem
          cases i <;> simp [streamItem] at here
          split at here <;> cases here

theorem result_isError (s : Streamed) : (result serde s).isError = s.fatal.isSome := by
  unfold result
  cases s.fatal <;> rfl

end Streams

section Rest

variable {front items : List PlexusStreamItem}

theorem rest_going (going : Going front) (fits : (held front).DataFits) :
    restFailed front = none ∧
      restData front = (held front).dataItems.map (·.toValue) := by
  have went := collect_ok.mpr ⟨going, fits, rfl⟩
  rw [restFailed, restData, went]
  exact ⟨rfl, rfl⟩

/-- A stream whose data fits is answered 200 just if no error was among its items. -/
theorem status_iff (fits : Fits items) :
    (collectAndRespond items).status = 200 ↔ restFailed items = none := by
  unfold collectAndRespond restFailed
  cases went : collect items with
  | ok c => simp [respondCollected]
  | error left =>
      cases left with
      | broke c error =>
          cases error with
          | none => simp [respondCollected]
          | some e => simp [respondCollected, remoteErrorStatus_ne]
      | limit r =>
          obtain ⟨front, item, rest, c, rfl, first, here⟩ := Loop.left_iff.mp went
          obtain ⟨going, small, rfl⟩ := collect_ok.mp first
          have open_ : ends item = false := by
            cases item with
            | error _ _ | done => cases here
            | data _ _ | progress _ _ | request _ _ _ => rfl
          have all := fits (front ++ [item]) (by simp) (going_append.mpr ⟨going, open_⟩)
          rw [held_append] at all
          rw [(collectItem_ok small).mpr ⟨open_, all, rfl⟩] at here
          cases here

end Rest

/-- Neither loop fails these items, and both have the same data of them. -/
structure Alike (serde : Serde) (logger : Text) (token : Option String)
    (items : List PlexusStreamItem) : Prop where
  rest : restFailed items = none
  mcp : (streamed serde logger token items).fatal = none
  data : restData items = (streamed serde logger token items).bufferedData

section Ends

variable {serde : Serde} {logger : Text} {token : Option String}
  {front after : List PlexusStreamItem}

theorem alike_going (going : Going front) (fits : (held front).DataFits) :
    Alike serde logger token front := by
  obtain ⟨s, went, unfailed, data⟩ := streamed_going serde logger token going
  obtain ⟨rest, kept⟩ := rest_going going fits
  have same : streamed serde logger token front = s := by rw [streamed, streamedFrom, went]
  exact ⟨rest, same ▸ unfailed, by rw [kept, same, data]⟩

theorem alike_done (going : Going front) (fits : (held front).DataFits) :
    Alike serde logger token (front ++ .done :: after) := by
  obtain ⟨rest, mcp, data⟩ : Alike serde logger token front := alike_going going fits
  have left : collect (front ++ .done :: after) = .error (.broke (held front) none) :=
    Loop.left_iff.mpr ⟨front, .done, after, held front, rfl, collect_ok.mpr ⟨going, fits, rfl⟩, rfl⟩
  obtain ⟨s, went, -, -⟩ := streamed_going serde logger token going
  have same : streamed serde logger token (front ++ .done :: after) =
      streamed serde logger token front := by
    rw [streamed, streamedFrom_append went, streamed, streamedFrom, streamedFrom, went]
    rfl
  rw [(rest_going going fits).2] at data
  refine ⟨by rw [restFailed, left], by rw [same, mcp], ?_⟩
  rw [same, ← data, restData, left]

theorem restFailed_error (e : RemoteError) (recoverable : Bool) (after : List PlexusStreamItem)
    (going : Going front) (fits : (held front).DataFits) :
    restFailed (front ++ .error e recoverable :: after) = some e := by
  have left : collect (front ++ .error e recoverable :: after) =
      .error (.broke (held front) (some e)) :=
    Loop.left_iff.mpr ⟨front, _, after, held front, rfl, collect_ok.mpr ⟨going, fits, rfl⟩, rfl⟩
  rw [restFailed, left]

theorem streamed_error (serde : Serde) (logger : Text) (token : Option String) (e : RemoteError)
    (after : List PlexusStreamItem) (going : Going front) :
    (streamed serde logger token (front ++ .error e false :: after)).fatal = some e ∧
      (streamed serde logger token (front ++ [.error e true])).fatal = none := by
  obtain ⟨s, went, unfailed, -⟩ := streamed_going serde logger token going
  constructor
  · rw [streamed, streamedFrom_append went, streamedFrom_cons rfl]
    apply fatal_stays
    simp [unfailed]
  · rw [streamed, streamedFrom_append went, streamedFrom_cons rfl]
    exact unfailed

end Ends

section Agreement

variable {serde : Serde} {b : ActivationMcpBridge} {request : CallToolRequest}
  {items : List PlexusStreamItem}

/-- Where both fail for the same error, both say so. -/
theorem succeeded_of_error (fits : Fits items)
    (streams : b.stream request.name request.argumentsMap = .ok (items.map (false, ·)))
    (same : restFailed items = (streamed serde request.name request.progressToken items).fatal) :
    (collectAndRespond items).status = 200 ↔
      ∃ notices r, b.callTool serde request = .ok (notices, r) ∧ r.isError = false := by
  rw [status_iff fits, same, callTool_streamed streams]
  constructor
  · intro unfailed
    exact ⟨_, _, rfl, by rw [result_isError, unfailed]; rfl⟩
  · rintro ⟨notices, r, called, unfailed⟩
    cases called
    rw [result_isError] at unfailed
    exact Option.isSome_eq_false_iff.mp unfailed |> Option.isNone_iff_eq_none.mp

/-- They agree on a stream that neither fails. -/
theorem agree_alike (fits : Fits items)
    (streams : b.stream request.name request.argumentsMap = .ok (items.map (false, ·)))
    (alike : ∀ k, Alike serde request.name request.progressToken (items.take k)) :
    Agree serde b request items := by
  have whole := alike items.length
  rw [List.take_length] at whole
  have same := whole.rest.trans whole.mcp.symm
  refine ⟨succeeded_of_error fits streams same, ?_, same, fun n _ => (alike n).data⟩
  rw [failsAt_eq_none fun k => (alike k).rest, failsAt_eq_none fun k => (alike k).mcp]

end Agreement

theorem rest_mcp_agree (serde : Serde) (b : ActivationMcpBridge) (request : CallToolRequest)
    (items : List PlexusStreamItem) (fits : Fits items)
    (streams : b.stream request.name request.argumentsMap = .ok (items.map (false, ·))) :
    Agree serde b request items ↔ ∀ e, firstError items ≠ some (e, true) := by
  obtain ⟨front, rest, rfl, going, ending⟩ := split_end items
  have upto : ∀ k, Going (front.take k) ∧ (held (front.take k)).DataFits := by
    intro k
    have going' : Going (front.take k) := fun i mem => going i (List.mem_of_mem_take mem)
    exact ⟨going', fits _ ((List.take_prefix k front).trans (List.prefix_append _ _)) going'⟩
  have whole := upto front.length
  rw [List.take_length] at whole
  have within : ∀ k, Alike serde request.name request.progressToken (front.take k) :=
    fun k => alike_going (upto k).1 (upto k).2
  rcases ending with ⟨rfl, none⟩ | ⟨after, rfl, none⟩ | ⟨e, recoverable, after, rfl, first⟩
  · simp only [List.append_nil] at *
    exact iff_of_true (agree_alike fits streams within) (by simp [none])
  · refine iff_of_true (agree_alike fits streams fun k => ?_) (by simp [none])
    by_cases early : k ≤ front.length
    · rw [List.take_append_of_le_length early]
      exact within k
    · obtain ⟨more, past⟩ : ∃ more, k - front.length = more + 1 := ⟨k - front.length - 1, by omega⟩
      rw [List.take_append, List.take_of_length_le (by omega), past]
      exact alike_done whole.1 whole.2
  · have at_ : failsAt restFailed (front ++ .error e recoverable :: after) = some front.length :=
      failsAt_append (fun k _ => (within k).rest) (by rw [restFailed_error e recoverable [] whole.1 whole.2]; rfl)
    have error := restFailed_error e recoverable after whole.1 whole.2
    cases recoverable with
    | false =>
        obtain ⟨fatal, -⟩ :=
          streamed_error serde request.name request.progressToken e after whole.1
        obtain ⟨here, -⟩ := streamed_error serde request.name request.progressToken e [] whole.1
        have same := error.trans fatal.symm
        refine iff_of_true ⟨succeeded_of_error fits streams same, ?_, same, ?_⟩ (by simp [first])
        · rw [at_, failsAt_append (fun k _ => (within k).mcp) (by rw [here]; rfl)]
        · intro n before
          rw [before, at_, Option.getD_some, List.take_left]
          exact alike_going whole.1 whole.2 |>.data
    | true =>
        obtain ⟨-, onward⟩ := streamed_error serde request.name request.progressToken e [] whole.1
        refine iff_of_false ?_ (fun never => never e first)
        intro agree
        obtain ⟨-, failed, -⟩ := failsAt_eq_some.mp (agree.failing.symm.trans at_)
        rw [List.take_length_add_append, List.take_succ_cons, List.take_zero, onward] at failed
        cases failed

/-- A method with one data item, then the stream's end. -/
def oneItem : List PlexusStreamItem := [.data ⟨.bool true, some [0x74]⟩ "m.p", .done]

/-- A method that goes on past an error. -/
def retrying : List PlexusStreamItem :=
  [.error ⟨.execution, .null, "retrying"⟩ true, .data ⟨.bool true, some [0x74]⟩ "m.p", .done]

/-- A bridge whose one method yields these items, and a call of it. -/
def yields (items : List PlexusStreamItem) : ActivationMcpBridge :=
  ⟨⟨['m'], []⟩, fun _ _ => .ok (items.map (false, ·)), none, none⟩

def calling : CallToolRequest := ⟨['m', '.', 'p'], none, none, none⟩

theorem fits_of_inits {items : List PlexusStreamItem}
    (fits : ∀ front ∈ items.inits, (held front).DataFits) : Fits items :=
  fun front prior _ => fits front ((List.mem_inits _ _).mpr prior)

def plain : Serde := ⟨fun _ => "", fun _ => none⟩

theorem rest_mcp_agree_oneItem : Agree plain (yields oneItem) calling oneItem :=
  (rest_mcp_agree plain (yields oneItem) calling oneItem (fits_of_inits (by decide)) rfl).mpr (by
    intro e first
    cases first)

theorem rest_mcp_differ :
    ¬ ∀ (serde : Serde) (b : ActivationMcpBridge) (request : CallToolRequest)
      (items : List PlexusStreamItem), Fits items →
      b.stream request.name request.argumentsMap = .ok (items.map (false, ·)) →
        Agree serde b request items := by
  intro agree
  have same := (agree plain (yields retrying) calling retrying (fits_of_inits (by decide)) rfl).error
  have rest : restFailed retrying = some ⟨.execution, .null, "retrying"⟩ := rfl
  have mcp : (streamed plain calling.name calling.progressToken retrying).fatal = none := rfl
  rw [rest, mcp] at same
  cases same

end PlexusTransport.Mcp
