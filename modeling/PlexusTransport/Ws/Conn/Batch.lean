import PlexusTransport.Ws.Conn.Answers
import PlexusTransport.Ws.Conn.Wake

/-! # An array entry by entry

An array's entries are routed by a cascade of their own, and its calls made by
`Dispatch::call`, where the loop has `Loop::call`. An entry is treated as the loop
treats the same object alone, unless it is an answer, which the loop drops and the
cascade refuses, or has no id to read, which the loop takes for a text that is no JSON.
-/

namespace PlexusTransport.Ws.Conn

open Json

variable {σ : Type}

/-- The call is answered by its id and params alone, and not through a sink. -/
def Plain (d : Dispatch σ) (req : Request) : Prop :=
  match d.methodWithName req.method with
  | none => True
  | some (.sync cb) | some (.unsubscription cb) =>
      ∃ rp, rp.kind = .methodCall ∧ ∀ s, cb req.id req.params s = (rp, s)
  | some (.async cb) => ∃ rp, rp.kind = .methodCall ∧ ∀ s, cb req.id req.params s = some (rp, s)
  | some (.subscription _) => False

def Written.answer? : Written → Option MethodResponse
  | .answer rp => some rp
  | .batch _ => none

/-- The answers to an object sent as a message of its own. -/
def Router.alone (r : Router σ) (s : σ) (data : List UInt8) : List MethodResponse :=
  (r.written (.text data) s).filterMap Written.answer?

/-- The array of these replies; nothing, if there are none. -/
def replied : List (Json × MethodResponse) → List Written
  | [] => []
  | rs => [.batch rs]

/-- An array is replied to with the answers its entries get alone, in their order, each
    once; an entry that is none of the three is refused as an invalid request. What the
    loop answers an entry at once is all that entry gets alone. -/
structure Agreed (r : Router σ) (s : σ) (text : Json → List UInt8) (data : List UInt8)
    (items : List Json) : Prop where
  replies : r.written (.text data) s =
    replied (items.flatMap fun e => (r.alone s (text e)).map fun rp => (e, rp))
  refused : ∀ e ∈ items, Request.ofJson e = none → Notification.ofJson e = none →
    isAnswer (some e) = false → ∃ id, r.alone s (text e) = [.error id (.ofCode .invalidRequest)]
  begun : ∀ e ∈ items, ∀ free called ws, (r.dispatch.tryAcquire s).isSome = decide (0 < free) →
    r.begin free (.text (text e)) s = .ok (.answers called ws) →
      r.alone s (text e) = ws.filterMap Written.answer?

/-- A request, a notification, or no answer and with an id to refuse it by. -/
def Alike (e : Json) : Prop :=
  (Request.ofJson e).isSome = true ∨ (Notification.ofJson e).isSome = true ∨
    isAnswer (some e) = false ∧ (invalidRequestId e).isSome = true

instance (e : Json) : Decidable (Alike e) := inferInstanceAs (Decidable (_ ∨ _ ∨ _ ∧ _))

theorem alone_begun {r : Router σ} {s : σ} {free : Nat} {called : Bool} {ws : List Written}
    (permits : (r.dispatch.tryAcquire s).isSome = decide (0 < free)) {data : List UInt8}
    (begun : r.begin free (.text data) s = .ok (.answers called ws)) :
    r.alone s data = ws.filterMap Written.answer? := by
  obtain ⟨s', same⟩ := Router.begin_message permits begun
  rw [Router.alone, Router.written, same]

section Entry

variable {d : Dispatch σ}

theorem plain_call {req : Request} (plain : Plain d req) :
    ∃ rp : MethodResponse, rp.kind = .methodCall ∧ ∀ s, d.call req s = some (rp, s) := by
  unfold Plain at plain
  unfold Dispatch.call
  cases method : d.methodWithName req.method with
  | none => exact ⟨_, rfl, fun s => rfl⟩
  | some callback =>
      rw [method] at plain
      cases callback with
      | sync cb | unsubscription cb =>
          obtain ⟨rp, kind, answers⟩ := plain
          exact ⟨rp, kind, fun s => congrArg some (answers s)⟩
      | async cb => exact plain
      | subscription cb => exact plain.elim

/-- What an entry is replied, as it is whatever came before it. -/
def Dispatch.reply (d : Dispatch σ) (s : σ) (e : Json) : Option MethodResponse :=
  (d.entry e s).bind (·.1)

theorem entry_reply {e : Json} (plain : ∀ req, Request.ofJson e = some req → Plain d req) (s : σ) :
    d.entry e s = some (d.reply s e, s) := by
  unfold Dispatch.reply Dispatch.entry
  cases request : Request.ofJson e with
  | some req =>
      obtain ⟨rp, -, answers⟩ := plain_call (plain req request)
      simp [answers]
  | none =>
      cases Notification.ofJson e with
      | some n => rfl
      | none => rfl

theorem replies_plain {items : List Json}
    (plain : ∀ e ∈ items, ∀ req, Request.ofJson e = some req → Plain d req) (s : σ) :
    d.replies items s =
      some (items.flatMap fun e => (d.reply s e).toList.map fun rp => (e, rp), s) := by
  induction items with
  | nil => rfl
  | cons e items ih =>
      have first := entry_reply (plain e (.head _)) s
      have later := ih fun e mem => plain e (.tail _ mem)
      simp only [Dispatch.replies, first, Option.bind_some, later, Option.map_some,
        List.flatMap_cons]

/-- Entries that get nothing are all notifications. -/
theorem entries_silent {items : List Json} {limit : Nat} {got : Bool} {s s' : σ}
    (silent : d.replies items s = some ([], s')) (any : got = true ∨ items ≠ []) :
    d.entries items ⟨[], limit⟩ got s = some (.notification, s') := by
  induction items generalizing got s with
  | nil =>
      cases silent
      simp [Dispatch.entries, BatchResponseBuilder.isEmpty, any.resolve_right (by simp)]
  | cons e items ih =>
      obtain ⟨⟨rp, s₁⟩, entry, later⟩ := Option.bind_eq_some_iff.mp silent
      obtain ⟨⟨rs, s₂⟩, silent', same⟩ := Option.map_eq_some_iff.mp later
      obtain ⟨nothing, rfl⟩ := Prod.mk.inj same
      obtain ⟨none, rfl⟩ := List.append_eq_nil_iff.mp nothing
      cases rp with
      | some rp => simp at none
      | none =>
          simp only [Dispatch.entries, entry]
          exact ih silent' (.inl rfl)

/-- An array within the limit is replied to with its entries' replies. -/
theorem batch_replied {items : List Json} {s s' : σ} {rs : List (Json × MethodResponse)}
    (made : d.replies items s = some (rs, s')) (filled : items ≠ [])
    (fits : batchLen d.size rs ≤ maxResponse) :
    (answered sendResponse s (d.batch (some (.arr items)) s)).1 = replied rs := by
  unfold Dispatch.batch
  cases rs with
  | nil =>
      have silent : d.entries items ⟨[], maxResponse⟩ false s = some (.notification, s') :=
        entries_silent made (.inr filled)
      simp only [BatchResponseBuilder.newWithLimit, silent, answered, sendResponse, replied]
  | cons first rest =>
      have array : d.entries items ⟨[], maxResponse⟩ false s =
          some (.array ([] ++ first :: rest), s') := entries_fit made fits (by simp)
      simp only [BatchResponseBuilder.newWithLimit, array, answered, sendResponse, replied,
        List.nil_append]

end Entry

section Alone

variable {r : Router σ}

/-- Nothing but the routing takes part: no hook, no input open, and each text begins with
    its bracket. -/
structure Carried (r : Router σ) (text : Json → List UInt8) (data : List UInt8)
    (items : List Json) : Prop where
  hook : r.hook = none
  inputs : r.inputsIdle = true
  array : r.parse data = some (.arr items)
  opens : data.head? = some 0x5b
  entries : ∀ e ∈ items, r.parse (text e) = some e ∧ (text e).head? = some 0x7b

theorem written_bracket {text : Json → List UInt8} {data : List UInt8} {items : List Json}
    (carried : Carried r text data items) {b : UInt8} (bracket : b = 0x7b ∨ b = 0x5b)
    {t : List UInt8} (head : t.head? = some b) (s : σ) :
    (b = 0x7b → r.written (.text t) s = (r.single t s).1) ∧
      (b = 0x5b → r.written (.text t) s =
        (answered sendResponse s (r.dispatch.batch (r.parse t) s)).1) := by
  obtain ⟨rest, rfl⟩ : ∃ rest, t = b :: rest := by
    cases t with
    | nil => cases head
    | cons x t =>
        cases head
        exact ⟨t, rfl⟩
  have solid : isAsciiWhitespace b = false ∧ isBlank b = false := by
    rcases bracket with rfl | rfl <;> exact ⟨rfl, rfl⟩
  have begins : (b :: rest).dropWhile isBlank = b :: rest :=
    List.dropWhile_cons_of_neg (by simp [solid.2])
  have early : blanks (b :: rest) < 128 := by simp [blanks, solid.2]
  have untaken : r.Untaken (b :: rest) := ⟨by simp [Router.hooked, carried.hook], .inl carried.inputs⟩
  have shaped := byShape_early false s untaken solid.1 begins early
  have direct : r.written (.text (b :: rest)) s = (r.byShape false (b :: rest) s).1 := by
    simp [Router.written, Router.message, untaken.1]
  rw [direct]
  exact shaped

theorem written_array {text : Json → List UInt8} {data : List UInt8} {items : List Json}
    (carried : Carried r text data items) (filled : items ≠ []) {s : σ}
    (plain : ∀ e ∈ items, ∀ req, Request.ofJson e = some req → Plain r.dispatch req)
    (fits : Fits r.dispatch items s) :
    r.written (.text data) s = replied (items.flatMap fun e =>
      (r.dispatch.reply s e).toList.map fun rp => (e, rp)) := by
  obtain ⟨rs, s', made, small⟩ := fits
  have same := (replies_plain plain s).symm.trans made
  cases same
  rw [(written_bracket carried (.inr rfl) carried.opens s).2 rfl, carried.array]
  exact batch_replied made filled small

/-- An entry that is alike is answered alone as in its array. -/
theorem alone_alike {text : Json → List UInt8} {data : List UInt8} {items : List Json}
    (carried : Carried r text data items) {e : Json} (mem : e ∈ items)
    (plain : ∀ req, Request.ofJson e = some req → Plain r.dispatch req) (alike : Alike e) (s : σ) :
    r.alone s (text e) = (r.dispatch.reply s e).toList := by
  obtain ⟨read, opens⟩ := carried.entries e mem
  rw [Router.alone, (written_bracket carried (.inl rfl) opens s).1 rfl]
  unfold Router.single Dispatch.reply Dispatch.entry
  rw [read, Option.bind_some, Option.bind_some]
  cases request : Request.ofJson e with
  | some req =>
      obtain ⟨rp, kind, answers⟩ := plain_call (plain req request)
      simp [written_call, answers, answered, respond, kind, Written.answer?]
  | none =>
      cases notification : Notification.ofJson e with
      | some n => simp
      | none =>
          obtain ⟨other, named⟩ : isAnswer (some e) = false ∧ (invalidRequestId e).isSome = true := by
            simpa [Alike, request, notification] using alike
          obtain ⟨id, names⟩ := Option.isSome_iff_exists.mp named
          simp [other, prepareError, names, respond, MethodResponse.error, Written.answer?]

/-- One that is not is refused in its array; alone it gets nothing, or another error. -/
theorem alone_unlike {text : Json → List UInt8} {data : List UInt8} {items : List Json}
    (carried : Carried r text data items) {e : Json} (mem : e ∈ items) (unlike : ¬ Alike e) (s : σ) :
    ∃ id, r.dispatch.reply s e = some (.error id (.ofCode .invalidRequest)) ∧
      (r.alone s (text e) = [] ∨ r.alone s (text e) = [.error .null (.ofCode .parseError)]) := by
  obtain ⟨read, opens⟩ := carried.entries e mem
  rw [Router.alone, (written_bracket carried (.inl rfl) opens s).1 rfl]
  unfold Router.single Dispatch.reply Dispatch.entry
  rw [read, Option.bind_some, Option.bind_some]
  cases request : Request.ofJson e with
  | some req => exact absurd (.inl (by simp [request])) unlike
  | none =>
      cases notification : Notification.ofJson e with
      | some n => exact absurd (.inr (.inl (by simp [notification]))) unlike
      | none =>
          refine ⟨_, rfl, ?_⟩
          cases answer : isAnswer (some e) with
          | true => simp
          | false =>
              cases named : invalidRequestId e with
              | some id => exact absurd (.inr (.inr (by simp [answer, named]))) unlike
              | none =>
                  right
                  simp [prepareError, named, respond, MethodResponse.error, Written.answer?]

end Alone

/-- Lists joined to one are each the same, if those of one side are none the longer. -/
theorem flatMap_same {α β : Type} {f g : α → List β} {l : List α}
    (short : ∀ a ∈ l, (g a).length ≤ (f a).length) (same : l.flatMap f = l.flatMap g) :
    ∀ a ∈ l, f a = g a := by
  induction l with
  | nil => simp
  | cons a l ih =>
      have rest : (l.flatMap g).length ≤ (l.flatMap f).length := by
        simp only [List.length_flatMap]
        exact List.sum_le_sum fun b mem => short b (.tail _ mem)
      have first := short a (.head _)
      have total := congrArg List.length same
      simp only [List.flatMap_cons, List.length_append] at total same
      obtain ⟨here, later⟩ := List.append_inj same (by omega)
      intro b mem
      rcases List.mem_cons.mp mem with rfl | mem
      · exact here
      · exact ih (fun b mem => short b (.tail _ mem)) later b mem

theorem replied_inj {rs rs' : List (Json × MethodResponse)} (same : replied rs = replied rs') :
    rs = rs' := by
  cases rs with
  | nil =>
      cases rs' with
      | nil => rfl
      | cons reply rest => cases same
  | cons reply rest =>
      cases rs' with
      | nil => cases same
      | cons reply' rest' => simpa [replied] using same

theorem refusals_differ (id id' : Id) :
    MethodResponse.error id (.ofCode .invalidRequest) ≠ .error id' (.ofCode .parseError) := by
  intro same
  have payload := congrArg MethodResponse.payload same
  simp [MethodResponse.error, ErrorObject.ofCode, ErrorCode.code] at payload

/-- For a filled array of objects, its calls plain and its replies within the limit: it is
    treated entry by entry as its entries are alone exactly when no entry is an answer, or
    an object with no id to read that is neither a request nor a notification. -/
theorem batch_agrees (r : Router σ) (s : σ) (text : Json → List UInt8) (data : List UInt8)
    (items : List Json) (carried : Carried r text data items) (filled : items ≠ [])
    (plain : ∀ e ∈ items, ∀ req, Request.ofJson e = some req → Plain r.dispatch req)
    (fits : Fits r.dispatch items s) :
    Agreed r s text data items ↔ ∀ e ∈ items, Alike e := by
  have array := written_array carried filled plain fits
  constructor
  · intro agreed e mem
    by_contra unlike
    have short : ∀ e ∈ items, ((r.alone s (text e)).map fun rp => (e, rp)).length ≤
        ((r.dispatch.reply s e).toList.map fun rp => (e, rp)).length := by
      intro e mem
      simp only [List.length_map]
      by_cases alike : Alike e
      · rw [alone_alike carried mem (plain e mem) alike]
      · obtain ⟨id, reply, nothing | other⟩ := alone_unlike carried mem alike s
        · simp [nothing]
        · simp [other, reply]
    have each := flatMap_same short (replied_inj (array.symm.trans agreed.replies)) e mem
    obtain ⟨id, reply, nothing | other⟩ := alone_unlike carried mem unlike s
    · simp [nothing, reply] at each
    · rw [other, reply] at each
      have refusal : MethodResponse.error id (.ofCode .invalidRequest) =
          .error .null (.ofCode .parseError) := by simpa using each
      exact refusals_differ id .null refusal
  · intro alike
    have each : ∀ e ∈ items, r.alone s (text e) = (r.dispatch.reply s e).toList := fun e mem =>
      alone_alike carried mem (plain e mem) (alike e mem) s
    refine ⟨?_, ?_, fun e mem free called ws permits begun => alone_begun permits begun⟩
    · rw [array]
      congr 1
      apply List.flatMap_congr
      intro e mem
      rw [each e mem]
    · intro e mem request notification other
      rw [each e mem]
      exact ⟨(invalidRequestId e).getD .null, by
        simp [Dispatch.reply, Dispatch.entry, request, notification]⟩

/-- A loop with one method and nothing that takes a message, that reads these texts, and
    whose answers are all this long. -/
def reading (size : Nat) (texts : List (List UInt8 × Json)) : Router Unit where
  dispatch :=
    { methodWithName := fun name =>
        if name = "m" then some (.sync fun id _ s => (⟨id, .result (.u64 1), .methodCall⟩, s))
        else none
      tryAcquire := fun _ => none
      size := fun _ => size
      rejectTooManySubscriptions := fun _ => .ofCode .invalidRequest
      rejectTooBigBatchResponse := fun _ => .ofCode .invalidRequest }
  hook := none
  inputsIdle := true
  takeFrame := fun _ => false
  takeBinary := fun _ => .other
  parse := fun data => (texts.find? fun t => t.1 == data).map (·.2)

theorem reading_plain (size : Nat) (texts : List (List UInt8 × Json)) (req : Request) :
    Plain (reading size texts).dispatch req := by
  by_cases named : req.method = "m"
  · simp only [Plain, reading, named, if_true]
    exact ⟨_, rfl, fun s => rfl⟩
  · simp only [Plain, reading, named, if_false]

def callText : List UInt8 :=
  Text.utf8 "\x7b\"jsonrpc\":\"2.0\",\"id\":5,\"method\":\"m\"\x7d".toList

def callJson : Json :=
  .obj [(some "jsonrpc", .str (some "2.0")), (some "id", .u64 5), (some "method", .str (some "m"))]

def bareText : List UInt8 := Text.utf8 "\x7b\"jsonrpc\":\"2.0\"\x7d".toList

def bareJson : Json := .obj [(some "jsonrpc", .str (some "2.0"))]

/-- The text of an array of one. -/
def bracketed (text : List UInt8) : List UInt8 := 0x5b :: text ++ [0x5d]

/-- A loop sent an object, alone or in an array of one. -/
def readingOne (size : Nat) (text : List UInt8) (e : Json) : Router Unit :=
  reading size [(text, e), (bracketed text, .arr [e])]

theorem readingOne_carried (size : Nat) {text : List UInt8} {e : Json}
    (opens : text.head? = some 0x7b) :
    Carried (readingOne size text e) (fun _ => text) (bracketed text) [e] := by
  have apart : (text == bracketed text) = false := by
    rw [beq_eq_false_iff_ne]
    intro same
    rw [same] at opens
    cases opens
  refine ⟨rfl, rfl, ?_, rfl, ?_⟩
  · simp [readingOne, reading, apart]
  · intro e' mem
    cases List.mem_singleton.mp mem
    exact ⟨by simp [readingOne, reading], opens⟩

theorem batch_agrees_call :
    Agreed (readingOne 35 callText callJson) () (fun _ => callText) (bracketed callText)
      [callJson] := by
  have carried := readingOne_carried 35 (rfl : callText.head? = some 0x7b) (e := callJson)
  apply (batch_agrees _ () _ _ [callJson] carried (by simp)
    (fun _ _ req _ => reading_plain 35 _ req) ⟨_, _, rfl, by decide +kernel⟩).mpr
  intro e mem
  cases List.mem_singleton.mp mem
  decide +kernel

/-- An object without an id, neither a request nor a notification: no JSON when alone, an
    invalid request in an array. -/
example :
    let r := readingOne 79 bareText bareJson
    r.written (.text bareText) () = [.answer (.error .null (.ofCode .parseError))] ∧
      r.written (.text (bracketed bareText)) () =
        [.batch [(bareJson, .error .null (.ofCode .invalidRequest))]] := by
  exact ⟨rfl, rfl⟩

theorem batch_agrees_result :
    ¬ ∀ (r : Router Unit) (text : Json → List UInt8) (data : List UInt8) (items : List Json),
      Carried r text data items → items ≠ [] →
      (∀ e ∈ items, ∀ req, Request.ofJson e = some req → Plain r.dispatch req) →
      Fits r.dispatch items () → Agreed r () text data items := by
  intro all
  have carried := readingOne_carried 76 (rfl : resultText.head? = some 0x7b) (e := .obj resultJson)
  have agreed := all _ _ _ _ carried (by simp) (fun _ _ req _ => reading_plain 76 _ req)
    ⟨_, _, rfl, by decide +kernel⟩
  cases agreed.replies

end PlexusTransport.Ws.Conn
