import PlexusTransport.Lib.Text
import PlexusTransport.Ws.Conn.Routing

/-! # Answers that are answered

An answer to no request of this side's is to be dropped. `isAnswer` does not
know an answer whose id, or whose result, is `null`, and a batch does not ask it.
-/

namespace PlexusTransport.Ws.Conn

open Json

/-- A response object: no `method`, an `id`, and a `result` or an `error`, whatever they are. -/
def IsAnswer : Json → Prop
  | .obj ms =>
      (∀ v, (some "method", v) ∉ ms) ∧ (∃ v, (some "id", v) ∈ ms) ∧
        ((∃ v, (some "result", v) ∈ ms) ∨ ∃ v, (some "error", v) ∈ ms)
  | _ => False

/-- A blank of JSON's grammar. -/
def isBlank (b : UInt8) : Bool := b == 32 || b == 9 || b == 10 || b == 13

/-- The blanks a text begins with. -/
def blanks (data : List UInt8) : Nat := (data.takeWhile isBlank).length

/-- What the reader of JSON is relied on for: it passes over blanks, and an object and an
    array begin with their bracket. -/
structure Reads (parse : List UInt8 → Option Json) : Prop where
  blank : ∀ b data, isBlank b = true → parse (b :: data) = parse data
  obj : ∀ b data ms, isBlank b = false → parse (b :: data) = some (.obj ms) → b = 0x7b
  arr : ∀ b data items, isBlank b = false → parse (b :: data) = some (.arr items) → b = 0x5b
  empty : parse [] = none

/-- A response object that `isAnswer` knows: its names read, none of the three is said
    twice, and neither its id nor all it answers is `null`. -/
structure Recognised (ms : List (Literal × Json)) : Prop where
  readable : Json.readable ["id", "result", "error"] ms = true
  id : ∃ v, (some "id", v) ∈ ms ∧ v.isNull = false
  payload : ∃ name v, (name = "result" ∨ name = "error") ∧ (some name, v) ∈ ms ∧ v.isNull = false

theorem mem_valuesOf {name : String} {v : Json} {ms : List (Literal × Json)} :
    v ∈ valuesOf name ms ↔ (some name, v) ∈ ms := by
  simp only [valuesOf, List.mem_filterMap, Option.ite_none_right_eq_some, Option.some.injEq,
    Prod.exists]
  constructor
  · rintro ⟨key, w, mem, rfl, rfl⟩
    exact mem
  · exact fun mem => ⟨some name, v, mem, rfl, rfl⟩

section Single

variable {ms : List (Literal × Json)}

theorem given_isSome {names : List String} (once : Json.readable names ms = true) {name : String}
    (mem : name ∈ names) :
    (given (valuesOf name ms).head?).isSome = true ↔ ∃ v, (some name, v) ∈ ms ∧ v.isNull = false := by
  constructor
  · intro isGiven
    cases first : (valuesOf name ms).head? with
    | none => simp [first, given] at isGiven
    | some v =>
        refine ⟨v, mem_valuesOf.mp ((head?_valuesOf once mem).mp first), ?_⟩
        cases null : v.isNull with
        | false => rfl
        | true => simp [first, given, null] at isGiven
  · rintro ⟨v, said, null⟩
    rw [(head?_valuesOf once mem).mpr (mem_valuesOf.mpr said)]
    simp [given, null]

theorem readable_absent (absent : ∀ v, (some "method", v) ∉ ms) (names : List String) :
    Json.readable ("method" :: names) ms = Json.readable names ms := by
  simp [Json.readable, valuesOf_eq_nil.mpr absent]

theorem isAnswer_iff (absent : ∀ v, (some "method", v) ∉ ms) :
    isAnswer (some (.obj ms)) = true ↔ Recognised ms := by
  unfold isAnswer
  simp only [Option.bind_some, fields, readable_absent absent]
  by_cases once : Json.readable ["id", "result", "error"] ms = true
  · have method : given (none : Option Json) = none := rfl
    simp only [once, if_true, List.map_cons, List.map_nil, valuesOf_eq_nil.mpr absent,
      List.head?_nil, method, Option.isNone_none, Bool.true_and, Bool.and_eq_true, Bool.or_eq_true]
    have id : (given (valuesOf "id" ms).head?).isSome = true ↔ _ := given_isSome once (by simp)
    have result : (given (valuesOf "result" ms).head?).isSome = true ↔ _ :=
      given_isSome once (by simp)
    have error : (given (valuesOf "error" ms).head?).isSome = true ↔ _ :=
      given_isSome once (by simp)
    rw [id, result, error]
    constructor
    · rintro ⟨id, ⟨v, said, null⟩ | ⟨v, said, null⟩⟩
      · exact ⟨once, id, "result", v, .inl rfl, said, null⟩
      · exact ⟨once, id, "error", v, .inr rfl, said, null⟩
    · rintro ⟨-, id, name, v, rfl | rfl, said, null⟩
      · exact ⟨id, .inl ⟨v, said, null⟩⟩
      · exact ⟨id, .inr ⟨v, said, null⟩⟩
  · simp only [once]
    exact ⟨fun no => absurd no (by simp), fun recognised => absurd recognised.readable once⟩

/-- Without a method an object is neither a request nor a notification. -/
theorem ofJson_absent (absent : ∀ v, (some "method", v) ∉ ms) :
    Request.ofJson (.obj ms) = none ∧ Notification.ofJson (.obj ms) = none := by
  simp only [Request.ofJson, Notification.ofJson, fields]
  constructor
  · split
    · rename_i read
      obtain ⟨-, same⟩ := Option.ite_none_right_eq_some.mp read
      simp only [List.map_cons, List.map_nil, valuesOf_eq_nil.mpr absent, List.head?_nil,
        Option.some.injEq, List.cons.injEq] at same
      obtain ⟨-, -, rfl, -⟩ := same
      simp
    · rfl
  · split
    · rename_i read
      obtain ⟨-, same⟩ := Option.ite_none_right_eq_some.mp read
      simp only [List.map_cons, List.map_nil, valuesOf_eq_nil.mpr absent, List.head?_nil,
        Option.some.injEq, List.cons.injEq] at same
      obtain ⟨-, rfl, -⟩ := same
      simp
    · rfl

variable {σ : Type}

theorem respond_error (id : Id) (e : ErrorObject) : respond (.error id e) ≠ [] := nofun

theorem single_answer (r : Router σ) {data : List UInt8} (s : σ)
    (read : r.parse data = some (.obj ms)) (answer : IsAnswer (.obj ms)) :
    (r.single data s).1 = [] ↔ Recognised ms := by
  have absent := answer.1
  obtain ⟨request, notification⟩ := ofJson_absent absent
  unfold Router.single
  simp only [read, Option.bind_some, request, notification, Option.isSome_none]
  rw [← isAnswer_iff absent]
  cases known : isAnswer (some (.obj ms)) with
  | true => simp
  | false =>
      simp only [Bool.false_eq_true, if_false, iff_false]
      exact respond_error _ _

end Single

section Batch

variable {σ : Type} (d : Dispatch σ)

/-- What an array's entries are replied, each reply with its entry. -/
def Dispatch.replies : List Json → σ → Option (List (Json × MethodResponse) × σ)
  | [], s => some ([], s)
  | e :: rest, s =>
      (d.entry e s).bind fun (rp, s) =>
        (Dispatch.replies rest s).map fun (rs, s) => (rp.toList.map (e, ·) ++ rs, s)

/-- How long the array of these replies is. -/
abbrev batchLen (size : Json → Nat) (replies : List (Json × MethodResponse)) : Nat :=
  1 + (replies.map fun r => size r.2.json + 1).sum

/-- The calls of an array all answer, and the replies to its entries are within the limit. -/
def Fits (items : List Json) (s : σ) : Prop :=
  ∃ rs s', d.replies items s = some (rs, s') ∧ batchLen d.size rs ≤ maxResponse

variable {d}

theorem entry_answer {e : Json} (answer : IsAnswer e) (s : σ) :
    ∃ id, d.entry e s = some (some (.error id (.ofCode .invalidRequest)), s) := by
  cases e with
  | obj ms =>
      obtain ⟨request, notification⟩ := ofJson_absent answer.1
      exact ⟨_, by rw [Dispatch.entry, request, notification]⟩
  | _ => cases answer

theorem batchLen_append (size : Json → Nat) (replies more : List (Json × MethodResponse)) :
    batchLen size (replies ++ more) =
      batchLen size replies + (more.map fun r => size r.2.json + 1).sum := by
  simp [batchLen, Nat.add_assoc]

section Append

variable {size : Json → Nat} {tooBig : Nat → ErrorObject} {e : Json} {rp : MethodResponse}
  {done : List (Json × MethodResponse)} {limit : Nat}

theorem append_within (within : batchLen size (done ++ [(e, rp)]) ≤ limit) :
    BatchResponseBuilder.append size tooBig e rp ⟨done, limit⟩ = .ok ⟨done ++ [(e, rp)], limit⟩ := by
  rw [batchLen_append] at within
  simp only [List.map_cons, List.map_nil, List.sum_cons, List.sum_nil, Nat.add_zero] at within
  exact if_neg (show ¬ limit < size rp.json + batchLen size done + 1 by omega)

theorem append_over (tooLong : limit < batchLen size (done ++ [(e, rp)])) :
    BatchResponseBuilder.append size tooBig e rp ⟨done, limit⟩ =
      .error (.error .null (tooBig limit)) := by
  rw [batchLen_append] at tooLong
  simp only [List.map_cons, List.map_nil, List.sum_cons, List.sum_nil, Nat.add_zero] at tooLong
  exact if_pos (show limit < size rp.json + batchLen size done + 1 by omega)

end Append

/-- Replies within the limit make an array, every answer's among them. -/
theorem entries_fit {items : List Json} {done rs : List (Json × MethodResponse)} {limit : Nat}
    {got : Bool} {s s' : σ} (replied : d.replies items s = some (rs, s'))
    (fits : batchLen d.size (done ++ rs) ≤ limit) (filled : done ++ rs ≠ []) :
    d.entries items ⟨done, limit⟩ got s = some (.array (done ++ rs), s') := by
  induction items generalizing done got s rs with
  | nil =>
      cases replied
      rw [List.append_nil] at filled ⊢
      simp [Dispatch.entries, BatchResponseBuilder.finish, BatchResponseBuilder.isEmpty, filled]
  | cons e items ih =>
      obtain ⟨⟨rp, s₁⟩, entry, later⟩ := Option.bind_eq_some_iff.mp replied
      obtain ⟨⟨rs', s₂⟩, replied', same⟩ := Option.map_eq_some_iff.mp later
      cases same
      simp only [Dispatch.entries, entry]
      cases rp with
      | none => exact ih replied' fits filled
      | some rp =>
          have front : done ++ ([(e, rp)] ++ rs') = (done ++ [(e, rp)]) ++ rs' :=
            (List.append_assoc ..).symm
          simp only [Option.toList_some, List.map_cons, List.map_nil, front] at fits filled ⊢
          have within : batchLen d.size (done ++ [(e, rp)]) ≤ limit := by
            rw [batchLen_append] at fits
            omega
          simp only [append_within within]
          exact ih replied' fits filled

/-- An array of replies is the replies to all entries, within the limit. -/
theorem entries_array {items : List Json} {done all : List (Json × MethodResponse)} {limit : Nat}
    {got : Bool} {s s' : σ} (room : batchLen d.size done ≤ limit)
    (made : d.entries items ⟨done, limit⟩ got s = some (.array all, s')) :
    ∃ rs, d.replies items s = some (rs, s') ∧ all = done ++ rs ∧ batchLen d.size all ≤ limit := by
  induction items generalizing done got s with
  | nil =>
      simp only [Dispatch.entries, BatchResponseBuilder.finish, Option.some.injEq,
        Prod.mk.injEq] at made
      obtain ⟨array, rfl⟩ := made
      have same : done = all := by
        split at array
        · cases array
        · split at array
          · cases array
          · exact BatchResponse.array.inj array
      exact ⟨[], rfl, by rw [same, List.append_nil], same ▸ room⟩
  | cons e items ih =>
      cases entry : d.entry e s with
      | none => simp [Dispatch.entries, entry] at made
      | some replied =>
          obtain ⟨rp, s₁⟩ := replied
          simp only [Dispatch.entries, entry] at made
          cases rp with
          | none =>
              obtain ⟨rs, replied, same, fits⟩ := ih room made
              exact ⟨rs, by simp [Dispatch.replies, entry, replied], same, fits⟩
          | some rp =>
              rcases Nat.lt_or_ge limit (batchLen d.size (done ++ [(e, rp)])) with tooLong | within
              · simp only [append_over tooLong] at made
                cases made
              · simp only [append_within within] at made
                obtain ⟨rs, replied, same, fits⟩ := ih within made
                refine ⟨(e, rp) :: rs, by simp [Dispatch.replies, entry, replied], ?_, fits⟩
                rw [same, List.append_assoc, List.singleton_append]

/-- Every answer of an array has its reply. -/
theorem replies_answer {items : List Json} {rs : List (Json × MethodResponse)} {s s' : σ}
    (replied : d.replies items s = some (rs, s')) {a : Json} (mem : a ∈ items)
    (answer : IsAnswer a) : ∃ rp, (a, rp) ∈ rs := by
  induction items generalizing s rs with
  | nil => cases mem
  | cons e items ih =>
      obtain ⟨⟨rp, s₁⟩, entry, later⟩ := Option.bind_eq_some_iff.mp replied
      obtain ⟨⟨rs', s₂⟩, replied', same⟩ := Option.map_eq_some_iff.mp later
      cases same
      rcases List.mem_cons.mp mem with rfl | mem
      · obtain ⟨id, refused⟩ := entry_answer answer s
        cases entry.symm.trans refused
        exact ⟨_, List.mem_append_left _ (.head _)⟩
      · obtain ⟨rp', mem'⟩ := ih replied' mem
        exact ⟨rp', List.mem_append_right _ mem'⟩

/-- An array of nothing but answers is always replied to. -/
theorem entries_answers {items : List Json} (all : ∀ e ∈ items, IsAnswer e)
    (done : List (Json × MethodResponse)) (limit : Nat) (s : σ) :
    (answered sendResponse s (d.entries items ⟨done, limit⟩ false s)).1 ≠ [] := by
  induction items generalizing done with
  | nil =>
      simp only [Dispatch.entries, Bool.and_false, Bool.false_eq_true, if_false, answered,
        BatchResponseBuilder.finish]
      split
      · exact respond_error _ _
      · exact nofun
  | cons e items ih =>
      obtain ⟨id, entry⟩ := entry_answer (d := d) (all e (.head _)) s
      simp only [Dispatch.entries, entry]
      rcases Nat.lt_or_ge limit (batchLen d.size
        (done ++ [(e, .error id (.ofCode .invalidRequest))])) with tooLong | within
      · simp only [append_over tooLong]
        exact respond_error _ _
      · simp only [append_within within]
        exact ih (fun e mem => all e (.tail _ mem)) _

end Batch

section Message

variable {σ : Type} (r : Router σ)

/-- Neither the hook nor the open inputs take the message. -/
def Router.Untaken (data : List UInt8) : Prop :=
  r.hooked data = false ∧ (r.inputsIdle = true ∨ r.takeFrame data = false)

/-- What is written for a message. -/
def Router.written (m : Inbound) (s : σ) : List Written :=
  match r.message m s with
  | .ok (w, _) => w
  | .error _ => []

/-- No entry of a reply array is provoked by an answer, and nothing but answers provokes
    nothing. -/
def Unprovoked (items : List Json) (w : List Written) : Prop :=
  (∀ replies, .batch replies ∈ w → ∀ reply ∈ replies, ¬ IsAnswer reply.1) ∧
    ((∀ e ∈ items, IsAnswer e) → w = [])

variable {r}

theorem blank_ascii {b : UInt8} (blank : isBlank b = true) : isAsciiWhitespace b = true := by
  simp only [isBlank, Bool.or_eq_true, beq_iff_eq] at blank
  rcases blank with ((rfl | rfl) | rfl) | rfl <;> rfl

/-- The first byte of a text that is no blank, among its first `n`. -/
theorem first_blanks {data rest : List UInt8} {b : UInt8} (solid : isAsciiWhitespace b = false)
    (text : data.dropWhile isBlank = b :: rest) (n : Nat) :
    (data.take n).findIdx? (fun b => !isAsciiWhitespace b) =
      if blanks data < n then some (blanks data) else none := by
  induction data generalizing n with
  | nil => cases text
  | cons x data ih =>
      cases n with
      | zero => rfl
      | succ n =>
          rw [List.take_succ_cons, List.findIdx?_cons]
          cases blank : isBlank x with
          | true =>
              rw [List.dropWhile_cons_of_pos blank] at text
              simp only [blank_ascii blank, Bool.not_true, Bool.false_eq_true, if_false, ih text,
                blanks, List.takeWhile_cons_of_pos blank, List.length_cons, Nat.add_lt_add_iff_right]
              by_cases short : (data.takeWhile isBlank).length < n <;> simp [short]
          | false =>
              rw [List.dropWhile_cons_of_neg (by simp [blank])] at text
              cases text
              simp [solid, blanks, blank]

/-- Blanks are passed over by the reader. -/
theorem parse_blanks (reads : Reads r.parse) (data : List UInt8) :
    r.parse (data.dropWhile isBlank) = r.parse data := by
  induction data with
  | nil => rfl
  | cons b data ih =>
      cases blank : isBlank b with
      | true => rw [List.dropWhile_cons_of_pos blank, ih, reads.blank b data blank]
      | false => rw [List.dropWhile_cons_of_neg (by simp [blank])]

theorem drop_blanks (data : List UInt8) : data.drop (blanks data) = data.dropWhile isBlank := by
  have whole := List.takeWhile_append_dropWhile (p := isBlank) (l := data)
  have dropped : (data.takeWhile isBlank ++ data.dropWhile isBlank).drop (blanks data) =
      data.dropWhile isBlank := List.drop_left
  rwa [whole] at dropped

/-- A text of JSON without the blanks before it. -/
theorem reads_text (reads : Reads r.parse) {data : List UInt8} {j : Json}
    (read : r.parse data = some j) :
    ∃ b rest, data.dropWhile isBlank = b :: rest ∧ isBlank b = false ∧
      r.parse (b :: rest) = some j := by
  rw [← parse_blanks reads] at read
  cases text : data.dropWhile isBlank with
  | nil =>
      rw [text, reads.empty] at read
      cases read
  | cons b rest =>
      have solid := List.head?_dropWhile_not isBlank data
      rw [text] at read solid
      exact ⟨b, rest, rfl, by simpa using solid, read⟩

/-- A message neither taken nor an input frame is routed by its shape. -/
theorem written_shape {m : Inbound} {data rest : List UInt8} {b : UInt8} (s : σ)
    (carries : m = .text data ∨ m = .binary data) (untaken : r.Untaken data)
    (text : data.dropWhile isBlank = b :: rest) (bracket : b = 0x7b ∨ b = 0x5b) :
    ∃ binary, r.written m s = (r.byShape binary data s).1 := by
  have tag : data.head? ≠ some binaryInput := by
    intro tagged
    cases data with
    | nil => cases tagged
    | cons x data =>
        cases tagged
        cases text
        rcases bracket with other | other <;> cases other
  rcases carries with rfl | rfl
  · exact ⟨false, by simp [Router.written, Router.message, untaken.1]⟩
  · exact ⟨true, by simp [Router.written, Router.message, untaken.1, tag]⟩

section Shape

variable {data rest : List UInt8} {b : UInt8} (binary : Bool) (s : σ)

/-- A text with too many blanks before it is answered as if it were none. -/
theorem byShape_late (solid : isAsciiWhitespace b = false)
    (text : data.dropWhile isBlank = b :: rest) (late : 128 ≤ blanks data) :
    ∃ rp, (r.byShape binary data s).1 = [.answer rp] := by
  have first := first_blanks solid text 128
  rw [if_neg (by omega)] at first
  simp only [Router.byShape, first]
  cases binary with
  | true => exact ⟨_, rfl⟩
  | false => exact ⟨_, rfl⟩

theorem byShape_early (untaken : r.Untaken data) (solid : isAsciiWhitespace b = false)
    (text : data.dropWhile isBlank = b :: rest) (early : blanks data < 128) :
    (b = 0x7b → (r.byShape binary data s).1 = (r.single (b :: rest) s).1) ∧
      (b = 0x5b → (r.byShape binary data s).1 =
        (answered sendResponse s (r.dispatch.batch (r.parse (b :: rest)) s)).1) := by
  have first := first_blanks solid text 128
  rw [if_pos early] at first
  have offered : (!r.inputsIdle && r.takeFrame data) = false := by
    rcases untaken.2 with idle | left
    · simp [idle]
    · simp [left]
  simp only [Router.byShape, first, Option.isSome_some, Bool.true_and, offered, Option.map_some,
    drop_blanks, text, Option.bind_some, List.head?_cons, Option.getD_some]
  constructor
  · rintro rfl
    rfl
  · rintro rfl
    rfl

end Shape

/-- No frame is written for an answer exactly when it is recognised, and is seen to be an
    object. -/
theorem written_answer (reads : Reads r.parse) (s : σ) {m : Inbound} {data : List UInt8}
    (carries : m = .text data ∨ m = .binary data) (untaken : r.Untaken data)
    {ms : List (Literal × Json)} (read : r.parse data = some (.obj ms))
    (answer : IsAnswer (.obj ms)) :
    r.written m s = [] ↔ blanks data < 128 ∧ Recognised ms := by
  obtain ⟨b, rest, text, solid, read⟩ := reads_text reads read
  cases reads.obj b rest ms solid read
  obtain ⟨binary, shape⟩ := written_shape s carries untaken text (.inl rfl)
  rw [shape]
  rcases Nat.lt_or_ge (blanks data) 128 with early | late
  · rw [(byShape_early binary s untaken rfl text early).1 rfl, single_answer r s read answer]
    exact ⟨fun recognised => ⟨early, recognised⟩, fun both => both.2⟩
  · obtain ⟨rp, written⟩ := byShape_late (r := r) binary s rfl text late
    rw [written]
    exact ⟨nofun, fun both => absurd both.1 (by omega)⟩

theorem answered_batch {items : List Json} {s : σ} {replies : List (Json × MethodResponse)}
    (made : .batch replies ∈ (answered sendResponse s (r.dispatch.batch (some (.arr items)) s)).1) :
    ∃ s', r.dispatch.entries items ⟨[], maxResponse⟩ false s = some (.array replies, s') := by
  cases batch : r.dispatch.entries items ⟨[], maxResponse⟩ false s with
  | none => simp [Dispatch.batch, BatchResponseBuilder.newWithLimit, batch, answered] at made
  | some done =>
      obtain ⟨response, s'⟩ := done
      simp only [Dispatch.batch, BatchResponseBuilder.newWithLimit, batch, answered] at made
      cases response with
      | notification => cases made
      | single rp =>
          obtain ⟨id, payload, kind⟩ := rp
          cases kind <;> simp [sendResponse, respond] at made
      | array all =>
          cases List.mem_singleton.mp made
          exact ⟨s', rfl⟩

/-- An array with an answer in it provokes nothing by it exactly when it holds more than
    answers and no array is replied. -/
theorem written_batch (reads : Reads r.parse) (s : σ) {m : Inbound} {data : List UInt8}
    (carries : m = .text data ∨ m = .binary data) (untaken : r.Untaken data)
    {items : List Json} (read : r.parse data = some (.arr items))
    (answer : ∃ a ∈ items, IsAnswer a) :
    Unprovoked items (r.written m s) ↔
      (∃ e ∈ items, ¬ IsAnswer e) ∧ (128 ≤ blanks data ∨ ¬ Fits r.dispatch items s) := by
  obtain ⟨b, rest, text, solid, read⟩ := reads_text reads read
  cases reads.arr b rest items solid read
  obtain ⟨binary, shape⟩ := written_shape s carries untaken text (.inr rfl)
  have others : (¬ ∀ e ∈ items, IsAnswer e) ↔ ∃ e ∈ items, ¬ IsAnswer e := by
    simp only [not_forall, exists_prop]
  rw [shape]
  rcases Nat.lt_or_ge (blanks data) 128 with early | late
  · rw [(byShape_early binary s untaken rfl text early).2 rfl, read]
    constructor
    · rintro ⟨unprovoked, nothing⟩
      refine ⟨others.mp fun all => entries_answers all [] maxResponse s (nothing all), .inr ?_⟩
      rintro ⟨rs, s', replied, fits⟩
      obtain ⟨a, mem, isAnswer⟩ := answer
      obtain ⟨rp, reply⟩ := replies_answer replied mem isAnswer
      have array : r.dispatch.entries items ⟨[], maxResponse⟩ false s =
          some (.array ([] ++ rs), s') := entries_fit replied fits (List.ne_nil_of_mem reply)
      refine unprovoked rs ?_ (a, rp) reply isAnswer
      simp [Dispatch.batch, BatchResponseBuilder.newWithLimit, array, answered, sendResponse]
    · rintro ⟨more, late | tooLong⟩
      · omega
      · refine ⟨fun replies made => ?_, fun all => absurd all (others.mpr more)⟩
        obtain ⟨s', array⟩ := answered_batch made
        have room : batchLen r.dispatch.size [] ≤ maxResponse := by
          simp [batchLen, maxResponse]
        obtain ⟨rs, replied, same, fits⟩ := entries_array room array
        cases same
        exact absurd ⟨rs, s', replied, fits⟩ tooLong
  · obtain ⟨rp, written⟩ := byShape_late (r := r) binary s rfl text late
    rw [written]
    constructor
    · rintro ⟨-, nothing⟩
      refine ⟨others.mp ?_, .inl late⟩
      intro all
      cases nothing all
    · rintro ⟨more, -⟩
      exact ⟨by simp, fun all => absurd all (others.mpr more)⟩

end Message

section Response

theorem id_isNull (id : Id) : id.json.isNull = false ↔ id ≠ .null := by
  cases id <;> simp [Id.json, isNull]

/-- A response is an answer, recognised unless its id or its result is `null`. -/
theorem response_answer (rp : MethodResponse) {ms : List (Literal × Json)}
    (same : rp.json = .obj ms) :
    IsAnswer (.obj ms) ∧
      (Recognised ms ↔ rp.id ≠ .null ∧ ∀ v, rp.payload = .result v → v.isNull = false) := by
  obtain ⟨id, payload, kind⟩ := rp
  cases same
  cases payload with
  | result v =>
      refine ⟨by simp [IsAnswer], ?_⟩
      constructor
      · rintro ⟨-, ⟨w, said, null⟩, name, w', field, said', null'⟩
        simp only [List.mem_cons, Prod.mk.injEq, Option.some.injEq, String.reduceEq,
          List.not_mem_nil, false_and, or_false, false_or, true_and] at said said'
        rcases field with rfl | rfl
        · simp only [String.reduceEq, false_and, false_or, true_and] at said'
          refine ⟨(id_isNull id).mp (said ▸ null), ?_⟩
          intro v same
          cases same
          exact said' ▸ null'
        · simp at said'
      · rintro ⟨named, given⟩
        refine ⟨by simp [Json.readable, valuesOf], ⟨id.json, by simp, (id_isNull id).mpr named⟩,
          "result", v, .inl rfl, by simp, given v rfl⟩
  | error e =>
      refine ⟨by simp [IsAnswer], ?_⟩
      constructor
      · rintro ⟨-, ⟨w, said, null⟩, -⟩
        simp only [List.mem_cons, Prod.mk.injEq, Option.some.injEq, String.reduceEq,
          List.not_mem_nil, false_and, or_false, false_or, true_and] at said
        refine ⟨(id_isNull id).mp (said ▸ null), ?_⟩
        intro v same
        cases same
      · rintro ⟨named, -⟩
        refine ⟨by simp [Json.readable, valuesOf], ⟨id.json, by simp, (id_isNull id).mpr named⟩,
          "error", e.json, .inr rfl, by simp, rfl⟩

end Response

section Reader

/-- A reader of one text. -/
def readsOnly (text : List UInt8) (j : Json) (data : List UInt8) : Option Json :=
  if data.dropWhile isBlank = text then some j else none

theorem readsOnly_reads {text : List UInt8} {ms : List (Literal × Json)}
    (bracket : text.head? = some 0x7b) : Reads (readsOnly text (.obj ms)) where
  blank b data blank := by rw [readsOnly, List.dropWhile_cons_of_pos blank, readsOnly]
  obj b data _ solid read := by
    obtain ⟨same, -⟩ := Option.ite_none_right_eq_some.mp read
    rw [List.dropWhile_cons_of_neg (by simp [solid])] at same
    rw [← same] at bracket
    exact Option.some.inj bracket
  arr b data items _ read := by
    obtain ⟨-, same⟩ := Option.ite_none_right_eq_some.mp read
    cases same
  empty := by
    apply if_neg
    intro same
    rw [← same] at bracket
    cases bracket

end Reader

/-- For a response object, alone or in an array, that nothing takes: when nothing is written
    for it. The responses the loop itself writes are among them. -/
theorem message_answers {σ : Type} (r : Router σ) (reads : Reads r.parse) (s : σ) (m : Inbound)
    (data : List UInt8) (carries : m = .text data ∨ m = .binary data)
    (untaken : r.Untaken data) :
    (∀ ms, r.parse data = some (.obj ms) → IsAnswer (.obj ms) →
      (r.written m s = [] ↔ blanks data < 128 ∧ Recognised ms)) ∧
    (∀ items, r.parse data = some (.arr items) → (∃ a ∈ items, IsAnswer a) →
      (Unprovoked items (r.written m s) ↔
        (∃ e ∈ items, ¬ IsAnswer e) ∧ (128 ≤ blanks data ∨ ¬ Fits r.dispatch items s))) ∧
    (∀ rp, r.parse data = some (Written.answer rp).json →
      (r.written m s = [] ↔
        blanks data < 128 ∧ rp.id ≠ .null ∧ ∀ v, rp.payload = .result v → v.isNull = false)) ∧
    (∀ replies, replies ≠ [] → r.parse data = some (Written.batch replies).json →
      r.written m s ≠ []) := by
  refine ⟨?_, ?_, ?_, ?_⟩
  · intro ms read answer
    exact written_answer reads s carries untaken read answer
  · intro items read answer
    exact written_batch reads s carries untaken read answer
  · intro rp read
    obtain ⟨answer, recognised⟩ := response_answer rp rfl
    rw [written_answer reads s carries untaken read answer, recognised]
  · intro replies filled read nothing
    have all : ∀ e ∈ replies.map (·.2.json), IsAnswer e := by
      intro e mem
      obtain ⟨reply, -, rfl⟩ := List.mem_map.mp mem
      exact (response_answer reply.2 rfl).1
    obtain ⟨reply, rest, rfl⟩ := List.exists_cons_of_ne_nil filled
    have unprovoked := written_batch reads s carries untaken read
      ⟨_, .head _, all _ (.head _)⟩
    rw [nothing] at unprovoked
    obtain ⟨⟨e, mem, other⟩, -⟩ := unprovoked.mp ⟨nofun, fun _ => rfl⟩
    exact other (all e mem)

/-- A loop with no methods, no hook and no input open, that is sent one text. -/
def sent (text : List UInt8) (j : Json) : Router Unit where
  dispatch := ⟨fun _ => none, fun _ => none, fun _ => 0, fun _ => .ofCode .invalidRequest,
    fun _ => .ofCode .invalidRequest⟩
  hook := none
  inputsIdle := true
  takeFrame := fun _ => false
  takeBinary := fun _ => .other
  parse := readsOnly text j

def resultText : List UInt8 :=
  Text.utf8 "\x7b\"jsonrpc\":\"2.0\",\"id\":5,\"result\":1\x7d".toList

def resultJson : List (Literal × Json) :=
  [(some "jsonrpc", .str (some "2.0")), (some "id", .u64 5), (some "result", .u64 1)]

theorem message_answers_result :
    (sent resultText (.obj resultJson)).written (.text resultText) () = [] := by
  have reads : Reads (sent resultText (.obj resultJson)).parse := readsOnly_reads rfl
  refine ((message_answers _ reads () _ resultText (.inl rfl) ⟨rfl, .inl rfl⟩).1 resultJson rfl
    ⟨by simp [resultJson], ⟨.u64 5, by simp [resultJson]⟩,
      .inl ⟨.u64 1, by simp [resultJson]⟩⟩).mpr ⟨by decide +kernel, ?_⟩
  exact ⟨rfl, ⟨.u64 5, by simp [resultJson], rfl⟩,
    "result", .u64 1, .inl rfl, by simp [resultJson], rfl⟩

def refusalText : List UInt8 :=
  let error := "\x7b\"code\":-32600,\"message\":\"Invalid request\"\x7d".toList
  let front := "\x7b\"jsonrpc\":\"2.0\",\"id\":null,\"error\":".toList
  Text.utf8 (front ++ error ++ "\x7d".toList)

/-- The refusal of an object whose id is `null`, sent back, is refused with the same frame. -/
theorem message_echo :
    let refusal := MethodResponse.error .null (.ofCode .invalidRequest)
    let r := sent refusalText refusal.json
    Reads r.parse ∧ r.Untaken refusalText ∧ r.parse refusalText = some refusal.json ∧
      IsAnswer refusal.json ∧
      r.written (.text refusalText) () = [.answer refusal] := by
  intro refusal r
  refine ⟨readsOnly_reads rfl, ⟨rfl, .inl rfl⟩, rfl, ?_, rfl⟩
  exact (response_answer refusal rfl).1

end PlexusTransport.Ws.Conn
