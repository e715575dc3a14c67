import WalletGate.Message.Response
import WalletGate.Proofs.Fields

/-!
# Messages come back

Requests and responses are written as JSON texts.  A text says less than the value it was
written from in one place only: an optional free value that is null is written as null, and
null is read as none.

* `Request.read_toJson`, `Response.read_toJson` — what is written is read, at hand;
* `Request.of_read`, `Response.of_read` — what is known of anything that was read, whatever
  the text;
* `messages_come_back` — from a value to its text and back, and from a text to its value and
  back.
-/

namespace WalletGate

open Reading Json

namespace Json

/-- A free value as it was read where there was this much room: in order, and not too deep. -/
structure Fits (room : Nat) (v : Json) : Prop where
  sorted : v.sorted = v
  depth : v.depth ≤ room

/-- An optional free value as it was read: it is not null, and fits. -/
def SlotFits (room : Nat) (o : Option Json) : Prop :=
  ∀ v ∈ o, v ≠ null ∧ v.Fits room

theorem slotFits_none (room : Nat) : SlotFits room none := by
  simp [SlotFits]

/-- Where nothing changes what is there, nothing changes. -/
theorem map_eq_self {α : Type} {o : Option α} {f : α → α} (h : ∀ a ∈ o, f a = a) : o.map f = o := by
  cases o with
  | none => rfl
  | some a => rw [Option.map_some, h a rfl]

/-- What is not null comes back as it is. -/
theorem present?_eq_self {o : Option Json} (h : o ≠ some null) : present? o = o := by
  unfold present?
  split
  · exact absurd rfl h
  · rfl

/-- What was read as a free value fits. -/
theorem fits_of_readAny {s : Source} {room : Nat} {v : Json} (h : readAny (room, s) = .ok v) :
    v.Fits room :=
  ⟨(of_readFree s h).1, (of_readFree s h).2⟩

/-- What was read as an optional free value fits its slot. -/
theorem slotFits_of_readOptional {s : Source} {room : Nat} {o : Option Json}
    (h : readOptional readAny (room, s) = .ok o) : SlotFits room o := by
  intro v hv
  rcases of_readOptional h with rfl | ⟨w, rfl, hnull, hw⟩
  · cases hv
  · cases hv
    refine ⟨?_, fits_of_readAny hw⟩
    rintro rfl
    exact hnull (eq_null_of_readFree hw)

end Json

namespace Request

/-- The free values of a request. -/
def freeValues (r : Request) : List Json :=
  r.id :: r.params.toList

/-- The request with none in place of null. -/
def withoutNull (r : Request) : Request :=
  { r with params := present? r.params }

/-- The request with something else in place of each free value. -/
def mapFree (f : Json → Json) (r : Request) : Request :=
  { r with id := f r.id, params := r.params.map f }

theorem mapFree_eq_self {f : Json → Json} {r : Request} (h : ∀ v ∈ r.freeValues, f v = v) :
    r.mapFree f = r := by
  obtain ⟨jsonrpc, id, method, params, origin, clientId⟩ := r
  cases params <;> simp_all [freeValues, mapFree]

/-- A written request is made of texts and its free values. -/
theorem isRecordOf_toJson (r : Request) : r.toJson.IsRecordOf r.freeValues := by
  refine ⟨_, rfl, fun m hm => ?_⟩
  simp only [List.mem_append, List.mem_cons, List.not_mem_nil, or_false, Option.mem_toList,
    Option.map_eq_some_iff] at hm
  rcases hm with (((rfl | rfl | rfl) | ⟨v, hv, rfl⟩) | ⟨o, -, rfl⟩) | ⟨c, -, rfl⟩
  · exact .inl ⟨_, rfl⟩
  · exact .inr (by simp [freeValues])
  · exact .inl ⟨_, rfl⟩
  · exact .inr (by simp [freeValues, hv])
  · exact .inl ⟨_, rfl⟩
  · exact .inl ⟨_, rfl⟩

/-- **A written request is read at hand**, its free values in order and null as none. -/
theorem read_toJson (r : Request) {room : Nat} (h : r.toJson.depth ≤ room + 1) :
    Request.read (room + 1, Source.ofJson r.toJson) = .ok (r.mapFree sorted).withoutNull := by
  obtain ⟨jsonrpc, id, method, params, origin, clientId⟩ := r
  have hid : readAny (room, Source.ofJson id) = .ok id.sorted :=
    readFree_ofJson id (depth_member h (m := ("id", id)) (by simp))
  have hparams : ∀ v ∈ params, readOptional readAny (room, Source.ofJson v)
      = .ok (present? (some v.sorted)) := by
    rintro v rfl
    exact readOptional_ofJson (depth_member h (m := ("params", v)) (by simp))
  rcases params with _ | params <;> rcases origin with _ | origin <;> rcases clientId with _ |
    clientId <;>
    simp [toJson, read, Source.ofJson, Members.ofJson, readMembers, shape, Shape.field?,
      Field.over, Shape.meet,
      Shape.complete, Shape.completeFields, ofDraft, mapFree, withoutNull, present?, hid, hparams]

/-- What is known of a request that is being read where there was this much room. -/
structure Draft.Fits (room : Nat) (d : Draft) : Prop where
  id : ∀ v ∈ d.id, v.Fits room
  params : ∀ o ∈ d.params, SlotFits room o

/-- Every field of a request keeps it. -/
theorem shape_keeps (room : Nat) : ∀ f ∈ shape.fields, f.Keeps room (Draft.Fits room) := by
  intro f hf
  simp only [shape, List.mem_cons, List.not_mem_nil, or_false] at hf
  rcases hf with rfl | rfl | rfl | rfl | rfl | rfl
  · exact Field.keeps_over (fun s b hb d hd => ⟨hd.id, hd.params⟩)
      (fun b hb d hd => ⟨hd.id, hd.params⟩)
  · refine Field.keeps_over (fun s b hb d hd => ⟨?_, hd.params⟩) (fun b hb d hd => ⟨?_, hd.params⟩)
    · rintro v ⟨⟩
      exact fits_of_readAny hb
    · cases hb
      rintro v ⟨⟩
      exact ⟨rfl, Nat.zero_le room⟩
  · exact Field.keeps_over (fun s b hb d hd => ⟨hd.id, hd.params⟩) (by simp)
  · refine Field.keeps_over (fun s b hb d hd => ⟨hd.id, ?_⟩) (fun b hb d hd => ⟨hd.id, ?_⟩)
    · rintro o ⟨⟩
      exact slotFits_of_readOptional hb
    · cases hb
      rintro o ⟨⟩
      exact slotFits_none room
  · exact Field.keeps_over (fun s b hb d hd => ⟨hd.id, hd.params⟩)
      (fun b hb d hd => ⟨hd.id, hd.params⟩)
  · exact Field.keeps_over (fun s b hb d hd => ⟨hd.id, hd.params⟩)
      (fun b hb d hd => ⟨hd.id, hd.params⟩)

/-- **A request that was read, from whatever text, fits**: its free values are in order,
none of them is null where it might be left out, and what it is written as is not too deep. -/
theorem of_read {s : Source} {room : Nat} {r : Request} (h : read (room, s) = .ok r) :
    (∀ v ∈ r.freeValues, v.sorted = v) ∧ r.withoutNull = r ∧ r.toJson.depth ≤ room := by
  obtain ⟨d, hd, hr⟩ := bind_eq_ok h
  obtain ⟨n, rfl, hkeeps⟩ := readRecord_keeps hd
  obtain ⟨hid, hparams⟩ := hkeeps (Draft.Fits n) ⟨by simp [shape], by simp [shape]⟩ (shape_keeps n)
  unfold ofDraft at hr
  split at hr
  · next jsonrpc id method params origin clientId =>
    cases hr
    have hid := hid id rfl
    have hparams := hparams params rfl
    have hfree : ∀ v ∈ freeValues ⟨jsonrpc, id, method, params, origin, clientId⟩, v.Fits n := by
      intro v hv
      rcases List.mem_cons.1 hv with rfl | hv
      · exact hid
      · exact (hparams v (by simpa using hv)).2
    refine ⟨fun v hv => (hfree v hv).sorted, ?_, (isRecordOf_toJson _).depth_le fun v hv =>
      (hfree v hv).depth⟩
    rw [withoutNull, present?_eq_self fun h => (hparams null h).1 rfl]
  · cases hr

end Request

namespace RpcError

/-- The code is a signed number of sixty-four bits. -/
def HasCode (e : RpcError) : Prop :=
  -(Nat.pow 2 63 : Nat) ≤ e.code ∧ e.code < (Nat.pow 2 63 : Nat)

theorem HasCode.isWord {e : RpcError} (h : e.HasCode) : IsWord (.whole e.code) := by
  have hbounds : Nat.pow 2 63 ≤ Nat.pow 2 64 := by decide
  obtain ⟨hlow, hhigh⟩ := h
  exact ⟨hlow, by omega⟩

/-- The error with none in place of null. -/
def withoutNull (e : RpcError) : RpcError :=
  { e with data := present? e.data }

/-- The error with something else in place of its free value. -/
def mapFree (f : Json → Json) (e : RpcError) : RpcError :=
  { e with data := e.data.map f }

/-- A written error is made of its code, a text, and its free value. -/
theorem isRecordOf_toJson (e : RpcError) :
    e.toJson.IsRecordOf (.whole e.code :: e.data.toList) := by
  refine ⟨_, rfl, fun m hm => ?_⟩
  simp only [List.mem_append, List.mem_cons, List.not_mem_nil, or_false, Option.mem_toList,
    Option.map_eq_some_iff] at hm
  rcases hm with (rfl | rfl) | ⟨v, hv, rfl⟩
  · exact .inr (by simp)
  · exact .inl ⟨_, rfl⟩
  · exact .inr (by simp [hv])

/-- **A written error is read at hand**, its free value in order and null as none. -/
theorem read_toJson {e : RpcError} (hcode : e.HasCode) {room : Nat}
    (h : e.toJson.depth ≤ room + 1) :
    RpcError.read (room + 1, Source.ofJson e.toJson) = .ok (e.mapFree sorted).withoutNull := by
  obtain ⟨code, message, data⟩ := e
  have hsigned : readSigned (room, .number (some (.whole code))) = .ok code :=
    readWhole_whole room hcode _
  have hdata : ∀ v ∈ data, readOptional readAny (room, Source.ofJson v)
      = .ok (present? (some v.sorted)) := by
    rintro v rfl
    exact readOptional_ofJson (depth_member h (m := ("data", v)) (by simp))
  rcases data with _ | data <;>
    simp [toJson, read, Json.whole, Source.ofJson, Members.ofJson, readMembers, shape, Shape.field?,
      Field.over, Shape.meet,
      Shape.complete, Shape.completeFields, mapFree, withoutNull, present?, hsigned, hdata]

/-- What is known of an error that is being read where there was this much room. -/
structure Draft.Fits (room : Nat) (d : Draft) : Prop where
  code : ∀ n ∈ d.code, -(Nat.pow 2 63 : Nat) ≤ n ∧ n < (Nat.pow 2 63 : Nat)
  data : ∀ o ∈ d.data, SlotFits room o

/-- Every field of an error keeps it. -/
theorem shape_keeps (room : Nat) : ∀ f ∈ shape.fields, f.Keeps room (Draft.Fits room) := by
  intro f hf
  simp only [shape, List.mem_cons, List.not_mem_nil, or_false] at hf
  rcases hf with rfl | rfl | rfl
  · refine Field.keeps_over (fun s b hb d hd => ⟨?_, hd.data⟩) (by simp)
    rintro n ⟨⟩
    exact of_readSigned hb
  · exact Field.keeps_over (fun s b hb d hd => ⟨hd.code, hd.data⟩) (by simp)
  · refine Field.keeps_over (fun s b hb d hd => ⟨hd.code, ?_⟩) (fun b hb d hd => ⟨hd.code, ?_⟩)
    · rintro o ⟨⟩
      exact slotFits_of_readOptional hb
    · cases hb
      rintro o ⟨⟩
      exact slotFits_none room

/-- An error as it was read where there was this much room. -/
structure Fits (room : Nat) (e : RpcError) : Prop where
  code : e.HasCode
  sorted : ∀ v ∈ e.data, v.sorted = v
  withoutNull : e.withoutNull = e
  depth : e.toJson.depth ≤ room

/-- **An error that was read, from whatever text, fits.** -/
theorem fits_of_read {s : Source} {room : Nat} {e : RpcError} (h : read (room, s) = .ok e) :
    e.Fits room := by
  obtain ⟨d, hd, he⟩ := bind_eq_ok h
  obtain ⟨n, rfl, hkeeps⟩ := readRecord_keeps hd
  obtain ⟨hcode, hdata⟩ := hkeeps (Draft.Fits n) ⟨by simp [shape], by simp [shape]⟩ (shape_keeps n)
  split at he
  · next code message data =>
    cases he
    have hdata := hdata data rfl
    refine ⟨hcode code rfl, fun v hv => (hdata v hv).2.sorted, ?_,
      (isRecordOf_toJson _).depth_le fun v hv => ?_⟩
    · rw [withoutNull, present?_eq_self fun h => (hdata null h).1 rfl]
    · rcases List.mem_cons.1 hv with rfl | hv
      · exact Nat.zero_le n
      · exact (hdata v (by simpa using hv)).2.depth
  · cases he

end RpcError

namespace Response

/-- The free values of a response. -/
def freeValues (r : Response) : List Json :=
  r.id :: (r.result.toList ++ (r.error.bind RpcError.data).toList)

/-- The response with none in place of null. -/
def withoutNull (r : Response) : Response :=
  { r with result := present? r.result, error := r.error.map RpcError.withoutNull }

/-- The response with something else in place of each free value. -/
def mapFree (f : Json → Json) (r : Response) : Response :=
  { r with id := f r.id, result := r.result.map f, error := r.error.map (RpcError.mapFree f) }

/-- The code of the error, if there is one, is a signed number of sixty-four bits. -/
def HasCode (r : Response) : Prop :=
  ∀ e ∈ r.error, e.HasCode

theorem mapFree_eq_self {f : Json → Json} {r : Response} (h : ∀ v ∈ r.freeValues, f v = v) :
    r.mapFree f = r := by
  obtain ⟨jsonrpc, id, result, error⟩ := r
  rcases error with _ | ⟨code, message, data⟩
  · cases result <;> simp_all [freeValues, mapFree]
  · cases result <;> cases data <;> simp_all [freeValues, mapFree, RpcError.mapFree]

/-- A written response is made of a text, its id and result, and its error. -/
theorem isRecordOf_toJson (r : Response) :
    r.toJson.IsRecordOf (r.id :: (r.result.toList ++ (r.error.map RpcError.toJson).toList)) := by
  refine ⟨_, rfl, fun m hm => ?_⟩
  simp only [List.mem_append, List.mem_cons, List.not_mem_nil, or_false, Option.mem_toList,
    Option.map_eq_some_iff] at hm
  rcases hm with ((rfl | rfl) | ⟨v, hv, rfl⟩) | ⟨e, he, rfl⟩
  · exact .inl ⟨_, rfl⟩
  · exact .inr (by simp)
  · exact .inr (by simp [hv])
  · exact .inr (by simp [he])

/-- The numbers of a written response are those of its free values, and the code of its
error. -/
theorem allNumbers_toJson {P : Number → Prop} {r : Response}
    (hcode : ∀ e ∈ r.error, P (.whole e.code))
    (h : ∀ v ∈ r.freeValues, v.AllNumbers P) : r.toJson.AllNumbers P := by
  refine r.isRecordOf_toJson.allNumbers fun v hv => ?_
  simp only [List.mem_cons, List.mem_append, Option.mem_toList, Option.map_eq_some_iff] at hv
  rcases hv with rfl | hv | ⟨e, he, rfl⟩
  · exact h _ (by simp [freeValues])
  · exact h v (by simp [freeValues, hv])
  · refine e.isRecordOf_toJson.allNumbers fun v hv => ?_
    rcases List.mem_cons.1 hv with rfl | hv
    · exact hcode e he
    · exact h v (by simp_all [freeValues])

/-- **A written response is read at hand**, its free values in order and null as none. -/
theorem read_toJson {r : Response} (hcode : r.HasCode) {room : Nat}
    (h : r.toJson.depth ≤ room + 1) :
    Response.read (room + 1, Source.ofJson r.toJson) = .ok (r.mapFree sorted).withoutNull := by
  obtain ⟨jsonrpc, id, result, error⟩ := r
  have hid : readAny (room, Source.ofJson id) = .ok id.sorted :=
    readFree_ofJson id (depth_member h (m := ("id", id)) (by simp))
  have hresult : ∀ v ∈ result, readOptional readAny (room, Source.ofJson v)
      = .ok (present? (some v.sorted)) := by
    rintro v rfl
    exact readOptional_ofJson (depth_member h (m := ("result", v)) (by simp))
  have herror : ∀ e ∈ error,
      readOptional RpcError.read (room, Source.ofJson e.toJson)
        = .ok (some (e.mapFree sorted).withoutNull) := by
    rintro e rfl
    have hdepth : e.toJson.depth ≤ room := depth_member h (m := ("error", e.toJson)) (by simp)
    obtain ⟨n, rfl⟩ : ∃ n, room = n + 1 :=
      ⟨room - 1, (Nat.succ_pred_eq_of_pos (Nat.lt_of_lt_of_le (Nat.succ_pos _) hdepth)).symm⟩
    exact congrArg (Except.map some) (RpcError.read_toJson (hcode e rfl) hdepth)
  rcases result with _ | result <;> rcases error with _ | error <;>
    simp [toJson, read, Source.ofJson, Members.ofJson, readMembers, shape, Shape.field?,
      Field.over, Shape.meet,
      Shape.complete, Shape.completeFields, mapFree, withoutNull, present?, hid, hresult, herror]

/-- What is known of a response that is being read where there was this much room. -/
structure Draft.Fits (room : Nat) (d : Draft) : Prop where
  id : ∀ v ∈ d.id, v.Fits room
  result : ∀ o ∈ d.result, SlotFits room o
  error : ∀ o ∈ d.error, ∀ e ∈ o, e.Fits room

/-- Every field of a response keeps it. -/
theorem shape_keeps (room : Nat) : ∀ f ∈ shape.fields, f.Keeps room (Draft.Fits room) := by
  intro f hf
  simp only [shape, List.mem_cons, List.not_mem_nil, or_false] at hf
  rcases hf with rfl | rfl | rfl | rfl
  · exact Field.keeps_over (fun s b hb d hd => ⟨hd.id, hd.result, hd.error⟩)
      (fun b hb d hd => ⟨hd.id, hd.result, hd.error⟩)
  · refine Field.keeps_over (fun s b hb d hd => ⟨?_, hd.result, hd.error⟩)
      (fun b hb d hd => ⟨?_, hd.result, hd.error⟩)
    · rintro v ⟨⟩
      exact fits_of_readAny hb
    · cases hb
      rintro v ⟨⟩
      exact ⟨rfl, Nat.zero_le room⟩
  · refine Field.keeps_over (fun s b hb d hd => ⟨hd.id, ?_, hd.error⟩)
      (fun b hb d hd => ⟨hd.id, ?_, hd.error⟩)
    · rintro o ⟨⟩
      exact slotFits_of_readOptional hb
    · cases hb
      rintro o ⟨⟩
      exact slotFits_none room
  · refine Field.keeps_over (fun s b hb d hd => ⟨hd.id, hd.result, ?_⟩)
      (fun b hb d hd => ⟨hd.id, hd.result, ?_⟩)
    · rintro o ⟨⟩ e he
      rcases of_readOptional hb with rfl | ⟨c, rfl, -, hc⟩
      · cases he
      · cases he
        exact RpcError.fits_of_read hc
    · cases hb
      rintro o ⟨⟩ e he
      cases he

/-- **A response that was read, from whatever text, fits**: its free values are in order,
none of them is null where it might be left out, and what it is written as is not too deep. -/
theorem of_read {s : Source} {room : Nat} {r : Response} (h : read (room, s) = .ok r) :
    r.HasCode ∧ (∀ v ∈ r.freeValues, v.sorted = v) ∧ r.withoutNull = r ∧ r.toJson.depth ≤ room := by
  obtain ⟨d, hd, hr⟩ := bind_eq_ok h
  obtain ⟨n, rfl, hkeeps⟩ := readRecord_keeps hd
  obtain ⟨hid, hresult, herror⟩ :=
    hkeeps (Draft.Fits n) ⟨by simp [shape], by simp [shape], by simp [shape]⟩ (shape_keeps n)
  split at hr
  · next jsonrpc id result error =>
    cases hr
    have hid := hid id rfl
    have hresult := hresult result rfl
    have herror := herror error rfl
    refine ⟨fun e he => (herror e he).code, ?_, ?_, (isRecordOf_toJson _).depth_le fun v hv => ?_⟩
    · intro v hv
      simp only [freeValues, List.mem_cons, List.mem_append, Option.mem_toList,
        Option.bind_eq_some_iff] at hv
      rcases hv with rfl | hv | ⟨e, he, hv⟩
      · exact hid.sorted
      · exact (hresult v hv).2.sorted
      · exact (herror e he).sorted v hv
    · have hresult : present? result = result := present?_eq_self fun h => (hresult null h).1 rfl
      have herror : error.map RpcError.withoutNull = error :=
        map_eq_self fun e he => (herror e he).withoutNull
      simp only [withoutNull, hresult, herror]
    · simp only [List.mem_cons, List.mem_append, Option.mem_toList, Option.map_eq_some_iff] at hv
      rcases hv with rfl | hv | ⟨e, he, rfl⟩
      · exact hid.depth
      · exact (hresult v hv).2.depth
      · exact (herror e he).depth
  · cases hr

end Response

/-! ### Texts -/

/-- The free values of a message are in order and hold only whole numbers of sixty-four bits. -/
def Json.Plain (vs : List Json) : Prop :=
  ∀ v ∈ vs, v.sorted = v ∧ v.AllNumbers IsWord

theorem Request.readText_toJson {r : Request} (hfree : Plain r.freeValues)
    (hdepth : r.toJson.depth ≤ nesting) :
    readText Request.read r.toJson.render = .ok r.withoutNull := by
  have hread : readValue Request.read r.toJson = .ok (r.mapFree sorted).withoutNull :=
    r.read_toJson hdepth
  rw [Request.mapFree_eq_self fun v hv => (hfree v hv).1] at hread
  exact readText_render (r.isRecordOf_toJson.allNumbers fun v hv => (hfree v hv).2) hread

theorem Response.readText_toJson {r : Response} (hfree : Plain r.freeValues) (hcode : r.HasCode)
    (hdepth : r.toJson.depth ≤ nesting) :
    readText Response.read r.toJson.render = .ok r.withoutNull := by
  have hread : readValue Response.read r.toJson = .ok (r.mapFree sorted).withoutNull :=
    read_toJson hcode hdepth
  rw [Response.mapFree_eq_self fun v hv => (hfree v hv).1] at hread
  exact readText_render
    (allNumbers_toJson (fun e he => (hcode e he).isWord) fun v hv => (hfree v hv).2) hread

/-- **Messages come back, both ways.**  A request or response whose free values are in order
and hold only whole numbers of sixty-four bits is read from the text it is written as, if
that is not nested too deep; it comes back as it was, but for none in place of null.  And
whatever text one of them was read from, if only whole numbers came out of it: the text it
is written as is read, gives the same value, and that is written as the same text. -/
theorem messages_come_back :
    (∀ r : Request, Plain r.freeValues → r.toJson.depth ≤ nesting →
      readText Request.read r.toJson.render = .ok r.withoutNull) ∧
    (∀ r : Response, Plain r.freeValues → r.HasCode → r.toJson.depth ≤ nesting →
      readText Response.read r.toJson.render = .ok r.withoutNull) ∧
    (∀ (text : String) (r : Request), readText Request.read text = .ok r →
      (∀ v ∈ r.freeValues, v.AllNumbers IsWord) →
      ∃ again, readText Request.read r.toJson.render = .ok again ∧ again = r ∧
        again.toJson.render = r.toJson.render) ∧
    ∀ (text : String) (r : Response), readText Response.read text = .ok r →
      (∀ v ∈ r.freeValues, v.AllNumbers IsWord) →
      ∃ again, readText Response.read r.toJson.render = .ok again ∧ again = r ∧
        again.toJson.render = r.toJson.render := by
  refine ⟨fun r => Request.readText_toJson, fun r => Response.readText_toJson, ?_, ?_⟩
  · intro text r h hnumbers
    obtain ⟨s, hs⟩ := of_readText h
    obtain ⟨hsorted, hnull, hdepth⟩ := Request.of_read hs
    have hread := Request.readText_toJson (fun v hv => ⟨hsorted v hv, hnumbers v hv⟩) hdepth
    rw [hnull] at hread
    exact ⟨r, hread, rfl, rfl⟩
  · intro text r h hnumbers
    obtain ⟨s, hs⟩ := of_readText h
    obtain ⟨hcode, hsorted, hnull, hdepth⟩ := Response.of_read hs
    have hread := Response.readText_toJson (fun v hv => ⟨hsorted v hv, hnumbers v hv⟩) hcode hdepth
    rw [hnull] at hread
    exact ⟨r, hread, rfl, rfl⟩

/-- Null params come back as none.  The members of a response may come in another order,
with others between them, and a name may come twice inside a free value; what is written
then is read again. -/
theorem messages_come_back_reordered :
    readText Request.read ((Request.new (.whole 1) "eth_call").withParams .null).toJson.render =
        .ok (Request.new (.whole 1) "eth_call") ∧
      ∃ r, readText Response.read
          (record [("result", .record [("b", .list []), ("a", .null), ("b", .whole (-1))]),
            ("more", .bool true),
            ("id", .whole 7)]).render = .ok r ∧
        r.result = some (.record [("a", .null), ("b", .whole (-1))]) ∧
        ∃ again, readText Response.read r.toJson.render = .ok again ∧ again = r ∧
          again.toJson.render = r.toJson.render := by
  have hread : readText Response.read
      (record [("result", .record [("b", .list []), ("a", .null), ("b", .whole (-1))]),
        ("more", .bool true),
        ("id", .whole 7)]).render
          = .ok ⟨"2.0", .whole 7, some (.record [("a", .null), ("b", .whole (-1))]), none⟩ := by
    refine readText_render ?_ ?_
    · simp [AllNumbers, AllNumbersAmong, AllNumbersIn, Json.whole, IsWord]
    · simp [readValue, nesting, Response.read, Source.ofJson, Members.ofJson, readMembers,
        Response.shape]
      rfl
  refine ⟨messages_come_back.1 _ ?_ (by decide), _, hread, rfl,
    messages_come_back.2.2.2 _ _ hread ?_⟩
  · simp [Plain, Request.freeValues, Request.new, Request.withParams, sorted, AllNumbers,
      Json.whole, IsWord]
  · simp [Response.freeValues, AllNumbers, AllNumbersAmong, Json.whole, IsWord]

end WalletGate
