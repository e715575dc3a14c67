import WalletGate.Pipeline
import WalletGate.Proofs.Messages

/-!
# Which answers arrive

Inside the wallet every answer of the pipeline is settled.  Whoever asked gets it as a text,
and a text has no other way to say that there is no result than to leave it out or to say
null.  So one answer is lost on the way: the result null.  It is written, and read as none;
the request looks as if nobody had answered.  Every other result arrives, and so does every
error.

* `Response.readText_render` — what is read from the text of a response;
* `Pipeline.settled_unless_null` — an answer of the pipeline arrives settled unless its
  result is null;
* `Pipeline.null_answer_lost` — a handler that answers null leaves the one who asked without
  an answer.
-/

namespace WalletGate

open Reading Json

namespace Json

/-- Only null is null in order. -/
theorem sorted_eq_null_iff {v : Json} : v.sorted = null ↔ v = null := by
  cases v <;> simp [sorted]

/-- Only null is null with other numbers. -/
theorem mapNumbers_eq_null_iff {f : Number → Number} {v : Json} :
    v.mapNumbers f = null ↔ v = null := by
  cases v <;> simp [mapNumbers]

/-- Of an optional free value only null is lost. -/
theorem isSome_present?_iff {f : Json → Json} (hf : ∀ v, f v = null ↔ v = null) (o : Option Json) :
    (present? (o.map f)).isSome = true ↔ o.isSome = true ∧ o ≠ some null := by
  rcases o with _ | v
  · simp [present?]
  · by_cases hv : v = null
    · subst hv
      simp [present?, (hf null).2 rfl]
    · have hpresent : present? (some (f v)) = some (f v) :=
        present?_eq_self fun h => hv ((hf v).1 (Option.some.inj h))
      simp [hpresent, hv]

end Json

/-- Other numbers in a written error are other numbers in its free value, if its code stays. -/
theorem RpcError.mapNumbers_toJson {f : Number → Number} {e : RpcError}
    (h : f (.whole e.code) = .whole e.code) :
    e.toJson.mapNumbers f = (e.mapFree (Json.mapNumbers f)).toJson := by
  obtain ⟨code, message, data⟩ := e
  cases data <;> simp [toJson, mapFree, mapNumbers, mapNumbersAmong, Json.whole, h]

namespace Response

/-- Other numbers in a written response are other numbers in its free values, if the code of
its error stays. -/
theorem mapNumbers_toJson {f : Number → Number} {r : Response}
    (h : ∀ e ∈ r.error, f (.whole e.code) = .whole e.code) :
    r.toJson.mapNumbers f = (r.mapFree (Json.mapNumbers f)).toJson := by
  obtain ⟨jsonrpc, id, result, error⟩ := r
  have herror : ∀ e ∈ error, e.toJson.mapNumbers f = (e.mapFree (Json.mapNumbers f)).toJson :=
    fun e he => RpcError.mapNumbers_toJson (h e he)
  cases result <;> cases error <;> simp [toJson, mapFree, mapNumbers, mapNumbersAmong, herror]

/-- The code of an error is not touched where free values are changed. -/
theorem HasCode.mapFree {r : Response} (h : r.HasCode) (f : Json → Json) :
    (r.mapFree f).HasCode := by
  intro e he
  obtain ⟨e, he', rfl⟩ := Option.map_eq_some_iff.1 he
  exact h e he'

/-- **What is read from the text of a response**: its free values in order, with their
numbers as they come back, and null as none. -/
theorem readText_render {r : Response} (hcode : r.HasCode)
    (hnumbers : ∀ v ∈ r.freeValues, v.AllNumbers Legible) (hdepth : r.toJson.depth ≤ nesting) :
    readText Response.read r.toJson.render
      = .ok ((r.mapFree (Json.mapNumbers reread)).mapFree sorted).withoutNull := by
  have hjson : r.toJson.mapNumbers reread = (r.mapFree (Json.mapNumbers reread)).toJson :=
    mapNumbers_toJson fun e he => (hcode e he).isWord.reread_eq
  refine readText_render_legible
    (allNumbers_toJson (fun e he => (hcode e he).isWord.legible) hnumbers) ?_
  have hroom : (r.mapFree (Json.mapNumbers reread)).toJson.depth ≤ nesting := by
    rwa [← hjson, depth_mapNumbers]
  rw [hjson]
  exact read_toJson (hcode.mapFree _) hroom

/-- **A result arrives unless it is null, and an error always.** -/
theorem arrives {r : Response} (hcode : r.HasCode)
    (hnumbers : ∀ v ∈ r.freeValues, v.AllNumbers Legible) (hdepth : r.toJson.depth ≤ nesting) :
    ∃ back, readText Response.read r.toJson.render = .ok back ∧
      (back.result.isSome = true ↔ r.result.isSome = true ∧ r.result ≠ some .null) ∧
      (back.error.isSome = true ↔ r.error.isSome = true) := by
  refine ⟨_, readText_render hcode hnumbers hdepth, ?_, ?_⟩
  · have hmap : (r.result.map (Json.mapNumbers reread)).map sorted
        = r.result.map (sorted ∘ Json.mapNumbers reread) :=
      Option.map_map ..
    simp only [withoutNull, mapFree, hmap]
    exact isSome_present?_iff (fun v => sorted_eq_null_iff.trans mapNumbers_eq_null_iff) r.result
  · simp [withoutNull, mapFree]

end Response

namespace Pipeline

variable {η : Type}

/-- **An answer of the pipeline arrives, and settled, unless its result is null.**  Whatever
the handlers do: the text of the answer is read, if its numbers can be and it is not nested
too deep; it has an error if the answer has one, and a result if the answer has one that is
not null.  It is unsettled if and only if the answer is the result null and no error. -/
theorem settled_unless_null {handlers : List (Handler η)} {request : Request} {response : Response}
    (h : Program.Returns (handle handlers request) response) (hcode : response.HasCode)
    (hnumbers : ∀ v ∈ response.freeValues, v.AllNumbers Legible)
    (hdepth : response.toJson.depth ≤ nesting) :
    response.isSettled = true ∧
      ∃ back, readText Response.read response.toJson.render = .ok back ∧
        (back.result.isSome = true ↔ response.result.isSome = true ∧ response.result ≠ some .null) ∧
        (back.error.isSome = true ↔ response.error.isSome = true) ∧
        (back.isSettled = false ↔ response.result = some .null ∧ response.error = none) := by
  have hsettled : response.isSettled = true := isSettled_of_returns h
  obtain ⟨back, hread, hresult, herror⟩ := Response.arrives hcode hnumbers hdepth
  refine ⟨hsettled, back, hread, hresult, herror, ?_⟩
  rw [Response.isSettled, Bool.or_eq_true] at hsettled
  rw [Response.isSettled, Bool.or_eq_false_iff, ← Bool.not_eq_true, ← Bool.not_eq_true,
    hresult, herror]
  rcases response with ⟨jsonrpc, id, result, error⟩
  cases error <;> cases result <;> simp_all

/-- A handler that answers with this result. -/
def answering (result : Json) : Handler η := fun request response _ =>
  .done (.well request { response with result := some result })

/-- The pipeline with such a handler answers with that result. -/
theorem returns_answering (η : Type) (result : Json) (request : Request) :
    Program.Returns (handle [(answering result : Handler η)] request)
      { Response.forRequest request with result := some result } :=
  .done _

/-- A result of false arrives. -/
theorem settled_unless_null_false :
    ∃ back, readText Response.read
        { Response.forRequest (.new (.whole 1) "eth_call") with
          result := some (.bool false) }.toJson.render = .ok back ∧
      back.isSettled = true := by
  obtain ⟨-, back, hread, -, -, hsettled⟩ :=
    settled_unless_null (returns_answering Unit (.bool false) (.new (.whole 1) "eth_call"))
      (by simp [Response.HasCode, Response.forRequest])
      (by simpa [Response.freeValues, Response.forRequest, Request.new, AllNumbers, Json.whole]
        using IsWord.legible (n := .whole 1) (by simp [IsWord]))
      (by decide)
  exact ⟨back, hread, by simpa using hsettled⟩

/-- A result of null does not: inside the wallet the request is answered, and whoever asked
reads a response that nobody has written to. -/
theorem null_answer_lost :
    ∃ response,
      Program.Returns
        (handle [(answering .null : Handler Unit)] (.new (.whole 1) "eth_call")) response ∧
      response.isSettled = true ∧ response.result = some .null ∧
      readText Response.read response.toJson.render
        = .ok (.forRequest (.new (.whole 1) "eth_call")) ∧
      (Response.forRequest (.new (.whole 1) "eth_call")).isSettled = false := by
  refine ⟨_, returns_answering Unit .null _, rfl, rfl, ?_, rfl⟩
  refine Response.readText_toJson ?_ (by simp [Response.HasCode, Response.forRequest]) (by decide)
  simp [Plain, Response.freeValues, Response.forRequest, Request.new, sorted, AllNumbers,
    Json.whole, IsWord]

end Pipeline

end WalletGate
