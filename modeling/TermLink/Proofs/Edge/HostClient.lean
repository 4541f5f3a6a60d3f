import TermLink.Edge.HostClient
import TermLink.Proofs.Host.Basic
import TermLink.Proofs.Message.Wire

/-!
# An edge that asks a host

What an edge learns from a host that answers its requests: what the host did, and the host's own
words where it refused.

## Implementation notes

Every request is answered here, so that none of the faults is one of the way between the two. The
bound on a process number is that of the numbers which a report holds.
-/

namespace TermLink

namespace Host

/-- The exchange of an edge with a host that answers in an environment. -/
def exchange (env : Environment) (metrics : Bool) : Edge.Exchange Host := fun r h =>
  ((h.handle env metrics r).1, .ok (h.handle env metrics r).2.reply)

/-- What an edge learns of a refusal by a terminal. -/
def faultOf (e : TerminalError) : Edge.HostFault := .refused (Refusal.terminal e).status e.message

/-- What an edge learns of a terminal that was asked for. -/
def reportOf (s : Started) : Edge.InitReport where
  resized := s.resized
  pid := some (UInt32.ofNat s.pid)
  warning := s.warning.map (·.message)

variable (h : Host) (env : Environment) (metrics : Bool)

/-- The words of a refusal come back as they were given. -/
theorem accepted_refusal (r : Refusal) :
    Edge.accepted (.ok r.response.reply) = .error (.refused r.status r.message) := by
  have refused : r.response.reply.isSuccess = false := by
    cases r with
    | unexpected | malformed => rfl
    | terminal cause => cases cause <;> rfl
  have text : Edge.refusalText r.response.reply.body = r.message := by
    have body : r.response.reply.body = (Message.error r.message).encode := rfl
    simp only [Edge.refusalText, body, Message.decode?_encode]
  simp only [Edge.accepted, refused, text]
  rfl

theorem accepted_respond {α : Type} (content : α → Http.Content)
    (result : Host × Except TerminalError α) :
    Edge.accepted (.ok (respond content result).2.reply) =
      match result.2 with
      | .ok a => .ok (content a).bytes
      | .error e => .error (faultOf e) := by
  obtain ⟨h, a | e⟩ := result
  · exact accepted_refusal _
  · rfl

theorem handle_post {m : Message} (hm : m.encode.length ≤ Http.bodyLimit) {path : String}
    {route : Route} (hpath : Route.ofPath? path = some route) (hpost : route.access = .post) :
    h.handle env metrics { method := "POST", path, body := m.encode } =
      h.serve env metrics { method := "POST", path, body := m.encode } route := by
  have small : ¬ Http.bodyLimit < m.encode.length := Nat.not_lt.mpr hm
  simp [handle, hpath, hpost, handleRoute, Http.Access.admits, small]

/-- A message that is submitted does what it does as input. -/
theorem submit_exchange {m : Message} (hm : m.encode.length ≤ Http.bodyLimit) :
    Edge.submit (exchange env metrics) h m = ((h.write m).1, (h.write m).2.mapError faultOf) := by
  have handled : h.handle env metrics (Edge.writeRequest m) =
      respond (fun _ => accepted) (h.write m) := by
    have path : Route.ofPath? "/write" = some .write := rfl
    apply (h.handle_post env metrics hm path rfl).trans
    simp only [serve, postWrite, messageOf, Message.decode_encode, Except.mapError]
  simp only [Edge.submit, exchange, handled, accepted_respond, respond_fst]
  cases (h.write m).2 <;> rfl

theorem messagesOf_encodeLines (ms : List Message) :
    Edge.messagesOf (Message.encodeLines ms) = ms := by
  rw [Edge.messagesOf, Message.decodeLines_encodeLines, List.filterMap_map]
  exact List.filterMap_some

/-- Output that is fetched is what a reader gets. -/
theorem fetch_exchange :
    Edge.fetch (exchange env metrics) h = (h.read.1, h.read.2.mapError faultOf) := by
  have handled : h.handle env metrics Edge.readRequest = respond .lines h.read := rfl
  simp only [Edge.fetch, exchange, handled, accepted_respond, respond_fst]
  cases h.read.2 with
  | error e => rfl
  | ok ms => exact congrArg (fun ms => (h.read.1, Except.ok ms)) (messagesOf_encodeLines ms)

theorem size_of_establish {g : Geometry} {repo : Option String} {s : Started}
    (hs : (h.establish env g repo).2 = .ok s) : s.size = g.resolve := by
  simp only [establish, start, Terminal.resize] at hs
  split at hs
  · split at hs
    · cases hs
      rfl
    · cases hs
  · split at hs
    · cases hs
    · cases hs
      rfl

theorem plain_toJson {s : Started} (hpid : s.pid < UInt32.size) {g : Geometry}
    (hsize : s.size = g.resolve) : Json.Plain 1 s.toJson := by
  have cols : g.resolve.cols ≤ Geometry.largest := Geometry.resolveLength_le g.cols (by decide)
  have rows : g.resolve.rows ≤ Geometry.largest := Geometry.resolveLength_le g.rows (by decide)
  have small {n : Nat} (hn : n < UInt64.size) : Json.Plain 0 (.ofNat n) := by
    apply Json.Plain.integer
    simpa using hn
  apply Json.Plain.object
  intro f hf
  simp only [List.mem_append, List.mem_cons, List.not_mem_nil, or_false, Option.mem_toList,
    Option.map_eq_some_iff] at hf
  rcases hf with (rfl | rfl | rfl | rfl | rfl | rfl) | ⟨w, -, rfl⟩
  · exact .boolean 0 _
  · exact .boolean 0 _
  · exact small (Nat.lt_trans hpid (by decide))
  · apply small
    rw [hsize]
    exact Nat.lt_of_le_of_lt cols (by decide)
  · apply small
    rw [hsize]
    exact Nat.lt_of_le_of_lt rows (by decide)
  · exact .text 0 _
  · exact .text 0 _

theorem decode?_report {s : Started} (hpid : s.pid < UInt32.size) {g : Geometry}
    (hsize : s.size = g.resolve) :
    Edge.InitReport.decode? (Http.Content.json s.toJson).bytes = some (reportOf s) := by
  have parsed : Json.parse? (String.ofList s.toJson.render).toList = some s.toJson := by
    rw [String.toList_ofList]
    exact Json.parse?_render (plain_toJson hpid hsize) (by decide)
  have pid : Json.readOptionalUInt32? (some (.ofNat s.pid)) = some (some (UInt32.ofNat s.pid)) := by
    simp [Json.readOptionalUInt32?, Json.ofNat, Json.ofInt, Json.Numeral.toInt?_ofInt, hpid]
  have read : Edge.InitReport.ofJson? s.toJson = some (reportOf s) := by
    cases hw : s.warning with
    | none =>
      have slots : Edge.InitReport.ofJson? s.toJson =
          Edge.InitReport.ofSlots? [some (.boolean s.resized), some (.ofNat s.pid), none] := by
        rw [Started.toJson, hw]
        rfl
      simp [slots, Edge.InitReport.ofSlots?, pid, Json.readBoolean?, Json.readOptionalText?,
        reportOf, hw]
    | some w =>
      have slots : Edge.InitReport.ofJson? s.toJson = Edge.InitReport.ofSlots?
          [some (.boolean s.resized), some (.ofNat s.pid), some (.text w.message)] := by
        rw [Started.toJson, hw]
        rfl
      simp [slots, Edge.InitReport.ofSlots?, pid, Json.readBoolean?, Json.readOptionalText?,
        reportOf, hw]
  simp only [Edge.InitReport.decode?, Http.Content.bytes, Utf8.decode?_encode, parsed, read, bind,
    Option.bind]

/-- A terminal that is asked for is reported as the host gives it. -/
theorem requestTerminal_exchange {size : Geometry} {repo : Option String}
    (hm : (Message.init size repo).encode.length ≤ Http.bodyLimit)
    (hpid : ∀ s, (h.establish env size repo).2 = .ok s → s.pid < UInt32.size) :
    Edge.requestTerminal (exchange env metrics) h (.init size repo) =
      ((h.establish env size repo).1,
        ((h.establish env size repo).2.mapError faultOf).map reportOf) := by
  have asked : requestOf (Message.init size repo).encode = .ok (size, repo) := by
    have given : (Message.init size repo).encode.all Bytes.isBlank = false := by
      obtain ⟨mid, hmid⟩ := (Message.init size repo).encode_braces
      rw [hmid]
      rfl
    simp only [requestOf, given, Bool.false_eq_true, if_false, messageOf, Message.decode_encode]
    rfl
  have handled : h.handle env metrics (Edge.initRequest (.init size repo)) =
      respond (fun s => .json s.toJson) (h.establish env size repo) := by
    have path : Route.ofPath? "/init" = some .init := rfl
    apply (h.handle_post env metrics hm path rfl).trans
    simp only [serve, postInit, asked]
  simp only [Edge.requestTerminal, exchange, handled, accepted_respond, respond_fst]
  cases hs : (h.establish env size repo).2 with
  | error e => rfl
  | ok s =>
    simp only [decode?_report (hpid s hs) (h.size_of_establish env hs)]
    rfl

end Host
end TermLink
