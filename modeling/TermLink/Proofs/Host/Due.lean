import TermLink.Proofs.Backlog
import TermLink.Proofs.Host.Spared
import TermLink.Proofs.Host.Unheard

/-!
# What is due to fetchers

What was printed since the last fetch and the first exit are what the next fetch is to give. The
terminal of a host holds as much of it as its ceiling allows, and every request either fetches it
or leaves it alone.

## Implementation notes

`Due` is computed from what happens at a host alone, without its terminal. `Due.Held` ties the two
together.
-/

namespace TermLink

namespace Http

/-- The messages that a response carries, if it carries messages. -/
def Content.messages? : Content → Option (List Message)
  | .lines messages => some messages
  | _ => none

end Http

namespace Host

/-- The answer to a request with its body, also where the method is `HEAD`. -/
def answer (h : Host) (env : Environment) (r : Http.Request) : Host × Http.Response :=
  match Route.ofPath? r.path with
  | none => (h, Http.notFound)
  | some route =>
    if route.access.admits r.method then h.handleRoute env true r route
    else (h, Http.notAllowed route.access)

/-- What fetchers are to be given: the output since the last fetch, and the first exit. -/
structure Due where
  since : Bytes := []
  ended : Option Int32 := none
  /-- Whether the operations on the pseudo-terminal fail. -/
  failing : Bool := false
  deriving DecidableEq, Repr

namespace Due

/-- Whether a message is accepted as input: bytes until the exit, and a size at any time, unless the
operation fails. -/
def accepts (d : Due) : Message → Bool
  | .data _ => d.ended.isNone && !d.failing
  | .resize _ => !d.failing
  | _ => false

/-- Whether a body is a message that is accepted as input. -/
def acceptsBody (d : Due) (body : Bytes) : Bool :=
  match Message.decode body with
  | .ok m => d.accepts m
  | .error _ => false

/-- Whether an event fetches: a request that reads, or one that writes and reads and whose input is
accepted. -/
def isFetch (d : Due) : Station.Event → Bool
  | .request r =>
    (r.path = "/read" && (r.method = "GET" || r.method = "HEAD"))
      || (r.path = "/write-read" && r.method = "POST"
        && (decide (r.body.length ≤ Http.bodyLimit) && d.acceptsBody r.body))
  | _ => false

/-- What is due after an event. -/
def next (d : Due) : Station.Event → Due
  | .print chunk => { d with since := d.since ++ chunk }
  | .exit code => { d with ended := d.ended.or (some code) }
  | .fault fault => { d with failing := fault.isSome }
  | e => if d.isFetch e then { d with since := [] } else d

/-- What is due after events in order. -/
def after (events : List Station.Event) : Due := events.foldl next {}

/-- What a fetch gives of what is due, where `c` is the ceiling: the most recent output, unless
there is none, and the exit. -/
def messages (c : Nat) (d : Due) : List Message :=
  (if d.since = [] then [] else [.data (d.since.rtake (min (max c 1) d.since.length))])
    ++ (d.ended.map Message.exit).toList

/-- A terminal's output is as due. -/
structure Held (d : Due) (c : Nat) (o : Terminal.Output) : Prop where
  ceiling : o.backlog.ceiling = max c 1
  bytes : o.backlog.bytes = d.since.rtake (max c 1)
  exitCode : o.exitCode = d.ended
  running : o.running = d.ended.isNone
  failing : o.failing = d.failing

variable {d : Due} {c : Nat} {o : Terminal.Output}

theorem held_new (c : Nat) : ({} : Due).Held c (.new c) :=
  ⟨rfl, (List.rtake_nil _).symm, rfl, rfl, rfl⟩

theorem rtake_min (n : Nat) (bytes : Bytes) : bytes.rtake (min n bytes.length) = bytes.rtake n := by
  have same : bytes.length - min n bytes.length = bytes.length - n := by omega
  rw [List.rtake, List.rtake, same]

/-- What is printed is due, and what is more than the ceiling is lost from the front. -/
theorem Held.print (H : d.Held c o) (chunk : Bytes) :
    Due.Held { d with since := d.since ++ chunk } c
      { o with backlog := (o.backlog.push chunk).1 } where
  ceiling := H.ceiling
  bytes := by
    rw [Backlog.bytes_push, H.ceiling, H.bytes, rtake_append]
  exitCode := H.exitCode
  running := H.running
  failing := H.failing

/-- A fetch leaves nothing due. -/
theorem Held.fetch (H : d.Held c o) :
    Due.Held { d with since := [] } c { o with backlog := { o.backlog with bytes := [] } } where
  ceiling := H.ceiling
  bytes := (List.rtake_nil _).symm
  exitCode := H.exitCode
  running := H.running
  failing := H.failing

end Due

variable {d : Due} {c : Nat} {h : Host} {t : Terminal} {o : Terminal.Output}

theorem exists_terminal (ho : h.output? = some o) :
    ∃ t, h.terminal = some t ∧ t.output = o := Option.map_eq_some_iff.mp ho

/-- What is unread is what is due. -/
theorem Due.Held.unread (H : d.Held c t.output) : t.unread = d.messages c := by
  have bytes : t.backlog.bytes = d.since.rtake (max c 1) := H.bytes
  have ended : t.exitCode = d.ended := H.exitCode
  have empty : t.backlog.bytes = [] ↔ d.since = [] := by
    rw [bytes, List.rtake, List.drop_eq_nil_iff, ← List.length_eq_zero_iff]
    omega
  rw [Terminal.unread_eq, Due.messages, Due.rtake_min, ← bytes, ended]
  simp only [empty]

/-- A message is accepted as input just when what is due says so. -/
theorem Due.Held.accept (H : d.Held c t.output) (m : Message) :
    (t.accept m).2.isOk = d.accepts m := by
  have running : t.running = d.ended.isNone := H.running
  have failing : d.failing = t.pty.fault.isSome := H.failing.symm
  cases m with
  | data payload =>
    simp only [Terminal.accept, Terminal.write, running, Due.accepts, failing]
    cases d.ended <;> cases t.pty.fault <;> rfl
  | resize g =>
    simp only [Terminal.accept, Terminal.resize, Due.accepts, failing]
    cases t.pty.fault <;> rfl
  | _ => rfl

/-- What is printed is due. -/
theorem Due.Held.publish (ho : h.output? = some o) (H : d.Held c o) (chunk : Bytes) :
    ∃ next, (h.publish chunk).output? = some next ∧
      Due.Held { d with since := d.since ++ chunk } c next := by
  obtain ⟨t, ht, rfl⟩ := exists_terminal ho
  refine ⟨_, ?_, H.print chunk⟩
  rw [publish_eq ht, output?, Option.map_some, Terminal.publish, Terminal.deliver]
  split <;> rfl

/-- The first exit is due. -/
theorem Due.Held.recordExit (ho : h.output? = some o) (H : d.Held c o) (code : Int32) :
    ∃ next, (h.recordExit code).output? = some next ∧
      Due.Held { d with ended := d.ended.or (some code) } c next := by
  obtain ⟨t, ht, rfl⟩ := exists_terminal ho
  have ended : t.exitCode = d.ended := H.exitCode
  have running : t.running = t.exitCode.isNone := by
    rw [ended]
    exact H.running
  have kept := Terminal.backlog_recordExit t h.room code
  have recorded : (t.recordExit h.room code).1.exitCode = d.ended.or (some code) := by
    rw [Terminal.exitCode_recordExit, ended]
  refine ⟨_, by rw [recordExit_eq ht, output?, Option.map_some], ?_⟩
  constructor
  case ceiling => exact (congrArg Backlog.ceiling kept).trans H.ceiling
  case bytes => exact (congrArg Backlog.bytes kept).trans H.bytes
  case exitCode => exact recorded
  case failing =>
    have same : (t.recordExit h.room code).1.pty.fault = t.pty.fault := by simp
    exact (congrArg Option.isSome same).trans H.failing
  case running =>
    have stopped := Terminal.running_recordExit t h.room code running
    rw [recorded] at stopped
    exact stopped

/-- The operations on the pseudo-terminal fail for fetchers as they do. -/
theorem Due.Held.setFault (ho : h.output? = some o) (H : d.Held c o) (fault : Option Pty.Fault) :
    ∃ next, (h.setFault fault).output? = some next ∧
      Due.Held { d with failing := fault.isSome } c next := by
  obtain ⟨t, ht, rfl⟩ := exists_terminal ho
  refine ⟨(t.withFault fault).output, ?_, H.ceiling, H.bytes, H.exitCode, H.running, rfl⟩
  rw [Host.setFault, output?, ht]
  rfl

/-- How a request is answered: a fetch gives what is due and leaves nothing due, and all else gives
no messages and leaves the output as it is. -/
inductive Due.Answers (d : Due) (c : Nat) (h : Host) : Bool → Host × Http.Response → Prop
  | fetch {next : Host} {response : Http.Response} {o : Terminal.Output}
      (hmessages : response.content.messages? = some (d.messages c))
      (ho : next.output? = some o) (H : Due.Held { d with since := [] } c o) :
    Answers d c h true (next, response)
  | pass {next : Host} {response : Http.Response} (hmessages : response.content.messages? = none)
      (hs : h.Spares next) : Answers d c h false (next, response)

theorem Due.Answers.spares {result : Host × Http.Response}
    (hresult : d.Answers c h false result) : h.Spares result.1 := by
  cases hresult with
  | pass _ hs => exact hs

theorem Due.Held.getRead (ho : h.output? = some o) (H : d.Held c o) :
    d.Answers c h true h.getRead := by
  obtain ⟨t, ht, rfl⟩ := exists_terminal ho
  have read : h.getRead =
      ({ h with terminal := some t.poll.1 }, { status := 200, content := .lines t.unread }) := by
    simp only [Host.getRead, Host.read, require, ht]
    rfl
  rw [read, H.unread]
  exact .fetch rfl rfl H.fetch

theorem answers_refusal (r : Refusal) : d.Answers c h false (h, r.response) := .pass rfl (.refl h)

/-- A request that is answered without messages. -/
theorem answers_respond {α : Type} {content : α → Http.Content}
    (hcontent : ∀ a, (content a).messages? = none) {result : Host × Except TerminalError α}
    (hs : h.Spares result.1) : d.Answers c h false (respond content result) := by
  obtain ⟨next, e | a⟩ := result
  · exact .pass rfl hs
  · exact .pass (hcontent a) hs

theorem Due.Held.postWriteRead (ho : h.output? = some o) (H : d.Held c o) (body : Bytes) :
    d.Answers c h (d.acceptsBody body) (h.postWriteRead body) := by
  obtain ⟨t, ht, rfl⟩ := exists_terminal ho
  simp only [Due.acceptsBody, Host.postWriteRead, messageOf]
  cases Message.decode body with
  | error e => exact answers_refusal _
  | ok m =>
    simp only [Except.mapError]
    have accepts := H.accept m
    cases hu : (t.accept m).2 with
    | ok =>
      rw [hu] at accepts
      have written : h.writeRead m = Host.read { h with terminal := some (t.accept m).1 } := by
        simp only [writeRead, write_of_some ht, hu]
      have same : { h with terminal := some (t.accept m).1 }.output? = some t.output := by
        rw [output?, Option.map_some, t.output_accept]
      rw [← accepts, written]
      cases H.getRead same with
      | fetch hmessages ho hleft => exact .fetch hmessages ho hleft
    | error e =>
      rw [hu] at accepts
      have rejected : h.writeRead m = ((h.write m).1, .error e) := by
        simp only [writeRead, write_of_some ht, hu]
      rw [← accepts, rejected]
      exact .pass rfl (h.spares_write m)

/-- Whether the body of a request for a route makes it a fetch. -/
def Due.reads (d : Due) (body : Bytes) : Route → Bool
  | .read => true
  | .writeRead => decide (body.length ≤ Http.bodyLimit) && d.acceptsBody body
  | _ => false

theorem answers_serve (h : Host) (env : Environment) (r : Http.Request) {route : Route}
    (hread : route ≠ .read) (hwriteRead : route ≠ .writeRead) :
    d.Answers c h false (h.serve env true r route) := by
  cases route with
  | read => exact absurd rfl hread
  | writeRead => exact absurd rfl hwriteRead
  | health | status | stream | metrics => exact .pass rfl (.refl h)
  | init =>
    simp only [serve, postInit]
    split
    · exact answers_respond (fun _ => rfl) (h.spares_establish env _ _)
    · exact answers_refusal _
  | write =>
    simp only [serve, postWrite]
    split
    · exact answers_respond (fun _ => rfl) (h.spares_write _)
    · exact answers_refusal _
  | resize =>
    simp only [serve, postResize]
    split
    · exact answers_respond (fun _ => rfl) (h.spares_resize _)
    · exact answers_refusal _

theorem Due.Held.serve (ho : h.output? = some o) (H : d.Held c o) (env : Environment)
    {r : Http.Request} {route : Route}
    (hsmall : route.access = .post → r.body.length ≤ Http.bodyLimit) :
    d.Answers c h (d.reads r.body route) (h.serve env true r route) := by
  cases route with
  | read => exact H.getRead ho
  | writeRead =>
    rw [Due.reads, decide_eq_true (hsmall rfl), Bool.true_and]
    exact H.postWriteRead ho r.body
  | _ => exact answers_serve h env r (by simp) (by simp)

theorem Due.Held.handleRoute (ho : h.output? = some o) (H : d.Held c o) (env : Environment)
    (r : Http.Request) (route : Route) :
    d.Answers c h (d.reads r.body route) (h.handleRoute env true r route) := by
  simp only [Host.handleRoute, Bool.and_eq_true, decide_eq_true_eq]
  split
  · next hlarge =>
    obtain ⟨hpost, hlarge⟩ := hlarge
    have reads : d.reads r.body route = false := by
      cases route with
      | writeRead => simp [Due.reads, hlarge]
      | read => cases hpost
      | _ => rfl
    rw [reads]
    exact .pass rfl (.refl h)
  · next hsmall =>
    apply H.serve ho env
    intro hpost
    exact Nat.not_lt.mp fun hlarge => hsmall ⟨hpost, hlarge⟩

theorem Route.ofPath?_eq_some {path : String} {route : Route} :
    Route.ofPath? path = some route ↔ path = route.path := by
  constructor
  · intro h
    have same := List.find?_some h
    exact (of_decide_eq_true same).symm
  · rintro rfl
    cases route <;> rfl

theorem Due.isFetch_request {r : Http.Request} {route : Route}
    (hroute : Route.ofPath? r.path = some route) :
    d.isFetch (.request r) = (route.access.admits r.method && d.reads r.body route) := by
  have path := Route.ofPath?_eq_some.mp hroute
  cases route with
  | read | writeRead =>
    simp [Due.isFetch, Due.reads, path, Route.path, Route.access, Http.Access.admits]
  | _ => simp [Due.isFetch, Due.reads, path, Route.path]

theorem Due.Held.answer (ho : h.output? = some o) (H : d.Held c o) (env : Environment)
    (r : Http.Request) : d.Answers c h (d.isFetch (.request r)) (h.answer env r) := by
  simp only [Host.answer]
  split
  · next hnone =>
    have other (route : Route) : r.path ≠ route.path := by
      intro path
      rw [Route.ofPath?_eq_some.mpr path] at hnone
      cases hnone
    have read : r.path ≠ "/read" := other .read
    have writeRead : r.path ≠ "/write-read" := other .writeRead
    have none : d.isFetch (.request r) = false := by simp [Due.isFetch, read, writeRead]
    rw [none]
    exact .pass rfl (.refl h)
  · next route hroute =>
    rw [Due.isFetch_request hroute]
    split
    · next admitted =>
      rw [admitted, Bool.true_and]
      exact H.handleRoute ho env r route
    · next refused =>
      rw [Bool.eq_false_iff.mpr refused, Bool.false_and]
      exact .pass rfl (.refl h)

/-- A request is answered with the body, unless its method leaves the body out. -/
theorem handle_eq (h : Host) (env : Environment) (r : Http.Request) :
    h.handle env true r =
      ((h.answer env r).1,
        if r.method = "HEAD" then (h.answer env r).2.bodiless else (h.answer env r).2) := by
  simp only [handle, answer]
  cases Route.ofPath? r.path with
  | none =>
    have same : Http.notFound.bodiless = Http.notFound := rfl
    simp only [same, ite_self]
  | some route =>
    have same : (Http.notAllowed route.access).bodiless = Http.notAllowed route.access := rfl
    by_cases hadmits : route.access.admits r.method
    · simp only [hadmits, if_true]
    · simp only [hadmits, if_false, same, ite_self, Bool.false_eq_true]

/-- Where there is no terminal, nothing is fetched. -/
theorem spares_handle_of_none (hn : h.terminal = none) (env : Environment) (r : Http.Request) :
    h.Spares (h.handle env true r).1 := by
  have served (route : Route) : h.Spares (h.serve env true r route).1 := by
    by_cases hread : route = .read
    · have refused : h.read = (h, .error .notInitialized) := by simp [read, require, hn]
      simp only [hread, serve, getRead, refused]
      exact .refl h
    by_cases hwriteRead : route = .writeRead
    · simp only [hwriteRead, serve, postWriteRead]
      split
      · simp only [writeRead, write_of_none hn]
        exact .refl h
      · exact .refl h
    · exact (answers_serve (d := {}) (c := 0) h env r hread hwriteRead).spares
  simp only [handle]
  split
  · exact .refl h
  · next route _ =>
    split
    · simp only [handleRoute]
      split
      · exact .refl h
      · exact served route
    · exact .refl h

end Host
end TermLink
