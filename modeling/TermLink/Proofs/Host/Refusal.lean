import TermLink.Proofs.Host.Input
import TermLink.Proofs.Host.Process
import TermLink.Proofs.Message.Malformed

/-!
# Refused requests

A request is wrong in itself, or it comes at the wrong time, or no process can be started for it;
the status of the answer tells which. Whatever the reason, a refused request leaves the terminal and
its audience as they are, and its answer gives the reason.

## Implementation notes

Whether a message is of a kind for input is looked at by the terminal only, so that where there is
no terminal, a message of another kind comes at the wrong time. The operations on the
pseudo-terminal succeed here: one that fails is the host's failure as well, and may have done a part
of its work.
-/

namespace TermLink.Host

/-- Whether a body holds a message of one of some kinds. -/
def holds (kinds : List Message.Kind) (body : Bytes) : Bool :=
  match Message.decode body with
  | .ok m => kinds.contains m.kind
  | .error _ => false

namespace Route

/-- The routes by which a terminal is asked for and used. -/
def ofTerminal : List Route := [.init, .write, .read, .writeRead, .resize]

/-- Whether a request is wrong in itself: its body holds no message, or one of another kind than the
route takes. -/
def isWrong (h : Host) (body : Bytes) : Route → Bool
  | .init => !body.all Bytes.isBlank && !holds [.init, .resize] body
  | .resize => !holds [.resize, .init] body
  | .write | .writeRead =>
    Message.malformed body || (h.terminal.isSome && !holds [.data, .resize] body)
  | _ => false

/-- Whether a request comes at the wrong time: there is no terminal yet, or there is input after the
process has ended. -/
def isUntimely (h : Host) (body : Bytes) : Route → Bool
  | .read | .resize => h.terminal.isNone
  | .write | .writeRead =>
    match h.terminal with
    | none => true
    | some t => t.exitCode.isSome && holds [.data] body
  | _ => false

/-- Whether a request is for a process that cannot be started. -/
def cannotStart (h : Host) (env : Environment) (body : Bytes) : Route → Bool
  | .init =>
    match h.terminal, requestOf body with
    | none, .ok (_, repo) => !(env.spawn (h.directory env repo)).isOk
    | _, _ => false
  | _ => false

/-- Why a request is refused, if it is. -/
def refusal? (h : Host) (env : Environment) (body : Bytes) : Route → Option Refusal
  | .init =>
    match requestOf body, h.terminal with
    | .error cause, _ => some cause
    | .ok _, some _ => none
    | .ok (_, repo), none =>
      match env.spawn (h.directory env repo) with
      | .ok _ => none
      | .error detail => some (.terminal (.spawnFailed detail))
  | .write | .writeRead =>
    match messageOf body with
    | .error cause => some cause
    | .ok m => (h.objection? m).map .terminal
  | .read => if h.terminal.isNone then some (.terminal .notInitialized) else none
  | .resize =>
    match geometryOf body with
    | .error cause => some cause
    | .ok _ => if h.terminal.isNone then some (.terminal .notInitialized) else none
  | _ => none

end Route

variable {h : Host} {env : Environment} {body : Bytes} {route : Route}

/-- A body asks for a terminal unless it is wrong. -/
theorem requestOf_cases (h : Host) (body : Bytes) :
    (Route.isWrong h body .init = false ∧ ∃ g repo, requestOf body = .ok (g, repo))
      ∨ (Route.isWrong h body .init = true
        ∧ ∃ cause, requestOf body = .error cause ∧ cause.status = 400) := by
  by_cases hblank : body.all Bytes.isBlank
  · simp only [requestOf, Route.isWrong, hblank, if_true]
    exact .inl ⟨rfl, _, _, rfl⟩
  · simp only [requestOf, Route.isWrong, hblank, Bool.false_eq_true, if_false, holds, messageOf]
    cases Message.decode body with
    | error e => exact .inr ⟨rfl, _, rfl, rfl⟩
    | ok m =>
      cases m with
      | init | resize => exact .inl ⟨rfl, _, _, rfl⟩
      | _ => exact .inr ⟨rfl, _, rfl, rfl⟩

/-- A body asks for a size unless it is wrong. -/
theorem geometryOf_cases (h : Host) (body : Bytes) :
    (Route.isWrong h body .resize = false ∧ ∃ g, geometryOf body = .ok g)
      ∨ (Route.isWrong h body .resize = true
        ∧ ∃ cause, geometryOf body = .error cause ∧ cause.status = 400) := by
  simp only [geometryOf, Route.isWrong, holds, messageOf]
  cases Message.decode body with
  | error e => exact .inr ⟨rfl, _, rfl, rfl⟩
  | ok m =>
    cases m with
    | init | resize => exact .inl ⟨rfl, _, rfl⟩
    | _ => exact .inr ⟨rfl, _, rfl, rfl⟩

namespace Route

/-- The status of the answer to a request, by what is the matter with it. -/
def due (h : Host) (env : Environment) (body : Bytes) (route : Route) : Nat :=
  if route.isWrong h body then 400
  else if route.isUntimely h body then 409
  else if route.cannotStart h env body then 500
  else 200

/-- The status with which a request is answered that is refused for a reason, or not at all. -/
def statusOf : Option Refusal → Nat
  | none => 200
  | some cause => cause.status

theorem status_init : statusOf (refusal? h env body .init) = due h env body .init := by
  obtain ⟨hwrong, g, repo, hasked⟩ | ⟨hwrong, cause, hasked, hstatus⟩ := requestOf_cases h body
  · cases ht : h.terminal with
    | some t => simp [due, hwrong, isUntimely, cannotStart, refusal?, hasked, ht, statusOf]
    | none =>
      simp only [due, hwrong, isUntimely, cannotStart, refusal?, hasked, ht]
      cases env.spawn (h.directory env repo) <;> rfl
  · simp [due, hwrong, refusal?, hasked, statusOf, hstatus]

/-- Input is refused for its kind where there is a terminal, and for the time otherwise. -/
theorem status_write (hrunning : ∀ t, h.terminal = some t → t.running = t.exitCode.isNone)
    (hf : h.fault? = none) :
    statusOf (refusal? h env body .write) = due h env body .write := by
  cases hm : Message.decode body with
  | error e =>
    have malformed := Message.malformed_of_error hm
    simp [due, isWrong, refusal?, malformed, messageOf, hm, Except.mapError, statusOf,
      Refusal.status]
  | ok m =>
    have asked : messageOf body = .ok m := by simp only [messageOf, hm, Except.mapError]
    have wellFormed := Message.malformed_of_ok hm
    have kinds (ks : List Message.Kind) : holds ks body = ks.contains m.kind := by
      simp only [holds, hm]
    simp only [due, isWrong, isUntimely, cannotStart, refusal?, asked, wellFormed, kinds,
      objection?]
    -- The kind of the message counts only where there is a terminal.
    cases ht : h.terminal with
    | none => rfl
    | some t =>
      have sound : t.pty.fault = none := (fault?_of_some ht).symm.trans hf
      cases m with
      | data payload =>
        cases hc : t.exitCode <;>
          simp [hrunning t ht, hc, sound, Message.kind, statusOf, Refusal.status]
      | resize g => simp [sound, Message.kind, statusOf]
      | _ => rfl

theorem status_resize : statusOf (refusal? h env body .resize) = due h env body .resize := by
  obtain ⟨hwrong, g, hasked⟩ | ⟨hwrong, cause, hasked, hstatus⟩ := geometryOf_cases h body
  · cases ht : h.terminal <;>
      simp [due, hwrong, isUntimely, cannotStart, refusal?, hasked, ht, statusOf, Refusal.status]
  · simp [due, hwrong, refusal?, hasked, statusOf, hstatus]

theorem status_read : statusOf (refusal? h env body .read) = due h env body .read := by
  cases ht : h.terminal <;>
    simp [due, isWrong, isUntimely, cannotStart, refusal?, ht, statusOf, Refusal.status]

/-- The reason for which a request is refused is of the kind that is the matter with it. -/
theorem status_refusal (hroute : route ∈ ofTerminal)
    (hrunning : ∀ t, h.terminal = some t → t.running = t.exitCode.isNone)
    (hf : h.fault? = none) :
    statusOf (route.refusal? h env body) = route.due h env body := by
  cases route with
  | init => exact status_init
  | write => exact status_write hrunning hf
  | writeRead =>
    have same : statusOf (refusal? h env body .write) = due h env body .write :=
      status_write hrunning hf
    exact same
  | read => exact status_read
  | resize => exact status_resize
  | health | status | stream | metrics => simp [ofTerminal] at hroute

end Route

/-- What becomes of a request that is refused for a reason, or not at all. A refusal changes
nothing, but that a workspace may be prepared for a process that cannot be started. -/
inductive Answers (h : Host) : Option Refusal → Host × Http.Response → Prop
  | granted {next : Host} {response : Http.Response} (hstatus : response.status = 200) :
    Answers h none (next, response)
  | refused {workspace : Checkout.Workspace} {cause : Refusal}
      (hspared : cause.status ≠ 500 → workspace = h.workspace) :
    Answers h (some cause) ({ h with workspace }, cause.response)

theorem answers_refused (h : Host) (cause : Refusal) : h.Answers (some cause) (h, cause.response) :=
  .refused fun _ => rfl

/-- A request for the terminal is answered as its refusal says. -/
theorem answers_serve_refusal (h : Host) (env : Environment) (metrics : Bool) (r : Http.Request)
    (hroute : route ∈ Route.ofTerminal) (hf : h.fault? = none) :
    h.Answers (route.refusal? h env r.body) (h.serve env metrics r route) := by
  have granted {t : Terminal} (ht : h.terminal = some t) (g : Geometry) :
      t.resize g = (t.sized g, .ok g.resolve) :=
    Terminal.resize_of_sound ((fault?_of_some ht).symm.trans hf) g
  cases route with
  | init =>
    simp only [Route.refusal?, serve, postInit]
    cases requestOf r.body with
    | error cause => exact h.answers_refused cause
    | ok asked =>
      obtain ⟨g, repo⟩ := asked
      cases ht : h.terminal with
      | some t =>
        simp only [establish_of_some ht, granted ht, Except.map]
        exact .granted rfl
      | none =>
        cases hs : env.spawn (h.directory env repo) with
        | ok pid =>
          simp only [establish_of_spawned ht hs, hs]
          exact .granted rfl
        | error detail =>
          simp only [establish_of_failed ht hs, hs]
          exact .refused fun hstatus => absurd rfl hstatus
  | write =>
    simp only [Route.refusal?, serve, postWrite]
    cases messageOf r.body with
    | error cause => exact h.answers_refused cause
    | ok m =>
      cases ho : h.objection? m with
      | none =>
        obtain ⟨t, ht⟩ := write_of_taken ho
        simp only [ht, ho]
        exact .granted rfl
      | some e =>
        simp only [write_of_objection hf ho, ho]
        exact h.answers_refused (.terminal e)
  | writeRead =>
    simp only [Route.refusal?, serve, postWriteRead]
    cases messageOf r.body with
    | error cause => exact h.answers_refused cause
    | ok m =>
      cases ho : h.objection? m with
      | none =>
        obtain ⟨next, messages, hnext⟩ := writeRead_of_taken ho
        simp only [hnext, ho]
        exact .granted rfl
      | some e =>
        simp only [writeRead_of_objection hf ho, ho]
        exact h.answers_refused (.terminal e)
  | read =>
    simp only [Route.refusal?, serve, getRead]
    cases ht : h.terminal with
    | none =>
      rw [(vacant_of_none ht).read]
      exact h.answers_refused (.terminal .notInitialized)
    | some t =>
      simp only [read, require, ht]
      exact .granted rfl
  | resize =>
    simp only [Route.refusal?, serve, postResize]
    cases geometryOf r.body with
    | error cause => exact h.answers_refused cause
    | ok g =>
      cases ht : h.terminal with
      | none =>
        simp only [(vacant_of_none ht).resize]
        exact h.answers_refused (.terminal .notInitialized)
      | some t =>
        simp only [resize_of_some ht, granted ht]
        exact .granted rfl
  | health | status | stream | metrics => simp [Route.ofTerminal] at hroute

/-- The words of a refusal are in its response. -/
theorem decode_response (cause : Refusal) :
    Message.decode cause.response.content.bytes = .ok (.error cause.message) :=
  Message.decode_encode _

/-- A request whose body is read has the status of its refusal. A refusal leaves the host as it is,
but for the workspace where the host has failed, and its words come back. -/
theorem handle_of_refusal (h : Host) (env : Environment) {r : Http.Request}
    (hroute : Route.ofPath? r.path = some route) (hterminal : route ∈ Route.ofTerminal)
    (hreads : route.reads r) (hf : h.fault? = none) :
    let answer := h.handle env true r
    answer.2.status = Route.statusOf (route.refusal? h env r.body)
      ∧ (answer.2.status ≠ 200 →
        answer.1 = { h with workspace := answer.1.workspace }
          ∧ (answer.2.status ≠ 500 → answer.1 = h)
          ∧ ∃ cause, route.refusal? h env r.body = some cause
            ∧ (r.method ≠ "HEAD" →
              Message.decode answer.2.content.bytes = .ok (.error cause.message))) := by
  intro answer
  have answered : answer = ((h.serve env true r route).1,
      if r.method = "HEAD" then (h.serve env true r route).2.bodiless
      else (h.serve env true r route).2) := h.handle_of_reads env true hroute hreads
  have served := h.answers_serve_refusal env true r hterminal hf
  generalize h.serve env true r route = result at answered served
  generalize route.refusal? h env r.body = refusal at served
  have status : answer.2.status = result.2.status := by
    rw [answered]
    simp only
    split <;> rfl
  rw [status]
  cases served with
  | granted hstatus => exact ⟨hstatus, fun hrefused => absurd hstatus hrefused⟩
  | @refused workspace cause hspared =>
    have host : answer.1 = { h with workspace } := by rw [answered]
    refine ⟨rfl, fun _ => ⟨?_, ?_, cause, rfl, ?_⟩⟩
    · rw [host]
    · intro hstatus
      rw [host, hspared hstatus]
    · intro hhead
      rw [answered, if_neg hhead]
      exact decode_response cause

/-- Whatever has happened at a station whose pseudo-terminal is reliable, the status of the answer
to a request for the terminal tells what is the matter with the request. If anything is, the host
stays as it is, but that a workspace may be prepared for a process that cannot be started, and the
answer gives the reason. -/
theorem refusals_classified {st : Station} (hn : st.host.terminal = none)
    {events : List (Environment × Station.Event)} (hevents : Station.Reliable events)
    (env : Environment) {r : Http.Request} {route : Route}
    (hroute : Route.ofPath? r.path = some route) (hterminal : route ∈ Route.ofTerminal)
    (hreads : route.reads r) :
    let h := (st.play events).host
    let answer := h.handle env true r
    answer.2.status = route.due h env r.body
      ∧ (answer.2.status ≠ 200 →
        answer.1 = { h with workspace := answer.1.workspace }
          ∧ (answer.2.status ≠ 500 → answer.1 = h)
          ∧ ∃ cause, route.refusal? h env r.body = some cause
            ∧ (r.method ≠ "HEAD" →
              Message.decode answer.2.content.bytes = .ok (.error cause.message))) := by
  intro h answer
  have hf : h.fault? = none := Station.fault?_play hn hevents
  obtain ⟨status, refused⟩ := h.handle_of_refusal env hroute hterminal hreads hf
  have due : Route.statusOf (route.refusal? h env r.body) = route.due h env r.body :=
    Route.status_refusal hterminal (Station.running_play hn events) hf
  exact ⟨status.trans due, refused⟩

theorem refusals_classified_late :
    let env : Environment := { git := fun _ _ => .failed "", spawn := fun _ => .ok 7 }
    let st : Station :=
      ⟨{ backlogCeiling := 3, queueDepth := 1, workspace := ⟨⟨[47], ""⟩, [], []⟩ }, []⟩
    let init : Http.Request := { method := "POST", path := "/init" }
    let write : Http.Request :=
      { method := "POST", path := "/write", body := (Message.data [1]).encode }
    let past : List (Environment × Station.Event) := [(env, .request init), (env, .exit 0)]
    let late := (st.play past).host
    st.host.terminal = none ∧ Station.Reliable past ∧ Route.ofPath? write.path = some .write
      ∧ .write ∈ Route.ofTerminal ∧ Route.write.reads write
      ∧ (late.handle env true write).2.status = 409
      ∧ (late.handle env true write).1 = late
      ∧ Message.decode (late.handle env true write).2.content.bytes =
        .ok (.error "terminal is not running") := by
  intro env st init write past late
  have reliable : Station.Reliable past := by simp [past, Station.Reliable]
  have decoded : Message.decode write.body = .ok (.data [1]) := Message.decode_encode _
  obtain ⟨status, refused⟩ :=
    @refusals_classified st rfl past reliable env write .write rfl (by decide) rfl
  have due : Route.due late env write.body .write = 409 := by
    simp only [Route.due, Route.isWrong, Route.isUntimely, Message.malformed_of_ok decoded, holds,
      decoded]
    rfl
  have words : Route.refusal? late env write.body .write = some (.terminal .notRunning) := by
    simp only [Route.refusal?, messageOf, decoded]
    rfl
  have late_status := status.trans due
  obtain ⟨-, same, cause, hcause, text⟩ := refused (by rw [late_status]; decide)
  rw [words] at hcause
  cases hcause
  exact ⟨rfl, reliable, rfl, by decide, rfl, late_status, same (by rw [late_status]; decide),
    text (by decide)⟩

end TermLink.Host
