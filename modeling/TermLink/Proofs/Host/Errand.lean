import TermLink.Host.Station
import TermLink.Proofs.Host.Basic
import TermLink.Proofs.Message.Output

/-!
# Errands

What an event at a station asks of the host's terminal. A request, a frame on a stream and the
process itself may ask for the same thing, and apart from the streams and their mailboxes what an
event does is what its errand does.

## Implementation notes

`Host.alone` forgets the streams. It is the same host for two events with the same errand, so a fact
about the terminal's process, its pseudo-terminal or its backlog is proved by one case for each
errand and not for each event.
-/

namespace TermLink

/-- A terminal without its audience. -/
def Terminal.alone (t : Terminal) : Terminal := { t with subscribers := {} }

/-- Whether a size is granted, and what it does, does not depend on the audience. -/
theorem Terminal.resize_alone (t : Terminal) (g : Geometry) :
    t.alone.resize g = ((t.resize g).1.alone, (t.resize g).2) := by
  have same : t.alone.pty.fault = t.pty.fault := rfl
  simp only [resize, same]
  cases t.pty.fault <;> rfl

/-- Whether a message is taken as input, and what it does, does not depend on the audience. -/
theorem Terminal.accept_alone (t : Terminal) (m : Message) :
    t.alone.accept m = ((t.accept m).1.alone, (t.accept m).2) := by
  cases m with
  | data payload =>
    have running : t.alone.running = t.running := rfl
    have fault : t.alone.pty.fault = t.pty.fault := rfl
    simp only [accept, write, running, fault]
    split
    · cases t.pty.fault <;> rfl
    · rfl
  | resize g => simp only [accept, t.resize_alone]
  | _ => rfl

namespace Host

/-- A host without its streams. -/
def alone (h : Host) : Host :=
  { h with terminal := h.terminal.map Terminal.alone, room := {}, malformed := 0 }

/-- What is asked of the terminal of a host. -/
inductive Errand where
  | nothing
  /-- A terminal of a size, in the workspace of a repository. -/
  | terminal (g : Geometry) (repo : Option String)
  | input (m : Message)
  /-- Input, and then recent output. -/
  | exchange (m : Message)
  | output
  | size (g : Geometry)
  | print (chunk : Bytes)
  | exit (code : Int32)
  /-- That the operations on the pseudo-terminal fail, or no longer. -/
  | fault (f : Option Pty.Fault)
  deriving DecidableEq, Repr

/-- The host after an errand. -/
def perform (h : Host) (env : Environment) : Errand → Host
  | .nothing => h
  | .terminal g repo => (h.establish env g repo).1
  | .input m => (h.write m).1
  | .exchange m => (h.writeRead m).1
  | .output => h.read.1
  | .size g => (h.resize g).1
  | .print chunk => h.publish chunk
  | .exit code => h.recordExit code
  | .fault f => h.setFault f

/-- A terminal after an errand, as far as its audience does not matter. -/
def Errand.upon (t : Terminal) : Errand → Terminal
  | .nothing => t
  | .terminal g _ | .size g => (t.resize g).1
  | .input m => (t.accept m).1
  | .exchange m =>
    match (t.accept m).2 with
    | .ok () => (t.accept m).1.poll.1
    | .error _ => (t.accept m).1
  | .output => t.poll.1
  | .print chunk => t.store chunk
  | .exit code =>
    if t.exitCode.isSome then t else { t with running := false, exitCode := some code }
  | .fault f => t.withFault f

/-- Whether an errand is the end of the process. -/
def Errand.isExit : Errand → Bool
  | .exit _ => true
  | _ => false

/-- Until the end of the process, an errand changes its pseudo-terminal and its output at most. -/
theorem Errand.upon_of_not_exit (t : Terminal) {a : Errand} (ha : a.isExit = false) :
    ∃ pty backlog published, a.upon t = { t with pty, backlog, published } := by
  cases a with
  | nothing | output | print | fault => exact ⟨_, _, _, rfl⟩
  | exit code => cases ha
  | terminal g | size g =>
    rw [upon, t.resize_eq]
    exact ⟨(t.resize g).1.pty, _, _, rfl⟩
  | input m =>
    rw [upon, t.accept_eq]
    exact ⟨(t.accept m).1.pty, _, _, rfl⟩
  | exchange m =>
    rw [upon, t.accept_eq]
    split
    · exact ⟨(t.accept m).1.pty, _, _, rfl⟩
    · exact ⟨(t.accept m).1.pty, _, _, rfl⟩

/-- No errand makes it another process. -/
theorem Errand.upon_same (a : Errand) (t : Terminal) :
    (a.upon t).pid = t.pid ∧ (a.upon t).workdir = t.workdir := by
  cases ha : a.isExit with
  | false =>
    obtain ⟨pty, backlog, published, heq⟩ := upon_of_not_exit t ha
    rw [heq]
    exact ⟨rfl, rfl⟩
  | true =>
    cases a with
    | exit code =>
      simp only [upon]
      split <;> exact ⟨rfl, rfl⟩
    | _ => cases ha

/-- A process runs until it is told to have ended. -/
theorem Errand.running_upon (a : Errand) {t : Terminal} (ht : t.running = t.exitCode.isNone) :
    (a.upon t).running = (t.running && !a.isExit)
      ∧ (a.upon t).running = (a.upon t).exitCode.isNone := by
  cases ha : a.isExit with
  | false =>
    obtain ⟨pty, backlog, published, heq⟩ := upon_of_not_exit t ha
    rw [heq]
    exact ⟨by simp, ht⟩
  | true =>
    cases a with
    | exit code =>
      simp only [upon]
      split
      · next hexit => simpa [ht] using hexit
      · simp
    | _ => cases ha

/-- What a request for a route asks for, if its body is read. -/
def Route.errand (body : Bytes) : Route → Errand
  | .init =>
    match requestOf body with
    | .ok (g, repo) => .terminal g repo
    | .error _ => .nothing
  | .write =>
    match messageOf body with
    | .ok m => .input m
    | .error _ => .nothing
  | .read => .output
  | .writeRead =>
    match messageOf body with
    | .ok m => .exchange m
    | .error _ => .nothing
  | .resize =>
    match geometryOf body with
    | .ok g => .size g
    | .error _ => .nothing
  | .health | .status | .stream | .metrics => .nothing

/-- Which errands there are for a route, and that the body holds what they need. -/
inductive Route.Asks (body : Bytes) : Route → Errand → Prop
  | init {g : Geometry} {repo : Option String} (hbody : requestOf body = .ok (g, repo)) :
    Asks body .init (.terminal g repo)
  | write {m : Message} (hbody : messageOf body = .ok m) : Asks body .write (.input m)
  | read : Asks body .read .output
  | writeRead {m : Message} (hbody : messageOf body = .ok m) : Asks body .writeRead (.exchange m)
  | resize {g : Geometry} (hbody : geometryOf body = .ok g) : Asks body .resize (.size g)

theorem Route.asks_errand {body : Bytes} {route : Route} (h : route.errand body ≠ .nothing) :
    route.Asks body (route.errand body) := by
  cases route with
  | init =>
    simp only [errand] at h ⊢
    split at h
    · next hbody => exact .init hbody
    · exact absurd rfl h
  | write =>
    simp only [errand] at h ⊢
    split at h
    · next hbody => exact .write hbody
    · exact absurd rfl h
  | read => exact .read
  | writeRead =>
    simp only [errand] at h ⊢
    split at h
    · next hbody => exact .writeRead hbody
    · exact absurd rfl h
  | resize =>
    simp only [errand] at h ⊢
    split at h
    · next hbody => exact .resize hbody
    · exact absurd rfl h
  | health | status | stream | metrics => exact absurd rfl h

/-- Whether the body of a request for a route is read. -/
def Route.reads (route : Route) (r : Http.Request) : Bool :=
  route.access.admits r.method && !(route.access = .post && Http.bodyLimit < r.body.length)

/-- What a request asks for. -/
def errandOf (r : Http.Request) : Errand :=
  match Route.ofPath? r.path with
  | some route => if route.reads r then route.errand r.body else .nothing
  | none => .nothing

/-- What a frame on a stream asks for. -/
def Stream.errand (s : Stream) (frame : Bytes) : Errand :=
  if s.reading then
    match Message.decode frame with
    | .ok (.init g repo) => .terminal g repo
    | .ok (.data payload) => .input (.data payload)
    | .ok (.resize g) => .input (.resize g)
    | _ => .nothing
  else .nothing

/-- What an event at a station asks for. -/
def Station.errand (st : Station) : Station.Event → Errand
  | .request r => errandOf r
  | .frame k bytes =>
    match st.streams[k]? with
    | some s => s.errand bytes
    | none => .nothing
  | .print chunk => .print chunk
  | .exit code => .exit code
  | .fault fault => .fault fault
  | .openStream | .hangUp _ | .send _ | .notice _ | .stop _ => .nothing

/-- Only the environment makes operations on the pseudo-terminal fail, or no longer fail. -/
theorem Station.eq_fault_of_errand {st : Station} {e : Station.Event} {f : Option Pty.Fault}
    (h : st.errand e = .fault f) : e = .fault f := by
  cases e with
  | request r =>
    have other (route : Route) : route.errand r.body ≠ .fault f := by
      cases route with
      | init | write | writeRead | resize =>
        simp only [Route.errand]
        split <;> exact nofun
      | _ => exact nofun
    simp only [errand, errandOf] at h
    split at h
    · split at h
      · exact absurd h (other _)
      · cases h
    · cases h
  | frame k bytes =>
    simp only [errand] at h
    split at h
    · next s _ =>
      simp only [Stream.errand] at h
      split at h
      · split at h <;> cases h
      · cases h
    · cases h
  | fault g => exact congrArg Event.fault (Errand.fault.inj h)
  | _ => cases h

variable (h : Host) (env : Environment)

theorem serve_fst (metrics : Bool) (r : Http.Request) (route : Route) :
    (h.serve env metrics r route).1 = h.perform env (route.errand r.body) := by
  cases route with
  | init =>
    simp only [serve, postInit, Route.errand]
    cases requestOf r.body with
    | ok asked => exact respond_fst _ _
    | error e => rfl
  | write =>
    simp only [serve, postWrite, Route.errand]
    cases messageOf r.body with
    | ok m => exact respond_fst _ _
    | error e => rfl
  | writeRead =>
    simp only [serve, postWriteRead, Route.errand]
    cases messageOf r.body with
    | ok m => exact respond_fst _ _
    | error e => rfl
  | resize =>
    simp only [serve, postResize, Route.errand]
    cases geometryOf r.body with
    | ok g => exact respond_fst _ _
    | error e => rfl
  | read => exact respond_fst _ _
  | metrics =>
    simp only [serve]
    split <;> rfl
  | health | status | stream => rfl

/-- A request whose body is read is served, and answered with the body unless its method leaves the
body out. -/
theorem handle_of_reads (metrics : Bool) {r : Http.Request} {route : Route}
    (hroute : Route.ofPath? r.path = some route) (hreads : route.reads r) :
    h.handle env metrics r =
      ((h.serve env metrics r route).1,
        if r.method = "HEAD" then (h.serve env metrics r route).2.bodiless
        else (h.serve env metrics r route).2) := by
  rw [Route.reads, Bool.and_eq_true, Bool.not_eq_true'] at hreads
  obtain ⟨hadmits, hsmall⟩ := hreads
  simp only [handle, hroute, hadmits, if_true, handleRoute, hsmall, Bool.false_eq_true, if_false]

/-- A request does to the host what its errand does. -/
theorem handle_fst (metrics : Bool) (r : Http.Request) :
    (h.handle env metrics r).1 = h.perform env (errandOf r) := by
  rw [errandOf]
  cases hroute : Route.ofPath? r.path with
  | none => simp only [handle, hroute, perform]
  | some route =>
    by_cases hreads : route.reads r
    · simp only [hreads, if_true, h.handle_of_reads env metrics hroute hreads, h.serve_fst]
    · have unread : route.access.admits r.method →
          route.access = .post ∧ Http.bodyLimit < r.body.length := by
        intro hadmits
        simpa [Route.reads, hadmits] using hreads
      simp only [hreads, Bool.false_eq_true, if_false, perform, handle, hroute, handleRoute]
      split
      · next hadmits => simp [unread hadmits]
      · rfl

/-- A request that asks for something is one for a route, and its body is read. -/
theorem exists_route {r : Http.Request} (hr : errandOf r ≠ .nothing) :
    ∃ route, Route.ofPath? r.path = some route ∧ route.reads r
      ∧ route.Asks r.body (errandOf r) := by
  simp only [errandOf] at hr ⊢
  split at hr
  · next route hroute =>
    split at hr
    · next hreads => exact ⟨route, hroute, hreads, by simpa [hreads] using Route.asks_errand hr⟩
    · exact absurd rfl hr
  · exact absurd rfl hr

/-- The directory in which a process is started for a request, where none is running yet. -/
def directory (repo : Option String) : Bytes :=
  (h.workspace.prepare env.git repo env.update).1.directory
    (h.workspace.prepare env.git repo env.update).2.place

variable {h env} {t : Terminal} {g : Geometry} {repo : Option String}

theorem establish_of_some (ht : h.terminal = some t) :
    h.establish env g repo =
      ({ h with terminal := some (t.resize g).1 },
        (t.resize g).2.map fun size =>
          { resized := true, pid := t.pid, size, workdir := t.workdir }) := by
  simp only [establish, ht]

theorem establish_of_failed (hn : h.terminal = none) {detail : String}
    (hs : env.spawn (h.directory env repo) = .error detail) :
    h.establish env g repo =
      ({ h with workspace := (h.workspace.prepare env.git repo env.update).1 },
        .error (.spawnFailed detail)) := by
  rw [directory] at hs
  simp only [establish, hn, start, hs]

theorem establish_of_spawned (hn : h.terminal = none) {pid : ProcessId}
    (hs : env.spawn (h.directory env repo) = .ok pid) :
    h.establish env g repo =
      ({ h with
          workspace := (h.workspace.prepare env.git repo env.update).1
          terminal := some
            { pid, workdir := Utf8.decodeLossy (h.directory env repo), queueDepth := h.queueDepth
              pty := { size := g.resolve }, backlog := .ofCeiling h.backlogCeiling } },
        .ok
          { resized := false, pid, size := g.resolve
            workdir := Utf8.decodeLossy (h.directory env repo)
            warning := (h.workspace.prepare env.git repo env.update).2.warning }) := by
  rw [directory] at hs
  simp only [establish, hn, start, hs]
  rfl

/-- Where there is no terminal, nothing is done but to start it. -/
theorem perform_of_none (hn : h.terminal = none) {a : Errand}
    (ha : ∀ g repo, a ≠ .terminal g repo) : h.perform env a = h := by
  cases a with
  | nothing => rfl
  | terminal g repo => exact absurd rfl (ha g repo)
  | input m => exact congrArg Prod.fst (write_of_none hn m)
  | exchange m => simp only [perform, writeRead, write_of_none hn]
  | output | size => simp only [perform, read, resize, require, hn]
  | print | exit => simp only [perform, publish, recordExit, onTerminal, hn]
  | fault f =>
    rw [perform, setFault, hn, Option.map_none, ← hn]

theorem alone_of_some (ht : h.terminal = some t) :
    h.alone = { h with terminal := some t.alone, room := {}, malformed := 0 } := by
  rw [alone, ht, Option.map_some]

/-- Where there is a terminal, an errand does its work there and nothing else. -/
theorem perform_of_some (ht : h.terminal = some t) (a : Errand) :
    (h.perform env a).alone = { h.alone with terminal := some (a.upon t.alone) } := by
  cases a with
  | nothing => simp [perform, Errand.upon, alone_of_some ht]
  | terminal g repo =>
    simp only [perform, establish_of_some ht, alone_of_some ht, Errand.upon, t.resize_alone]
    rfl
  | size g =>
    simp only [perform, resize_of_some ht, alone_of_some ht, Errand.upon, t.resize_alone]
    rfl
  | output =>
    simp only [perform, read, require, ht, alone_of_some ht]
    rfl
  | input m =>
    simp only [perform, write_of_some ht, alone_of_some ht, Errand.upon, t.accept_alone]
    rfl
  | exchange m =>
    simp only [perform, writeRead, write_of_some ht, alone_of_some ht, Errand.upon, t.accept_alone]
    cases (t.accept m).2 <;> rfl
  | print chunk =>
    simp only [perform, publish_eq ht, alone_of_some ht, Terminal.publish, Terminal.deliver]
    split <;> rfl
  | exit code =>
    simp only [perform, recordExit_eq ht, alone_of_some ht, Terminal.recordExit, Errand.upon]
    split
    · next hexit => simp [hexit, alone, Terminal.alone]
    · next hexit => simp [hexit, alone, Terminal.alone, Terminal.broadcast]
  | fault f =>
    simp only [perform, setFault, ht, alone_of_some ht, Errand.upon]
    rfl

variable (h env)

/-- Whether input is taken, and what it does, does not depend on the streams. -/
theorem write_alone (m : Message) : h.alone.write m = ((h.write m).1.alone, (h.write m).2) := by
  cases ht : h.terminal with
  | none => simp [write, require, alone, ht]
  | some t =>
    simp only [write_of_some ht, alone_of_some ht]
    rw [write_of_some rfl, t.accept_alone]
    rfl

end Host

namespace Host.Stream

variable (s : Stream) (h : Host) (env : Environment)

theorem alone_attach : (s.attach h).1.alone = h.alone := by
  simp only [attach]
  split
  · rfl
  · cases ht : h.terminal with
    | none => simp [attach?, ht]
    | some t => simp [attach?, ht, alone, Terminal.attach, Terminal.alone]

theorem alone_opened : (opened h).1.alone = h.alone := alone_attach _ _

theorem alone_endReading : (s.endReading h).1.alone = h.alone := by
  simp only [endReading]
  split
  · simp only [alone, detach, Option.map_map]
    rfl
  · rfl

theorem alone_hangUp : (s.hangUp h).1.alone = h.alone := by
  simp only [hangUp]
  split
  · exact s.alone_endReading h
  · rfl

theorem alone_notice : (s.notice h).1.alone = h.alone := by
  simp only [notice]
  split
  · exact s.alone_endReading h
  · rfl

theorem alone_sendNext : (s.sendNext h).1.alone = h.alone := by
  simp only [sendNext]
  split
  · split
    · split <;> rfl
    · rfl
  · rfl

theorem alone_stopWriting : (s.stopWriting h).1.alone = h.alone := by
  simp only [stopWriting]
  split <;> rfl

/-- A subscription makes no difference to input. -/
theorem write_attach (m : Message) :
    ((s.attach h).1.write m).2 = (h.write m).2
      ∧ ((s.attach h).1.write m).1.alone = (h.write m).1.alone := by
  have before := h.write_alone m
  have after := (s.attach h).1.write_alone m
  rw [alone_attach, before, Prod.mk.injEq] at after
  exact ⟨after.2.symm, after.1.symm⟩

theorem alone_input (m : Message) : (s.input h m).1.alone = (h.write m).1.alone := by
  rw [← (s.write_attach h m).2]
  simp only [input]
  split
  · next host heq => rw [heq]
  · next host e heq =>
    rw [heq]
    rfl

/-- A stream that asks for a terminal does what any request for it does. -/
theorem alone_establish (g : Geometry) (repo : Option String) :
    (s.establish h env g repo).1.alone = (h.establish env g repo).1.alone := by
  simp only [establish]
  split
  · next host started heq =>
    rw [heq, alone_attach]
    split <;> rfl
  · next host e heq =>
    rw [heq]
    rfl

/-- A frame that asks for a terminal has the stream ask for it. -/
theorem receive_of_terminal {frame : Bytes} {g : Geometry} {repo : Option String}
    (he : s.errand frame = .terminal g repo) :
    s.receive h env frame = s.establish h env g repo := by
  simp only [errand] at he
  split at he
  · next hreading =>
    rw [receive, if_pos hreading]
    split at he
    · next hm =>
      cases he
      simp only [hm, act]
    all_goals cases he
  · cases he

/-- A frame that asks for input is input. -/
theorem receive_of_input {frame : Bytes} {m : Message} (he : s.errand frame = .input m) :
    s.receive h env frame = s.input h m := by
  simp only [errand] at he
  split at he
  · next hreading =>
    rw [receive, if_pos hreading]
    split at he
    · cases he
    · next hm =>
      cases he
      simp only [hm, act]
    · next hm =>
      cases he
      simp only [hm, act]
    · cases he
  · cases he

/-- Streams apart, a frame does to the host what its errand does. -/
theorem alone_receive (frame : Bytes) :
    (s.receive h env frame).1.alone = (h.perform env (s.errand frame)).alone := by
  simp only [receive, errand]
  split
  · cases Message.decode frame with
    | error e => rfl
    | ok m =>
      cases m with
      | init g repo => exact s.alone_establish h env g repo
      | data payload => exact s.alone_input h (.data payload)
      | resize g => exact s.alone_input h (.resize g)
      | exit code => exact s.alone_endReading h
      | ping | pong | error | status => rfl
  · rfl

end Host.Stream

namespace Host.Station

variable (st : Station)

theorem alone_onStream {k : Nat} {f : Stream → Host → Host × Stream}
    (hf : ∀ (s : Stream) (h : Host), (f s h).1.alone = h.alone) :
    (st.onStream k f).host.alone = st.host.alone := by
  simp only [onStream]
  split
  · exact hf _ _
  · rfl

/-- Streams apart, an event does to the host what its errand does. -/
theorem alone_step (env : Environment) (e : Event) :
    (st.step env e).host.alone = (st.host.perform env (st.errand e)).alone := by
  cases e with
  | request r =>
    rw [errand, ← handle_fst st.host env true]
    rfl
  | frame k bytes =>
    simp only [step, onStream, errand]
    cases st.streams[k]? with
    | some s => exact s.alone_receive st.host env bytes
    | none => rfl
  | openStream => exact Stream.alone_opened _
  | hangUp k => exact st.alone_onStream Stream.alone_hangUp
  | send k => exact st.alone_onStream Stream.alone_sendNext
  | notice k => exact st.alone_onStream Stream.alone_notice
  | stop k => exact st.alone_onStream Stream.alone_stopWriting
  | print | exit | fault => rfl

variable {st}

/-- Where there is a terminal, all that an event does beside the streams is its errand's work. -/
theorem step_of_some {t : Terminal} (ht : st.host.terminal = some t) (env : Environment)
    (e : Event) :
    ∃ u, (st.step env e).host.terminal = some u ∧ u.alone = (st.errand e).upon t.alone := by
  have step := st.alone_step env e
  rw [perform_of_some ht] at step
  exact Option.map_eq_some_iff.mp (congrArg Host.terminal step)

/-- Where there is no terminal, an event starts one or leaves the place free. -/
theorem step_of_none (hn : st.host.terminal = none) (env : Environment) (e : Event) :
    ((st.step env e).host.terminal = none ∧ ∀ g repo, st.errand e = .terminal g repo →
        ∃ detail, env.spawn (st.host.directory env repo) = .error detail)
      ∨ ∃ g repo pid u, st.errand e = .terminal g repo
        ∧ env.spawn (st.host.directory env repo) = .ok pid
        ∧ (st.step env e).host.terminal = some u
        ∧ u.alone =
          { pid, workdir := Utf8.decodeLossy (st.host.directory env repo)
            queueDepth := st.host.queueDepth
            pty := { size := g.resolve }, backlog := .ofCeiling st.host.backlogCeiling } := by
  have step := congrArg Host.terminal (st.alone_step env e)
  have free (hsame : (st.host.perform env (st.errand e)).terminal = none) :
      (st.step env e).host.terminal = none := by
    rw [alone, alone, hsame] at step
    exact Option.map_eq_none_iff.mp step
  by_cases he : ∃ g repo, st.errand e = .terminal g repo
  · obtain ⟨g, repo, he⟩ := he
    rw [he] at step free ⊢
    cases hs : env.spawn (st.host.directory env repo) with
    | error detail =>
      left
      rw [perform, establish_of_failed hn hs] at free
      refine ⟨free hn, ?_⟩
      rintro g repo ⟨⟩
      exact ⟨detail, hs⟩
    | ok pid =>
      right
      rw [perform, establish_of_spawned hn hs] at step
      obtain ⟨u, hu, hafter⟩ := Option.map_eq_some_iff.mp step
      exact ⟨g, repo, pid, u, rfl, hs, hu, hafter⟩
  · left
    have other : ∀ g repo, st.errand e ≠ .terminal g repo := by simpa using he
    rw [perform_of_none hn other] at free
    exact ⟨free hn, fun g repo heq => absurd heq (other g repo)⟩

/-- The station after events in order, each in an environment of its own. -/
def play (st : Station) (events : List (Environment × Event)) : Station :=
  events.foldl (fun st e => st.step e.1 e.2) st

end Host.Station
end TermLink
