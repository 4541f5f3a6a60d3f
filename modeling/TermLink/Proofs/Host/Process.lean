import TermLink.Proofs.Host.Audience

/-!
# The process of a host

A host starts one process at most. Before it, all is refused but a request for a terminal, and a
request that fails leaves the place free for the next one. After it, the process is the same for
good, and a request for a terminal is one for another size.

## Implementation notes

Every event has an environment of its own, so that what cannot be started at one time may be started
at another. Where a terminal is there, what happens is the same in every environment: nothing is
started, and git is not asked. A request for a terminal may still fail then, because the size of the
one that is there cannot be changed.
-/

namespace TermLink.Host

/-- Whether an errand is for a terminal that is there: input, output or a size. -/
def Errand.isWork : Errand → Bool
  | .input _ | .exchange _ | .output | .size _ => true
  | .nothing | .terminal .. | .print _ | .exit _ | .fault _ => false

/-- What a request for a terminal of some size reports where a process is there already. -/
def Started.again (pid : ProcessId) (workdir : String) (g : Geometry) : Started :=
  { resized := true, pid, size := g.resolve, workdir }

/-- A host without a terminal. All but a request for one is refused, and that is granted just when a
process can be started. -/
structure Vacant (h : Host) : Prop where
  terminal : h.terminal = none
  status : h.status = none
  write (m : Message) : h.write m = (h, .error .notInitialized)
  writeRead (m : Message) : h.writeRead m = (h, .error .notInitialized)
  read : h.read = (h, .error .notInitialized)
  resize (g : Geometry) : h.resize g = (h, .error .notInitialized)
  request (env : Environment) (r : Http.Request) : (errandOf r).isWork → r.method ≠ "HEAD" →
    h.handle env true r = (h, (Refusal.terminal .notInitialized).response)
  frame (env : Environment) (s : Stream) (bytes : Bytes) (m : Message) :
    s.errand bytes = .input m →
      s.receive h env bytes = (s.reply h (.error TerminalError.notInitialized.message), s)
  fails (env : Environment) (g : Geometry) (repo : Option String) (detail : String) :
    env.spawn (h.directory env repo) = .error detail →
      (h.establish env g repo).1.terminal = none
        ∧ (h.establish env g repo).2 = .error (.spawnFailed detail)
  starts (env : Environment) (g : Geometry) (repo : Option String) (pid : ProcessId) :
    env.spawn (h.directory env repo) = .ok pid →
      ∃ warning, (h.establish env g repo).2 =
        .ok
          { resized := false, pid, size := g.resolve
            workdir := Utf8.decodeLossy (h.directory env repo), warning }

namespace Station

/-- The start that an event brings about, if it brings about one. -/
def start? (st : Station) (env : Environment) (e : Event) : Option Started :=
  match st.errand e with
  | .terminal g repo =>
    match (st.host.establish env g repo).2 with
    | .ok s => if s.resized then none else some s
    | .error _ => none
  | _ => none

/-- All starts of a run. -/
def starts : Station → List (Environment × Event) → List Started
  | _, [] => []
  | st, e :: events => (st.start? e.1 e.2).toList ++ starts (st.step e.1 e.2) events

/-- A station with a process in a directory. A request for a terminal gives the process a size,
unless that fails. It takes away no output, and nobody from the audience. -/
structure Occupied (st : Station) (pid : ProcessId) (workdir : String) : Prop where
  terminal : ∃ t, st.host.terminal = some t ∧ t.pid = pid ∧ t.workdir = workdir
  step_eq (env other : Environment) (e : Event) : st.step env e = st.step other e
  workspace (env : Environment) (e : Event) : (st.step env e).host.workspace = st.host.workspace
  establish (env : Environment) (g : Geometry) (repo : Option String) :
    (st.host.establish env g repo).2 =
      match st.host.fault? with
      | none => .ok (.again pid workdir g)
      | some fault => .error (.resizeFailed fault.detail)
  request (env : Environment) (r : Http.Request) (g : Geometry) (repo : Option String) :
    errandOf r = .terminal g repo →
      (st.request env true r).2 =
        match st.host.fault? with
        | none => { status := 200, content := .json (Started.again pid workdir g).toJson }
        | some fault => (Refusal.terminal (.resizeFailed fault.detail)).response
  resize (env : Environment) (e : Event) (g : Geometry) (repo : Option String) (t : Terminal) :
    st.errand e = .terminal g repo → st.host.terminal = some t →
      ∃ u, (st.step env e).host.terminal = some u
        ∧ u.alone = (if t.pty.fault = none then t.alone.sized g else t.alone)
        ∧ t.subscribers.members ⊆ u.subscribers.members
        ∧ u.subscribers.evicted = t.subscribers.evicted
        ∧ ∀ a, st.host.room.held a <+: (st.step env e).host.room.held a

end Station

variable {h : Host} {t : Terminal} {g : Geometry} {repo : Option String}

/-- A request for a terminal is answered with what comes of it. -/
theorem handle_terminal (env : Environment) {r : Http.Request}
    (hr : errandOf r = .terminal g repo) :
    h.handle env true r = respond (fun s => .json s.toJson) (h.establish env g repo) := by
  obtain ⟨route, hroute, hreads, hasks⟩ := exists_route (r := r) (by simp [hr])
  rw [hr] at hasks
  cases hasks with
  | init hbody =>
    have post : r.method ≠ "HEAD" := by
      intro hhead
      rw [Route.reads, hhead] at hreads
      cases hreads
    simp only [h.handle_of_reads env true hroute hreads, serve, postInit, hbody, post, if_false]

/-- Where there is no terminal, work is refused whatever it is. -/
theorem serve_of_none (hn : h.terminal = none) (env : Environment) (metrics : Bool)
    {r : Http.Request} {route : Route} {a : Errand} (hasks : route.Asks r.body a)
    (hwork : a.isWork) :
    h.serve env metrics r route = (h, (Refusal.terminal .notInitialized).response) := by
  cases hasks with
  | init => cases hwork
  | write hbody => simp only [serve, postWrite, hbody, write_of_none hn, respond]
  | read => simp only [serve, getRead, read, require, hn, respond]
  | writeRead hbody =>
    simp only [serve, postWriteRead, hbody, writeRead, write_of_none hn, respond]
  | resize hbody => simp only [serve, postResize, hbody, Host.resize, require, hn, respond]

theorem Stream.attach_of_none (s : Stream) (hn : h.terminal = none) : s.attach h = (h, s) := by
  simp only [attach]
  split
  · rfl
  · simp [attach?, hn]

theorem vacant_of_none (hn : h.terminal = none) : h.Vacant where
  terminal := hn
  status := by rw [status, hn, Option.map_none]
  write := write_of_none hn
  writeRead m := by rw [writeRead, write_of_none hn]
  read := by simp only [read, require, hn]
  resize g := by simp only [resize, require, hn]
  request env r hwork hhead := by
    have asked : errandOf r ≠ .nothing := by
      intro hnothing
      rw [hnothing] at hwork
      cases hwork
    obtain ⟨route, hroute, hreads, hasks⟩ := exists_route asked
    rw [h.handle_of_reads env true hroute hreads, if_neg hhead,
      serve_of_none hn env true hasks hwork]
  frame env s bytes m he := by
    simp only [s.receive_of_input h env he, Stream.input, s.attach_of_none hn, write_of_none hn]
  fails env g repo detail hs := by
    rw [establish_of_failed hn hs]
    exact ⟨hn, rfl⟩
  starts env g repo pid hs := by
    rw [establish_of_spawned hn hs]
    exact ⟨_, rfl⟩

theorem serve_eq_of_some (ht : h.terminal = some t) (env other : Environment) (metrics : Bool)
    (r : Http.Request) (route : Route) :
    h.serve env metrics r route = h.serve other metrics r route := by
  cases route with
  | init => simp only [serve, postInit, establish_of_some ht]
  | _ => rfl

theorem handle_eq_of_some (ht : h.terminal = some t) (env other : Environment) (metrics : Bool)
    (r : Http.Request) : h.handle env metrics r = h.handle other metrics r := by
  simp only [handle, handleRoute, serve_eq_of_some ht env other]

theorem Stream.receive_eq_of_some (s : Stream) (ht : h.terminal = some t)
    (env other : Environment) (bytes : Bytes) :
    s.receive h env bytes = s.receive h other bytes := by
  have same (m : Message) : s.act h env m = s.act h other m := by
    cases m with
    | init g repo => simp only [act, Stream.establish, establish_of_some ht]
    | _ => rfl
  simp only [receive, same]

namespace Station

variable {st : Station} {pid : ProcessId} {workdir : String}

theorem step_eq_of_some (ht : st.host.terminal = some t) (env other : Environment) (e : Event) :
    st.step env e = st.step other e := by
  cases e with
  | request r => simp only [step, Station.request, handle_eq_of_some ht env other]
  | frame k bytes =>
    simp only [step, onStream]
    split
    · rw [Stream.receive_eq_of_some _ ht env other]
    · rfl
  | _ => rfl

theorem workspace_step_of_some (ht : st.host.terminal = some t) (env : Environment) (e : Event) :
    (st.step env e).host.workspace = st.host.workspace := by
  have step := congrArg Host.workspace (st.alone_step env e)
  rw [perform_of_some ht] at step
  exact step

/-- An event that asks for a terminal where there is one resizes it at most and loses nobody. -/
theorem step_terminal (ht : st.host.terminal = some t) (H : st.host.Sound) (env : Environment)
    {e : Event} (he : st.errand e = .terminal g repo) :
    ∃ u, (st.step env e).host.terminal = some u
      ∧ u.alone = (if t.pty.fault = none then t.alone.sized g else t.alone)
      ∧ t.subscribers.members ⊆ u.subscribers.members
      ∧ u.subscribers.evicted = t.subscribers.evicted
      ∧ ∀ a, st.host.room.held a <+: (st.step env e).host.room.held a := by
  have resized : (t.resize g).1.alone =
      if t.pty.fault = none then t.alone.sized g else t.alone := by
    simp only [Terminal.resize]
    cases t.pty.fault <;> rfl
  have audience : (t.resize g).1.subscribers = t.subscribers := by rw [t.resize_eq]
  cases e with
  | request r =>
    have after : (st.step env (.request r)).host =
        { st.host with terminal := some (t.resize g).1 } := by
      have handled := st.host.handle_fst env true r
      have asked : errandOf r = .terminal g repo := he
      rw [asked, perform, establish_of_some ht] at handled
      exact handled
    rw [after]
    refine ⟨_, rfl, resized, ?_, ?_, fun _ => List.prefix_refl _⟩
    · rw [audience]
      exact List.Subset.refl _
    · rw [audience]
  | frame k bytes =>
    simp only [errand] at he
    split at he
    · next s hs =>
      have after : (st.step env (.frame k bytes)).host = (s.establish st.host env g repo).1 := by
        simp only [step, onStream, hs, s.receive_of_terminal _ env he]
      rw [after]
      cases hfault : t.pty.fault with
      | none =>
        have granted := Terminal.resize_of_sound hfault g
        have established : s.establish st.host env g repo =
            s.attach { st.host with terminal := some (t.sized g) } := by
          simp only [Stream.establish, establish_of_some ht, granted, Except.map]
        have sound : (t.sized g).subscribers.Sound := H t ht
        rw [established]
        exact s.attach_keeps (t := t.sized g) rfl sound
      | some fault =>
        have failed := Terminal.resize_of_fault hfault g
        -- The peer is told of the failure, and the stream does not subscribe.
        have established : (s.establish st.host env g repo).1 =
            s.reply st.host (.error (TerminalError.resizeFailed fault.detail).message) := by
          simp only [Stream.establish, establish_of_some ht, failed, Except.map, with_terminal ht]
        rw [established]
        refine ⟨t, ht, rfl, List.Subset.refl _, rfl, ?_⟩
        intro a
        simp [Stream.reply, Mailroom.held_offer]
    · cases he
  | openStream | hangUp | send | notice | stop | print | exit | fault => cases he

theorem occupied_of_some (ht : st.host.terminal = some t) (H : st.host.Sound) :
    st.Occupied t.pid t.workdir where
  terminal := ⟨t, ht, rfl, rfl⟩
  step_eq := step_eq_of_some ht
  workspace := workspace_step_of_some ht
  establish env g repo := by
    rw [establish_of_some ht, fault?_of_some ht, Terminal.resize]
    cases t.pty.fault <;> rfl
  request env r g repo hr := by
    rw [Station.request, handle_terminal env hr, establish_of_some ht, fault?_of_some ht,
      Terminal.resize]
    cases t.pty.fault <;> rfl
  resize env e g repo u he hu := by
    rw [ht] at hu
    cases hu
    exact step_terminal ht H env he

/-- The process and its directory stay as they are. -/
theorem step_same (ht : st.host.terminal = some t) (env : Environment) (e : Event) :
    ∃ u, (st.step env e).host.terminal = some u ∧ u.pid = t.pid ∧ u.workdir = t.workdir := by
  obtain ⟨u, hu, hafter⟩ := step_of_some ht env e
  have same := (st.errand e).upon_same t.alone
  rw [← hafter] at same
  exact ⟨u, hu, same⟩

theorem start?_of_some (ht : st.host.terminal = some t) (env : Environment) (e : Event) :
    st.start? env e = none := by
  rw [start?]
  split
  · rw [establish_of_some ht]
    cases (t.resize _).2 <;> rfl
  · rfl

theorem occupied_play (ht : st.host.terminal = some t) (H : st.host.Sound)
    (events : List (Environment × Event)) : (st.play events).Occupied t.pid t.workdir := by
  induction events generalizing st t with
  | nil => exact occupied_of_some ht H
  | cons e events ih =>
    obtain ⟨u, hu, hpid, hworkdir⟩ := step_same ht e.1 e.2
    rw [← hpid, ← hworkdir]
    exact ih hu (sound_step H e.1 e.2)

theorem starts_of_some (ht : st.host.terminal = some t) (events : List (Environment × Event)) :
    st.starts events = [] := by
  induction events generalizing st t with
  | nil => rfl
  | cons e events ih =>
    obtain ⟨u, hu, -⟩ := step_of_some ht e.1 e.2
    rw [starts, start?_of_some ht, ih hu]
    rfl

/-- Where there is no terminal, an event either starts one or leaves the place free. -/
theorem start?_of_none (hn : st.host.terminal = none) (env : Environment) (e : Event) :
    (st.start? env e = none ∧ (st.step env e).host.terminal = none)
      ∨ ∃ s u, st.start? env e = some s ∧ (st.step env e).host.terminal = some u
        ∧ u.pid = s.pid ∧ u.workdir = s.workdir := by
  obtain ⟨hfree, hfailed⟩ | ⟨g, repo, pid, u, he, hs, hu, hafter⟩ := step_of_none hn env e
  · left
    refine ⟨?_, hfree⟩
    rw [start?]
    split
    · next g repo he =>
      obtain ⟨detail, hs⟩ := hfailed g repo he
      simp only [establish_of_failed hn hs]
    · rfl
  · right
    simp only [start?, he, establish_of_spawned hn hs]
    exact ⟨_, u, rfl, hu, congrArg Terminal.pid hafter, congrArg Terminal.workdir hafter⟩

/-- A host starts one process at most, whatever happens at its station and whatever starts fail.
Until then it is vacant, and from then on it is occupied by that process. -/
theorem one_process {st : Station} (hn : st.host.terminal = none)
    (events : List (Environment × Event)) :
    (st.starts events = [] ∧ ∀ done, done <+: events → (st.play done).host.Vacant)
      ∨ ∃ before env e after s, events = before ++ (env, e) :: after
        ∧ st.starts events = [s]
        ∧ (st.play before).start? env e = some s
        ∧ (∀ done, done <+: before → (st.play done).host.Vacant)
        ∧ ∀ done, done <+: after →
          (st.play (before ++ (env, e) :: done)).Occupied s.pid s.workdir := by
  -- Where the first event starts nothing, what holds of the rest is put behind it.
  induction events generalizing st with
  | nil =>
    left
    refine ⟨rfl, ?_⟩
    intro done hdone
    rw [List.prefix_nil.mp hdone]
    exact vacant_of_none hn
  | cons e events ih =>
    obtain ⟨env, e⟩ := e
    have sooner {before : List (Environment × Event)}
        (hbefore : ∀ done, done <+: before → ((st.step env e).play done).host.Vacant) :
        ∀ done, done <+: (env, e) :: before → (st.play done).host.Vacant := by
      intro done hdone
      obtain rfl | ⟨rest, rfl, hrest⟩ := List.prefix_cons_iff.mp hdone
      · exact vacant_of_none hn
      · exact hbefore rest hrest
    rcases start?_of_none hn env e with ⟨hnothing, hfree⟩ | ⟨s, u, hs, hu, hpid, hworkdir⟩
    · have later : st.starts ((env, e) :: events) = (st.step env e).starts events := by
        rw [starts, hnothing]
        rfl
      rw [later]
      obtain ⟨hnone, hvacant⟩ | ⟨before, env', e', after, s, rfl, hs, hstart, hvacant, hthen⟩ :=
        ih hfree
      · exact .inl ⟨hnone, sooner hvacant⟩
      · exact .inr ⟨(env, e) :: before, env', e', after, s, rfl, hs, hstart, sooner hvacant, hthen⟩
    · right
      refine ⟨[], env, e, events, s, rfl, ?_, hs, ?_, ?_⟩
      · rw [starts, hs, starts_of_some hu]
        rfl
      · intro done hdone
        rw [List.prefix_nil.mp hdone]
        exact vacant_of_none hn
      · intro done _
        rw [← hpid, ← hworkdir]
        exact occupied_play hu (sound_step (.of_none hn) env e) done

theorem one_process_after_failure :
    let broken : Environment :=
      { git := fun _ _ => .failed "", spawn := fun _ => .error "no shell" }
    let sane : Environment := { git := fun _ _ => .failed "", spawn := fun _ => .ok 7 }
    let h : Host := { backlogCeiling := 3, queueDepth := 1, workspace := ⟨⟨[47], ""⟩, [], []⟩ }
    let init : Event := .request { method := "POST", path := "/init" }
    let later :=
      [(broken, .exit 0), (sane, .fault (some { detail := "gone" })),
        (sane, .frame 0 (Message.init ⟨100, 40⟩ none).encode)]
    let events := [(broken, init), (sane, .openStream), (sane, init)] ++ later
    h.terminal = none
      ∧ (Station.mk h []).starts events = [⟨false, 7, ⟨80, 24⟩, "/", none⟩]
      ∧ ((Station.mk h []).play events).Occupied 7 "/" := by
  intro broken sane h init later events
  have started : (Station.mk h []).starts events = [⟨false, 7, ⟨80, 24⟩, "/", none⟩] := by
    have there : ((Station.mk h []).play (events.take 3)).host.terminal.isSome := rfl
    obtain ⟨t, ht⟩ := Option.isSome_iff_exists.mp there
    calc (Station.mk h []).starts events
      _ = [⟨false, 7, ⟨80, 24⟩, "/", none⟩]
          ++ ((Station.mk h []).play (events.take 3)).starts later := rfl
      _ = [⟨false, 7, ⟨80, 24⟩, "/", none⟩] := by rw [starts_of_some ht, List.append_nil]
  refine ⟨rfl, started, ?_⟩
  obtain ⟨none, -⟩ | ⟨before, env, e, after, s, all, only, -, -, occupied⟩ :=
    @one_process ⟨h, []⟩ rfl events
  · rw [none] at started
    cases started
  · rw [started] at only
    cases only
    rw [all]
    exact occupied after List.prefix_rfl

end Station
end TermLink.Host
