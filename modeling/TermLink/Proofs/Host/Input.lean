import TermLink.Proofs.Host.Errand
import TermLink.Proofs.Message.Wire

/-!
# What is typed at a host

Input and sizes come to a host by requests and by streams. Whichever way they come, the terminal
has the input in the order in which it came, and its size is the last that was granted. Whether a
message is taken, and what is said where it is not, is the same everywhere.

## Implementation notes

A message comes to a host when it is read out of the body of a request, or out of a frame on a
stream whose reader is still there. What the terminal has of the input is said of runs in which the
operations on its pseudo-terminal succeed; what is said where a message is not taken is the same
everywhere in any case.
-/

namespace TermLink.Host

namespace Errand

/-- The bytes that an errand types. -/
def typed : Errand → Bytes
  | .input m | .exchange m => m.payload
  | _ => []

/-- The size that an errand asks for. -/
def size? : Errand → Option Geometry
  | .terminal g _ | .size g | .input (.resize g) | .exchange (.resize g) => some g
  | _ => none

/-- Only the environment makes operations on a pseudo-terminal fail, or no longer fail. -/
theorem fault_upon (a : Errand) (t : Terminal) :
    (a.upon t).pty.fault = match a with
      | .fault f => f
      | _ => t.pty.fault := by
  cases a with
  | terminal g | size g => exact t.fault_resize g
  | input m => exact t.fault_accept m
  | exchange m =>
    simp only [upon]
    split <;> exact t.fault_accept m
  | exit code =>
    simp only [upon]
    split <;> rfl
  | nothing | output | print | fault => rfl

/-- A terminal is typed to while its process runs, and resized at any time. -/
theorem pty_upon (a : Errand) {t : Terminal} (hf : t.pty.fault = none) :
    (a.upon t).pty.input = t.pty.input ++ (if t.running then a.typed else [])
      ∧ (a.upon t).pty.size = (a.size?.map Geometry.resolve).getD t.pty.size := by
  have granted (g : Geometry) : (t.resize g).1 = t.sized g := by rw [Terminal.resize_of_sound hf]
  have taken (m : Message) :
      (t.accept m).1.pty.input = t.pty.input ++ (if t.running then m.payload else [])
        ∧ (t.accept m).1.pty.size =
          ((Errand.input m).size?.map Geometry.resolve).getD t.pty.size := by
    cases m with
    | data payload =>
      simp only [Terminal.accept, Terminal.write, hf]
      split <;> simp [Terminal.typed, Message.payload, size?]
    | resize g => simp [Terminal.accept, granted, Terminal.sized, Message.payload, size?]
    | _ => simp [Terminal.accept, Message.payload, size?]
  cases a with
  | input m => exact taken m
  | exchange m =>
    have same : (upon t (.exchange m)).pty = (upon t (.input m)).pty := by
      simp only [upon]
      split <;> rfl
    have asked : (Errand.exchange m).size? = (Errand.input m).size? := by cases m <;> rfl
    rw [same, asked]
    exact taken m
  | exit code =>
    simp only [upon]
    split <;> simp [typed, size?]
  | terminal g | size g => simp [upon, granted, typed, size?, Terminal.sized]
  | nothing | output | print | fault =>
    simp [upon, typed, size?, Terminal.poll, Terminal.drain, Terminal.store, Terminal.withFault]

end Errand

variable {h : Host} {t : Terminal} {env : Environment}

/-- Whether what an errand asks for is granted. -/
def grants (h : Host) (env : Environment) : Errand → Bool
  | .terminal g repo => (h.establish env g repo).2.isOk
  | .input m => (h.write m).2.isOk
  | .exchange m => (h.writeRead m).2.isOk
  | .output => h.read.2.isOk
  | .size g => (h.resize g).2.isOk
  | .nothing | .print _ | .exit _ | .fault _ => true

/-- Where there is a terminal, every size is granted. -/
theorem grants_size (ht : h.terminal = some t) (hf : t.pty.fault = none) {a : Errand} {g : Geometry}
    (ha : a.size? = some g) : h.grants env a := by
  cases a with
  | terminal g repo =>
    simp only [grants, establish_of_some ht, Terminal.resize_of_sound hf]
    rfl
  | size g =>
    simp only [grants, resize_of_some ht, Terminal.resize_of_sound hf]
    rfl
  | input m | exchange m =>
    cases m with
    | resize g =>
      simp only [grants, writeRead, write_resize ht hf, read, require]
      rfl
    | _ => cases ha
  | _ => cases ha

/-- Where there is no terminal, a size is granted with a terminal only. -/
theorem not_grants_of_none (hn : h.terminal = none) {a : Errand} {g : Geometry}
    (ha : a.size? = some g)
    (hspawn : ∀ g repo, a = .terminal g repo →
      ∃ detail, env.spawn (h.directory env repo) = .error detail) :
    h.grants env a = false := by
  cases a with
  | terminal g repo =>
    obtain ⟨detail, hs⟩ := hspawn g repo rfl
    simp only [grants, establish_of_failed hn hs]
    rfl
  | size g =>
    simp only [grants, resize, require, hn]
    rfl
  | input m =>
    rw [grants, write_of_none hn]
    rfl
  | exchange m =>
    rw [grants, writeRead, write_of_none hn]
    rfl
  | _ => cases ha

namespace Station

/-- Whether there is a terminal whose process runs. -/
def isRunning (st : Station) : Bool := st.host.terminal.any (·.running)

/-- What is typed in a run while there is a process. -/
def typed : Station → List (Environment × Event) → Bytes
  | _, [] => []
  | st, e :: events =>
    (if st.isRunning then (st.errand e.2).typed else []) ++ typed (st.step e.1 e.2) events

/-- The sizes that are granted in a run. -/
def sizes : Station → List (Environment × Event) → List Geometry
  | _, [] => []
  | st, e :: events =>
    (if st.host.grants e.1 (st.errand e.2) then (st.errand e.2).size?.toList else [])
      ++ sizes (st.step e.1 e.2) events

/-- Whether the process ends in a run. -/
def ends : Station → List (Environment × Event) → Bool
  | _, [] => false
  | st, e :: events =>
    (st.host.terminal.isSome && (st.errand e.2).isExit) || ends (st.step e.1 e.2) events

/-- No operation on the pseudo-terminal is made to fail in a run. -/
def Reliable (events : List (Environment × Event)) : Prop :=
  ∀ e ∈ events, ∀ fault, e.2 ≠ .fault (some fault)

variable {st : Station}

theorem Reliable.tail {e : Environment × Event} {events : List (Environment × Event)}
    (h : Reliable (e :: events)) : Reliable events :=
  fun e he => h e (List.mem_cons_of_mem _ he)

/-- A pseudo-terminal stays as reliable as the environment leaves it. -/
theorem fault_step (ht : st.host.terminal = some t) (hf : t.pty.fault = none) (env : Environment)
    {e : Event} (he : ∀ fault, e ≠ .fault (some fault)) {u : Terminal}
    (hu : (st.step env e).host.terminal = some u) : u.pty.fault = none := by
  obtain ⟨v, hv, hafter⟩ := step_of_some ht env e
  obtain rfl : v = u := Option.some.inj (hv.symm.trans hu)
  have after : v.pty.fault = ((st.errand e).upon t.alone).pty.fault :=
    congrArg (·.pty.fault) hafter
  rw [after, Errand.fault_upon]
  cases ha : st.errand e with
  | fault f =>
    cases f with
    | none => rfl
    | some fault => exact absurd (eq_fault_of_errand ha) (he fault)
  | _ => exact hf

/-- A process runs until it is told to have ended, in any run. -/
theorem running_step (H : ∀ t, st.host.terminal = some t → t.running = t.exitCode.isNone)
    (env : Environment) (e : Event) (u : Terminal)
    (hu : (st.step env e).host.terminal = some u) : u.running = u.exitCode.isNone := by
  cases ht : st.host.terminal with
  | some t =>
    obtain ⟨v, hv, hafter⟩ := step_of_some ht env e
    obtain rfl : v = u := Option.some.inj (hv.symm.trans hu)
    have alone : t.alone.running = t.alone.exitCode.isNone := H t ht
    have kept := ((st.errand e).running_upon alone).2
    rw [← hafter] at kept
    exact kept
  | none =>
    obtain ⟨hfree, -⟩ | ⟨g, repo, pid, v, -, -, hv, hafter⟩ := step_of_none ht env e
    · rw [hfree] at hu
      cases hu
    · obtain rfl : v = u := Option.some.inj (hv.symm.trans hu)
      have running : v.running = true := congrArg Terminal.running hafter
      have exitCode : v.exitCode = none := congrArg Terminal.exitCode hafter
      rw [running, exitCode]
      rfl

/-- A terminal is typed to, resized and ended as an event asks. -/
theorem step_pty (ht : st.host.terminal = some t) (hrunning : t.running = t.exitCode.isNone)
    (hf : t.pty.fault = none) (env : Environment) (e : Event) :
    ∃ u, (st.step env e).host.terminal = some u
      ∧ u.pty.input = t.pty.input ++ (if st.isRunning then (st.errand e).typed else [])
      ∧ u.pty.size = ((st.errand e).size?.map Geometry.resolve).getD t.pty.size
      ∧ u.running = (t.running && !(st.errand e).isExit)
      ∧ u.running = u.exitCode.isNone := by
  obtain ⟨u, hu, hafter⟩ := step_of_some ht env e
  have alone : t.alone.running = t.alone.exitCode.isNone := hrunning
  have sound : t.alone.pty.fault = none := hf
  have pty := (st.errand e).pty_upon sound
  have running := (st.errand e).running_upon alone
  rw [← hafter] at pty running
  have same : st.isRunning = t.running := by rw [isRunning, ht, Option.any_some]
  rw [same]
  exact ⟨u, hu, pty.1, pty.2, running.1, running.2⟩

/-- From the time when there is a terminal, it has what is typed and the last size granted. -/
theorem play_of_some {g : Geometry} (ht : st.host.terminal = some t)
    (hrunning : t.running = t.exitCode.isNone) (hf : t.pty.fault = none)
    (hsize : t.pty.size = g.resolve) {events : List (Environment × Event)}
    (hevents : Reliable events) :
    ∃ u, (st.play events).host.terminal = some u
      ∧ u.pty.input = t.pty.input ++ st.typed events
      ∧ u.running = (t.running && !st.ends events)
      ∧ u.pty.fault = none
      ∧ ∃ last, (g :: st.sizes events).getLast? = some last ∧ u.pty.size = last.resolve := by
  -- `g` is the last size granted so far, so that there always is a last one.
  induction events generalizing st t g with
  | nil => exact ⟨t, ht, by simp [typed], by simp [ends], hf, g, rfl, hsize⟩
  | cons e events ih =>
    obtain ⟨u, hu, input, size, running, tracked⟩ := step_pty ht hrunning hf e.1 e.2
    have fault := fault_step ht hf e.1 (hevents e List.mem_cons_self) hu
    have next : ∃ g', (g :: st.sizes (e :: events)).getLast? =
          (g' :: (st.step e.1 e.2).sizes events).getLast? ∧ u.pty.size = g'.resolve := by
      cases ha : (st.errand e.2).size? with
      | none =>
        rw [ha] at size
        refine ⟨g, ?_, size.trans hsize⟩
        simp [sizes, ha]
      | some g' =>
        rw [ha] at size
        refine ⟨g', ?_, size⟩
        simp [sizes, ha, grants_size ht hf ha]
    obtain ⟨g', last, size⟩ := next
    obtain ⟨v, hv, vinput, vrunning, vfault, vlast⟩ := ih hu tracked fault size hevents.tail
    refine ⟨v, hv, ?_, ?_, vfault, by rwa [last]⟩
    · rw [vinput, input, typed, List.append_assoc]
    · rw [vrunning, running, ends, ht, Option.isSome_some, Bool.true_and, Bool.not_or,
        Bool.and_assoc]

/-- Until there is a terminal, nothing is typed, ended or resized. -/
theorem play_of_none (hn : st.host.terminal = none) {events : List (Environment × Event)}
    (hevents : Reliable events) :
    ((st.play events).host.terminal = none
        ∧ st.typed events = [] ∧ st.sizes events = [] ∧ st.ends events = false)
      ∨ ∃ u, (st.play events).host.terminal = some u
        ∧ u.pty.input = st.typed events
        ∧ u.running = !st.ends events
        ∧ u.pty.fault = none
        ∧ ∃ last, (st.sizes events).getLast? = some last ∧ u.pty.size = last.resolve := by
  induction events generalizing st with
  | nil => exact .inl ⟨hn, rfl, rfl, rfl⟩
  | cons e events ih =>
    have idle : st.isRunning = false := by rw [isRunning, hn, Option.any_none]
    have typed : st.typed (e :: events) = (st.step e.1 e.2).typed events := by
      simp [Station.typed, idle]
    have ends : st.ends (e :: events) = (st.step e.1 e.2).ends events := by
      simp [Station.ends, hn]
    rw [typed, ends]
    obtain ⟨hfree, hfailed⟩ | ⟨g, repo, pid, u, he, hs, hu, hafter⟩ := step_of_none hn e.1 e.2
    · have sizes : st.sizes (e :: events) = (st.step e.1 e.2).sizes events := by
        cases ha : (st.errand e.2).size? with
        | none => simp [Station.sizes, ha]
        | some g => simp [Station.sizes, not_grants_of_none hn ha hfailed]
      rw [sizes]
      exact ih hfree hevents.tail
    · right
      have sizes : st.sizes (e :: events) = g :: (st.step e.1 e.2).sizes events := by
        simp only [Station.sizes, he, grants, establish_of_spawned hn hs]
        rfl
      have input : u.pty.input = [] := congrArg (·.pty.input) hafter
      have running : u.running = true := congrArg Terminal.running hafter
      have exitCode : u.exitCode = none := congrArg Terminal.exitCode hafter
      have size : u.pty.size = g.resolve := congrArg (·.pty.size) hafter
      have fault : u.pty.fault = none := congrArg (·.pty.fault) hafter
      obtain ⟨v, hv, vinput, vrunning, vfault, vlast⟩ :=
        play_of_some hu (by rw [running, exitCode]; rfl) fault size hevents.tail
      rw [input, List.nil_append] at vinput
      rw [running, Bool.true_and] at vrunning
      rw [sizes]
      exact ⟨v, hv, vinput, vrunning, vfault, vlast⟩

/-- A process runs until its exit is recorded. -/
theorem running_play (hn : st.host.terminal = none) (events : List (Environment × Event))
    (t : Terminal) (ht : (st.play events).host.terminal = some t) :
    t.running = t.exitCode.isNone := by
  have kept (events : List (Environment × Event)) {st : Station}
      (H : ∀ t, st.host.terminal = some t → t.running = t.exitCode.isNone) :
      ∀ t, (st.play events).host.terminal = some t → t.running = t.exitCode.isNone := by
    induction events generalizing st with
    | nil => exact H
    | cons e events ih => exact ih (running_step H e.1 e.2)
  refine kept events ?_ t ht
  intro u hu
  rw [hn] at hu
  cases hu

/-- In a reliable run the operations on the pseudo-terminal succeed. -/
theorem fault?_play (hn : st.host.terminal = none) {events : List (Environment × Event)}
    (hevents : Reliable events) : (st.play events).host.fault? = none := by
  obtain ⟨hnone, -⟩ | ⟨u, hu, -, -, hfault, -⟩ := play_of_none hn hevents
  · rw [fault?, hnone, Option.bind_none]
  · rw [fault?_of_some hu, hfault]

end Station

/-- Why a host does not take a message as input. -/
def objection? (h : Host) (m : Message) : Option TerminalError :=
  match h.terminal with
  | none => some .notInitialized
  | some t =>
    match m with
    | .data _ =>
      if t.running then t.pty.fault.map fun fault => .writeFailed fault.detail
      else some .notRunning
    | .resize _ => t.pty.fault.map fun fault => .resizeFailed fault.detail
    | other => some (.unsupported other.kind)

/-- The error of a result, if it is one. -/
def errorOf {α : Type} : Except TerminalError α → Option TerminalError
  | .ok _ => none
  | .error e => some e

section Objection

variable {m : Message} {e : TerminalError}

/-- What a host says to a message is its objection. -/
theorem errorOf_write (m : Message) : errorOf (h.write m).2 = h.objection? m := by
  cases ht : h.terminal with
  | none =>
    simp only [objection?, ht, write_of_none ht]
    rfl
  | some t =>
    simp only [objection?, ht, write_of_some ht]
    cases m with
    | data payload =>
      simp only [Terminal.accept, Terminal.write]
      split
      · cases t.pty.fault <;> rfl
      · rfl
    | resize g =>
      simp only [Terminal.accept, Terminal.resize]
      cases t.pty.fault <;> rfl
    | _ => rfl

theorem write_of_taken (ho : h.objection? m = none) :
    ∃ t, h.write m = ({ h with terminal := some t }, .ok ()) := by
  have said := errorOf_write (h := h) m
  rw [ho] at said
  cases ht : h.terminal with
  | none =>
    rw [write_of_none ht] at said
    cases said
  | some t =>
    rw [write_of_some ht] at said ⊢
    cases hok : (t.accept m).2 with
    | ok => exact ⟨_, rfl⟩
    | error e =>
      rw [hok] at said
      cases said

/-- What is objected to changes nothing where the operations on the pseudo-terminal succeed. -/
theorem write_of_objection (hf : h.fault? = none) (ho : h.objection? m = some e) :
    h.write m = (h, .error e) := by
  cases ht : h.terminal with
  | none =>
    simp only [objection?, ht, Option.some.injEq] at ho
    rw [← ho]
    exact write_of_none ht m
  | some t =>
    have sound : t.pty.fault = none := (fault?_of_some ht).symm.trans hf
    simp only [objection?, ht, sound, Option.map_none] at ho
    cases m with
    | data payload =>
      cases hr : t.running with
      | true => simp [hr] at ho
      | false =>
        simp only [hr, Bool.false_eq_true, if_false, Option.some.injEq] at ho
        rw [← ho]
        exact write_data_of_not_running ht hr payload
    | resize g => cases ho
    | _ =>
      simp only [Option.some.injEq] at ho
      rw [write_of_some ht, ← ho]
      simp only [Terminal.accept, with_terminal ht]

theorem writeRead_of_objection (hf : h.fault? = none) (ho : h.objection? m = some e) :
    h.writeRead m = (h, .error e) := by
  rw [writeRead, write_of_objection hf ho]

theorem writeRead_of_taken (ho : h.objection? m = none) :
    ∃ next messages, h.writeRead m = (next, .ok messages) := by
  obtain ⟨t, ht⟩ := write_of_taken ho
  simp only [writeRead, ht, read, require]
  exact ⟨_, _, rfl⟩

end Objection

/-- What a response tells of an objection: that there is none, or its words. -/
def Tells (r : Http.Response) : Option TerminalError → Prop
  | none => r.status = 200
  | some e =>
    r.status = (Refusal.terminal e).status
      ∧ Message.decode r.content.bytes = .ok (.error e.message)

/-- Tells the peer of a stream of an objection, if there is one. -/
def Stream.tell (s : Stream) (h : Host) : Option TerminalError → Host
  | none => h
  | some e => s.reply h (.error e.message)

/-- The pseudo-terminal of a host. -/
def pty? (h : Host) : Option Pty := h.terminal.map (·.pty)

end TermLink.Host
