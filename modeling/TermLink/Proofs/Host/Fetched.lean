import Mathlib.Data.List.Infix
import TermLink.Proofs.Host.Due
import TermLink.Proofs.Message.Output

/-!
# What fetches give

Whatever else happens at a station, a fetch gives the most recent of the output that was printed
since the fetch before, and the exit once there is one. While no more is printed between two fetches
than the ceiling allows, nothing is lost.
-/

namespace TermLink.Host

open Message (payloads)

namespace Station

/-- The messages that are fetched by an event. -/
def fetched? (st : Station) (env : Environment) : Event → Option (List Message)
  | .request r => (st.host.answer env r).2.content.messages?
  | _ => none

/-- The messages of all fetches of a run one after another. -/
def fetches (env : Environment) : Station → List Event → List Message
  | _, [] => []
  | st, e :: events => (st.fetched? env e).getD [] ++ fetches env (st.step env e) events

/-- What an event prints. -/
def Event.chunk : Event → Bytes
  | .print chunk => chunk
  | _ => []

/-- All that is printed in a run. -/
def printed (events : List Event) : Bytes := events.flatMap Event.chunk

variable {st : Station} {d : Due} {c : Nat} {o : Terminal.Output}

/-- Whether an event is one of a stream and its peer. -/
def Event.isOfStream : Event → Bool
  | .request _ | .print _ | .exit _ | .fault _ => false
  | _ => true

/-- What the streams and their peers do leaves the output as it is. -/
theorem spares_step (st : Station) (env : Environment) {e : Event} (he : e.isOfStream) :
    st.host.Spares (st.step env e).host := by
  cases e with
  | request | print | exit | fault => cases he
  | openStream => exact Stream.spares_opened _
  | frame k bytes => exact st.spares_onStream k fun s h => s.spares_receive h env bytes
  | hangUp k => exact st.spares_onStream k Stream.spares_hangUp
  | send k => exact st.spares_onStream k Stream.spares_sendNext
  | notice k => exact st.spares_onStream k Stream.spares_notice
  | stop k => exact st.spares_onStream k Stream.spares_stopWriting

/-- Where there is no terminal, an event starts it at most. -/
theorem spares_step_of_none (hn : st.host.terminal = none) (env : Environment) (e : Event) :
    st.host.Spares (st.step env e).host := by
  cases e with
  | request r => exact spares_handle_of_none hn env r
  | print chunk =>
    simp only [step, publish, onTerminal, hn]
    exact .refl _
  | exit code =>
    simp only [step, recordExit, onTerminal, hn]
    exact .refl _
  | fault fault => exact .of_terminal rfl (by simp [step, setFault, hn])
  | _ => exact st.spares_step env rfl

/-- An event fetches what is due if it is a fetch, and the output stays as due. -/
theorem held_step (ho : st.host.output? = some o) (H : d.Held c o) (env : Environment)
    (e : Event) :
    st.fetched? env e = (if d.isFetch e then some (d.messages c) else none)
      ∧ ∃ next, (st.step env e).host.output? = some next ∧ (d.next e).Held c next := by
  cases e with
  | request r =>
    have after : (st.step env (.request r)).host = (st.host.answer env r).1 := by
      rw [step, Station.request, handle_eq]
    have answered := H.answer ho env r
    rw [fetched?, after, Due.next]
    · generalize d.isFetch (.request r) = fetches at answered ⊢
      generalize st.host.answer env r = answer at answered ⊢
      cases answered with
      | fetch hmessages hnext Hnext => exact ⟨hmessages, _, hnext, Hnext⟩
      | pass hmessages hs => exact ⟨hmessages, _, hs.output_eq ho, H⟩
    all_goals simp
  | print chunk => exact ⟨rfl, H.publish ho chunk⟩
  | exit code => exact ⟨rfl, H.recordExit ho code⟩
  | fault fault => exact ⟨rfl, H.setFault ho fault⟩
  | _ => exact ⟨rfl, _, (st.spares_step env rfl).output_eq ho, H⟩

/-- The output stays as due in a run. -/
theorem held_run (ho : st.host.output? = some o) (H : d.Held c o) (env : Environment)
    (events : List Event) :
    ∃ next, (st.run env events).host.output? = some next
      ∧ (events.foldl Due.next d).Held c next := by
  induction events generalizing st d o with
  | nil => exact ⟨o, ho, H⟩
  | cons e events ih =>
    obtain ⟨-, next, hnext, Hnext⟩ := held_step ho H env e
    exact ih hnext Hnext

/-- A fetch loses nothing of what is due if the ceiling allows for it. -/
theorem payloads_messages (hd : d.since.length ≤ max c 1) : payloads (d.messages c) = d.since := by
  have whole : d.since.rtake (max c 1) = d.since := by
    rw [List.rtake, Nat.sub_eq_zero_of_le hd, List.drop_zero]
  rw [Due.messages, Due.rtake_min, whole]
  cases d.ended <;> by_cases hsince : d.since = [] <;> simp [hsince, Message.payload]

/-- While no more is due than the ceiling allows, what was fetched and what is due are all that was
printed. -/
theorem payloads_fetches (ho : st.host.output? = some o) (H : d.Held c o) (env : Environment)
    {events : List Event}
    (hevents : ∀ before, before <+: events → (before.foldl Due.next d).since.length ≤ max c 1) :
    payloads (st.fetches env events) ++ (events.foldl Due.next d).since =
      d.since ++ printed events := by
  induction events generalizing st d o with
  | nil => simp [fetches, printed]
  | cons e events ih =>
    obtain ⟨fetched, next, hnext, Hnext⟩ := held_step ho H env e
    have rest := ih hnext Hnext fun before hbefore =>
      hevents (e :: before) ((List.prefix_cons_inj e).mpr hbefore)
    have now : payloads ((st.fetched? env e).getD []) ++ (d.next e).since =
        d.since ++ e.chunk := by
      have due := payloads_messages (hevents [] List.nil_prefix)
      rw [fetched]
      by_cases hfetch : d.isFetch e
      · cases e with
        | request r => simpa [hfetch, Due.next, Event.chunk] using due
        | _ => cases hfetch
      · cases e <;> simp [hfetch, Due.next, Event.chunk]
    have all : printed (e :: events) = e.chunk ++ printed events := rfl
    rw [fetches, Message.payloads_append, List.append_assoc, List.foldl_cons, rest, all,
      ← List.append_assoc, now, List.append_assoc]

/-- A terminal starts with nothing due. From then on, whatever happens, a fetch gives the most
recent of the output since the last one, and after it the first exit; only fetches take output away;
and while no more is due than the ceiling allows, what was fetched and what is left are all that was
printed. -/
theorem fetches_recent (env : Environment) :
    (∀ (st : Station) (e : Event), st.host.terminal = none →
        (st.step env e).host.terminal = none
          ∨ (st.step env e).host.output? = some (.new st.host.backlogCeiling))
      ∧ ∀ (st : Station) (c : Nat) (events : List Event), st.host.output? = some (.new c) →
        (∀ e, (st.run env events).fetched? env e =
            if (Due.after events).isFetch e then some ((Due.after events).messages c) else none)
          ∧ ∃ t, (st.run env events).host.terminal = some t
            ∧ t.backlog.bytes =
              (Due.after events).since.rtake (min (max c 1) (Due.after events).since.length)
            ∧ ((∀ before, before <+: events → (Due.after before).since.length ≤ max c 1) →
              payloads (st.fetches env events) ++ t.backlog.bytes = printed events) := by
  refine ⟨?_, ?_⟩
  · intro st e hn
    have none : st.host.output? = none := by rw [output?, hn, Option.map_none]
    rcases (spares_step_of_none hn env e).output with same | ⟨-, new⟩
    · exact .inl (Option.map_eq_none_iff.mp (same.trans none))
    · exact .inr new
  · intro st c events hnew
    obtain ⟨o, ho, H⟩ := held_run hnew (Due.held_new c) env events
    obtain ⟨t, ht, rfl⟩ := exists_terminal ho
    have bytes : t.backlog.bytes = (Due.after events).since.rtake (max c 1) := H.bytes
    refine ⟨fun e => (held_step ho H env e).1, t, ht, ?_, ?_⟩
    · rw [bytes, Due.rtake_min]
    · intro hevents
      have last : (Due.after events).since.length ≤ max c 1 := hevents events List.prefix_rfl
      have all := payloads_fetches hnew (Due.held_new c) env hevents
      rw [bytes, List.rtake, Nat.sub_eq_zero_of_le last, List.drop_zero]
      exact all

theorem fetches_recent_trimmed :
    let env : Environment := { git := fun _ _ => .failed "", spawn := fun _ => .ok 7 }
    let h : Host := { backlogCeiling := 3, queueDepth := 1, workspace := ⟨⟨[47], ""⟩, [], []⟩ }
    let init : Event := .request { method := "POST", path := "/init" }
    let st := (Station.mk h []).step env init
    let typed := (Message.data [9]).encode
    let read : Event := .request { method := "GET", path := "/read" }
    let writeRead : Event := .request { method := "POST", path := "/write-read", body := typed }
    let fitting := [.print [1, 2], writeRead, .openStream, .print [3]]
    let events := fitting ++ [.print [4, 5, 6], .exit 2, writeRead]
    h.terminal = none ∧ st.host.output? = some (.new 3)
      ∧ (∀ before, before <+: fitting → (Due.after before).since.length ≤ 3)
      ∧ (st.run env events).fetched? env writeRead = none
      ∧ (st.run env events).fetched? env read = some [.data [4, 5, 6], .exit 2]
      ∧ ∃ t, (st.run env fitting).host.terminal = some t
        ∧ payloads (st.fetches env fitting) ++ t.backlog.bytes = [1, 2, 3] := by
  intro env h init st typed read writeRead fitting events
  have accepted (since : Bytes) : Due.isFetch { since } writeRead = true := by
    have small : typed.length ≤ Http.bodyLimit := by decide
    simp [writeRead, typed, Due.isFetch, Due.acceptsBody, Message.decode_encode, Due.accepts, small]
  have rejected (since : Bytes) : Due.isFetch { since, ended := some 2 } writeRead = false := by
    simp [writeRead, typed, Due.isFetch, Due.acceptsBody, Message.decode_encode, Due.accepts]
  have new : st.host.output? = some (.new 3) := by
    rcases (fetches_recent env).1 ⟨h, []⟩ init rfl with none | new
    · cases none
    · exact new
  have grown (d : Due) (chunk : Bytes) :
      d.next (.print chunk) = { d with since := d.since ++ chunk } := rfl
  have taken (since : Bytes) : Due.next { since } writeRead = {} := if_pos (accepted since)
  have kept (since : Bytes) :
      Due.next { since, ended := some 2 } writeRead = { since, ended := some 2 } :=
    if_neg (by simp [rejected])
  have opened (d : Due) : d.next .openStream = d := rfl
  have ended (since : Bytes) : Due.next { since } (.exit 2) = { since, ended := some 2 } := rfl
  have due : Due.after events = { since := [3, 4, 5, 6], ended := some 2 } := by
    simp only [events, fitting, Due.after, List.cons_append, List.nil_append, List.foldl_cons,
      List.foldl_nil, grown, taken, opened, ended, kept]
  have fits : ∀ before, before <+: fitting → (Due.after before).since.length ≤ 3 := by
    intro before hbefore
    have all : before ∈ fitting.inits := (List.mem_inits _ _).mpr hbefore
    simp only [fitting, List.inits, List.map_cons, List.map_nil, List.mem_cons, List.not_mem_nil,
      or_false] at all
    rcases all with rfl | rfl | rfl | rfl | rfl <;>
      simp [Due.after, grown, taken, opened]
  obtain ⟨fetched, -⟩ := (fetches_recent env).2 st 3 events new
  obtain ⟨-, t, ht, -, all⟩ := (fetches_recent env).2 st 3 fitting new
  refine ⟨rfl, new, fits, ?_, ?_, t, ht, all fits⟩
  · rw [fetched, due, rejected, if_neg Bool.false_ne_true]
  · rw [fetched, due]
    decide

end Station
end TermLink.Host
