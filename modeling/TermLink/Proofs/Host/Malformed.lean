import TermLink.Proofs.Host.Errand
import TermLink.Proofs.Message.Malformed

/-!
# The count of malformed frames

A host counts the frames that were no messages, and reports the count. Nothing else depends on it.
-/

namespace TermLink.Host

/-- A host with another count of malformed frames. -/
def counting (h : Host) (n : Nat) : Host := { h with malformed := n }

/-- A result at a host with another count. -/
def counted {α : Type} (n : Nat) (result : Host × α) : Host × α := (result.1.counting n, result.2)

section Requests

variable (h : Host) (n : Nat)

theorem establish_counting (env : Environment) (g : Geometry) (repo : Option String) :
    (h.counting n).establish env g repo = counted n (h.establish env g repo) := by
  cases ht : h.terminal with
  | some t =>
    have there : (h.counting n).terminal = some t := ht
    rw [establish_of_some there, establish_of_some ht]
    rfl
  | none =>
    simp only [establish, counting, ht, start]
    split <;> rfl

theorem write_counting (m : Message) : (h.counting n).write m = counted n (h.write m) := by
  have same : (h.counting n).require = h.require := rfl
  simp only [write, same]
  split <;> rfl

theorem read_counting : (h.counting n).read = counted n h.read := by
  have same : (h.counting n).require = h.require := rfl
  simp only [read, same]
  split <;> rfl

theorem resize_counting (g : Geometry) : (h.counting n).resize g = counted n (h.resize g) := by
  have same : (h.counting n).require = h.require := rfl
  simp only [resize, same]
  split <;> rfl

theorem writeRead_counting (m : Message) :
    (h.counting n).writeRead m = counted n (h.writeRead m) := by
  simp only [writeRead, write_counting, counted]
  split
  · next heq =>
    cases hw : h.write m with
    | mk next result =>
      rw [hw] at heq
      cases heq
      exact read_counting _ n
  · next heq =>
    cases hw : h.write m with
    | mk next result =>
      rw [hw] at heq
      cases heq
      rfl

theorem onTerminal_counting (f : Terminal → Mailroom → Terminal × Mailroom) :
    (h.counting n).onTerminal f = (h.onTerminal f).counting n := by
  cases ht : h.terminal <;> simp [onTerminal, counting, ht]

theorem respond_counted {α : Type} (content : α → Http.Content)
    (result : Host × Except TerminalError α) :
    respond content (counted n result) = counted n (respond content result) := by
  obtain ⟨next, e | a⟩ := result <;> rfl

/-- Only the report of the counts tells of the count. -/
theorem serve_counting (env : Environment) (metrics : Bool) (r : Http.Request) {route : Route}
    (hroute : route ≠ .metrics) :
    (h.counting n).serve env metrics r route = counted n (h.serve env metrics r route) := by
  cases route with
  | init =>
    simp only [serve, postInit]
    split
    · rw [establish_counting, respond_counted]
    · rfl
  | write =>
    simp only [serve, postWrite]
    split
    · rw [write_counting, respond_counted]
    · rfl
  | read => simp only [serve, getRead, read_counting, respond_counted]
  | writeRead =>
    simp only [serve, postWriteRead]
    split
    · rw [writeRead_counting, respond_counted]
    · rfl
  | resize =>
    simp only [serve, postResize]
    split
    · rw [resize_counting, respond_counted]
    · rfl
  | metrics => exact absurd rfl hroute
  | health | status | stream => rfl

theorem handle_counting (env : Environment) {r : Http.Request}
    (hpath : r.path ≠ Route.metrics.path) :
    (h.counting n).handle env true r = counted n (h.handle env true r) := by
  simp only [handle]
  split
  · rfl
  · next route hroute =>
    have other : route ≠ .metrics := by
      rintro rfl
      have found := List.find?_some hroute
      exact hpath (of_decide_eq_true found).symm
    split
    · simp only [handleRoute, serve_counting h n env true r other]
      split <;> rfl
    · rfl

theorem perform_counting (env : Environment) (a : Errand) :
    (h.counting n).perform env a = (h.perform env a).counting n := by
  cases a with
  | nothing => rfl
  | terminal g repo => exact congrArg Prod.fst (h.establish_counting n env g repo)
  | input m => exact congrArg Prod.fst (h.write_counting n m)
  | exchange m => exact congrArg Prod.fst (h.writeRead_counting n m)
  | output => exact congrArg Prod.fst (h.read_counting n)
  | size g => exact congrArg Prod.fst (h.resize_counting n g)
  | print chunk => exact h.onTerminal_counting n fun t room => t.publish room chunk
  | exit code => exact h.onTerminal_counting n fun t room => t.recordExit room code
  | fault => rfl

end Requests

namespace Stream

variable (s : Stream) (h : Host) (n : Nat)

theorem attach_counting : s.attach (h.counting n) = counted n (s.attach h) := by
  simp only [attach]
  split
  · rfl
  · cases ht : h.terminal <;> simp [attach?, counting, counted, ht]

theorem opened_counting : opened (h.counting n) = counted n (opened h) :=
  attach_counting { mailbox := (h.room.create h.queueDepth).2 }
    { h with room := (h.room.create h.queueDepth).1 } n

theorem endReading_counting : s.endReading (h.counting n) = counted n (s.endReading h) := by
  simp only [endReading]
  split <;> rfl

theorem establish_counting (env : Environment) (g : Geometry) (repo : Option String) :
    s.establish (h.counting n) env g repo = counted n (s.establish h env g repo) := by
  simp only [establish, h.establish_counting n]
  cases h.establish env g repo with
  | mk next result =>
    cases result with
    | ok started =>
      simp only [counted]
      cases started.warning with
      | some w => exact s.attach_counting (s.reply next (.status w.message)) n
      | none => exact s.attach_counting next n
    | error e => rfl

theorem input_counting (m : Message) : s.input (h.counting n) m = counted n (s.input h m) := by
  simp only [input, attach_counting, counted]
  cases s.attach h with
  | mk next s =>
    simp only [next.write_counting n]
    cases next.write m with
    | mk last result => cases result <;> rfl

theorem act_counting (env : Environment) (m : Message) :
    s.act (h.counting n) env m = counted n (s.act h env m) := by
  cases m with
  | init g repo => exact s.establish_counting h n env g repo
  | data payload => exact s.input_counting h n _
  | resize g => exact s.input_counting h n _
  | exit code => exact s.endReading_counting h n
  | ping | pong | error | status => rfl

theorem hangUp_counting : s.hangUp (h.counting n) = counted n (s.hangUp h) := by
  simp only [hangUp]
  split
  · exact s.endReading_counting h n
  · rfl

theorem notice_counting : s.notice (h.counting n) = counted n (s.notice h) := by
  have same : s.isEvicted (h.counting n) = s.isEvicted h := rfl
  simp only [notice, same]
  split
  · exact s.endReading_counting h n
  · rfl

theorem sendNext_counting : s.sendNext (h.counting n) = counted n (s.sendNext h) := by
  have same : (h.counting n).room = h.room := rfl
  simp only [sendNext, same]
  split
  · split
    · split <;> rfl
    · rfl
  · rfl

theorem stopWriting_counting : s.stopWriting (h.counting n) = counted n (s.stopWriting h) := by
  simp only [stopWriting]
  split <;> rfl

end Stream

namespace Station

/-- Two stations differ in the count of malformed frames at most. -/
def Like (st other : Station) : Prop :=
  other.streams = st.streams ∧ ∃ n, other.host = st.host.counting n

/-- Whether an event is a frame that is no message. -/
def Event.isMalformed : Event → Bool
  | .frame _ bytes => Message.malformed bytes
  | _ => false

variable {st other : Station}

theorem like_refl (st : Station) : st.Like st := ⟨rfl, st.host.malformed, rfl⟩

theorem Like.symm (H : st.Like other) : other.Like st := by
  obtain ⟨hstreams, n, hhost⟩ := H
  exact ⟨hstreams.symm, st.host.malformed, by rw [hhost]; rfl⟩

theorem Like.trans {last : Station} (H : st.Like other) (H' : other.Like last) : st.Like last := by
  obtain ⟨hstreams, n, hhost⟩ := H
  obtain ⟨hstreams', m, hhost'⟩ := H'
  exact ⟨hstreams'.trans hstreams, m, by rw [hhost', hhost]; rfl⟩

theorem Like.onStream (H : st.Like other) {k : Nat} {f : Stream → Host → Host × Stream}
    (hf : ∀ s h n, f s (counting h n) = counted n (f s h)) :
    (st.onStream k f).Like (other.onStream k f) := by
  obtain ⟨hstreams, n, hhost⟩ := H
  simp only [Station.onStream, hstreams, hhost]
  split
  · simp only [hf]
    exact ⟨rfl, n, rfl⟩
  · exact ⟨hstreams, n, hhost⟩

/-- A frame that is no message is counted at most. -/
theorem Like.malformed (H : st.Like other) (env : Environment) {e : Event} (he : e.isMalformed) :
    st.Like (other.step env e) := by
  obtain ⟨hstreams, n, hhost⟩ := H
  cases e with
  | frame k bytes =>
    obtain ⟨cause, hm⟩ := Message.exists_error he
    simp only [step, Station.onStream, Stream.receive, hm]
    split
    · next s hs =>
      have same : other.streams.set k s = other.streams := by
        obtain ⟨hk, rfl⟩ := List.getElem?_eq_some_iff.mp hs
        exact List.set_getElem_self hk
      split
      · refine ⟨same.trans hstreams, other.host.malformed + 1, ?_⟩
        rw [hhost]
        rfl
      · exact ⟨same.trans hstreams, n, hhost⟩
    · exact ⟨hstreams, n, hhost⟩
  | _ => cases he

/-- Whatever happens does the same at both. -/
theorem Like.step (H : st.Like other) (env : Environment) (e : Event) :
    (st.step env e).Like (other.step env e) := by
  have after (a : Errand) : ∃ n, other.host.perform env a = (st.host.perform env a).counting n := by
    obtain ⟨-, n, hhost⟩ := H
    exact ⟨n, by rw [hhost, perform_counting]⟩
  cases e with
  | request r =>
    obtain ⟨n, hafter⟩ := after (errandOf r)
    rw [← handle_fst _ env true r, ← handle_fst _ env true r] at hafter
    exact ⟨H.1, n, hafter⟩
  | openStream =>
    obtain ⟨hstreams, n, hhost⟩ := H
    simp only [Station.step, hstreams, hhost, Stream.opened_counting]
    exact ⟨rfl, n, rfl⟩
  | frame k bytes =>
    cases hm : Message.decode bytes with
    | ok m =>
      apply H.onStream
      intro s h n
      simp only [Stream.receive, hm]
      split
      · exact s.act_counting h n env m
      · rfl
    | error cause =>
      -- Both drop the frame, and each may count it or not.
      have malformed : (Event.frame k bytes).isMalformed := Message.malformed_of_error hm
      exact ((like_refl st).malformed env malformed).symm.trans (H.malformed env malformed)
  | hangUp k => exact H.onStream Stream.hangUp_counting
  | send k => exact H.onStream Stream.sendNext_counting
  | notice k => exact H.onStream Stream.notice_counting
  | stop k => exact H.onStream Stream.stopWriting_counting
  | print chunk => exact ⟨H.1, after (.print chunk)⟩
  | exit code => exact ⟨H.1, after (.exit code)⟩
  | fault f => exact ⟨H.1, after (.fault f)⟩

/-- Frames that are no messages make a difference to the count only. -/
theorem like_play (H : st.Like other) {events noisy : List (Environment × Event)}
    (hnoisy : Scattered (fun e => e.2.isMalformed) events noisy) :
    (st.play events).Like (other.play noisy) := by
  apply hnoisy.foldl_rel
  · intro st other e H
    exact H.step e.1 e.2
  · intro st other e he H
    exact H.malformed e.1 he
  · exact H

end Station
end TermLink.Host
