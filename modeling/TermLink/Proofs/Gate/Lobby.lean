import Mathlib.Logic.Function.Basic
import TermLink.Proofs.Gate.Visit

/-!
# Lobbies

Any number of clients come to a gate, and the store is asked about the keys of all. No dial to the
backend names a key that the store did not vouch for, and no failure of the store turns a client
away or changes a key.

## Implementation notes

A call to the store is one step, which may fail, and the steps of all clients may come in any order.
-/

namespace TermLink.Gate

/-- The name of a client that has come. -/
abbrev VisitId := Nat

/-- The clients that have come to a gate, and the keys in the store. -/
structure Lobby where
  keys : Keyring
  visits : VisitId → Visit := fun _ => {}

namespace Lobby

variable {autoRegister : Bool} {backend : Backend} {s : Lobby}

/-- The state after something has happened to a client. -/
def step (autoRegister : Bool) (backend : Backend) (s : Lobby) (e : VisitId × Visit.Event) :
    Lobby :=
  let (visit, keys) := (s.visits e.1).step autoRegister backend s.keys e.2
  { keys, visits := Function.update s.visits e.1 visit }

/-- The state after events in order. -/
def run (autoRegister : Bool) (backend : Backend) (s : Lobby)
    (events : List (VisitId × Visit.Event)) : Lobby :=
  events.foldl (step autoRegister backend) s

theorem sound_step (h : ∀ v, (s.visits v).Sound autoRegister) (e : VisitId × Visit.Event)
    (v : VisitId) : ((step autoRegister backend s e).visits v).Sound autoRegister := by
  obtain ⟨w, e⟩ := e
  by_cases hv : v = w
  · subst hv
    simpa only [step, Function.update_self] using (h v).step backend s.keys e
  · simpa only [step, Function.update_of_ne hv] using h v

theorem sound_run (h : ∀ v, (s.visits v).Sound autoRegister)
    (events : List (VisitId × Visit.Event)) (v : VisitId) :
    ((run autoRegister backend s events).visits v).Sound autoRegister := by
  induction events generalizing s with
  | nil => exact h v
  | cons e rest ih => exact ih (sound_step h e)

/-- Whatever clients do and whichever calls to the store fail: a dial names the key with which its
client was admitted, and the store has vouched for that key; after a failure of the look-up or the
registration the client is admitted, but gets only the word that its key could not be verified; an
unknown key is rejected if the gate registers none; a failed record of the use does not matter. The
keys change for a decision only if the store vouches for its key. -/
theorem dials_vouched (autoRegister : Bool) (backend : Backend) (keys : Keyring)
    (events : List (VisitId × Visit.Event)) (v : VisitId) :
    let s := run autoRegister backend { keys } events
    let visit := s.visits v
    (∀ d ∈ visit.dials, ∃ h ∈ visit.heard, ∃ verdict, h.stage = .decided verdict
        ∧ visit.identity = some (h.key.fingerprint, verdict)
        ∧ d.headers.first? SessionInfo.idField =
          some ⟨SessionInfo.idField, Utf8.encode h.key.fingerprint⟩
        ∧ Admission.Vouched h.findings)
      ∧ (∀ e ∈ visit.client.sessions, Visit.StreamsBy visit.dials e.2)
      ∧ (∀ h ∈ visit.hearings, .failed ∈ h.findings →
        h.stage = .decided .indeterminate ∧ h.changed = false
          ∧ visit.identity = some (h.key.fingerprint, .indeterminate)
          ∧ visit.dials = [] ∧ ∀ e ∈ visit.client.sessions, e.2.status? = some 3)
      ∧ (autoRegister = false → ∀ h ∈ visit.hearings, .looked false ∈ h.findings →
        h.stage = .decided .rejected ∧ h.changed = false)
      ∧ ∀ h verdict now now', visit.hearing = some h → h.stage = .use verdict →
        let failed := step autoRegister backend s (v, .consult now true)
        failed.keys = s.keys
          ∧ (failed.visits v).identity = some (h.key.fingerprint, verdict)
          ∧ (failed.visits v).client =
            ((step autoRegister backend s (v, .consult now' false)).visits v).client := by
  intro s visit
  have sound : visit.Sound autoRegister := sound_run (fun _ => Visit.sound_empty _) events v
  refine ⟨fun d hd => sound.vouched hd, sound.streamed, fun h hh hf => sound.of_failed hh hf,
    fun hauto h hh hf => ?_, fun h verdict now now' hh hstage => ?_⟩
  · subst hauto
    exact sound.of_unknown hh hf
  · obtain ⟨hkeys, hid, hclient⟩ := sound.of_use hh hstage now now' s.keys
    simp only [step, Function.update_self]
    exact ⟨hkeys, hid, hclient⟩

/-- The gate registers no keys. The first client's key is known, and a session is opened for it; the
look-up of the second client's key fails; the third client's key is unknown. -/
theorem dials_vouched_of_three :
    let backend : Backend := { url := "ws://backend" }
    let key : ClientKey := ⟨"known", [1]⟩
    let keys : Keyring := ⟨[{ fingerprint := "known", publicKey := [1], createdAt := 5 }]⟩
    let session (v : VisitId) : List (VisitId × Visit.Event) :=
      [(v, .call 7 .openChannel .opened), (v, .call 7 (.terminal ⟨80, 24⟩) .opened),
        (v, .call 7 .shell .opened)]
    let events : List (VisitId × Visit.Event) :=
      [(0, .offer key), (1, .offer key), (2, .offer ⟨"new", [2]⟩), (0, .consult 10 false),
        (1, .consult 11 true), (2, .consult 12 false), (0, .consult 13 true)]
        ++ session 0 ++ session 1
    let s := run false backend { keys } events
    (∃ d ∈ (s.visits 0).dials, ∃ h ∈ (s.visits 0).heard, Admission.Vouched h.findings
        ∧ d.headers.first? SessionInfo.idField =
          some ⟨SessionInfo.idField, Utf8.encode h.key.fingerprint⟩)
      ∧ (s.visits 1).dials = []
      ∧ (s.visits 1).client.sessions.map (fun e => e.2.status?) = [some 3]
      ∧ ∃ h ∈ (s.visits 2).hearings, h.stage = .decided .rejected ∧ h.changed = false := by
  intro backend key keys session events s
  obtain ⟨vouched, -⟩ := dials_vouched false backend keys events 0
  obtain ⟨-, -, failed, -⟩ := dials_vouched false backend keys events 1
  obtain ⟨-, -, -, unknown, -⟩ := dials_vouched false backend keys events 2
  refine ⟨?_, ?_, ?_, ?_⟩
  · obtain ⟨d, hd⟩ : ∃ d, d ∈ (s.visits 0).dials :=
      List.exists_mem_of_length_pos (by decide)
    obtain ⟨h, hh, -, -, -, hfirst, hfound⟩ := vouched d hd
    exact ⟨d, hd, h, hh, hfound, hfirst⟩
  · have heard : (⟨key, .decided .indeterminate, [.failed], false⟩ : Hearing) ∈
        (s.visits 1).hearings := by decide
    exact (failed _ heard (by decide)).2.2.2.1
  · decide
  · have heard : (⟨⟨"new", [2]⟩, .decided .rejected, [.looked false], false⟩ : Hearing) ∈
        (s.visits 2).hearings := by decide
    exact ⟨_, heard, unknown rfl _ heard (by decide)⟩

end Lobby

end TermLink.Gate
