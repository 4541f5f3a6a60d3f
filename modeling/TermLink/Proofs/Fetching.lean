import Mathlib.Logic.Function.Basic
import TermLink.Proofs.Backlog
import TermLink.Proofs.Message.Output
import TermLink.Proofs.Terminal

/-!
# Fetching while a process prints and ends

A process prints and ends while any number of fetchers empty its backlog. No fetch tells of the exit
before all output that was stored before it has left the backlog: it was fetched, or was lost to the
ceiling.

## Implementation notes

The halves of printing and of fetching are steps of their own, and the steps of all parties may come
in any order. A party begins nothing new before it has ended what it began; an event that is not its
turn changes nothing.
-/

namespace TermLink

namespace Terminal

variable (t : Terminal) (seen : Option Int32)

theorem drain_messages :
    (t.drain seen).2 = (if t.backlog.bytes = [] then [] else [.data t.backlog.bytes])
      ++ (seen.map Message.exit).toList := rfl

/-- A fetch gives all that the backlog holds. -/
theorem payloads_drain : Message.payloads (t.drain seen).2 = t.backlog.bytes := by
  rw [drain_messages]
  cases seen <;> by_cases h : t.backlog.bytes = [] <;> simp [h, Message.payload]

/-- A fetch tells of the exit that its first half has seen. -/
theorem exit_mem_drain {code : Int32} : .exit code ∈ (t.drain seen).2 ↔ seen = some code := by
  rw [drain_messages]
  cases seen <;> by_cases h : t.backlog.bytes = [] <;> simp [h, eq_comm]

end Terminal

/-- The name of one who fetches. -/
abbrev FetcherId := Nat

/-- A fetch that has ended. -/
structure Fetch where
  fetcher : FetcherId
  messages : List Message
  deriving DecidableEq, Repr

/-- A terminal whose process prints and ends while others fetch from it. -/
structure Fetching where
  terminal : Terminal
  room : Mailroom
  /-- The output that is in the backlog and is still to go to the subscribers. -/
  printing : Option Bytes := none
  /-- What the first half of a fetch has seen, for those whose second half is still to come. -/
  seen : FetcherId → Option (Option Int32) := fun _ => none
  /-- All output that was stored, oldest byte first. -/
  stored : Bytes := []
  /-- The fetches that have ended, oldest first. -/
  fetches : List Fetch := []

namespace Fetching

/-- What can happen. -/
inductive Event where
  /-- The process prints: the output goes into the backlog. -/
  | store (chunk : Bytes)
  /-- The output goes to the subscribers. -/
  | deliver
  | exit (code : Int32)
  /-- A fetch begins by looking at the exit. -/
  | sample (p : FetcherId)
  /-- A fetch ends by emptying the backlog. -/
  | drain (p : FetcherId)
  deriving DecidableEq, Repr

/-- The code that an event reports. -/
def Event.code? : Event → Option Int32
  | .exit code => some code
  | _ => none

/-- The state after an event. -/
def step (s : Fetching) : Event → Fetching
  | .store chunk =>
    match s.printing with
    | some _ => s
    | none =>
      { s with
        terminal := s.terminal.store chunk
        printing := some chunk
        stored := s.stored ++ chunk }
  | .deliver =>
    match s.printing with
    | some chunk =>
      let (terminal, room) := s.terminal.deliver s.room chunk
      { s with terminal, room, printing := none }
    | none => s
  | .exit code =>
    let (terminal, room) := s.terminal.recordExit s.room code
    { s with terminal, room }
  | .sample p =>
    match s.seen p with
    | some _ => s
    | none => { s with seen := Function.update s.seen p (some s.terminal.sample) }
  | .drain p =>
    match s.seen p with
    | some e =>
      let (terminal, messages) := s.terminal.drain e
      { s with
        terminal
        seen := Function.update s.seen p none
        fetches := s.fetches ++ [⟨p, messages⟩] }
    | none => s

/-- The state after events in order. -/
def run (s : Fetching) (events : List Event) : Fetching := events.foldl step s

/-- A terminal before anything has happened. -/
def start (t : Terminal) (room : Mailroom) : Fetching := { terminal := t, room }

/-- All messages that one fetcher was given, oldest first. -/
def received (s : Fetching) (p : FetcherId) : List Message :=
  (s.fetches.filter fun f => f.fetcher = p).flatMap Fetch.messages

/-- What became of a byte that has left the backlog. -/
inductive Fate where
  /-- It was lost to the ceiling. -/
  | lost
  /-- It was given to the fetch with this number. -/
  | fetched (n : Nat)
  deriving DecidableEq, Repr

/-- Bytes that have left the backlog, oldest first, and what became of them. -/
abbrev Ledger := List (UInt8 × Fate)

namespace Ledger

/-- All bytes of a ledger. -/
def bytes (l : Ledger) : Bytes := l.map Prod.fst

/-- The bytes whose fate is one of those. -/
def withFate (l : Ledger) (p : Fate → Bool) : Bytes := bytes (l.filter fun e => p e.2)

/-- The ledger with more bytes, which share a fate. -/
def enter (l : Ledger) (bytes : Bytes) (fate : Fate) : Ledger := l ++ bytes.map fun b => (b, fate)

variable (l : Ledger) (more : Bytes) (fate : Fate)

theorem bytes_enter : (l.enter more fate).bytes = l.bytes ++ more := by
  simp [bytes, enter, Function.comp_def]

theorem withFate_enter (p : Fate → Bool) :
    (l.enter more fate).withFate p = l.withFate p ++ if p fate then more else [] := by
  cases h : p fate <;>
    simp [withFate, bytes, enter, List.filter_map, Function.comp_def, h]

/-- Where no byte has met a fate, all have met the others. -/
theorem withFate_not {p : Fate → Bool} (h : l.withFate p = []) :
    l.withFate (fun f => !p f) = l.bytes := by
  have others : ∀ e ∈ l, (!p e.2) = true := by
    rw [withFate, bytes, List.map_eq_nil_iff, List.filter_eq_nil_iff] at h
    intro e he
    simpa using h e he
  rw [withFate, List.filter_eq_self.mpr others]

end Ledger

/-- A ledger accounts for the output: with what the backlog holds its bytes are all that was stored,
every fetch has given the bytes that were fetched by it, and as many bytes were lost as the backlog
has counted. -/
structure Accounts (s : Fetching) (gone : Ledger) : Prop where
  stored : gone.bytes ++ s.terminal.backlog.bytes = s.stored
  fetched (n : Nat) :
    gone.withFate (fun f => f = .fetched n) =
      Message.payloads ((s.fetches[n]?.map Fetch.messages).getD [])
  inOrder :
    gone.withFate (fun f => !(f = .lost)) = Message.payloads (s.fetches.flatMap Fetch.messages)
  lost : (gone.withFate fun f => f = .lost).length = s.terminal.backlog.dropped

variable {s next : Fetching} {gone : Ledger}

/-- Only what is stored, what the backlog holds and has lost, and what was fetched matters. -/
theorem Accounts.congr (H : s.Accounts gone)
    (hbacklog : next.terminal.backlog = s.terminal.backlog) (hstored : next.stored = s.stored)
    (hfetches : next.fetches = s.fetches) : next.Accounts gone where
  stored := by rw [hbacklog, hstored, H.stored]
  fetched n := by rw [hfetches, H.fetched]
  inOrder := by rw [hfetches, H.inOrder]
  lost := by rw [hbacklog, H.lost]

/-- What is stored beyond the ceiling is lost from the front. -/
theorem Accounts.store (H : s.Accounts gone) (chunk : Bytes)
    (hbacklog : next.terminal.backlog = (s.terminal.backlog.push chunk).1)
    (hstored : next.stored = s.stored ++ chunk) (hfetches : next.fetches = s.fetches) :
    next.Accounts (gone.enter (s.terminal.backlog.overflow chunk) .lost) where
  stored := by
    rw [Ledger.bytes_enter, hbacklog, List.append_assoc, Backlog.overflow_append, hstored,
      ← H.stored, List.append_assoc]
  fetched n := by
    rw [Ledger.withFate_enter, hfetches, H.fetched]
    simp
  inOrder := by
    rw [Ledger.withFate_enter, hfetches, H.inOrder]
    simp
  lost := by
    rw [Ledger.withFate_enter, List.length_append, H.lost, hbacklog, Backlog.dropped_push]
    simp

/-- A fetch gives all that the backlog holds. -/
theorem Accounts.drain (H : s.Accounts gone) (p : FetcherId) (seen : Option Int32)
    (hbacklog : next.terminal.backlog = s.terminal.backlog.drain.1)
    (hstored : next.stored = s.stored)
    (hfetches : next.fetches = s.fetches ++ [⟨p, (s.terminal.drain seen).2⟩]) :
    next.Accounts (gone.enter s.terminal.backlog.bytes (.fetched s.fetches.length)) where
  stored := by
    have empty : next.terminal.backlog.bytes = [] := congrArg Backlog.bytes hbacklog
    rw [Ledger.bytes_enter, empty, hstored, List.append_nil, H.stored]
  fetched n := by
    have given := s.terminal.payloads_drain seen
    rw [Ledger.withFate_enter, H.fetched, hfetches]
    rcases Nat.lt_trichotomy n s.fetches.length with earlier | rfl | later
    · rw [List.getElem?_append_left earlier]
      simp [Nat.ne_of_gt earlier]
    · simp [given]
    · have none : (s.fetches ++ [⟨p, (s.terminal.drain seen).2⟩])[n]? = none := by
        rw [List.getElem?_eq_none_iff, List.length_append]
        exact later
      simp [none, Nat.ne_of_lt later, Nat.le_of_lt later]
  inOrder := by
    have given := s.terminal.payloads_drain seen
    rw [Ledger.withFate_enter, H.inOrder, hfetches]
    simp [given]
  lost := by
    rw [Ledger.withFate_enter, List.length_append, H.lost, hbacklog]
    simp [Backlog.drain]

/-- What holds of a terminal that was new when the fetching began. -/
structure Inv (s : Fetching) : Prop where
  accounts : ∃ gone, s.Accounts gone
  /-- Whoever has seen an exit has seen the one that was recorded. -/
  seen (p : FetcherId) (code : Int32) :
    s.seen p = some (some code) → s.terminal.exitCode = some code

theorem inv_start {t : Terminal} {c : Nat} (hbacklog : t.backlog = .ofCeiling c) (room : Mailroom) :
    (start t room).Inv where
  accounts := by
    refine ⟨[], ?_⟩
    constructor <;> simp [start, hbacklog, Backlog.ofCeiling, Ledger.bytes, Ledger.withFate]
  seen p code h := by cases h

/-- With nothing in between, the two halves of a fetch are one. -/
theorem fetches_sample_drain {p : FetcherId} (hp : s.seen p = none) :
    ((s.step (.sample p)).step (.drain p)).fetches = s.fetches ++ [⟨p, s.terminal.poll.2⟩] := by
  simp [step, hp, Terminal.poll]

/-- With nothing in between, the two halves of printing are one. -/
theorem terminal_store_deliver (hs : s.printing = none) (chunk : Bytes) :
    ((s.step (.store chunk)).step .deliver).terminal =
      (s.terminal.publish s.room chunk).1 := by
  simp [step, hs, Terminal.publish]

/-- What an event does, which is nothing where it is not its turn. -/
inductive Turn (s : Fetching) : Event → Fetching → Prop
  | idle {e : Event} (he : e.code? = none) : Turn s e s
  | store (chunk : Bytes) :
    Turn s (.store chunk)
      { s with
        terminal := s.terminal.store chunk
        printing := some chunk
        stored := s.stored ++ chunk }
  | deliver (chunk : Bytes) :
    Turn s .deliver
      { s with
        terminal := (s.terminal.deliver s.room chunk).1
        room := (s.terminal.deliver s.room chunk).2
        printing := none }
  | exit (code : Int32) :
    Turn s (.exit code)
      { s with
        terminal := (s.terminal.recordExit s.room code).1
        room := (s.terminal.recordExit s.room code).2 }
  | sample (p : FetcherId) :
    Turn s (.sample p) { s with seen := Function.update s.seen p (some s.terminal.exitCode) }
  | drain {p : FetcherId} {seen : Option Int32} (hseen : s.seen p = some seen) :
    Turn s (.drain p)
      { s with
        terminal := (s.terminal.drain seen).1
        seen := Function.update s.seen p none
        fetches := s.fetches ++ [⟨p, (s.terminal.drain seen).2⟩] }

theorem turn (s : Fetching) (e : Event) : s.Turn e (s.step e) := by
  cases e with
  | store chunk =>
    simp only [step]
    split
    · exact .idle rfl
    · exact .store chunk
  | deliver =>
    simp only [step]
    split
    · exact .deliver _
    · exact .idle rfl
  | exit code => exact .exit code
  | sample p =>
    simp only [step]
    split
    · exact .idle rfl
    · exact .sample p
  | drain p =>
    simp only [step]
    split
    · exact .drain ‹_›
    · exact .idle rfl

variable {e : Event}

theorem Turn.exitCode (h : s.Turn e next) :
    next.terminal.exitCode = s.terminal.exitCode.or e.code? := by
  cases h with
  | idle he => simp [he]
  | exit code => simp [Event.code?, Terminal.exitCode_recordExit]
  | store | deliver | sample | drain => simp [Terminal.store, Terminal.drain, Event.code?]

theorem Turn.stored (h : s.Turn e next) : s.stored <+: next.stored := by
  cases h with
  | store chunk => exact List.prefix_append _ _
  | idle | deliver | exit | sample | drain => exact List.prefix_refl _

/-- What is seen of the exit was seen before, or is what the terminal tells now. -/
theorem Turn.seen (h : s.Turn e next) {p : FetcherId} {seen : Option Int32}
    (hseen : next.seen p = some seen) : s.seen p = some seen ∨ seen = s.terminal.exitCode := by
  cases h with
  | sample q =>
    by_cases hp : p = q
    · simp only [hp, Function.update_self, Option.some_inj] at hseen
      exact .inr hseen.symm
    · simp only [Function.update_of_ne hp] at hseen
      exact .inl hseen
  | @drain q _ _ =>
    by_cases hp : p = q
    · simp only [hp, Function.update_self, reduceCtorEq] at hseen
    · simp only [Function.update_of_ne hp] at hseen
      exact .inl hseen
  | idle | store | deliver | exit => exact .inl hseen

/-- A fetch that has ended had ended before, or ends with what its second half gives. -/
theorem Turn.fetcher (h : s.Turn e next) {f : Fetch} (hf : f ∈ next.fetches) :
    f ∈ s.fetches ∨ e = .drain f.fetcher := by
  cases h with
  | drain hseen =>
    rcases List.mem_append.mp hf with hf | hf
    · exact .inl hf
    · rw [List.mem_singleton.mp hf]
      exact .inr rfl
  | idle | store | deliver | exit | sample => exact .inl hf

theorem Turn.accounts (h : s.Turn e next) (H : s.Accounts gone) : ∃ gone, next.Accounts gone := by
  cases h with
  | idle => exact ⟨gone, H⟩
  | store chunk => exact ⟨_, H.store chunk rfl rfl rfl⟩
  | deliver chunk => exact ⟨gone, H.congr (by simp) rfl rfl⟩
  | exit code => exact ⟨gone, H.congr (by simp) rfl rfl⟩
  | sample p => exact ⟨gone, H.congr rfl rfl rfl⟩
  | drain hseen => exact ⟨_, H.drain _ _ rfl rfl rfl⟩

theorem Turn.inv (h : s.Turn e next) (H : s.Inv) : next.Inv where
  accounts := by
    obtain ⟨gone, accounts⟩ := H.accounts
    exact h.accounts accounts
  seen p code hseen := by
    have before : s.terminal.exitCode = some code := by
      rcases h.seen hseen with hseen | hnow
      · exact H.seen p code hseen
      · exact hnow.symm
    rw [h.exitCode, before]
    rfl

theorem inv_run (H : s.Inv) (events : List Event) : (s.run events).Inv := by
  induction events generalizing s with
  | nil => exact H
  | cons e events ih => exact ih ((turn s e).inv H)

theorem exitCode_run (s : Fetching) (events : List Event) :
    (s.run events).terminal.exitCode = s.terminal.exitCode.or (events.findSome? Event.code?) := by
  induction events generalizing s with
  | nil => simp [run]
  | cons e events ih =>
    rw [run, List.foldl_cons, ← run, ih, (turn s e).exitCode, List.findSome?_cons, Option.or_assoc]
    cases e.code? <;> simp

theorem stored_prefix_run (s : Fetching) (events : List Event) :
    s.stored <+: (s.run events).stored := by
  induction events generalizing s with
  | nil => exact List.prefix_refl _
  | cons e events ih => exact (turn s e).stored.trans (ih (s.step e))

theorem run_append (s : Fetching) (before after : List Event) :
    s.run (before ++ after) = (s.run before).run after := List.foldl_append

/-- A fetch that has ended had ended before, or has taken its second half on the way. -/
theorem fetcher_run (s : Fetching) (events : List Event) {f : Fetch}
    (hf : f ∈ (s.run events).fetches) : f ∈ s.fetches ∨ .drain f.fetcher ∈ events := by
  induction events generalizing s with
  | nil => exact .inl hf
  | cons e events ih =>
    rcases ih (s.step e) hf with hf | hlater
    · rcases (turn s e).fetcher hf with hf | rfl
      · exact .inl hf
      · exact .inr List.mem_cons_self
    · exact .inr (List.mem_cons_of_mem _ hlater)

/-- If one fetcher alone fetches and nothing is lost, it has been given all that has left the
backlog. -/
theorem Accounts.payloads_received (H : s.Accounts gone) {p : FetcherId}
    (halone : ∀ f ∈ s.fetches, f.fetcher = p) (hlost : s.terminal.backlog.dropped = 0) :
    Message.payloads (s.received p) = gone.bytes := by
  have all : s.fetches.filter (fun f => f.fetcher = p) = s.fetches := by
    rw [List.filter_eq_self]
    simpa using halone
  have lost : gone.withFate (fun f => f = .lost) = [] := by
    rw [← List.length_eq_zero_iff, H.lost, hlost]
  rw [received, all, ← H.inOrder, gone.withFate_not lost]

/-- A fetch that ends gives what its second half finds, with the exit that its first half has seen,
and leaves nothing in the backlog. -/
theorem seen_of_drain {p : FetcherId} {messages : List Message}
    (hfetch : (s.step (.drain p)).fetches = s.fetches ++ [⟨p, messages⟩]) :
    ∃ seen, s.seen p = some seen ∧ messages = (s.terminal.drain seen).2
      ∧ (s.step (.drain p)).terminal.backlog.bytes = [] := by
  cases hseen : s.seen p with
  | none => simp [step, hseen] at hfetch
  | some seen =>
    simp only [step, hseen, List.append_cancel_left_eq, List.cons.injEq, Fetch.mk.injEq,
      true_and, and_true] at hfetch ⊢
    exact ⟨seen, rfl, hfetch.symm, rfl⟩

/-- No fetch tells of the exit before all output that was stored before it has left the backlog: it
was given to this fetch or an earlier one, or was lost to the ceiling. If nobody else has fetched
and nothing was lost, the fetcher has been given all of it. -/
theorem exit_after_output {t : Terminal} {c : Nat} (hbacklog : t.backlog = .ofCeiling c)
    (hexit : t.exitCode = none) (room : Mailroom) (events : List Event) {p : FetcherId}
    {messages : List Message} {code : Int32}
    (hfetch : (((start t room).run events).step (.drain p)).fetches =
      ((start t room).run events).fetches ++ [⟨p, messages⟩])
    (hcode : .exit code ∈ messages) :
    let last := ((start t room).run events).step (.drain p)
    ∃ before after, events = before ++ .exit code :: after ∧ (∀ e ∈ before, e.code? = none)
      ∧ (∃ gone, last.Accounts gone ∧ ((start t room).run before).stored <+: gone.bytes)
      ∧ ((∀ q, .drain q ∈ events → q = p) → last.terminal.backlog.dropped = 0 →
        ((start t room).run before).stored <+: Message.payloads (last.received p)) := by
  intro last
  have inv : ((start t room).run events).Inv := inv_run (inv_start hbacklog room) events
  -- The first half of the fetch has seen the exit, so it had been recorded by then.
  obtain ⟨seen, hseen, rfl, empty⟩ := seen_of_drain hfetch
  have recorded : events.findSome? Event.code? = some code := by
    have seen_exit : seen = some code := (Terminal.exit_mem_drain _ seen).mp hcode
    have now := inv.seen p code (seen_exit ▸ hseen)
    rw [exitCode_run, start, hexit] at now
    exact now
  obtain ⟨before, e, after, rfl, he, hbefore⟩ := List.findSome?_eq_some_iff.mp recorded
  obtain rfl : e = .exit code := by
    cases e with
    | exit c => exact congrArg Event.exit (Option.some.inj he)
    | store | deliver | sample | drain => cases he
  obtain ⟨gone, accounts⟩ : ∃ gone, last.Accounts gone := ((turn _ _).inv inv).accounts
  have due : ((start t room).run before).stored <+: gone.bytes := by
    have all : gone.bytes = last.stored := by
      rw [← accounts.stored, empty, List.append_nil]
    rw [all]
    have earlier := stored_prefix_run ((start t room).run before) (.exit code :: after)
    rw [← run_append] at earlier
    exact earlier.trans (turn _ _).stored
  refine ⟨before, after, rfl, hbefore, ⟨gone, accounts, due⟩, ?_⟩
  intro halone hlost
  have alone : ∀ f ∈ last.fetches, f.fetcher = p := by
    intro f hf
    rcases (turn _ _).fetcher hf with hf | hf
    · rcases fetcher_run _ _ hf with hf | hf
      · cases hf
      · exact halone f.fetcher hf
    · exact (Event.drain.inj hf).symm
  rw [accounts.payloads_received alone hlost]
  exact due

theorem exit_after_output_between :
    let t : Terminal :=
      { pid := 7, workdir := "/", queueDepth := 4, pty := { size := ⟨80, 24⟩ }
        backlog := .ofCeiling 16 }
    let events := [.store [1], .sample 0, .exit 5, .drain 0, .deliver, .sample 0, .store [2]]
    let last := ((start t {}).run events).step (.drain 0)
    last.fetches = ((start t {}).run events).fetches ++ [⟨0, [.data [2], .exit 5]⟩]
      ∧ ∃ before after, events = before ++ .exit 5 :: after
        ∧ (∃ gone, last.Accounts gone ∧ ((start t {}).run before).stored <+: gone.bytes)
        ∧ ((start t {}).run before).stored <+: Message.payloads (last.received 0) := by
  intro t events last
  have fetch : last.fetches =
      ((start t {}).run events).fetches ++ [⟨0, [.data [2], .exit 5]⟩] := by decide
  have alone : ∀ q, .drain q ∈ events → q = 0 := by simp [events]
  obtain ⟨before, after, split, -, accounts, received⟩ :=
    exit_after_output (t := t) rfl rfl {} events fetch (show Message.exit 5 ∈ _ by decide)
  exact ⟨fetch, before, after, split, accounts, received alone (by decide)⟩

end Fetching
end TermLink
