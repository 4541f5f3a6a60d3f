import TermLink.Proofs.Gate.Admission
import TermLink.Proofs.Keyring.Table

/-!
# Stores as directories

A file of keys answers every request as a finite map from fingerprints to entries would, whatever
the requests and whenever the file is closed and opened again.
-/

namespace TermLink.Gate

open Keyring

/-- What a store of keys can be asked. -/
inductive StoreRequest where
  | knows (f : String)
  | register (f : String) (publicKey : Bytes)
  | touch (f : String)
  | count
  | get (f : String)
  | list
  | remove (f : String)
  | authorize (autoRegister : Bool) (key : ClientKey)
  | close
  | reopen
  deriving DecidableEq, Repr

/-- What a store answers. -/
inductive StoreAnswer where
  | known (b : Bool)
  | registration (r : Registration)
  | done
  | size (n : Nat)
  | record (r : Option KeyRecord)
  | records (rs : List KeyRecord)
  | removed (b : Bool)
  | verdict (v : Verdict)
  | failed (e : StoreError)
  deriving DecidableEq, Repr

/-- The answer with what a store tells. -/
def StoreAnswer.of {α : Type} (answer : α → StoreAnswer) : Except StoreError α → StoreAnswer
  | .ok a => answer a
  | .error e => .failed e

/-- A store answers a request. -/
def serve (s : Store) (now : Instant) : StoreRequest → Store × StoreAnswer
  | .knows f => (s, .of (fun k => .known (k.contains f)) s.read)
  | .register f key => (s.change fun k => k.register f key now).map id (.of .registration)
  | .touch f => (s.change fun k => (k.touch f now, ())).map id (.of fun _ => .done)
  | .count => (s, .of (fun k => .size k.size) s.read)
  | .get f => (s, .of (fun k => .record (k.get? f)) s.read)
  | .list => (s, .of (fun k => .records k.list) s.read)
  | .remove f => (s.change fun k => k.remove f).map id (.of .removed)
  | .authorize autoRegister key =>
    let (verdict, s) := Admission.decide autoRegister key now s
    (s, .verdict verdict)
  | .close => (s.close, .done)
  | .reopen => (s.reopen, .done)

/-- A store answers requests in order. -/
def serveAll (s : Store) : List (Instant × StoreRequest) → Store × List StoreAnswer
  | [] => (s, [])
  | (now, r) :: rest =>
    let (s, answer) := serve s now r
    let (last, answers) := serveAll s rest
    (last, answer :: answers)

/-- A table of entries that can be closed. -/
structure Directory where
  rows : Table
  isOpen : Bool := true

namespace Directory

/-- The rows after a request to an open directory. -/
def rowsAfter (t : Table) (now : Instant) : StoreRequest → Table
  | .register f key => if f ∈ t then t else t.insert f ⟨key, now, none⟩
  | .touch f => t.use f now
  | .remove f => t.erase f
  | .authorize autoRegister key =>
    if key.fingerprint ∈ t then t.use key.fingerprint now
    else if autoRegister then t.insert key.fingerprint ⟨key.publicKey, now, some now⟩
    else t
  | .knows _ | .count | .get _ | .list | .close | .reopen => t

/-- The directory after a request. -/
def next (d : Directory) (now : Instant) (r : StoreRequest) : Directory :=
  match r with
  | .close => { d with isOpen := false }
  | .reopen => { d with isOpen := true }
  | r => if d.isOpen then { d with rows := rowsAfter d.rows now r } else d

/-- Whether an answer is what the rows of an open directory tell. -/
def Tells (t : Table) : StoreRequest → StoreAnswer → Prop
  | .knows f, a => a = .known (f ∈ t)
  | .register f _, a => a = .registration (if f ∈ t then .present else .created)
  | .touch _, a => a = .done
  | .count, a => a = .size t.keys.card
  | .get f, a => a = .record ((t.lookup f).map (Entry.record f))
  | .list, a => ∃ rs, a = .records rs ∧ t.Lists rs
  | .remove f, a => a = .removed (f ∈ t)
  | .authorize autoRegister key, a =>
    a = .verdict (if key.fingerprint ∈ t then .accepted
      else if autoRegister then .registered else .rejected)
  | .close, a | .reopen, a => a = .done

/-- What a closed directory answers: it can be closed and reopened, and all else fails. -/
def closedAnswer : StoreRequest → StoreAnswer
  | .authorize .. => .verdict .indeterminate
  | .close | .reopen => .done
  | _ => .failed .closed

/-- Whether an answer to a request is right. -/
def Answers (d : Directory) (r : StoreRequest) (a : StoreAnswer) : Prop :=
  if d.isOpen then Tells d.rows r a else a = closedAnswer r

/-- The directory after requests in order. -/
def run (d : Directory) (requests : List (Instant × StoreRequest)) : Directory :=
  requests.foldl (fun d r => d.next r.1 r.2) d

/-- Whether answers to requests in order are right. -/
inductive AnswersAll : Directory → List (Instant × StoreRequest) → List StoreAnswer → Prop
  | nil (d : Directory) : AnswersAll d [] []
  | cons {d : Directory} {now : Instant} {r : StoreRequest} {a : StoreAnswer}
      {rest : List (Instant × StoreRequest)} {answers : List StoreAnswer} (h : d.Answers r a)
      (hrest : AnswersAll (d.next now r) rest answers) :
      AnswersAll d ((now, r) :: rest) (a :: answers)

variable {s : Store} {d : Directory}

/-- A file of keys holds each fingerprint once and has the rows of a directory. -/
structure Kept (s : Store) (d : Directory) : Prop where
  durable : s.durable = true
  isOpen : s.isOpen = d.isOpen
  distinct : s.keys.Distinct
  rows : s.keys.table = d.rows

/-- Each decision keeps the keys as the directory keeps its rows. -/
theorem authorize_rows (autoRegister : Bool) (key : ClientKey) (now : Instant) {keys : Keyring}
    (h : keys.Distinct) :
    let (verdict, keys') := Admission.authorize autoRegister key now {} keys
    keys'.Distinct
      ∧ keys'.table = rowsAfter keys.table now (.authorize autoRegister key)
      ∧ Tells keys.table (.authorize autoRegister key) (.verdict verdict) := by
  rw [Admission.authorize_healthy]
  simp only [rowsAfter, Tells, mem_table]
  cases hc : keys.contains key.fingerprint with
  | true => exact ⟨h.touch, table_touch, rfl⟩
  | false =>
    cases autoRegister with
    | false => exact ⟨h, rfl, rfl⟩
    | true =>
      refine ⟨h.register.touch, ?_, rfl⟩
      simp only [Bool.false_eq_true, if_false, if_true, table_touch, table_register, mem_table, hc,
        Table.use, Finmap.lookup_insert]
      exact Finmap.insert_insert _

theorem Kept.serve_of_open (h : Kept s d) (hopen : d.isOpen = true) (now : Instant)
    (r : StoreRequest) :
    Kept (serve s now r).1 (d.next now r) ∧ Tells d.rows r (serve s now r).2 := by
  obtain ⟨durable, keys, isOpen⟩ := s
  obtain ⟨rows, isOpen'⟩ := d
  obtain ⟨hdurable, hisOpen, hdistinct, rfl⟩ := h
  subst hdurable hisOpen hopen
  cases r with
  | knows f =>
    refine ⟨⟨rfl, rfl, hdistinct, rfl⟩, congrArg StoreAnswer.known ?_⟩
    simp only [mem_table, Bool.decide_eq_true]
  | register f key =>
    have told : (keys.register f key now).2 = _ := registration_register
    refine ⟨⟨rfl, rfl, hdistinct.register, table_register⟩, ?_⟩
    simp only [Tells, mem_table]
    exact congrArg StoreAnswer.registration told
  | touch f => exact ⟨⟨rfl, rfl, hdistinct.touch, table_touch⟩, rfl⟩
  | count =>
    exact ⟨⟨rfl, rfl, hdistinct, rfl⟩, congrArg StoreAnswer.size hdistinct.card_table.symm⟩
  | get f =>
    exact ⟨⟨rfl, rfl, hdistinct, rfl⟩, congrArg StoreAnswer.record (get?_eq_lookup_table keys f)⟩
  | list => exact ⟨⟨rfl, rfl, hdistinct, rfl⟩, _, rfl, hdistinct.lists⟩
  | remove f =>
    refine ⟨⟨rfl, rfl, hdistinct.remove, table_remove⟩, congrArg StoreAnswer.removed ?_⟩
    simp only [mem_table, Bool.decide_eq_true]
  | authorize autoRegister key =>
    obtain ⟨distinct, rows, verdict⟩ := authorize_rows autoRegister key now hdistinct
    rw [Gate.serve, Admission.decide_of_open rfl]
    exact ⟨⟨rfl, rfl, distinct, rows⟩, verdict⟩
  | close => exact ⟨⟨rfl, rfl, hdistinct, rfl⟩, rfl⟩
  | reopen => exact ⟨⟨rfl, rfl, hdistinct, rfl⟩, rfl⟩

/-- A closed store changes only by being opened again. -/
theorem serve_of_closed (h : s.isOpen = false) (now : Instant) {r : StoreRequest}
    (hr : r ≠ .reopen) : serve s now r = (s, closedAnswer r) := by
  obtain ⟨durable, keys, isOpen⟩ := s
  subst h
  cases r with
  | reopen => exact absurd rfl hr
  | authorize autoRegister key =>
    rw [serve, Admission.decide_of_closed rfl]
    rfl
  | knows | register | touch | count | get | list | remove | close => rfl

theorem next_of_closed (h : d.isOpen = false) (now : Instant) {r : StoreRequest}
    (hr : r ≠ .reopen) : d.next now r = d := by
  obtain ⟨rows, isOpen⟩ := d
  subst h
  cases r with
  | reopen => exact absurd rfl hr
  | knows | register | touch | count | get | list | remove | authorize | close => rfl

theorem Kept.serve (h : Kept s d) (now : Instant) (r : StoreRequest) :
    Kept (serve s now r).1 (d.next now r) ∧ d.Answers r (serve s now r).2 := by
  cases hopen : d.isOpen with
  | true =>
    rw [Answers, hopen, if_pos rfl]
    exact h.serve_of_open hopen now r
  | false =>
    rw [Answers, hopen, if_neg Bool.false_ne_true]
    have closed : s.isOpen = false := h.isOpen.trans hopen
    by_cases hr : r = .reopen
    · subst hr
      have reopened : s.reopen.keys = s.keys := by rw [Store.reopen, h.durable, if_pos rfl]
      refine ⟨⟨h.durable, rfl, ?_, ?_⟩, rfl⟩
      · exact reopened.symm ▸ h.distinct
      · exact (congrArg table reopened).trans h.rows
    · rw [serve_of_closed closed now hr, next_of_closed hopen now hr]
      exact ⟨h, rfl⟩

theorem Kept.serveAll (h : Kept s d) (requests : List (Instant × StoreRequest)) :
    Kept (serveAll s requests).1 (d.run requests)
      ∧ d.AnswersAll requests (serveAll s requests).2 := by
  induction requests generalizing s d with
  | nil => exact ⟨h, .nil d⟩
  | cons request rest ih =>
    obtain ⟨now, r⟩ := request
    obtain ⟨kept, answer⟩ := h.serve now r
    obtain ⟨last, answers⟩ := ih kept
    exact ⟨last, .cons answer answers⟩

theorem serveAll_of_closed (h : s.isOpen = false) {requests : List (Instant × StoreRequest)}
    (hrequests : ∀ r ∈ requests, r.2 ≠ .reopen) :
    serveAll s requests = (s, requests.map fun r => closedAnswer r.2) := by
  induction requests with
  | nil => rfl
  | cons request rest ih =>
    obtain ⟨now, r⟩ := request
    rw [List.forall_mem_cons] at hrequests
    simp only [Gate.serveAll, serve_of_closed h now hrequests.1, ih hrequests.2, List.map_cons]

/-- Closing a store and opening it again, whatever it was asked meanwhile, leaves a file as it
was. -/
theorem reopen_after_close (hdurable : s.durable = true) {others : List (Instant × StoreRequest)}
    (hothers : ∀ r ∈ others, r.2 ≠ .reopen) (closing opening : Instant) :
    (serve (serveAll (serve s closing .close).1 others).1 opening .reopen).1 =
      { s with isOpen := true } := by
  have meanwhile : (serveAll (serve s closing .close).1 others).1 = s.close :=
    congrArg Prod.fst (serveAll_of_closed rfl hothers)
  rw [meanwhile]
  simp only [serve, Store.reopen, Store.close, hdurable, if_true]

/-- A file of keys, which holds each fingerprint once at first, answers all requests as the
directory with its rows, and holds the rows of that directory after them. While it is closed it
answers nothing and stays as it is, and when it is opened again it has the keys that it had when it
was closed. -/
theorem served_as_directory {rows : List KeyRecord}
    (h : (rows.map KeyRecord.fingerprint).Nodup) (requests : List (Instant × StoreRequest)) :
    let s : Store := { durable := true, keys := ⟨rows⟩ }
    let d : Directory := { rows := table ⟨rows⟩ }
    let last := (serveAll s requests).1
    d.AnswersAll requests (serveAll s requests).2
      ∧ last.isOpen = (d.run requests).isOpen
      ∧ (last.keys.records.map KeyRecord.fingerprint).Nodup
      ∧ (∀ f e, e.record f ∈ last.keys.records ↔ (d.run requests).rows.lookup f = some e)
      ∧ (last.isOpen = false → ∀ now r, r ≠ .reopen → serve last now r = (last, closedAnswer r))
      ∧ ∀ closing opening others, (∀ r ∈ others, r.2 ≠ .reopen) →
        (serve (serveAll (serve last closing .close).1 others).1 opening .reopen).1 =
          { last with isOpen := true } := by
  intro s d last
  have start : Kept s d := ⟨rfl, rfl, h, rfl⟩
  obtain ⟨kept, answers⟩ := start.serveAll requests
  refine ⟨answers, kept.isOpen, kept.distinct, fun f e => ?_, fun hclosed now r hr => ?_,
    fun closing opening others hothers => ?_⟩
  · rw [← kept.rows]
    exact kept.distinct.mem_records_iff
  · exact serve_of_closed hclosed now hr
  · exact reopen_after_close kept.durable hothers closing opening

/-- A key is registered, and another one cannot be removed while the file is closed. -/
theorem served_as_directory_reopened :
    let rows : List KeyRecord := [⟨"b", [1], 5, none⟩, ⟨"a", [2], 5, some 6⟩]
    let requests : List (Instant × StoreRequest) :=
      [(10, .register "b" [9]), (11, .authorize true ⟨"c", [3]⟩), (12, .close), (13, .remove "a"),
        (14, .authorize true ⟨"a", [2]⟩), (15, .reopen), (16, .remove "a"), (17, .count)]
    let s : Store := { durable := true, keys := ⟨rows⟩ }
    let d : Directory := { rows := table ⟨rows⟩ }
    (serveAll s requests).2 =
        [.registration .present, .verdict .registered, .done, .failed .closed,
          .verdict .indeterminate, .done, .removed true, .size 2]
      ∧ d.AnswersAll requests (serveAll s requests).2
      ∧ (d.run requests).rows.lookup "c" = some ⟨[3], 11, some 11⟩ := by
  intro rows requests s d
  obtain ⟨answers, -, -, mem, -, -⟩ :=
    served_as_directory (show (rows.map KeyRecord.fingerprint).Nodup by decide) requests
  exact ⟨by decide, answers, (mem "c" ⟨[3], 11, some 11⟩).mp (by decide)⟩

end Directory

end TermLink.Gate
