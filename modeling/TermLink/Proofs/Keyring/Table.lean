import Mathlib.Data.Finmap
import TermLink.Proofs.Keyring.Basic
import TermLink.Proofs.Text.Order

/-!
# Keyrings as finite maps

A keyring that holds each fingerprint once is a finite map from fingerprints to what is kept about
them. Each change of a keyring is the change of that map, and the list of the known keys has every
entry once, in the order of creation and then of the fingerprints' bytes.
-/

namespace TermLink.Keyring

/-- What is kept about a fingerprint. -/
structure Entry where
  publicKey : Bytes
  createdAt : Instant
  lastUsed : Option Instant
  deriving DecidableEq, Repr

/-- What a record keeps about its fingerprint. -/
def entry (r : KeyRecord) : Entry := ⟨r.publicKey, r.createdAt, r.lastUsed⟩

/-- The record of a fingerprint with an entry. -/
def Entry.record (f : String) (e : Entry) : KeyRecord := ⟨f, e.publicKey, e.createdAt, e.lastUsed⟩

theorem Entry.record_injective {f : String} : Function.Injective (Entry.record f) := by
  rintro ⟨_, _, _⟩ ⟨_, _, _⟩ h
  cases h
  rfl

/-- What is kept, by fingerprint. -/
abbrev Table := Finmap fun _ : String => Entry

namespace Table

/-- The table after a key was used, if it is there. -/
def use (t : Table) (f : String) (now : Instant) : Table :=
  match t.lookup f with
  | some e => t.insert f { e with lastUsed := some now }
  | none => t

theorem lookup_insert_eq (t : Table) (f g : String) (e : Entry) :
    (t.insert f e).lookup g = if g = f then some e else t.lookup g := by
  split
  · subst g
    exact t.lookup_insert
  · exact t.lookup_insert_of_ne ‹_›

theorem lookup_erase_eq (t : Table) (f g : String) :
    (t.erase f).lookup g = if g = f then none else t.lookup g := by
  split
  · subst g
    exact Finmap.lookup_erase f t
  · exact Finmap.lookup_erase_ne ‹_›

theorem lookup_use (t : Table) (f g : String) (now : Instant) :
    (t.use f now).lookup g =
      if g = f then (t.lookup f).map fun e => { e with lastUsed := some now } else t.lookup g := by
  rw [use]
  cases hf : t.lookup f with
  | some e => exact lookup_insert_eq t f g _
  | none =>
    by_cases hg : g = f
    · rw [if_pos hg, hg, Option.map_none]
      exact hf
    · rw [if_neg hg]

/-- Whether a record comes before another: by the time of creation, and by the bytes of the
fingerprint among those of one time. -/
def Earlier (a b : KeyRecord) : Prop :=
  a.createdAt < b.createdAt
    ∨ a.createdAt = b.createdAt ∧ Utf8.encode a.fingerprint < Utf8.encode b.fingerprint

/-- A list of records has each entry once, in order. -/
structure Lists (t : Table) (rs : List KeyRecord) : Prop where
  mem {f : String} {e : Entry} : e.record f ∈ rs ↔ t.lookup f = some e
  inOrder : rs.Pairwise Earlier
  length : rs.length = t.keys.card

end Table

variable {k : Keyring} {f g : String} {r : KeyRecord} {key : Bytes} {now : Instant}

/-- The table that a keyring stands for. -/
def table (k : Keyring) : Table :=
  (k.records.map fun r => (⟨r.fingerprint, entry r⟩ : Sigma fun _ : String => Entry)).toFinmap

theorem lookup_table (k : Keyring) (f : String) : k.table.lookup f = (k.get? f).map entry := by
  rw [table, Finmap.dlookup_list_toFinmap, get?]
  induction k.records with
  | nil => rfl
  | cons r rest ih =>
    by_cases hr : r.fingerprint = f
    · subst hr
      simp
    · rw [List.map_cons, List.dlookup_cons_ne _ _ (Ne.symm hr), ih,
        List.find?_cons_of_neg (by simpa using hr)]

theorem get?_eq_lookup_table (k : Keyring) (f : String) :
    k.get? f = (k.table.lookup f).map (Entry.record f) := by
  rw [lookup_table]
  cases hr : k.get? f with
  | none => rfl
  | some r =>
    obtain rfl := fingerprint_of_get? hr
    rfl

theorem mem_table : f ∈ k.table ↔ k.contains f = true := by
  rw [← Finmap.lookup_isSome, lookup_table, Option.isSome_map, contains]

theorem table_register :
    (k.register f key now).1.table =
      if f ∈ k.table then k.table else k.table.insert f ⟨key, now, none⟩ := by
  refine Finmap.ext_lookup fun g => ?_
  rw [lookup_table, get?_register]
  simp only [mem_table]
  cases hc : k.contains f with
  | true =>
    obtain ⟨r, hr⟩ := contains_iff_get?.mp hc
    rw [if_pos rfl, lookup_table]
    split
    · subst g
      rw [hr, Option.getD_some]
    · rfl
  | false =>
    rw [if_neg Bool.false_ne_true, Table.lookup_insert_eq, get?_eq_none hc, Option.getD_none,
      lookup_table]
    split <;> rfl

theorem table_touch : (k.touch f now).table = k.table.use f now := by
  refine Finmap.ext_lookup fun g => ?_
  rw [lookup_table, get?_touch, Table.lookup_use, lookup_table, lookup_table]
  split
  · rw [Option.map_map, Option.map_map]
    rfl
  · rfl

theorem table_remove : (k.remove f).1.table = k.table.erase f := by
  refine Finmap.ext_lookup fun g => ?_
  rw [lookup_table, get?_remove, Table.lookup_erase_eq, lookup_table]
  split <;> rfl

theorem Distinct.card_table (h : k.Distinct) : k.table.keys.card = k.size := by
  have keys : k.table.keys = (k.records.map KeyRecord.fingerprint).toFinset := by
    ext f
    rw [Finmap.mem_keys, mem_table, contains_iff, List.mem_toFinset, List.mem_map]
  rw [keys, List.toFinset_card_of_nodup h, List.length_map, size]

theorem Distinct.mem_records_iff (h : k.Distinct) {e : Entry} :
    e.record f ∈ k.records ↔ k.table.lookup f = some e := by
  calc
    e.record f ∈ k.records ↔ k.get? f = some (e.record f) := by
      rw [h.get?_eq_some_iff]
      exact (and_iff_left rfl).symm
    _ ↔ k.table.lookup f = some e := by
      rw [get?_eq_lookup_table, Option.map_eq_some_iff]
      constructor
      · rintro ⟨e', he, hrecord⟩
        rw [he, Entry.record_injective hrecord]
      · intro he
        exact ⟨e, he, rfl⟩

theorem precedes_iff (a b : KeyRecord) :
    precedes a b = true ↔ a.createdAt < b.createdAt
      ∨ a.createdAt = b.createdAt ∧ a.fingerprint ≤ b.fingerprint := by
  simp [precedes]

theorem precedes_trans (a b c : KeyRecord) (hab : precedes a b = true)
    (hbc : precedes b c = true) : precedes a c = true := by
  rw [precedes_iff] at *
  rcases hab with hab | ⟨hab, hfab⟩ <;> rcases hbc with hbc | ⟨hbc, hfbc⟩
  · exact .inl (lt_trans hab hbc)
  · exact .inl (hbc ▸ hab)
  · exact .inl (hab ▸ hbc)
  · exact .inr ⟨hab.trans hbc, le_trans hfab hfbc⟩

theorem precedes_total (a b : KeyRecord) : (precedes a b || precedes b a) = true := by
  rw [Bool.or_eq_true, precedes_iff, precedes_iff]
  rcases lt_trichotomy a.createdAt b.createdAt with h | h | h
  · exact .inl (.inl h)
  · rcases le_total a.fingerprint b.fingerprint with hf | hf
    · exact .inl (.inr ⟨h, hf⟩)
    · exact .inr (.inr ⟨h.symm, hf⟩)
  · exact .inr (.inl h)

/-- The known keys are listed as their table has them. -/
theorem Distinct.lists (h : k.Distinct) : k.table.Lists k.list where
  mem := by
    intro f e
    rw [list, List.mem_mergeSort]
    exact h.mem_records_iff
  inOrder := by
    have perm : k.list.Perm k.records := List.mergeSort_perm _ _
    have sorted : k.list.Pairwise fun a b => precedes a b = true :=
      List.pairwise_mergeSort precedes_trans precedes_total _
    -- Of two records with one time of creation the fingerprints differ, so the order is strict.
    have distinct : k.list.Pairwise fun a b => a.fingerprint ≠ b.fingerprint :=
      List.pairwise_map.mp ((perm.map KeyRecord.fingerprint).nodup_iff.mpr h)
    refine (sorted.and distinct).imp fun {a b} hab => ?_
    rcases (precedes_iff a b).mp hab.1 with hlt | ⟨heq, hle⟩
    · exact .inl hlt
    · exact .inr ⟨heq, Utf8.encode_lt_iff.mpr (lt_of_le_of_ne hle hab.2)⟩
  length := by
    rw [list, List.length_mergeSort, h.card_table, size]

end TermLink.Keyring
