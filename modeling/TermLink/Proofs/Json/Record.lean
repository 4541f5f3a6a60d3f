import TermLink.Json.Record
import Mathlib.Data.List.Perm.Basic
import Mathlib.Data.List.ReduceOption

/-!
# Records and the order of their fields

The slots that an object fills do not depend on the order of its fields, and a field of another name
fills none. An array of values fills the same slots as the object of these values under the names of
the first fields.
-/

namespace TermLink.Json

section Named

variable (names : List String)

@[simp] theorem fieldsNamed_append (a b : List (String × Json)) :
    fieldsNamed names (a ++ b) = fieldsNamed names a ++ fieldsNamed names b := by
  simp [fieldsNamed]

theorem fieldsNamed_perm {a b : List (String × Json)} (h : a.Perm b) :
    (fieldsNamed names a).Perm (fieldsNamed names b) :=
  (h.filter _).map _

variable {names}

theorem fieldsNamed_of_forall_mem {a : List (String × Json)} (h : ∀ f ∈ a, f.1 ∈ names) :
    fieldsNamed names a = a.map Prod.snd := by
  have all : a.filter (fun f => names.contains f.1) = a := by
    rw [List.filter_eq_self]
    intro f hf
    simpa using h f hf
  rw [fieldsNamed, all]

theorem fieldsNamed_of_forall_not_mem {a : List (String × Json)} (h : ∀ f ∈ a, f.1 ∉ names) :
    fieldsNamed names a = [] := by
  have none : a.filter (fun f => names.contains f.1) = [] := by
    rw [List.filter_eq_nil_iff]
    intro f hf
    simpa using h f hf
  rw [fieldsNamed, none, List.map_nil]

end Named

theorem slotOf?_perm {a b : List Json} (h : a.Perm b) : slotOf? a = slotOf? b := by
  match a, b with
  | [], [] => rfl
  | [v], [w] => rw [List.singleton_perm_singleton.mp h]
  | _ :: _ :: _, _ :: _ :: _ => rfl
  | [], _ :: _ | _ :: _, [] | [_], _ :: _ :: _ | _ :: _ :: _, [_] =>
    exact absurd h.length_eq (by simp)

/-- The order of fields does not matter. -/
theorem slotsOfFields?_perm (fields : List Field) {a b : List (String × Json)} (h : a.Perm b) :
    slotsOfFields? fields a = slotsOfFields? fields b := by
  have same : (fun f : Field => slotOf? (fieldsNamed f.names a)) =
      fun f => slotOf? (fieldsNamed f.names b) := by
    funext f
    exact slotOf?_perm (fieldsNamed_perm f.names h)
  rw [slotsOfFields?, slotsOfFields?, same]

/-- Fields that share no name. -/
def Apart (f g : Field) : Prop := ∀ name ∈ f.names, name ∉ g.names

/-- Fields are given one by one, each under one of its names or not at all. -/
abbrev Entries (fields : List Field) (entries : List (Option (String × Json))) : Prop :=
  List.Forall₂ (fun f entry => ∀ e ∈ entry, e.1 ∈ f.names) fields entries

/-- What stands in the second of two related lists is related to something in the first. -/
theorem exists_rel_of_mem {α β : Type} {R : α → β → Prop} {as : List α} {bs : List β}
    (h : List.Forall₂ R as bs) {b : β} (hb : b ∈ bs) : ∃ a ∈ as, R a b := by
  induction h with
  | nil => simp at hb
  | @cons a _ as bs hab _ ih =>
    rcases List.mem_cons.mp hb with rfl | hb
    · exact ⟨a, by simp, hab⟩
    · obtain ⟨a, ha, hab⟩ := ih hb
      exact ⟨a, by simp [ha], hab⟩

theorem Entries.exists_of_mem {fields : List Field} {entries : List (Option (String × Json))}
    (h : Entries fields entries) {e : String × Json} (he : e ∈ entries.reduceOption) :
    ∃ f ∈ fields, e.1 ∈ f.names := by
  obtain ⟨f, hf, hnames⟩ := exists_rel_of_mem h (List.reduceOption_mem_iff.mp he)
  exact ⟨f, hf, hnames e rfl⟩

/-- Fields that share no name fill a slot each, whatever stands around them. -/
theorem slotsOfFields?_of_entries {fields : List Field} {entries : List (Option (String × Json))}
    (h : Entries fields entries) (hapart : fields.Pairwise Apart)
    (before after : List (String × Json))
    (hbefore : ∀ e ∈ before, ∀ f ∈ fields, e.1 ∉ f.names)
    (hafter : ∀ e ∈ after, ∀ f ∈ fields, e.1 ∉ f.names) :
    slotsOfFields? fields (before ++ entries.reduceOption ++ after) =
      some (entries.map (Option.map Prod.snd)) := by
  induction h generalizing before with
  | nil => rfl
  | @cons f entry fields entries hf hrest ih =>
    obtain ⟨hfirst, hapart⟩ := List.pairwise_cons.mp hapart
    have split : (entry :: entries).reduceOption = entry.toList ++ entries.reduceOption := by
      cases entry <;> simp
    -- Only the entry of the first field has one of its names.
    have own : fieldsNamed f.names (before ++ (entry :: entries).reduceOption ++ after) =
        entry.toList.map Prod.snd := by
      have ours : fieldsNamed f.names entry.toList = entry.toList.map Prod.snd := by
        apply fieldsNamed_of_forall_mem
        simpa using hf
      have theirs : fieldsNamed f.names entries.reduceOption = [] := by
        apply fieldsNamed_of_forall_not_mem
        intro e he hname
        obtain ⟨g, hg, hother⟩ := Entries.exists_of_mem hrest he
        exact hfirst g hg e.1 hname hother
      have front : fieldsNamed f.names before = [] :=
        fieldsNamed_of_forall_not_mem fun e he => hbefore e he f (by simp)
      have back : fieldsNamed f.names after = [] :=
        fieldsNamed_of_forall_not_mem fun e he => hafter e he f (by simp)
      simp [split, ours, theirs, front, back]
    have slot : slotOf? (entry.toList.map Prod.snd) = some (entry.map Prod.snd) := by
      cases entry <;> rfl
    have others : ∀ e ∈ before ++ entry.toList, ∀ g ∈ fields, e.1 ∉ g.names := by
      intro e he g hg
      rcases List.mem_append.mp he with he | he
      · exact hbefore e he g (by simp [hg])
      · exact hfirst g hg e.1 (hf e (by simpa using he))
    have tail := ih hapart (before ++ entry.toList) others
      fun e he g hg => hafter e he g (by simp [hg])
    simp only [slotsOfFields?] at tail ⊢
    have regroup : before ++ (entry :: entries).reduceOption ++ after =
        before ++ entry.toList ++ entries.reduceOption ++ after := by
      simp [split]
    rw [List.mapM_cons, own, slot, regroup, tail]
    rfl

/-- The entries of fields whose first values are given. -/
def entriesOf : List Field → List Json → List (Option (String × Json))
  | [], _ => []
  | _ :: fields, [] => none :: entriesOf fields []
  | f :: fields, v :: values => some (f.name, v) :: entriesOf fields values

theorem entries_entriesOf : ∀ (fields : List Field) (values : List Json),
    Entries fields (entriesOf fields values)
  | [], _ => .nil
  | _ :: fields, [] => .cons (by simp) (entries_entriesOf fields [])
  | f :: fields, _ :: values => .cons (by simp [Field.names]) (entries_entriesOf fields values)

theorem reduceOption_entriesOf : ∀ (fields : List Field) (values : List Json),
    (entriesOf fields values).reduceOption = (fields.map Field.name).zip values
  | [], _ => rfl
  | _ :: fields, [] => by simpa [entriesOf] using reduceOption_entriesOf fields []
  | f :: fields, v :: values => by simpa [entriesOf] using reduceOption_entriesOf fields values

theorem slots_entriesOf : ∀ {fields : List Field} {values : List Json}
    (_ : values.length ≤ fields.length),
    (entriesOf fields values).map (Option.map Prod.snd) =
      values.map some ++ List.replicate (fields.length - values.length) none
  | [], [], _ => rfl
  | _ :: fields, [], _ => by
    have rest := @slots_entriesOf fields [] (Nat.zero_le _)
    simpa [entriesOf, List.replicate_succ] using rest
  | f :: fields, v :: values, h => by
    have rest := slots_entriesOf (Nat.le_of_succ_le_succ h)
    simpa [entriesOf] using rest

/-- Values in order fill the slots that they fill under the names of the first fields. -/
theorem slotsOfFields?_zip {fields : List Field} {values : List Json}
    (hapart : fields.Pairwise Apart) (hvalues : values.length ≤ fields.length)
    (before : List (String × Json)) (hbefore : ∀ e ∈ before, ∀ f ∈ fields, e.1 ∉ f.names) :
    slotsOfFields? fields (before ++ (fields.map Field.name).zip values) =
      slotsOfItems? fields values := by
  have given := slotsOfFields?_of_entries (entries_entriesOf fields values) hapart before []
    hbefore (by simp)
  rw [List.append_nil, reduceOption_entriesOf, slots_entriesOf hvalues] at given
  rw [given, slotsOfItems?, if_pos hvalues]

end TermLink.Json
