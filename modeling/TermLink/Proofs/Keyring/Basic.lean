import Mathlib.Data.List.Nodup
import TermLink.Keyring.Basic

/-!
# What a keyring knows after each change

Every change of a keyring concerns the record of one fingerprint and leaves the others as they are.
A keyring that holds each fingerprint once keeps doing so.
-/

namespace TermLink.Keyring

variable {k : Keyring} {f g : String} {r : KeyRecord} {key : Bytes} {now : Instant}

/-- Whether each fingerprint occurs once. -/
def Distinct (k : Keyring) : Prop := (k.records.map KeyRecord.fingerprint).Nodup

theorem fingerprint_of_get? (h : k.get? f = some r) : r.fingerprint = f := by
  simpa using List.find?_some h

theorem contains_iff : k.contains f = true ↔ ∃ r ∈ k.records, r.fingerprint = f := by
  simp [contains, get?, List.find?_isSome]

theorem contains_iff_get? : k.contains f = true ↔ ∃ r, k.get? f = some r := Option.isSome_iff_exists

theorem get?_eq_none (h : k.contains f = false) : k.get? f = none := by
  rwa [contains, Option.isSome_eq_false_iff, Option.isNone_iff_eq_none] at h

/-- A record is found just when it is held. -/
theorem Distinct.get?_eq_some_iff (h : k.Distinct) :
    k.get? f = some r ↔ r ∈ k.records ∧ r.fingerprint = f := by
  constructor
  · intro hr
    exact ⟨List.mem_of_find?_eq_some hr, fingerprint_of_get? hr⟩
  · rintro ⟨hr, rfl⟩
    obtain ⟨s, hs⟩ := contains_iff_get?.mp (contains_iff.mpr ⟨r, hr, rfl⟩)
    have same : s = r :=
      List.inj_on_of_nodup_map h (List.mem_of_find?_eq_some hs) hr (fingerprint_of_get? hs)
    rw [hs, same]

/-- Registering a known fingerprint changes nothing. -/
theorem register_of_contains (h : k.contains f = true) :
    k.register f key now = (k, .present) := if_pos h

/-- Registering an unknown fingerprint adds a record. -/
theorem register_of_not_contains (h : k.contains f = false) :
    k.register f key now =
      (⟨k.records ++ [{ fingerprint := f, publicKey := key, createdAt := now }]⟩, .created) := by
  simp [register, h]

theorem get?_register :
    (k.register f key now).1.get? g =
      if g = f then
        some ((k.get? f).getD { fingerprint := f, publicKey := key, createdAt := now })
      else k.get? g := by
  cases hc : k.contains f with
  | true =>
    rw [register_of_contains hc]
    split
    · subst g
      obtain ⟨r, hr⟩ := contains_iff_get?.mp hc
      rw [hr, Option.getD_some]
    · rfl
  | false =>
    rw [register_of_not_contains hc]
    by_cases hg : g = f
    · subst g
      have unknown := get?_eq_none hc
      simp only [get?] at unknown
      simp [get?, unknown]
    · simp [get?, hg, Ne.symm hg]

theorem contains_register :
    (k.register f key now).1.contains g = true ↔ g = f ∨ k.contains g = true := by
  rw [contains, get?_register]
  by_cases hg : g = f <;> simp [hg, contains]

theorem size_register :
    (k.register f key now).1.size = if k.contains f then k.size else k.size + 1 := by
  cases hc : k.contains f with
  | true => simp [register_of_contains hc]
  | false => simp [register_of_not_contains hc, size]

theorem registration_register :
    (k.register f key now).2 = if k.contains f then .present else .created := by
  cases hc : k.contains f with
  | true => simp [register_of_contains hc]
  | false => simp [register_of_not_contains hc]

/-- The record of a key after it was used, if it is the one that was. -/
def used (f : String) (now : Instant) (r : KeyRecord) : KeyRecord :=
  if r.fingerprint = f then { r with lastUsed := some now } else r

theorem fingerprint_used : (used f now r).fingerprint = r.fingerprint := by
  rw [used]
  split <;> rfl

theorem get?_touch :
    (k.touch f now).get? g =
      if g = f then (k.get? f).map fun r => { r with lastUsed := some now } else k.get? g := by
  have found : (k.touch f now).get? g = (k.get? g).map (used f now) := by
    have touched : k.touch f now = ⟨k.records.map (used f now)⟩ := rfl
    simp only [touched, get?, List.find?_map, Function.comp_def, fingerprint_used]
  rw [found]
  cases hr : k.get? g with
  | none =>
    by_cases hg : g = f
    · subst hg
      rw [if_pos rfl, hr, Option.map_none, Option.map_none]
    · rw [if_neg hg, Option.map_none]
  | some r =>
    have named := fingerprint_of_get? hr
    by_cases hg : g = f
    · subst hg
      rw [if_pos rfl, hr, Option.map_some, Option.map_some, used, if_pos named]
    · rw [if_neg hg, Option.map_some, used, if_neg (named ▸ hg)]

theorem contains_touch : (k.touch f now).contains g = k.contains g := by
  rw [contains, get?_touch, contains]
  split
  · subst g
    rw [Option.isSome_map]
  · rfl

theorem size_touch : (k.touch f now).size = k.size := by simp [touch, size]

theorem get?_remove : (k.remove f).1.get? g = if g = f then none else k.get? g := by
  simp only [remove, get?, List.find?_filter]
  split
  · subst g
    simp
  · congr 1
    funext r
    by_cases hr : r.fingerprint = g <;> simp_all

theorem Distinct.register (h : k.Distinct) : (k.register f key now).1.Distinct := by
  cases hc : k.contains f with
  | true => rwa [register_of_contains hc]
  | false =>
    have unknown : f ∉ k.records.map KeyRecord.fingerprint := by
      intro hf
      rw [← Bool.not_eq_true, contains_iff] at hc
      exact hc (List.mem_map.mp hf)
    rw [register_of_not_contains hc, Distinct, List.map_append]
    exact List.Nodup.append h (List.nodup_singleton _) (by simpa using unknown)

theorem Distinct.touch (h : k.Distinct) : (k.touch f now).Distinct := by
  have same : (k.touch f now).records.map KeyRecord.fingerprint =
      k.records.map KeyRecord.fingerprint := by
    have touched : (k.touch f now).records = k.records.map (used f now) := rfl
    simp [touched, Function.comp_def, fingerprint_used]
  rwa [Distinct, same]

theorem Distinct.remove (h : k.Distinct) : (k.remove f).1.Distinct :=
  h.sublist (List.filter_sublist.map _)

/-- A keyring keeps what another knows: of every record the key and the time of creation, and that
it has been used. -/
def Keeps (k next : Keyring) : Prop :=
  ∀ f r, k.get? f = some r → ∃ s, next.get? f = some s ∧ s.publicKey = r.publicKey
    ∧ s.createdAt = r.createdAt ∧ (r.lastUsed.isSome → s.lastUsed.isSome)

theorem Keeps.refl (k : Keyring) : k.Keeps k := fun _ r hr => ⟨r, hr, rfl, rfl, id⟩

theorem Keeps.trans {k₁ k₂ k₃ : Keyring} (h₁ : k₁.Keeps k₂) (h₂ : k₂.Keeps k₃) : k₁.Keeps k₃ := by
  intro f r hr
  obtain ⟨s, hs, hkey, hcreated, hused⟩ := h₁ f r hr
  obtain ⟨t, ht, hkey', hcreated', hused'⟩ := h₂ f s hs
  exact ⟨t, ht, hkey'.trans hkey, hcreated'.trans hcreated, hused' ∘ hused⟩

theorem keeps_register : k.Keeps (k.register f key now).1 := by
  intro g r hr
  rw [get?_register]
  by_cases hg : g = f
  · subst hg
    exact ⟨r, by rw [if_pos rfl, hr, Option.getD_some], rfl, rfl, id⟩
  · exact ⟨r, by rw [if_neg hg, hr], rfl, rfl, id⟩

theorem keeps_touch : k.Keeps (k.touch f now) := by
  intro g r hr
  rw [get?_touch]
  by_cases hg : g = f
  · subst hg
    exact ⟨{ r with lastUsed := some now }, by rw [if_pos rfl, hr, Option.map_some], rfl, rfl,
      fun _ => rfl⟩
  · exact ⟨r, by rw [if_neg hg, hr], rfl, rfl, id⟩

/-- What is unknown now was unknown before. -/
theorem Keeps.not_contains {next : Keyring} (h : k.Keeps next) (hf : next.contains f = false) :
    k.contains f = false := by
  by_contra hnot
  obtain ⟨r, hr⟩ := contains_iff_get?.mp (Bool.not_eq_false _ ▸ hnot)
  obtain ⟨s, hs, -⟩ := h f r hr
  rw [get?_eq_none hf] at hs
  cases hs

end TermLink.Keyring
