import Mathlib.Data.Fin.VecNotation
import Mathlib.Data.Finset.Card
import Mathlib.Data.Fintype.Basic
import Mathlib.Logic.Function.Basic
import Mathlib.Tactic.FinCases
import TermLink.Proofs.Gate.Admission

/-!
# Crowds

Clients may come to a gate all at once, and more than one with the same key. Between the calls of
one decision come the calls of others, so that several may find a key unknown before the first of
them has registered it. Still each new key is registered once, by one decision, and all the others
accept it.

## Implementation notes

A call to the store is one step, and the steps of all decisions may come in any order. No call
fails, and the gate registers unknown keys.
-/

namespace TermLink.Gate

namespace Admission

/-- Whether a decision has registered the key. -/
def Stage.registers : Stage → Bool
  | .use v | .decided v => v = .registered
  | .lookup | .registration => false

/-- The largest number of calls that a decision still makes. -/
def Stage.callsLeft : Stage → Nat
  | .lookup => 3
  | .registration => 2
  | .use _ => 1
  | .decided _ => 0

variable {keys₀ keys keys' : Keyring} {key : ClientKey} {now : Instant} {stage stage' : Stage}

/-- Whether the record of a key backs a verdict, where the keys were `keys₀` before anybody came: a
key that was registered by this decision is new and was stored as it is. -/
def Backs (keys₀ : Keyring) (key : ClientKey) (r : KeyRecord) (v : Verdict) : Prop :=
  v = .accepted
    ∨ v = .registered ∧ keys₀.contains key.fingerprint = false ∧ r.publicKey = key.publicKey

/-- What the keys hold for a decision that has come to a stage. -/
def Stage.Grounded (keys₀ keys : Keyring) (key : ClientKey) : Stage → Prop
  | .lookup | .registration => True
  | .use v => ∃ r, keys.get? key.fingerprint = some r ∧ Backs keys₀ key r v
  | .decided v =>
    ∃ r, keys.get? key.fingerprint = some r ∧ Backs keys₀ key r v ∧ r.lastUsed.isSome

theorem Stage.Grounded.keeps (h : stage.Grounded keys₀ keys key) (hkeeps : keys.Keeps keys') :
    stage.Grounded keys₀ keys' key := by
  cases stage with
  | lookup | registration => trivial
  | use v =>
    obtain ⟨r, hr, hv⟩ := h
    obtain ⟨s, hs, hkey, -⟩ := hkeeps _ _ hr
    exact ⟨s, hs, by rwa [Backs, hkey]⟩
  | decided v =>
    obtain ⟨r, hr, hv, hused⟩ := h
    obtain ⟨s, hs, hkey, -, hused'⟩ := hkeeps _ _ hr
    exact ⟨s, hs, by rwa [Backs, hkey], hused' hused⟩

/-- A key that a decision has registered is known. -/
theorem Stage.Grounded.contains (h : stage.Grounded keys₀ keys key) (hstage : stage.registers) :
    keys.contains key.fingerprint = true := by
  cases stage with
  | lookup | registration => cases hstage
  | use v | decided v =>
    obtain ⟨r, hr, -⟩ := h
    exact Keyring.contains_iff_get?.mpr ⟨r, hr⟩

/-- No call makes the store forget anything. -/
theorem Moves.keeps {autoRegister fails : Bool}
    (h : Moves autoRegister key now fails stage keys stage' keys') : keys.Keeps keys' := by
  cases h with
  | created => exact Keyring.keeps_register
  | used => exact Keyring.keeps_touch
  | _ => exact Keyring.Keeps.refl _

theorem Moves.grounded (h : Moves true key now false stage keys stage' keys')
    (hkeeps : keys₀.Keeps keys) (hstage : stage.Grounded keys₀ keys key) :
    stage'.Grounded keys₀ keys' key := by
  cases h with
  | found hc | present hc =>
    obtain ⟨r, hr⟩ := Keyring.contains_iff_get?.mp hc
    exact ⟨r, hr, .inl rfl⟩
  | unknown => trivial
  | rejected _ hauto => cases hauto
  | created hc =>
    refine ⟨_, Keyring.get?_register.trans (if_pos rfl), .inr ⟨rfl, hkeeps.not_contains hc, ?_⟩⟩
    rw [Keyring.get?_eq_none hc, Option.getD_none]
  | used v =>
    obtain ⟨r, hr, hv⟩ := hstage
    refine ⟨{ r with lastUsed := some now }, ?_, hv, rfl⟩
    rw [Keyring.get?_touch, if_pos rfl, hr, Option.map_some]
  | settled => exact hstage

/-- What a call does to the set of known keys: nothing, or the decision registers a new one. -/
theorem Moves.adds (h : Moves true key now false stage keys stage' keys') :
    (∀ f, keys'.contains f = keys.contains f) ∧ keys'.size = keys.size
        ∧ stage'.registers = stage.registers
      ∨ keys.contains key.fingerprint = false ∧ stage'.registers = true
        ∧ (∀ f, keys'.contains f = true ↔ f = key.fingerprint ∨ keys.contains f = true)
        ∧ keys'.size = keys.size + 1 := by
  cases h with
  | created hc =>
    refine .inr ⟨hc, rfl, fun f => Keyring.contains_register, ?_⟩
    rw [Keyring.size_register, hc, if_neg Bool.false_ne_true]
  | used => exact .inl ⟨fun f => Keyring.contains_touch, Keyring.size_touch, rfl⟩
  | _ => exact .inl ⟨fun _ => rfl, rfl, rfl⟩

theorem Moves.callsLeft {autoRegister fails : Bool}
    (h : Moves autoRegister key now fails stage keys stage' keys') :
    stage'.callsLeft ≤ stage.callsLeft - 1 := by
  cases h <;> simp [Stage.callsLeft]

end Admission

/-- Decisions about clients that all come at once. -/
structure Crowd (ι : Type) where
  keys : Keyring
  stage : ι → Admission.Stage

namespace Crowd

open Admission

variable {ι : Type} {key : ι → ClientKey} {keys keys₀ : Keyring} {s next : Crowd ι}

/-- The state after one decision has made its next call. -/
def step [DecidableEq ι] (key : ι → ClientKey) (s : Crowd ι) (turn : ι × Instant) : Crowd ι :=
  let (stage, keys) := (s.stage turn.1).step true (key turn.1) turn.2 false s.keys
  { keys, stage := Function.update s.stage turn.1 stage }

/-- The state after calls in order. -/
def run [DecidableEq ι] (key : ι → ClientKey) (s : Crowd ι) (schedule : List (ι × Instant)) :
    Crowd ι :=
  schedule.foldl (step key) s

/-- The clients have come, and no call was made yet. -/
def start (keys : Keyring) : Crowd ι := { keys, stage := fun _ => .lookup }

section Calls

variable [DecidableEq ι]

/-- A call is one of the decision whose turn it is, and leaves the stages of all others. -/
theorem moves (key : ι → ClientKey) (s : Crowd ι) (i : ι) (now : Instant) :
    Moves true (key i) now false (s.stage i) s.keys ((step key s (i, now)).stage i)
        (step key s (i, now)).keys
      ∧ ∀ j ≠ i, (step key s (i, now)).stage j = s.stage j := by
  refine ⟨?_, fun j hj => Function.update_of_ne hj _ _⟩
  have own : (step key s (i, now)).stage i =
      ((s.stage i).step true (key i) now false s.keys).1 := Function.update_self i _ _
  rw [own]
  exact moves_step true (key i) now false (s.stage i) s.keys

/-- With nothing in between, the calls of a decision are those that `authorize` makes. -/
theorem run_alone (key : ι → ClientKey) (keys : Keyring) (i : ι) (now : Instant) :
    let last := run key (start keys) (List.replicate 3 (i, now))
    ((last.stage i).verdict, last.keys) = authorize true (key i) now {} keys := by
  simp [run, step, start, authorize, Admission.run, at_healthy, List.replicate]

theorem callsLeft_run (key : ι → ClientKey) (s : Crowd ι) (schedule : List (ι × Instant)) (i : ι) :
    ((run key s schedule).stage i).callsLeft ≤
      (s.stage i).callsLeft - (schedule.map Prod.fst).count i := by
  induction schedule generalizing s with
  | nil => exact Nat.le_refl _
  | cons turn rest ih =>
    obtain ⟨j, now⟩ := turn
    have later : ((run key s ((j, now) :: rest)).stage i).callsLeft ≤ _ := ih (step key s (j, now))
    obtain ⟨own, others⟩ := moves key s j now
    rw [List.map_cons, List.count_cons]
    by_cases hj : j = i
    · subst hj
      have now_left := own.callsLeft
      simp only [beq_self_eq_true, if_true]
      exact later.trans (by omega)
    · rw [others i (Ne.symm hj)] at later
      simpa [hj] using later

/-- A decision is taken after three calls. -/
theorem decided_of_count {schedule : List (ι × Instant)} {i : ι}
    (h : 3 ≤ (schedule.map Prod.fst).count i) :
    ∃ v, (run key (start keys) schedule).stage i = .decided v := by
  have left : ((run key (start keys) schedule).stage i).callsLeft ≤
      3 - (schedule.map Prod.fst).count i := callsLeft_run key (start keys) schedule i
  have none_left : ((run key (start keys) schedule).stage i).callsLeft = 0 := by omega
  cases hstage : (run key (start keys) schedule).stage i with
  | decided v => exact ⟨v, rfl⟩
  | lookup | registration | use => simp [hstage, Stage.callsLeft] at none_left

end Calls

variable [Fintype ι]

/-- The fingerprints of the clients that were not known before. -/
def newcomers (key : ι → ClientKey) (keys : Keyring) : Finset String :=
  (Finset.univ.image fun i => (key i).fingerprint).filter fun f => keys.contains f = false

/-- What holds at any time, where the keys were `keys₀` before anybody came. -/
structure Inv (key : ι → ClientKey) (keys₀ : Keyring) (s : Crowd ι) : Prop where
  keeps : keys₀.Keeps s.keys
  grounded (i : ι) : (s.stage i).Grounded keys₀ s.keys (key i)
  /-- A key that was added was registered by just one decision. -/
  registrant {f : String} (hnew : keys₀.contains f = false) (hnow : s.keys.contains f = true) :
    ∃! i, (key i).fingerprint = f ∧ (s.stage i).registers = true
  size : s.keys.size =
    keys₀.size + ((newcomers key keys₀).filter fun f => s.keys.contains f = true).card

theorem inv_start (key : ι → ClientKey) (keys : Keyring) : Inv key keys (start keys) where
  keeps := .refl keys
  grounded _ := trivial
  registrant hnew hnow := by
    rw [start, hnew] at hnow
    cases hnow
  size := by
    have nobody : ((newcomers key keys).filter fun f => keys.contains f = true) = ∅ := by
      rw [newcomers, Finset.filter_filter, Finset.filter_eq_empty_iff]
      rintro f - ⟨hnew, hnow⟩
      rw [hnew] at hnow
      cases hnow
    rw [start, nobody, Finset.card_empty, Nat.add_zero]

/-- Where no key is added, nobody becomes a registrant. -/
theorem Inv.of_same (h : Inv key keys₀ s) (keeps : s.keys.Keeps next.keys)
    (grounded : ∀ j, (next.stage j).Grounded keys₀ next.keys (key j))
    (hcontains : ∀ f, next.keys.contains f = s.keys.contains f)
    (hsize : next.keys.size = s.keys.size)
    (hregisters : ∀ j, (next.stage j).registers = (s.stage j).registers) :
    Inv key keys₀ next where
  keeps := h.keeps.trans keeps
  grounded := grounded
  registrant hnew hnow := by
    simp only [hregisters]
    exact h.registrant hnew (hcontains _ ▸ hnow)
  size := by simp only [hsize, hcontains, h.size]

/-- A decision that adds a key is the only registrant of it. -/
theorem Inv.of_added {i : ι} (h : Inv key keys₀ s) (keeps : s.keys.Keeps next.keys)
    (grounded : ∀ j, (next.stage j).Grounded keys₀ next.keys (key j))
    (hc : s.keys.contains (key i).fingerprint = false)
    (hi : (next.stage i).registers = true) (others : ∀ j ≠ i, next.stage j = s.stage j)
    (hcontains : ∀ f,
      next.keys.contains f = true ↔ f = (key i).fingerprint ∨ s.keys.contains f = true)
    (hsize : next.keys.size = s.keys.size + 1) :
    Inv key keys₀ next where
  keeps := h.keeps.trans keeps
  grounded := grounded
  registrant {f} hnew hnow := by
    rcases (hcontains f).mp hnow with rfl | known
    · -- The key was unknown until now, so nobody else has registered it.
      refine ⟨i, ⟨rfl, hi⟩, ?_⟩
      rintro j ⟨hj, hregisters⟩
      by_contra hne
      rw [others j hne] at hregisters
      have known := (h.grounded j).contains hregisters
      rw [hj, hc] at known
      cases known
    · have same (j : ι) : (key j).fingerprint = f ∧ (next.stage j).registers = true ↔
          (key j).fingerprint = f ∧ (s.stage j).registers = true := by
        refine and_congr_right fun hj => ?_
        have hne : j ≠ i := by
          rintro rfl
          rw [hj, known] at hc
          cases hc
        rw [others j hne]
      simp only [same]
      exact h.registrant hnew known
  size := by
    have mem : (key i).fingerprint ∈ newcomers key keys₀ := by
      simp [newcomers, h.keeps.not_contains hc]
    have grown : ((newcomers key keys₀).filter fun f => next.keys.contains f = true) =
        insert (key i).fingerprint
          ((newcomers key keys₀).filter fun f => s.keys.contains f = true) := by
      ext f
      by_cases hkey : f = (key i).fingerprint
      · simp [hcontains, hkey, mem]
      · simp [hcontains, hkey]
    rw [grown, Finset.card_insert_of_notMem (by simp [hc]), hsize, h.size, Nat.add_assoc]

theorem Inv.step [DecidableEq ι] (h : Inv key keys₀ s) (turn : ι × Instant) :
    Inv key keys₀ (step key s turn) := by
  obtain ⟨i, now⟩ := turn
  obtain ⟨own, others⟩ := moves key s i now
  have grounded (j : ι) : ((Crowd.step key s (i, now)).stage j).Grounded keys₀
      (Crowd.step key s (i, now)).keys (key j) := by
    by_cases hj : j = i
    · subst hj
      exact own.grounded h.keeps (h.grounded j)
    · rw [others j hj]
      exact (h.grounded j).keeps own.keeps
  rcases own.adds with ⟨hcontains, hsize, hregisters⟩ | ⟨hc, hi, hcontains, hsize⟩
  · refine h.of_same own.keeps grounded hcontains hsize fun j => ?_
    by_cases hj : j = i
    · rw [hj, hregisters]
    · rw [others j hj]
  · exact h.of_added own.keeps grounded hc hi others hcontains hsize

theorem inv_run [DecidableEq ι] (h : Inv key keys₀ s) (schedule : List (ι × Instant)) :
    Inv key keys₀ (run key s schedule) := by
  induction schedule generalizing s with
  | nil => exact h
  | cons turn rest ih => exact ih (h.step turn)

/-- What holds when every decision is taken, where the keys were `keys₀` before anybody came. -/
structure Settled (key : ι → ClientKey) (keys₀ : Keyring) (s : Crowd ι) : Prop where
  admitted (i : ι) : s.stage i = .decided .accepted ∨ s.stage i = .decided .registered
  /-- Each new key was registered by just one decision. -/
  registrant {f : String} (h : f ∈ newcomers key keys₀) :
    ∃! i, (key i).fingerprint = f ∧ s.stage i = .decided .registered
  /-- It was a new key, and it was stored as it is. -/
  registered {i : ι} (h : s.stage i = .decided .registered) :
    (key i).fingerprint ∈ newcomers key keys₀
      ∧ ∃ r, s.keys.get? (key i).fingerprint = some r ∧ r.publicKey = (key i).publicKey
  size : s.keys.size = keys₀.size + (newcomers key keys₀).card
  used (i : ι) : ∃ r, s.keys.get? (key i).fingerprint = some r ∧ r.lastUsed.isSome
  kept {f : String} {r : KeyRecord} (h : keys₀.get? f = some r) :
    ∃ r', s.keys.get? f = some r' ∧ r'.publicKey = r.publicKey ∧ r'.createdAt = r.createdAt

theorem Inv.settled (h : Inv key keys₀ s)
    (hdecided : ∀ i, ∃ v, s.stage i = .decided v) : Settled key keys₀ s := by
  have ground (i : ι) : ∃ v, s.stage i = .decided v ∧ ∃ r,
      s.keys.get? (key i).fingerprint = some r ∧ Backs keys₀ (key i) r v
        ∧ r.lastUsed.isSome := by
    obtain ⟨v, hv⟩ := hdecided i
    have grounded := h.grounded i
    rw [hv] at grounded
    exact ⟨v, hv, grounded⟩
  have registers_iff (i : ι) : (s.stage i).registers = true ↔ s.stage i = .decided .registered := by
    obtain ⟨v, hv⟩ := hdecided i
    simp [hv, Stage.registers]
  have known {f : String} (hf : f ∈ newcomers key keys₀) :
      keys₀.contains f = false ∧ s.keys.contains f = true := by
    simp only [newcomers, Finset.mem_filter, Finset.mem_image, Finset.mem_univ, true_and] at hf
    obtain ⟨⟨i, rfl⟩, hnew⟩ := hf
    obtain ⟨-, -, r, hr, -⟩ := ground i
    exact ⟨hnew, Keyring.contains_iff_get?.mpr ⟨r, hr⟩⟩
  constructor
  case admitted =>
    intro i
    obtain ⟨v, hv, r, -, rfl | ⟨rfl, -⟩, -⟩ := ground i
    · exact .inl hv
    · exact .inr hv
  case registrant =>
    intro f hf
    simp only [← registers_iff]
    exact h.registrant (known hf).1 (known hf).2
  case registered =>
    intro i hi
    obtain ⟨v, hv, r, hr, hvouches, -⟩ := ground i
    obtain rfl : v = .registered := by
      rw [hi] at hv
      exact (Stage.decided.inj hv).symm
    rcases hvouches with hfalse | ⟨-, hnew, hkey⟩
    · cases hfalse
    · exact ⟨by simp [newcomers, hnew], r, hr, hkey⟩
  case size =>
    rw [h.size, Finset.filter_true_of_mem fun f hf => (known hf).2]
  case used =>
    intro i
    obtain ⟨-, -, r, hr, -, hused⟩ := ground i
    exact ⟨r, hr, hused⟩
  case kept =>
    intro f r hr
    obtain ⟨r', hr', hkey, hcreated, -⟩ := h.keeps f r hr
    exact ⟨r', hr', hkey, hcreated⟩

/-- Whatever the order of the calls, every decision is taken after three of its own, and when all
are taken, every client is admitted, each new key was registered by just one decision, and nothing
else was added to the store or lost from it. -/
theorem registered_once [DecidableEq ι] (key : ι → ClientKey) (keys : Keyring)
    (schedule : List (ι × Instant)) :
    (∀ i, 3 ≤ (schedule.map Prod.fst).count i →
        ∃ v, (run key (start keys) schedule).stage i = .decided v)
      ∧ ((∀ i, ∃ v, (run key (start keys) schedule).stage i = .decided v) →
        Settled key keys (run key (start keys) schedule)) :=
  ⟨fun _ h => decided_of_count h, (inv_run (inv_start key keys) schedule).settled⟩

/-- Two clients with one new key find it unknown before either has registered it, and a third one
is known already. -/
theorem registered_once_of_race :
    let key : Fin 3 → ClientKey := ![⟨"new", [1]⟩, ⟨"new", [2]⟩, ⟨"old", [3]⟩]
    let keys : Keyring := ⟨[{ fingerprint := "old", publicKey := [3], createdAt := 5 }]⟩
    let schedule : List (Fin 3 × Instant) :=
      [(0, 10), (1, 11), (1, 12), (2, 13), (0, 14), (2, 15), (0, 16), (1, 17)]
    let last := run key (start keys) schedule
    Settled key keys last ∧ last.stage 0 = .decided .accepted
      ∧ last.stage 1 = .decided .registered ∧ last.keys.size = 2 := by
  intro key keys schedule last
  have decided : ∀ i, ∃ v, last.stage i = .decided v := by
    intro i
    fin_cases i
    · exact ⟨.accepted, by decide⟩
    · exact ⟨.registered, by decide⟩
    · exact ⟨.accepted, by decide⟩
  exact ⟨(registered_once key keys schedule).2 decided, by decide, by decide, by decide⟩

end Crowd
end TermLink.Gate
