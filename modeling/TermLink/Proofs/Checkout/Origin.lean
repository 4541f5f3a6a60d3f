import TermLink.Proofs.Checkout.Prepared

/-!
# Where checkouts come from

A workspace that was empty at first holds nothing but what clones have made of it, and remembers for
each checkout the address that it came from. That is the address of the selector whose call brought
the checkout about, even where the clone failed after that, and every later selector of that name
gets what is there.

## Implementation notes

Git may do something else at every call, so a call is a selector together with what git does then.
-/

namespace TermLink.Checkout

/-- What tells repositories apart: an address without slashes and without any `.git` at its end. -/
def stem (address : String) : List Char :=
  (dropGitEndings (address.toList.reverse.dropWhile (· = '/'))).reverse

/-- A selector for which a workspace is prepared, and what git does meanwhile. -/
structure Call where
  git : Git
  update : Update := Update.failed
  selector : Option String

/-- What is asked for in a call, if anything. -/
def Call.asked? (c : Call) : Option String := c.selector.bind Text.content?

namespace Workspace

/-- The address from which the checkout of a name was cloned. -/
def origin? (w : Workspace) (n : String) : Option String := w.origins.lookup n

/-- What comes of a call. -/
def answer (w : Workspace) (c : Call) : Workspace × Prepared := w.prepare c.git c.selector c.update

/-- The workspace after calls in order. -/
def prepareAll (w : Workspace) (calls : List Call) : Workspace :=
  calls.foldl (fun w c => (w.answer c).1) w

/-- The selectors that are asked for, each with the place that it is given. -/
def given : Workspace → List Call → List (String × Place)
  | _, [] => []
  | w, c :: rest =>
    (c.asked?.map fun s => (s, (w.answer c).2.place)).toList ++ (w.answer c).1.given rest

/-- The selector whose call brings about the checkout of a name: the first one after whose call it
is there. -/
def maker? (n : String) : Workspace → List Call → Option String
  | _, [] => none
  | w, c :: rest =>
    if (w.answer c).1.isCheckout n then c.asked? else maker? n (w.answer c).1 rest

/-- A workspace whose root is a text, and whose checkouts were all cloned there. -/
structure Traced (w : Workspace) : Prop where
  root : ∃ root, w.rootPath = Utf8.encode root
  checkouts : ∀ n, w.isCheckout n = (w.origin? n).isSome

theorem origin?_withClone (w : Workspace) (address n m : String) (t : FileTree) :
    Workspace.origin? (w.withClone address n t) m =
      if m = n ∧ (t.child? gitName).isSome then some address else w.origin? m := by
  rw [withClone]
  by_cases repository : (t.child? gitName).isSome
  · rw [if_pos repository, origin?, List.lookup_cons]
    by_cases hm : m = n
    · simp [hm, repository]
    · rw [beq_false_of_ne hm, if_neg fun both => hm both.1]
      rfl
  · rw [if_neg repository, if_neg fun both => repository both.2]
    rfl

/-- What a call can come to in a workspace. -/
inductive Answer (w : Workspace) : Option String → Workspace → Place → Prop
  | root (asked : Option String) : Answer w asked w .root
  | present {s n : String} (hname : name? s = some n) (hn : w.isCheckout n) (update : Update) :
    Answer w (some s) (w.updated update n) (.entry n)
  | cloned {s n : String} (hname : name? s = some n) (hn : w.isCheckout n = false)
    (names : List String) :
    Answer w (some s) (w.withClone (source w.base s) n (cloned names)) (.entry n)
  | abandoned {s n : String} (hname : name? s = some n) (hn : w.isCheckout n = false)
    (left : FileTree) : Answer w (some s) (w.withClone (source w.base s) n left) .root

theorem answers {w : Workspace} {root : String} (hroot : w.rootPath = Utf8.encode root)
    (c : Call) : w.Answer c.asked? (w.answer c).1 (w.answer c).2.place := by
  let sys := system c.git c.update
  cases hs : c.asked? with
  | none =>
    have nothing : w.answer c = (w, ⟨.root, none⟩) := w.prepare_of_none sys w hs
    rw [nothing]
    exact .root none
  | some s =>
    have H := w.toPreparer.outcome sys w s
    have same : w.answer c = w.prepareSelector sys w s := w.prepare_of_some sys w hs
    rw [← same] at H
    generalize w.answer c = result at H ⊢
    have absent {n : String} (hname : name? s = some n)
        (hn : sys.has w (w.repository n) = false) : w.isCheckout n = false :=
      (w.hasRepository_repository (isComponent_of_name? hname)).symm.trans hn
    have C {n : String} (hname : name? s = some n) {made : Workspace × Except String Unit}
        (hmade : sys.perform w (.clone (source w.base s) (w.path (.entry n))) = made) :
        Cloned w (source w.base s) n made := by
      rw [w.perform_clone c.git c.update hroot (isComponent_of_name? hname)] at hmade
      exact hmade ▸ w.cloned_clone c.git _ n
    cases H with
    | unusable => exact .root _
    | @present n hname hn =>
      have component := isComponent_of_name? hname
      rw [w.perform_pull c.git c.update component]
      exact .present hname ((w.hasRepository_repository component).symm.trans hn) _
    | cloned hname hn hnext =>
      cases C hname hnext with
      | done names => exact .cloned hname (absent hname hn) names
    | failed hname hn hnext =>
      cases C hname hnext with
      | untouched => exact .root _
      | abandoned left => exact .abandoned hname (absent hname hn) left

variable {w next : Workspace} {asked : Option String} {place : Place} {n : String}

/-- A directory is given only to a selector of its name, and is a checkout then. -/
theorem Answer.gives (A : w.Answer asked next (.entry n)) :
    ∃ s, asked = some s ∧ name? s = some n ∧ next.isCheckout n := by
  cases A with
  | present hname hn update => exact ⟨_, rfl, hname, (w.isCheckout_updated update n n).trans hn⟩
  | cloned hname _ names =>
    refine ⟨_, rfl, hname, ?_⟩
    rw [isCheckout_withClone, if_pos rfl, child?_cloned]
    rfl

/-- A checkout is brought about only by a selector of its name. -/
theorem Answer.makes (A : w.Answer asked next place) (absent : w.isCheckout n = false)
    (hn : next.isCheckout n) : ∃ s, asked = some s ∧ name? s = some n := by
  have made {s m : String} {t : FileTree} (hname : name? s = some m)
      (hn : (w.withClone (source w.base s) m t).isCheckout n) : name? s = some n := by
    by_cases same : n = m
    · exact same ▸ hname
    · rw [isCheckout_withClone, if_neg same, absent] at hn
      cases hn
  cases A with
  | root =>
    rw [absent] at hn
    cases hn
  | present _ _ update =>
    rw [isCheckout_updated, absent] at hn
    cases hn
  | cloned hname | abandoned hname => exact ⟨_, rfl, made hname hn⟩

/-- An answer keeps every checkout and its origin. A checkout that it brings about comes from the
address of the selector. -/
theorem Answer.traces (A : w.Answer asked next place) (h : w.Traced) :
    next.Traced ∧ next.base = w.base
      ∧ ∀ n, next.origin? n =
        (w.origin? n).or (if next.isCheckout n then asked.map (source w.base) else none) := by
  have kept (asked : Option String) (n : String) : w.origin? n =
      (w.origin? n).or (if w.isCheckout n then asked.map (source w.base) else none) := by
    rw [h.checkouts n]
    cases w.origin? n <;> simp
  have made {s m : String} (hm : w.isCheckout m = false) (t : FileTree) :
      let next := w.withClone (source w.base s) m t
      next.Traced ∧ next.base = w.base
        ∧ ∀ n, next.origin? n =
          (w.origin? n).or (if next.isCheckout n then some (source w.base s) else none) := by
    intro next
    have preparer : next.toPreparer = w.toPreparer := w.toPreparer_withClone _ m t
    have unknown : w.origin? m = none := by
      rw [← Option.not_isSome_iff_eq_none, ← h.checkouts m, hm]
      exact Bool.false_ne_true
    refine ⟨⟨?_, ?_⟩, congrArg Preparer.base preparer, ?_⟩
    · rw [preparer]
      exact h.root
    · intro n
      rw [origin?_withClone, isCheckout_withClone]
      by_cases hn : n = m
      · subst hn
        cases hrepo : (t.child? gitName).isSome <;> simp [unknown]
      · simp [hn, h.checkouts]
    · intro n
      rw [origin?_withClone, isCheckout_withClone]
      by_cases hn : n = m
      · subst hn
        cases hrepo : (t.child? gitName).isSome <;> simp [unknown]
      · simpa [hn] using kept (some s) n
  cases A with
  | root => exact ⟨h, rfl, kept _⟩
  | present hname hn update =>
    refine ⟨⟨h.root, ?_⟩, rfl, ?_⟩
    · exact fun m => (w.isCheckout_updated update _ m).trans (h.checkouts m)
    · intro m
      rw [isCheckout_updated]
      exact kept _ m
  | cloned _ hn | abandoned _ hn => exact made hn _

theorem prepareAll_cons (w : Workspace) (c : Call) (rest : List Call) :
    w.prepareAll (c :: rest) = (w.answer c).1.prepareAll rest := rfl

/-- Over a run, a checkout comes from the address of the selector whose call brings it about, unless
it was there before. -/
theorem Traced.prepareAll (h : w.Traced) (calls : List Call) :
    (w.prepareAll calls).Traced
      ∧ ∀ n, (w.prepareAll calls).origin? n =
        (w.origin? n).or ((maker? n w calls).map (source w.base)) := by
  induction calls generalizing w with
  | nil => exact ⟨h, fun n => (Option.or_none).symm⟩
  | cons c rest ih =>
    obtain ⟨root, hroot⟩ := h.root
    obtain ⟨traced, base, origin⟩ := (answers hroot c).traces h
    obtain ⟨last, later⟩ := ih traced
    refine ⟨last, ?_⟩
    intro n
    rw [prepareAll_cons, later, base, maker?]
    by_cases hn : (w.answer c).1.isCheckout n
    · obtain ⟨address, known⟩ := Option.isSome_iff_exists.mp ((traced.checkouts n).symm.trans hn)
      rw [known, Option.some_or, ← known, origin, if_pos hn, if_pos hn]
    · rw [origin, if_neg hn, if_neg hn, Option.or_none]

theorem Traced.isCheckout_prepareAll (h : w.Traced) (hn : w.isCheckout n) (calls : List Call) :
    (w.prepareAll calls).isCheckout n := by
  obtain ⟨last, origin⟩ := h.prepareAll calls
  rw [last.checkouts, origin, Option.isSome_or, ← h.checkouts, hn, Bool.true_or]

/-- Who is given a directory has named it, and it stays a checkout. -/
theorem Traced.of_given {calls : List Call} {s : String} (h : w.Traced)
    (hs : (s, .entry n) ∈ w.given calls) :
    name? s = some n ∧ (w.prepareAll calls).isCheckout n := by
  induction calls generalizing w with
  | nil => cases hs
  | cons c rest ih =>
    obtain ⟨root, hroot⟩ := h.root
    have A := answers hroot c
    have traced := (A.traces h).1
    rw [given, List.mem_append] at hs
    rcases hs with hs | hs
    · obtain ⟨t, hasked, heq⟩ := Option.map_eq_some_iff.mp (Option.mem_toList.mp hs)
      obtain ⟨rfl, place⟩ := Prod.mk.inj heq
      rw [place] at A
      obtain ⟨s, ask, hname, checkout⟩ := A.gives
      obtain rfl := Option.some.inj (hasked.symm.trans ask)
      exact ⟨hname, traced.isCheckout_prepareAll checkout rest⟩
    · exact ih traced hs

/-- Whose call brings a checkout about has named it. -/
theorem Traced.of_maker? {calls : List Call} {s : String} (h : w.Traced)
    (absent : w.isCheckout n = false) (hs : maker? n w calls = some s) :
    name? s = some n ∧ s ∈ (w.given calls).map Prod.fst := by
  induction calls generalizing w with
  | nil => cases hs
  | cons c rest ih =>
    obtain ⟨root, hroot⟩ := h.root
    have A := answers hroot c
    rw [given, List.map_append, List.mem_append]
    rw [maker?] at hs
    split at hs
    · next hn =>
      obtain ⟨t, ask, hname⟩ := A.makes absent hn
      obtain rfl := Option.some.inj (hs.symm.trans ask)
      refine ⟨hname, .inl ?_⟩
      simp [hs]
    · next hn =>
      obtain ⟨hname, asked⟩ := ih (A.traces h).1 (eq_false_of_ne_true hn) hs
      exact ⟨hname, .inr asked⟩

/-- In a workspace that was empty at first, a directory that is given holds the repository of the
selector whose call brought the checkout about, for good. So every selector gets its own repository
just when the selectors that are given a directory are of that one's repository, and then no two of
them are of different repositories; and so it is where the names of directories tell the
repositories apart. -/
theorem holds_first_made (root base : String) (calls : List Call) :
    let start : Workspace := { rootPath := Utf8.encode root, base }
    let log := start.given calls
    let origin? := (start.prepareAll calls).origin?
    let same (s t : String) : Prop := stem (source base s) = stem (source base t)
    let own : Prop := ∀ s n, (s, .entry n) ∈ log →
      ∃ address, origin? n = some address ∧ stem address = stem (source base s)
    (∀ s n, (s, .entry n) ∈ log → name? s = some n
      ∧ ∃ first, maker? n start calls = some first ∧ name? first = some n
        ∧ ∀ more, (start.prepareAll (calls ++ more)).origin? n = some (source base first))
      ∧ (own ↔ ∀ s n first, (s, .entry n) ∈ log → maker? n start calls = some first → same first s)
      ∧ (own → ∀ s t n, (s, .entry n) ∈ log → (t, .entry n) ∈ log → same s t)
      ∧ ((∀ s ∈ log.map Prod.fst, ∀ t ∈ log.map Prod.fst, name? s = name? t → same s t) →
        own) := by
  intro start log origin? same own
  have traced : start.Traced := ⟨⟨root, rfl⟩, fun n => rfl⟩
  have origin (n : String) : origin? n = (maker? n start calls).map (source base) :=
    (traced.prepareAll calls).2 n
  have held {s n : String} (h : (s, .entry n) ∈ log) :
      ∃ first, maker? n start calls = some first ∧ origin? n = some (source base first) := by
    have known := (traced.prepareAll calls).1.checkouts n
    rw [(traced.of_given h).2] at known
    obtain ⟨address, haddress⟩ := Option.isSome_iff_exists.mp known.symm
    obtain ⟨first, hfirst, rfl⟩ := Option.map_eq_some_iff.mp ((origin n).symm.trans haddress)
    exact ⟨first, hfirst, haddress⟩
  have joint : own ↔
      ∀ s n first, (s, .entry n) ∈ log → maker? n start calls = some first → same first s := by
    constructor
    · intro hown s n first hs hfirst
      obtain ⟨address, haddress, stems⟩ := hown s n hs
      rw [origin, hfirst] at haddress
      obtain rfl := Option.some.inj haddress
      exact stems
    · intro hsame s n hs
      obtain ⟨first, hfirst, horigin⟩ := held hs
      exact ⟨_, horigin, hsame s n first hs hfirst⟩
  refine ⟨?_, joint, ?_, ?_⟩
  · intro s n hs
    obtain ⟨first, hfirst, horigin⟩ := held hs
    refine ⟨(traced.of_given hs).1, first, hfirst, (traced.of_maker? rfl hfirst).1, ?_⟩
    intro more
    have later := ((traced.prepareAll calls).1.prepareAll more).2 n
    rw [Workspace.prepareAll, List.foldl_append, ← Workspace.prepareAll, ← Workspace.prepareAll,
      later]
    exact congrArg (Option.or · _) horigin
  · intro hown s t n hs ht
    obtain ⟨first, hfirst, -⟩ := held hs
    exact (joint.mp hown s n first hs hfirst).symm.trans (joint.mp hown t n first ht hfirst)
  · intro hapart
    apply joint.mpr
    intro s n first hs hfirst
    obtain ⟨hname, asked⟩ := traced.of_maker? rfl hfirst
    apply hapart first asked s (List.mem_map_of_mem hs)
    exact hname.trans (traced.of_given hs).1.symm

theorem holds_first_made_abandoned :
    let broken : FileTree := .directory [(".git", .repository [])] false
    let interrupted : Git := fun _ _ => .failed "checkout failed" (some broken)
    let calls : List Call := [
      { git := interrupted, selector := some "octo/tool" },
      { git := interrupted, selector := some " https://github.com/octo/tool.git/ " }]
    let start : Workspace := { rootPath := Utf8.encode "/work", base := "https://github.com" }
    let log := start.given calls
    log = [("octo/tool", .root), ("https://github.com/octo/tool.git/", .entry "tool")]
      ∧ ∃ address, (start.prepareAll calls).origin? "tool" = some address
        ∧ stem address =
          stem (source "https://github.com" "https://github.com/octo/tool.git/") := by
  intro broken interrupted calls start log
  have hlog :
      log = [("octo/tool", .root), ("https://github.com/octo/tool.git/", .entry "tool")] := by
    decide +kernel
  refine ⟨hlog, ?_⟩
  apply (holds_first_made "/work" "https://github.com" calls).2.2.2
  · change ∀ s ∈ log.map Prod.fst, ∀ t ∈ log.map Prod.fst, _
    rw [hlog]
    decide +kernel
  · change _ ∈ log
    rw [hlog]
    decide

/-- A selector is given the checkout of another repository whose name ends alike, even where its
own repository does not exist. -/
theorem not_own_checkout :
    ¬ ∀ (root base : String) (calls : List Call) (s n address : String),
      let start : Workspace := { rootPath := Utf8.encode root, base }
      (s, .entry n) ∈ start.given calls →
      (start.prepareAll calls).origin? n = some address → stem address = stem (source base s) := by
  intro h
  let git : Git := fun _ address =>
    if address = "https://github.com/octo/tool" then .done ["README"] else .failed "not found"
  have shared := h "/work" "https://github.com"
    [{ git, selector := some "octo/tool" }, { git, selector := some "x/tool" }]
    "x/tool" "tool" "https://github.com/octo/tool" (by decide +kernel) (by decide +kernel)
  exact absurd shared (by decide +kernel)

end Workspace
end TermLink.Checkout
