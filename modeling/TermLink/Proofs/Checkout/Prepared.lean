import TermLink.Proofs.Checkout.Workspace
import TermLink.Proofs.Header

/-!
# Where a terminal starts

Preparing has four outcomes, and all of them give the terminal a directory: the root itself, with a
warning, or a checkout right below it. Whatever the selector says, whatever the root holds and
whatever git does, nothing is asked of git but for the one directory that the selector names.

## Implementation notes

What git does to a directory is git's own affair. Where the directory leads elsewhere by a link, or
shares its repository with another one, a pull may be seen there too. So what stays as it is, is
said of what the system is asked for, and for workspaces of the entries that no update reaches.
-/

namespace TermLink.Checkout

variable {σ : Type}

/-- An act that runs git on the directory of a name, and on nothing else. -/
inductive Act.IsFor (p : Preparer) (selector n : String) : Act → Prop
  | pull : IsFor p selector n (.pull (p.directory (.entry n)))
  | clone : IsFor p selector n (.clone (source p.base selector) (p.path (.entry n)))

namespace Preparer

variable {p : Preparer} {sys : System σ} {world : σ} {s : String} {selector : Option String}

/-- What preparing for a selector can come to. -/
inductive Outcome (p : Preparer) (sys : System σ) (world : σ) (s : String) : σ × Prepared → Prop
  | unusable (hname : name? s = none) :
    Outcome p sys world s (world, ⟨.root, some (.unusable s)⟩)
  | present {n : String} (hname : name? s = some n) (hn : sys.has world (p.repository n)) :
    Outcome p sys world s
      ((sys.perform world (.pull (p.directory (.entry n)))).1, ⟨.entry n, none⟩)
  | cloned {n : String} {next : σ} (hname : name? s = some n)
    (hn : sys.has world (p.repository n) = false)
    (hnext : sys.perform world (.clone (source p.base s) (p.path (.entry n))) = (next, .ok ())) :
    Outcome p sys world s (next, ⟨.entry n, none⟩)
  | failed {n detail : String} {next : σ} (hname : name? s = some n)
    (hn : sys.has world (p.repository n) = false)
    (hnext : sys.perform world (.clone (source p.base s) (p.path (.entry n))) =
      (next, .error detail)) :
    Outcome p sys world s (next, ⟨.root, some (.cloneFailed s detail)⟩)

theorem outcome (p : Preparer) (sys : System σ) (world : σ) (s : String) :
    p.Outcome sys world s (p.prepareSelector sys world s) := by
  rw [prepareSelector]
  cases hname : name? s with
  | none => exact .unusable hname
  | some n =>
    dsimp only
    cases hn : sys.has world (p.repository n) with
    | true => exact .present hname hn
    | false =>
      rw [if_neg Bool.false_ne_true]
      split
      · next hnext => exact .cloned hname hn hnext
      · next hnext => exact .failed hname hn hnext

/-- Preparing leads to the root, or to a directory right below it that comes without a warning and
has a repository as far as git can be relied on. -/
theorem Outcome.placed {result : σ × Prepared} (H : p.Outcome sys world s result) :
    let place := result.2.place
    place = .root ∧ p.directory place = p.rootPath
      ∨ ∃ n, place = .entry n ∧ IsComponent n
        ∧ p.directory place = Path.lead p.rootPath ++ Utf8.encode n
        ∧ result.2.warning = none
        ∧ (p.Lawful sys world →
          sys.has result.1 (p.directory place ++ Path.slash :: Utf8.encode gitName)) := by
  intro place
  cases H with
  | unusable | failed => exact .inl ⟨rfl, rfl⟩
  | @present n hname hn =>
    have component := isComponent_of_name? hname
    refine .inr ⟨n, rfl, component, p.directory_entry component, rfl, ?_⟩
    rw [← p.repository_eq component]
    exact fun git => git.pulled component hn
  | @cloned n _ hname _ hnext =>
    have component := isComponent_of_name? hname
    refine .inr ⟨n, rfl, component, p.directory_entry component, rfl, ?_⟩
    rw [← p.repository_eq component]
    exact fun git => git.cloned component hnext

/-- What preparing asks for: nothing, or that git is run on the directory of the selector's name. -/
theorem Outcome.asks {result : σ × Prepared} (H : p.Outcome sys world s result) :
    result.1 = world ∧ result.2.place = .root
      ∨ ∃ n act, name? s = some n ∧ act.IsFor p s n ∧ result.1 = (sys.perform world act).1
        ∧ (result.2.place = .root ∨ result.2.place = .entry n) := by
  cases H with
  | unusable => exact .inl ⟨rfl, rfl⟩
  | present hname => exact .inr ⟨_, _, hname, .pull, rfl, .inr rfl⟩
  | cloned hname _ hnext => exact .inr ⟨_, _, hname, .clone, by rw [hnext], .inr rfl⟩
  | failed hname _ hnext => exact .inr ⟨_, _, hname, .clone, by rw [hnext], .inl rfl⟩

theorem prepare_of_none (p : Preparer) (sys : System σ) (world : σ)
    (h : selector.bind Text.content? = none) :
    p.prepare sys world selector =
      ((sys.perform world (.makeDirectory p.rootPath)).1, ⟨.root, none⟩) := by
  simp only [prepare, h]

theorem prepare_of_some (p : Preparer) (sys : System σ) (world : σ)
    (h : selector.bind Text.content? = some s) :
    p.prepare sys world selector =
      p.prepareSelector sys (sys.perform world (.makeDirectory p.rootPath)).1 s := by
  simp only [prepare, h]

end Preparer

namespace Workspace

variable {root : String} {selector : Option String} {m : String}

/-- All entries of a workspace stay as they are but that of the selector's name, and those that an
update of it reaches. -/
theorem entry?_prepare (w : Workspace) (git : Git) (update : Update)
    (hroot : w.rootPath = Utf8.encode root)
    (apart : ∀ s ∈ selector.bind Text.content?, ∀ n ∈ name? s, m ≠ n ∧ update w n m = none) :
    Workspace.entry? (w.prepare git selector update).1 m = w.entry? m := by
  let sys := system git update
  let look (v : Workspace) : Option FileTree := v.entry? m
  cases hs : selector.bind Text.content? with
  | none => exact congrArg (look ·.1) (w.prepare_of_none sys w hs)
  | some s =>
    have H := w.toPreparer.outcome sys w s
    rw [prepare, w.prepare_of_some sys w hs]
    rcases H.asks with ⟨kept, -⟩ | ⟨n, act, hname, hact, hnext, -⟩
    · exact congrArg look kept
    · obtain ⟨hm, unreached⟩ := apart s hs n hname
      have component := isComponent_of_name? hname
      refine (congrArg look hnext).trans ?_
      cases hact with
      | pull =>
        rw [w.perform_pull git update component]
        refine (w.entry?_updated update n m).trans ?_
        rw [unreached]
        exact Option.map_id_apply
      | clone =>
        have C := w.cloned_clone git (source w.base s) n
        rw [← w.perform_clone git update hroot component] at C
        generalize sys.perform w _ = result at C
        cases C with
        | untouched => rfl
        | done | abandoned => exact (w.entry?_withClone _ n m _).trans (if_neg hm)

end Workspace
end TermLink.Checkout
