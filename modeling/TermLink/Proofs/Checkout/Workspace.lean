import TermLink.Checkout.Workspace
import TermLink.Proofs.Checkout.Entry

/-!
# Workspaces as systems

What a workspace answers for the paths of its own entries, and what git leaves of it. An update may
change every entry, but the repositories in them stay; a clone changes the entry of its own name
alone, also where it fails.
-/

namespace TermLink.Checkout

/-- What git is relied on for in a state: a clone into the directory of a name brings a repository
there where it succeeds, and a pull does not take the repository away. Below a root that is a text,
the directory of a clone is the one that git is given (`Preparer.encode_path`). Below any other root
git is given another path, and then the first is a demand on both. -/
structure Preparer.Lawful {σ : Type} (p : Preparer) (sys : System σ) (world : σ) : Prop where
  cloned {n address : String} {next : σ} : IsComponent n →
    sys.perform world (.clone address (p.path (.entry n))) = (next, .ok ()) →
    sys.has next (p.repository n)
  pulled {n : String} : IsComponent n → sys.has world (p.repository n) →
    sys.has (sys.perform world (.pull (p.directory (.entry n)))).1 (p.repository n)

namespace Workspace

variable {n : String}

theorem nameAt?_directory (w : Workspace) (hn : IsComponent n) :
    w.nameAt? (w.directory (.entry n)) = some n := by
  have noSlash : Path.slash ∉ Utf8.encode "" := by decide
  have lead : w.directory (.entry "") = Path.lead w.rootPath :=
    (Path.joinBytes_of_noSlash noSlash).trans (List.append_nil _)
  rw [nameAt?, lead, w.directory_entry hn, afterLead?_eq_some_iff.mpr rfl, Option.bind_some,
    Utf8.decode?_encode]

theorem hasRepository_repository (w : Workspace) (hn : IsComponent n) :
    w.hasRepository (w.repository n) = w.isCheckout n := by
  rw [hasRepository, beforeTail?_eq_some_iff.mpr (w.repository_eq hn), Option.bind_some,
    w.nameAt?_directory hn]

theorem entry?_withEntry (w : Workspace) (n m : String) (t : FileTree) :
    Workspace.entry? (w.withEntry n t) m = if m = n then some t else w.entry? m := by
  by_cases hm : m = n
  · simp [withEntry, entry?, hm]
  · have kept := lookup_filter (fun k => decide (k ≠ n)) w.entries m
    rw [if_pos (decide_eq_true hm)] at kept
    simp only [withEntry, entry?, List.lookup_cons, beq_false_of_ne hm, if_neg hm]
    exact kept

theorem entry?_withClone (w : Workspace) (address n m : String) (t : FileTree) :
    Workspace.entry? (w.withClone address n t) m = if m = n then some t else w.entry? m := by
  rw [← entry?_withEntry, withClone]
  split <;> rfl

/-- What is made of the directory of a name is a checkout if there is a repository in it. Other
checkouts are left alone. -/
theorem isCheckout_withClone (w : Workspace) (address n m : String) (t : FileTree) :
    (w.withClone address n t).isCheckout m =
      if m = n then (t.child? gitName).isSome else w.isCheckout m := by
  rw [isCheckout, entry?_withClone]
  by_cases hm : m = n <;> simp [hm, isCheckout]

@[simp] theorem toPreparer_withClone (w : Workspace) (address n : String) (t : FileTree) :
    (w.withClone address n t).toPreparer = w.toPreparer := by
  rw [withClone]
  split <;> rfl

theorem child?_refreshed (files : List (String × FileTree)) (t : FileTree) :
    (refreshed files t).child? gitName = t.child? gitName := by
  cases t with
  | directory es linked =>
    have kept := lookup_filter (fun k => decide (k = gitName)) es gitName
    have none := lookup_filter (fun k => decide (k ≠ gitName)) files gitName
    rw [if_pos (decide_eq_true rfl)] at kept
    rw [if_neg (by simp)] at none
    rw [FileTree.child?, refreshed, FileTree.entries, List.lookup_append, kept, none,
      Option.or_none]
    rfl
  | file | repository => rfl

theorem entry?_updated (w : Workspace) (update : Update) (n m : String) :
    Workspace.entry? (w.updated update n) m =
      Option.map ((update w n m).elim id refreshed) (Workspace.entry? w m) :=
  lookup_map (fun name => (update w n name).elim id refreshed) w.entries m

/-- An update takes no repository away, and brings none. -/
theorem isCheckout_updated (w : Workspace) (update : Update) (n m : String) :
    (w.updated update n).isCheckout m = w.isCheckout m := by
  rw [isCheckout, isCheckout, entry?_updated]
  cases w.entry? m with
  | none => rfl
  | some t =>
    cases update w n m with
    | none => rfl
    | some files => exact congrArg Option.isSome (child?_refreshed files t)

theorem child?_cloned (names : List String) :
    (cloned names).child? gitName = some (.repository names) := by
  simp [cloned, FileTree.child?, FileTree.entries]

/-- What a clone can come to. -/
inductive Cloned (w : Workspace) (address n : String) : Workspace × Except String Unit → Prop
  | done (names : List String) : Cloned w address n (w.withClone address n (cloned names), .ok ())
  | untouched (detail : String) : Cloned w address n (w, .error detail)
  | abandoned (left : FileTree) (detail : String) :
    Cloned w address n (w.withClone address n left, .error detail)

theorem cloned_clone (w : Workspace) (git : Git) (address n : String) :
    Cloned w address n (w.clone git address n) := by
  rw [clone]
  split
  · split
    · exact .untouched _
    · exact .done _
  · next detail left _ =>
    split
    · exact .untouched _
    · cases left with
      | none => exact .untouched _
      | some t => exact .abandoned t _

variable (w : Workspace) (git : Git) (update : Update)

theorem perform_pull (hn : IsComponent n) :
    (system git update).perform w (.pull (w.directory (.entry n))) =
      (w.updated update n, .ok ()) := by
  simp only [system, w.nameAt?_directory hn]

theorem perform_clone {root : String} (hroot : w.rootPath = Utf8.encode root)
    (hn : IsComponent n) (address : String) :
    (system git update).perform w (.clone address (w.path (.entry n))) =
      w.clone git address n := by
  simp only [system, w.encode_path hroot, w.nameAt?_directory hn]

end Workspace
end TermLink.Checkout
