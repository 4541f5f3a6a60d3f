import TermLink.Checkout.Name
import Mathlib.Data.List.TakeWhile

/-!
# What a checkout is named for

An address is divided into what leads to its last part, that part, and the slashes after it. The
directory of a repository is named for the last part alone, without any `.git` at its end. So the
name itself, the selector with more such endings, and the address from which it is cloned all name
the same directory.
-/

namespace TermLink.Checkout

theorem dropGitEndings_suffix (name : List Char) : dropGitEndings name <:+ name := by
  fun_induction dropGitEndings name with
  | case1 rest ih => exact ih.trans ⟨['t', 'i', 'g', '.'], rfl⟩
  | case2 name => exact List.suffix_refl _

theorem dropGitEndings_dropGitEndings (name : List Char) :
    dropGitEndings (dropGitEndings name) = dropGitEndings name := by
  fun_induction dropGitEndings name with
  | case1 rest ih => exact ih
  | case2 name other =>
    rw [dropGitEndings]
    exact other

/-- `.git` a number of times. -/
def gitEndings (n : Nat) : List Char := (List.replicate n ".git".toList).flatten

theorem isDivider_of_mem_gitEndings {n : Nat} {c : Char} (hc : c ∈ gitEndings n) :
    isDivider c = false := by
  obtain ⟨ending, hending, hc⟩ := List.mem_flatten.mp hc
  obtain rfl := List.eq_of_mem_replicate hending
  have letters : ∀ c ∈ ['.', 'g', 'i', 't'], isDivider c = false := by simp [isDivider]
  exact letters c hc

/-- However many `.git` are put after a part, nothing of them is left. -/
theorem dropGitEndings_append_gitEndings (part : List Char) (n : Nat) :
    dropGitEndings (part ++ gitEndings n).reverse = dropGitEndings part.reverse := by
  induction n with
  | zero => simp [gitEndings]
  | succ n ih =>
    have last : (part ++ gitEndings (n + 1)).reverse =
        't' :: 'i' :: 'g' :: '.' :: (part ++ gitEndings n).reverse := by
      simp [gitEndings, List.replicate_succ']
    rw [last, dropGitEndings, ih]

/-- What is left of a name, held last character first, does not end with `.git`. -/
theorem not_prefix_dropGitEndings (name : List Char) :
    ¬['t', 'i', 'g', '.'] <+: dropGitEndings name := by
  fun_induction dropGitEndings name with
  | case1 rest ih => exact ih
  | case2 name other =>
    rintro ⟨rest, h⟩
    exact other rest h.symm

/-- Nothing but `.git` is taken away. -/
theorem exists_gitEndings (name : List Char) :
    ∃ n, name = (gitEndings n).reverse ++ dropGitEndings name := by
  fun_induction dropGitEndings name with
  | case1 rest ih =>
    obtain ⟨n, hn⟩ := ih
    refine ⟨n + 1, ?_⟩
    have more : (gitEndings (n + 1)).reverse = ['t', 'i', 'g', '.'] ++ (gitEndings n).reverse := by
      simp [gitEndings, List.replicate_succ']
    rw [more, List.append_assoc, ← hn]
    rfl
  | case2 name => exact ⟨0, rfl⟩

theorem isDivider_of_mem_lastPart {address : List Char} {c : Char} (h : c ∈ lastPart address) :
    isDivider c = false := by
  have within := (dropGitEndings_suffix _).subset (List.mem_reverse.mp h)
  simpa using List.mem_takeWhile_imp within

/-- An address divided into what leads to its last part, that part, and the slashes after it. -/
structure Divided (address lead part slashes : List Char) : Prop where
  whole : address = lead ++ part ++ slashes
  divider : ∀ c ∈ lead.getLast?, isDivider c
  undivided : ∀ c ∈ part, isDivider c = false
  nonempty : part ≠ []
  slash : ∀ c ∈ slashes, c = '/'

variable {address lead part slashes : List Char}

/-- What leads to the last part and the slashes after it do not matter. -/
theorem Divided.lastPart_eq (H : Divided address lead part slashes) :
    lastPart address = (dropGitEndings part.reverse).reverse := by
  have slash : ∀ c ∈ slashes.reverse, decide (c = '/') = true := by
    intro c hc
    exact decide_eq_true (H.slash c (List.mem_reverse.mp hc))
  have undivided : ∀ c ∈ part.reverse, (!isDivider c) = true := by
    intro c hc
    rw [H.undivided c (List.mem_reverse.mp hc)]
    rfl
  have front : (part.reverse ++ lead.reverse).dropWhile (· = '/') =
      part.reverse ++ lead.reverse := by
    have nonempty := List.reverse_ne_nil_iff.mpr H.nonempty
    obtain ⟨c, rest, hpart⟩ := List.exists_cons_of_ne_nil nonempty
    have differs : c ≠ '/' := by
      rintro rfl
      exact absurd (undivided '/' (by simp [hpart])) (by decide)
    rw [hpart, List.cons_append, List.dropWhile_cons_of_neg (by simpa using differs)]
  have back : lead.reverse.takeWhile (fun c => !isDivider c) = [] := by
    cases hlead : lead.reverse with
    | nil => rfl
    | cons c rest =>
      have last : c ∈ lead.getLast? := by
        rw [List.getLast?_eq_head?_reverse, hlead]
        rfl
      exact List.takeWhile_cons_of_neg (by simp [H.divider c last])
  rw [lastPart, H.whole, List.reverse_append, List.reverse_append,
    List.dropWhile_append_of_pos slash, front, List.takeWhile_append_of_pos undivided, back,
    List.append_nil]

/-- A name is that of an address: only `.git` and then slashes follow it there, and what stands in
front ends with a divider. It has no divider itself, and no `.git` at its end. -/
structure IsLastPart (address name : List Char) : Prop where
  within : ∃ lead gits slashes, address = lead ++ name ++ (gitEndings gits ++ slashes) ∧
    (∀ c ∈ lead.getLast?, isDivider c) ∧ ∀ c ∈ slashes, c = '/'
  undivided : ∀ c ∈ name, isDivider c = false
  noEnding : ¬".git".toList <:+ name

theorem Divided.isLastPart (H : Divided address lead part slashes) :
    IsLastPart address (lastPart address) := by
  refine ⟨?_, fun c => isDivider_of_mem_lastPart, ?_⟩
  · obtain ⟨n, hn⟩ := exists_gitEndings part.reverse
    have whole : part = (dropGitEndings part.reverse).reverse ++ gitEndings n := by
      rw [← List.reverse_reverse (gitEndings n), ← List.reverse_append, ← hn, List.reverse_reverse]
    refine ⟨lead, n, slashes, ?_, H.divider, H.slash⟩
    rw [H.lastPart_eq, ← List.append_assoc, List.append_assoc lead, ← whole]
    exact H.whole
  · rw [← List.reverse_prefix, lastPart, List.reverse_reverse]
    exact not_prefix_dropGitEndings _

/-- An address that has a last part can be divided. -/
theorem exists_divided (h : lastPart address ≠ []) :
    ∃ lead part slashes, Divided address lead part slashes := by
  let rest := address.reverse.dropWhile (· = '/')
  have whole : address.reverse = address.reverse.takeWhile (· = '/')
      ++ (rest.takeWhile (fun c => !isDivider c) ++ rest.dropWhile fun c => !isDivider c) := by
    rw [List.takeWhile_append_dropWhile, List.takeWhile_append_dropWhile]
  refine ⟨(rest.dropWhile fun c => !isDivider c).reverse,
    (rest.takeWhile fun c => !isDivider c).reverse,
    (address.reverse.takeWhile (· = '/')).reverse, ?_, ?_, ?_, ?_, ?_⟩
  · rw [← List.reverse_append, ← List.reverse_append, ← whole, List.reverse_reverse]
  · intro c hc
    rw [List.getLast?_reverse] at hc
    have stops := List.head?_dropWhile_not (fun c => !isDivider c) rest
    rw [hc] at stops
    simpa using stops
  · intro c hc
    simpa using List.mem_takeWhile_imp (List.mem_reverse.mp hc)
  · intro none
    apply h
    rw [lastPart, List.reverse_eq_nil_iff.mp none]
    rfl
  · intro c hc
    simpa using List.mem_takeWhile_imp (List.mem_reverse.mp hc)

/-- What ends with a divider may be put in front. -/
theorem Divided.prepend (H : Divided address lead part slashes) {front : List Char}
    (hfront : ∀ c ∈ front.getLast?, isDivider c) :
    Divided (front ++ address) (front ++ lead) part slashes := by
  refine ⟨by simp [H.whole], ?_, H.undivided, H.nonempty, H.slash⟩
  intro c hc
  rw [List.getLast?_append] at hc
  rcases Option.or_eq_some_iff.mp hc with hlead | ⟨-, hfrontLast⟩
  · exact H.divider c hlead
  · exact hfront c hfrontLast

theorem Divided.slashes_eq_nil (H : Divided address lead part slashes)
    (hlast : address.getLast? ≠ some '/') : slashes = [] := by
  by_contra hslashes
  obtain ⟨rest, c, rfl⟩ := List.eq_nil_or_concat slashes |>.resolve_left hslashes
  apply hlast
  rw [H.whole, H.slash c (by simp)]
  simp

/-- Where no slash is at the end, `.git` and slashes may be put there. -/
theorem Divided.extend (H : Divided address lead part []) (gits more : Nat) :
    Divided (address ++ (gitEndings gits ++ List.replicate more '/')) lead
      (part ++ gitEndings gits) (List.replicate more '/') := by
  refine ⟨by simp [H.whole], H.divider, ?_, by simp [H.nonempty], ?_⟩
  · intro c hc
    rcases List.mem_append.mp hc with hpart | hending
    · exact H.undivided c hpart
    · exact isDivider_of_mem_gitEndings hending
  · exact fun c => List.eq_of_mem_replicate

/-- Addresses with the same last part name the same directory. -/
theorem name?_congr {s t : String} (h : lastPart s.toList = lastPart t.toList) :
    name? s = name? t := by
  rw [name?, name?, h]

/-- A directory has the last part of the address as its name, which is not empty. -/
theorem toList_of_name? {s n : String} (h : name? s = some n) :
    n.toList = lastPart s.toList ∧ n.toList ≠ [] := by
  rw [name?] at h
  split at h
  · cases h
  · next usable =>
    obtain rfl := Option.some.inj h
    rw [String.toList_ofList]
    exact ⟨rfl, (not_or.mp usable).1⟩

/-- An address with so many `.git` after it, and then so many slashes. -/
def withEndings (s : String) (gits slashes : Nat) : String :=
  s ++ String.ofList (gitEndings gits ++ List.replicate slashes '/')

theorem toList_withEndings (s : String) (gits slashes : Nat) :
    (withEndings s gits slashes).toList =
      s.toList ++ (gitEndings gits ++ List.replicate slashes '/') := by
  rw [withEndings, String.toList_append, String.toList_ofList]

theorem getLast?_withSlash (base : String) :
    (Path.withSlash base).toList.getLast? = some '/' := by
  rw [Path.withSlash]
  split
  · assumption
  · simp

/-- The directory that a selector names has its last part as its name. It is named by that name as
well, by the selector with any number of `.git` and slashes after it, and by the address from which
the selector is cloned, whatever the base address. -/
theorem name_kept {selector n : String} (h : name? selector = some n) :
    IsLastPart selector.toList n.toList
      ∧ name? n = some n
      ∧ (selector.toList.getLast? ≠ some '/' →
          ∀ gits slashes, name? (withEndings selector gits slashes) = some n)
      ∧ ∀ base, name? (source base selector) = some n := by
  obtain ⟨hn, nonempty⟩ := toList_of_name? h
  obtain ⟨lead, part, slashes, H⟩ := exists_divided (hn ▸ nonempty)
  have kept {t : String} {lead' part' slashes' : List Char}
      (T : Divided t.toList lead' part' slashes')
      (hpart : dropGitEndings part'.reverse = dropGitEndings part.reverse) :
      name? t = some n := by
    rw [← h]
    apply name?_congr
    rw [T.lastPart_eq, H.lastPart_eq, hpart]
  refine ⟨hn ▸ H.isLastPart, ?_, ?_, ?_⟩
  · have own : Divided n.toList [] n.toList [] := by
      refine ⟨by simp, by simp, ?_, nonempty, by simp⟩
      rw [hn]
      exact fun c => isDivider_of_mem_lastPart
    apply kept own
    rw [hn, H.lastPart_eq, List.reverse_reverse, dropGitEndings_dropGitEndings]
  · intro hlast gits more
    obtain rfl := H.slashes_eq_nil hlast
    have longer := H.extend gits more
    rw [← toList_withEndings] at longer
    exact kept longer (dropGitEndings_append_gitEndings part gits)
  · intro base
    rw [source]
    split
    · exact h
    · have based : Divided (Path.withSlash base ++ selector).toList
          ((Path.withSlash base).toList ++ lead) part slashes := by
        rw [String.toList_append]
        apply H.prepend
        intro c hc
        rw [getLast?_withSlash] at hc
        obtain rfl := Option.some.inj hc
        rfl
      exact kept based rfl

theorem name_kept_tool :
    let selector := "octo/tool.git"
    name? selector = some "tool" ∧ selector.toList.getLast? ≠ some '/'
      ∧ name? "tool" = some "tool"
      ∧ name? "octo/tool.git.git.git//" = some "tool"
      ∧ name? "https://example.com/octo/tool.git" = some "tool" := by
  intro selector
  have named : name? selector = some "tool" := by decide +kernel
  have noSlash : selector.toList.getLast? ≠ some '/' := by decide +kernel
  obtain ⟨-, own, longer, cloned⟩ := name_kept named
  have ended : withEndings selector 2 2 = "octo/tool.git.git.git//" := by decide +kernel
  have address : source "https://example.com" selector = "https://example.com/octo/tool.git" := by
    decide +kernel
  refine ⟨named, noSlash, own, ?_, ?_⟩
  · exact ended ▸ longer noSlash 2 2
  · exact address ▸ cloned "https://example.com"

end TermLink.Checkout
