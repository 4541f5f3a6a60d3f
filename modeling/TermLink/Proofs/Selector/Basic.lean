import TermLink.Selector
import TermLink.Proofs.Header
import Mathlib.Data.List.TakeDrop

/-!
# What a selector is read from

A selector is two parts around a slash, and stands in its address as it is, between the beginning
that names the host and endings that may be left out. The parts of a name that GitHub takes are
limited to certain characters; an address of that form is its own selector.
-/

namespace TermLink.Selector

variable {cs user repo o : List Char}

theorem parts?_eq_some_iff : parts? cs = some (user, repo) ↔
    cs = user ++ '/' :: repo ∧ user ≠ [] ∧ repo ≠ [] ∧ '/' ∉ user ∧ '/' ∉ repo := by
  have split : cs = cs.takeWhile (· ≠ '/') ++ cs.dropWhile (· ≠ '/') :=
    List.takeWhile_append_dropWhile.symm
  constructor
  · intro h
    rw [parts?, List.span_eq_takeWhile_dropWhile] at h
    split at h
    · next front back hspan =>
      obtain ⟨hfront, hback⟩ := Prod.mk.inj hspan
      split at h
      · next hparts =>
        cases h
        rw [hfront, hback] at split
        refine ⟨split, hparts.1, hparts.2.1, ?_, hparts.2.2⟩
        intro hslash
        rw [← hfront] at hslash
        simpa using List.mem_takeWhile_imp hslash
      · cases h
    · cases h
  · rintro ⟨rfl, huser, hrepo, noSlash, hslash⟩
    have before : ∀ c ∈ user, decide (c ≠ '/') = true := by
      intro c hc
      exact decide_eq_true fun h => noSlash (h ▸ hc)
    have front : (user ++ '/' :: repo).takeWhile (· ≠ '/') = user := by
      rw [List.takeWhile_append_of_pos before]
      simp
    have back : (user ++ '/' :: repo).dropWhile (· ≠ '/') = '/' :: repo := by
      rw [List.dropWhile_append_of_pos before]
      simp
    rw [parts?, List.span_eq_takeWhile_dropWhile, front, back]
    exact if_pos ⟨huser, hrepo, hslash⟩

/-- A name keeps all but a `.git` at its end, and never becomes empty. -/
theorem dropGitEnding_cases {name : List Char} (h : name ≠ []) :
    dropGitEnding name ≠ [] ∧ ∃ tail, (tail = [] ∨ tail = gitEnding)
      ∧ name = dropGitEnding name ++ tail := by
  unfold dropGitEnding
  split
  · next c rest hname =>
    exact ⟨List.cons_ne_nil c rest, gitEnding, .inr rfl, beforeTail?_eq_some_iff.mp hname⟩
  · exact ⟨h, [], .inl rfl, (List.append_nil name).symm⟩

/-- Of a name that does not end with `.git`, nothing more is dropped than a `.git` after it. -/
theorem dropGitEnding_append {name : List Char} (h : name ≠ []) (hend : ¬gitEnding <:+ name)
    {tail : List Char} (htail : tail = [] ∨ tail = gitEnding) :
    dropGitEnding (name ++ tail) = name := by
  rcases htail with rfl | rfl
  · rw [List.append_nil, dropGitEnding]
    split
    · next c rest hname =>
      exact absurd ⟨_, (beforeTail?_eq_some_iff.mp hname).symm⟩ hend
    · rfl
  · have read : beforeTail? gitEnding (name ++ gitEnding) = some name :=
      beforeTail?_eq_some_iff.mpr rfl
    rw [dropGitEnding, read]
    obtain ⟨c, rest, rfl⟩ := List.exists_cons_of_ne_nil h
    rfl

/-- What may follow a selector in its address. -/
def endings : List (List Char) := [[], gitEnding, ['/'], gitEnding ++ ['/']]

/-- Two parts around a slash, with no other slash. -/
def IsPair (o : List Char) : Prop :=
  ∃ user repo, o = user ++ '/' :: repo ∧ user ≠ [] ∧ repo ≠ [] ∧ '/' ∉ user ∧ '/' ∉ repo

/-- The selector of an address stands in it as it is. -/
theorem Host.of_parse? {h : Host} (ho : h.parse? cs = some o) :
    IsPair o ∧ ∃ tail ∈ endings, cs = h.lead ++ (o ++ tail) := by
  simp only [Host.parse?, Option.bind_eq_bind, Option.bind_eq_some_iff] at ho
  obtain ⟨path, hpath, ⟨user, name⟩, hparts, ho⟩ := ho
  obtain ⟨hcut, huser, hname, noSlash, hslash⟩ := parts?_eq_some_iff.mp hparts
  obtain ⟨hrepo, git, hgit, hrest⟩ := dropGitEnding_cases hname
  obtain rfl := Option.some.inj ho
  have slash : ∃ slash, (slash = [] ∨ slash = ['/'])
      ∧ path = user ++ '/' :: name ++ slash := by
    rw [← hcut]
    split
    · cases hcutEnd : beforeTail? ['/'] path with
      | none => exact ⟨[], .inl rfl, (List.append_nil path).symm⟩
      | some front => exact ⟨['/'], .inr rfl, beforeTail?_eq_some_iff.mp hcutEnd⟩
    · exact ⟨[], .inl rfl, (List.append_nil path).symm⟩
  obtain ⟨slash, hends, rfl⟩ := slash
  refine ⟨⟨user, _, rfl, huser, hrepo, noSlash, ?_⟩, git ++ slash, ?_, ?_⟩
  · intro hmem
    rw [hrest] at hslash
    exact hslash (List.mem_append_left _ hmem)
  · rcases hgit with rfl | rfl <;> rcases hends with rfl | rfl <;> simp [endings]
  · rw [afterLead?_eq_some_iff.mp hpath]
    conv => lhs; rw [hrest]
    simp [List.append_assoc]

/-- A name of which a bare selector may consist. -/
structure IsName (name : List Char) : Prop where
  nonempty : name ≠ []
  chars : ∀ c ∈ name, isNameChar c

/-- A selector that consists of two names. -/
def IsClean (o : List Char) : Prop :=
  ∃ user repo, o = user ++ '/' :: repo ∧ IsName user ∧ IsName repo

/-- The characters of names are visible ones. -/
theorem toNat_of_isNameChar {c : Char} (h : isNameChar c) : 45 ≤ c.toNat ∧ c.toNat ≤ 122 := by
  have ranges : isNameChar c =
      ((decide (65 ≤ c.val ∧ c.val ≤ 90) || decide (97 ≤ c.val) && decide (c.val ≤ 122)
          || decide (48 ≤ c.val) && decide (c.val ≤ 57)) || c = '_' || c = '.' || c = '-') := rfl
  simp only [ranges, Bool.or_eq_true, Bool.and_eq_true, decide_eq_true_eq,
    UInt32.le_iff_toNat_le] at h
  rcases h with (((((h | h) | h) | rfl) | rfl) | rfl)
  · exact ⟨Nat.le_trans (by decide) h.1, Nat.le_trans h.2 (by decide)⟩
  · exact ⟨Nat.le_trans (by decide) h.1, Nat.le_trans h.2 (by decide)⟩
  · exact ⟨Nat.le_trans (by decide) h.1, Nat.le_trans h.2 (by decide)⟩
  all_goals decide

theorem IsName.noSlash {name : List Char} (H : IsName name) : '/' ∉ name :=
  fun h => absurd (H.chars _ h) (by decide)

theorem IsClean.isPair (H : IsClean o) : IsPair o := by
  obtain ⟨user, repo, rfl, huser, hrepo⟩ := H
  exact ⟨user, repo, rfl, huser.nonempty, hrepo.nonempty, huser.noSlash, hrepo.noSlash⟩

theorem IsPair.isClean_iff (H : IsPair o) : IsClean o ↔ ∀ c ∈ o, c = '/' ∨ isNameChar c := by
  constructor
  · rintro ⟨user, repo, rfl, huser, hrepo⟩ c hc
    rcases List.mem_append.mp hc with hc | hc
    · exact .inr (huser.chars c hc)
    · exact (List.mem_cons.mp hc).imp_right (hrepo.chars c)
  · obtain ⟨user, repo, rfl, huser, hrepo, noSlash, hslash⟩ := H
    intro chars
    refine ⟨user, repo, rfl, ⟨huser, ?_⟩, ⟨hrepo, ?_⟩⟩
    · intro c hc
      exact (chars c (by simp [hc])).resolve_left fun h => noSlash (h ▸ hc)
    · intro c hc
      exact (chars c (by simp [hc])).resolve_left fun h => hslash (h ▸ hc)

theorem parseBare?_eq_some_iff : parseBare? cs = some o ↔ cs = o ∧ IsClean o := by
  simp only [parseBare?, Option.bind_eq_bind, Option.bind_eq_some_iff, Prod.exists]
  constructor
  · rintro ⟨user, repo, hparts, ho⟩
    obtain ⟨hcut, huser, hrepo, -, -⟩ := parts?_eq_some_iff.mp hparts
    split at ho
    · next all =>
      obtain rfl := Option.some.inj ho
      rw [Bool.and_eq_true, List.all_eq_true, List.all_eq_true] at all
      exact ⟨rfl, user, repo, hcut, ⟨huser, all.1⟩, ⟨hrepo, all.2⟩⟩
    · cases ho
  · rintro ⟨rfl, user, repo, rfl, huser, hrepo⟩
    refine ⟨user, repo, parts?_eq_some_iff.mpr ⟨rfl, huser.nonempty, hrepo.nonempty, huser.noSlash,
      hrepo.noSlash⟩, if_pos ?_⟩
    rw [Bool.and_eq_true, List.all_eq_true, List.all_eq_true]
    exact ⟨huser.chars, hrepo.chars⟩

instance (o : List Char) : Decidable (IsClean o) :=
  decidable_of_iff (parseBare? o = some o) (parseBare?_eq_some_iff.trans (and_iff_right rfl))

theorem lead_of_mem_hosts {h : Host} (hh : h ∈ hosts) : ':' ∈ h.lead ∨ '/' ∈ h.lead := by
  simp only [hosts, List.mem_cons, List.not_mem_nil, or_false] at hh
  rcases hh with rfl | rfl | rfl | rfl <;> decide

/-- A clean selector is no address on a host. -/
theorem IsClean.parse?_host (H : IsClean o) {h : Host} (hh : h ∈ hosts) : h.parse? o = none := by
  rw [Option.eq_none_iff_forall_ne_some]
  intro selected hselected
  obtain ⟨⟨user', repo', rfl, -⟩, tail, -, hstands⟩ := h.of_parse? hselected
  have chars := H.isPair.isClean_iff.mp H
  obtain ⟨user, repo, ho, -, -, noSlash, hslash⟩ := H.isPair
  rcases lead_of_mem_hosts hh with colon | slash
  · have bad := chars ':' (hstands ▸ List.mem_append_left _ colon)
    exact absurd bad (by decide)
  · -- One slash would come from the host's lead, and another from the address's path.
    have one : o.count '/' = 1 := by
      rw [ho, List.count_append, List.count_cons_self, List.count_eq_zero_of_not_mem noSlash,
        List.count_eq_zero_of_not_mem hslash]
    have lead : 0 < h.lead.count '/' := List.count_pos_iff.mpr slash
    rw [hstands] at one
    simp only [List.count_append, List.count_cons_self] at one
    omega

/-- What the text of a selector is: an address on a host, or else the selector itself. -/
theorem of_parse? {text selector : String} (h : parse? text = some selector) :
    (∃ h ∈ hosts, h.parse? (Text.trimmed text).toList = some selector.toList)
      ∨ (Text.trimmed text).toList = selector.toList ∧ IsClean selector.toList := by
  rw [parse?, Option.map_eq_some_iff] at h
  obtain ⟨o, ho, rfl⟩ := h
  rw [String.toList_ofList]
  have either {a b : Option (List Char)} (h : (a <|> b) = some o) : a = some o ∨ b = some o := by
    cases a with
    | none => exact .inr h
    | some found => exact .inl h
  rcases either ho with addressed | bare
  · exact .inl (List.exists_of_findSome?_eq_some addressed)
  · exact .inr (parseBare?_eq_some_iff.mp bare)

theorem isBlank_of_toNat {c : Char} (h : 45 ≤ c.toNat ∧ c.toNat ≤ 122) :
    Text.isBlank c = false := by
  simp [Text.isBlank]
  omega

theorem IsClean.toNat (H : IsClean o) : ∀ c ∈ o, 45 ≤ c.toNat ∧ c.toNat ≤ 122 := by
  intro c hc
  rcases H.isPair.isClean_iff.mp H c hc with rfl | name
  · decide
  · exact toNat_of_isNameChar name

/-- A clean selector is read as itself. -/
theorem parse?_of_clean {selector : String} (H : IsClean selector.toList) :
    parse? selector = some selector := by
  have trimmed : Text.trimmed selector = selector :=
    Text.trimmed_eq_self fun c hc => isBlank_of_toNat (H.toNat c hc)
  have elsewhere : (hosts.findSome? fun h => h.parse? selector.toList) = none :=
    List.findSome?_eq_none_iff.mpr fun h hh => H.parse?_host hh
  have bare : parseBare? selector.toList = some selector.toList :=
    parseBare?_eq_some_iff.mpr ⟨rfl, H⟩
  simp only [parse?, trimmed, elsewhere, bare]
  exact congrArg some String.ofList_toList

end TermLink.Selector
