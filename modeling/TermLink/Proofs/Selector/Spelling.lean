import TermLink.Proofs.Selector.Basic

/-!
# Spellings of a repository

A repository is spelled as its selector, as the address of its page or as the address for a clone.
Every spelling is read as the same selector, whatever white space stands around it, and in a command
whatever words come after it.
-/

namespace TermLink

namespace Text

/-- The first word of a text is what stands between white space. -/
theorem firstWord_surrounded {before word rest : List Char} (hbefore : ∀ c ∈ before, isBlank c)
    (hne : word ≠ []) (hword : ∀ c ∈ word, isBlank c = false)
    (hrest : ∀ c ∈ rest.head?, isBlank c) :
    firstWord (String.ofList (before ++ word ++ rest)) = String.ofList word := by
  obtain ⟨c, cs, rfl⟩ := List.exists_cons_of_ne_nil hne
  have skipped : (before ++ (c :: cs ++ rest)).dropWhile isBlank = c :: cs ++ rest := by
    rw [List.dropWhile_append_of_pos hbefore, List.cons_append]
    exact List.dropWhile_cons_of_neg (by simp [hword c List.mem_cons_self])
  have taken : (c :: cs ++ rest).takeWhile (fun c => !isBlank c) = c :: cs := by
    have own : ∀ x ∈ c :: cs, (!isBlank x) = true := by
      intro x hx
      rw [hword x hx, Bool.not_false]
    rw [List.takeWhile_append_of_pos own]
    cases rest with
    | nil => exact List.append_nil _
    | cons d more =>
      have stops : isBlank d = true := hrest d rfl
      rw [List.takeWhile_cons_of_neg (by simp [stops]), List.append_nil]
  rw [firstWord, String.toList_ofList, List.append_assoc, skipped, taken]

end Text

namespace Selector

/-- The ways to name the protocol before a page's address. -/
inductive Scheme where
  | none
  | http
  | https
  deriving DecidableEq, Repr

/-- What stands before a page's address. -/
def Scheme.text : Scheme → String
  | .none => ""
  | .http => "http://"
  | .https => "https://"

/-- The ways to spell a repository. -/
inductive Spelling where
  /-- The selector itself. -/
  | bare
  /-- The address of the repository's page, with `.git` or a slash at its end. -/
  | page (scheme : Scheme) (git slash : Bool)
  /-- The address for a clone over SSH, with `.git` at its end. -/
  | clone (git : Bool)
  deriving DecidableEq, Repr

/-- What stands before the selector. -/
def Spelling.lead : Spelling → String
  | .bare => ""
  | .page scheme _ _ => scheme.text ++ "github.com/"
  | .clone _ => "git@github.com:"

/-- What stands after the selector. -/
def Spelling.tail : Spelling → String
  | .bare => ""
  | .page _ git slash => (if git then ".git" else "") ++ (if slash then "/" else "")
  | .clone git => if git then ".git" else ""

/-- How a repository is spelled. -/
def Spelling.text (user repo : String) (s : Spelling) : String :=
  s.lead ++ (user ++ "/" ++ repo) ++ s.tail

variable {user repo : List Char}

/-- What an address of a repository on a host is read as. -/
theorem Host.parse?_address {h : Host} (huser : IsName user) (hrepo : IsName repo)
    (hend : ¬gitEnding <:+ repo) {git slash : List Char} (hgit : git = [] ∨ git = gitEnding)
    (hslash : slash = [] ∨ slash = ['/'] ∧ h.endSlash) :
    h.parse? (h.lead ++ (user ++ '/' :: (repo ++ git) ++ slash)) = some (user ++ '/' :: repo) := by
  have noSlash : '/' ∉ repo ++ git := by
    rcases hgit with rfl | rfl
    · simpa using hrepo.noSlash
    · simpa [gitEnding] using hrepo.noSlash
  have nonempty : repo ++ git ≠ [] := List.append_ne_nil_of_left_ne_nil hrepo.nonempty git
  have after : afterLead? h.lead (h.lead ++ (user ++ '/' :: (repo ++ git) ++ slash)) =
      some (user ++ '/' :: (repo ++ git) ++ slash) := afterLead?_eq_some_iff.mpr rfl
  have path : (if h.endSlash then
        (beforeTail? ['/'] (user ++ '/' :: (repo ++ git) ++ slash)).getD
          (user ++ '/' :: (repo ++ git) ++ slash)
      else user ++ '/' :: (repo ++ git) ++ slash) = user ++ '/' :: (repo ++ git) := by
    rcases hslash with rfl | ⟨rfl, ends⟩
    · have kept : beforeTail? ['/'] (user ++ '/' :: (repo ++ git)) = none := by
        rw [Option.eq_none_iff_forall_ne_some]
        intro front hfront
        -- The last character would be the slash, but it is one of the repository's name.
        have last := congrArg List.getLast? (beforeTail?_eq_some_iff.mp hfront)
        rw [List.getLast?_append_cons, List.getLast?_cons_of_ne_nil nonempty] at last
        have slash : (front ++ ['/']).getLast? = some '/' := by simp
        exact noSlash (List.mem_of_getLast? (last.trans slash))
      rw [List.append_nil, kept, Option.getD_none, ite_self]
    · have cut : beforeTail? ['/'] (user ++ '/' :: (repo ++ git) ++ ['/']) =
          some (user ++ '/' :: (repo ++ git)) := beforeTail?_eq_some_iff.mpr rfl
      rw [if_pos ends, cut, Option.getD_some]
  have parts : parts? (user ++ '/' :: (repo ++ git)) = some (user, repo ++ git) :=
    parts?_eq_some_iff.mpr ⟨rfl, huser.nonempty, nonempty, huser.noSlash, noSlash⟩
  simp only [Host.parse?, after, path, parts, Option.bind_eq_bind, Option.bind_some,
    dropGitEnding_append hrepo.nonempty hend hgit]

/-- An address on a host is no address on one that is tried before. -/
theorem pairwise_hosts :
    hosts.Pairwise fun a b => ∀ rest, a.parse? (b.lead ++ rest) = none := by
  have apart {a : Host} {lead : List Char} (h : ∀ rest, afterLead? a.lead (lead ++ rest) = none) :
      ∀ rest, a.parse? (lead ++ rest) = none := by
    intro rest
    rw [Host.parse?, h rest]
    rfl
  simp only [hosts, List.pairwise_cons, List.mem_cons, List.not_mem_nil, or_false,
    forall_eq_or_imp, forall_eq]
  refine ⟨⟨?_, ?_, ?_⟩, ⟨?_, ?_⟩, ?_, fun _ h => h.elim, .nil⟩
  all_goals
    apply apart
    intro rest
    rfl

theorem findSome?_address {h : Host} (hh : h ∈ hosts) {rest o : List Char}
    (hparse : h.parse? (h.lead ++ rest) = some o) :
    (hosts.findSome? fun other => other.parse? (h.lead ++ rest)) = some o := by
  obtain ⟨before, after, split⟩ := List.append_of_mem hh
  have apart := pairwise_hosts
  rw [split, List.pairwise_append] at apart
  rw [List.findSome?_eq_some_iff]
  exact ⟨before, h, after, split, hparse, fun a ha => apart.2.2 a ha h List.mem_cons_self rest⟩

/-- A spelling is the selector itself, or an address on a host. -/
theorem Spelling.eq_bare_or_address (s : Spelling) :
    s = .bare ∨ ∃ h ∈ hosts, ∃ git slash, s.lead.toList = h.lead
      ∧ s.tail.toList = git ++ slash ∧ (git = [] ∨ git = gitEnding)
      ∧ (slash = [] ∨ slash = ['/'] ∧ h.endSlash) := by
  have ending (git : Bool) : (if git then ".git" else "").toList = [] ∨
      (if git then ".git" else "").toList = gitEnding := by
    cases git
    · exact .inl rfl
    · exact .inr rfl
  have closing (slash : Bool) : (if slash then "/" else "").toList = [] ∨
      (if slash then "/" else "").toList = ['/'] := by
    cases slash
    · exact .inl rfl
    · exact .inr rfl
  cases s with
  | bare => exact .inl rfl
  | page scheme git slash =>
    obtain ⟨h, hh, hlead, ends⟩ : ∃ h ∈ hosts, (scheme.text ++ "github.com/").toList = h.lead
        ∧ h.endSlash := by
      cases scheme with
      | none => exact ⟨⟨"github.com/".toList, true⟩, by simp [hosts], rfl, rfl⟩
      | http => exact ⟨⟨"http://github.com/".toList, true⟩, by simp [hosts], rfl, rfl⟩
      | https => exact ⟨⟨"https://github.com/".toList, true⟩, by simp [hosts], rfl, rfl⟩
    exact .inr ⟨h, hh, _, _, hlead, String.toList_append, ending git,
      (closing slash).imp_right fun e => ⟨e, ends⟩⟩
  | clone git =>
    exact .inr ⟨⟨"git@github.com:".toList, false⟩, by simp [hosts], _, [], rfl,
      (List.append_nil _).symm, ending git, .inl rfl⟩

theorem isBlank_of_all {cs : List Char} (h : cs.all fun c => !Text.isBlank c) :
    ∀ c ∈ cs, Text.isBlank c = false := by
  intro c hc
  rw [← Bool.not_eq_true']
  exact List.all_eq_true.mp h c hc

theorem isBlank_of_mem_lead {h : Host} (hh : h ∈ hosts) :
    ∀ c ∈ h.lead, Text.isBlank c = false := by
  apply isBlank_of_all
  simp only [hosts, List.mem_cons, List.not_mem_nil, or_false] at hh
  rcases hh with rfl | rfl | rfl | rfl <;> decide

section Repository

variable {user repo : String} (huser : IsName user.toList) (hrepo : IsName repo.toList)
include huser hrepo

theorem isClean_joined : IsClean (user ++ "/" ++ repo).toList :=
  ⟨user.toList, repo.toList, by simp, huser, hrepo⟩

/-- There is no white space in a spelling. -/
theorem Spelling.isBlank_of_mem (s : Spelling) :
    ∀ c ∈ (s.text user repo).toList, Text.isBlank c = false := by
  have selector : ∀ c ∈ (user ++ "/" ++ repo).toList, Text.isBlank c = false :=
    fun c hc => isBlank_of_toNat ((isClean_joined huser hrepo).toNat c hc)
  rcases s.eq_bare_or_address with rfl | ⟨h, hh, git, slash, hlead, htail, hgit, hslash⟩
  · intro c hc
    exact selector c (by simpa [text, lead, tail] using hc)
  · have ending : ∀ c ∈ git ++ slash, Text.isBlank c = false := by
      apply isBlank_of_all
      rcases hgit with rfl | rfl <;> rcases hslash with rfl | ⟨rfl, -⟩ <;> decide
    intro c hc
    rw [text, String.toList_append, String.toList_append, hlead, htail] at hc
    rcases List.mem_append.mp hc with hc | hc
    · rcases List.mem_append.mp hc with hc | hc
      · exact isBlank_of_mem_lead hh c hc
      · exact selector c hc
    · exact ending c hc

/-- Every spelling of a repository is read as its selector. -/
theorem Spelling.parse?_text (hend : ¬gitEnding <:+ repo.toList) (s : Spelling) :
    parse? (s.text user repo) = some (user ++ "/" ++ repo) := by
  rcases s.eq_bare_or_address with rfl | ⟨h, hh, git, slash, hlead, htail, hgit, hslash⟩
  · have bare : text user repo .bare = user ++ "/" ++ repo := by simp [text, lead, tail]
    rw [bare]
    exact parse?_of_clean (isClean_joined huser hrepo)
  · have spelled : (s.text user repo).toList =
        h.lead ++ (user.toList ++ '/' :: (repo.toList ++ git) ++ slash) := by
      rw [text, String.toList_append, String.toList_append, hlead, htail]
      simp
    have trimmed : Text.trimmed (s.text user repo) = s.text user repo :=
      Text.trimmed_eq_self (s.isBlank_of_mem huser hrepo)
    have address := findSome?_address hh (h.parse?_address huser hrepo hend hgit hslash)
    simp only [parse?, trimmed, spelled, address]
    apply congrArg some
    rw [← String.toList_inj, String.toList_ofList]
    simp

end Repository

/-- All spellings of a repository select it, whatever white space stands around them; so they do in
a command, whatever stands behind the white space that follows them. -/
theorem selects_every_spelling {user repo : String} (huser : IsName user.toList)
    (hrepo : IsName repo.toList) (hend : ¬gitEnding <:+ repo.toList) (s : Spelling)
    {before after : String} (hbefore : Text.blank before) (hafter : Text.blank after) :
    parse? (before ++ s.text user repo ++ after) = some (user ++ "/" ++ repo)
      ∧ ∀ rest : String, (∀ c ∈ rest.toList.head?, Text.isBlank c) →
          ofCommand? (before ++ s.text user repo ++ rest) = some (user ++ "/" ++ repo) := by
  have selected := s.parse?_text huser hrepo hend
  have lead : ∀ c ∈ before.toList, Text.isBlank c := List.all_eq_true.mp hbefore
  have tail : ∀ c ∈ after.toList, Text.isBlank c := List.all_eq_true.mp hafter
  have around (rest : String) : before ++ s.text user repo ++ rest =
      String.ofList (before.toList ++ (s.text user repo).toList ++ rest.toList) := by
    rw [← String.toList_inj, String.toList_ofList, String.toList_append, String.toList_append]
  constructor
  · have inner : Text.trimmed (before ++ s.text user repo ++ after) =
        Text.trimmed (s.text user repo) := by
      rw [around, Text.trimmed_surrounded lead tail, String.ofList_toList]
    rw [← selected, parse?, parse?, inner]
  · intro rest hrest
    have nonempty : (s.text user repo).toList ≠ [] := by
      simp [Spelling.text]
    rw [ofCommand?, around, Text.firstWord_surrounded lead nonempty
      (s.isBlank_of_mem huser hrepo) hrest, String.ofList_toList, selected]

theorem selects_every_spelling_page :
    let spelling := Spelling.page .https true true
    spelling.text "github.com" "a.git.b" = "https://github.com/github.com/a.git.b.git/"
      ∧ parse? " https://github.com/github.com/a.git.b.git/\n" = some "github.com/a.git.b"
      ∧ ofCommand? "https://github.com/github.com/a.git.b.git/ octo/widgets" =
          some "github.com/a.git.b" := by
  intro spelling
  have spelled : spelling.text "github.com" "a.git.b" =
      "https://github.com/github.com/a.git.b.git/" := by decide +kernel
  have huser : IsName "github.com".toList := ⟨by decide, List.all_eq_true.mp (by decide)⟩
  have hrepo : IsName "a.git.b".toList := ⟨by decide, List.all_eq_true.mp (by decide)⟩
  have hend : ¬gitEnding <:+ "a.git.b".toList := by decide
  obtain ⟨alone, -⟩ :=
    @selects_every_spelling _ _ huser hrepo hend spelling " " "\n" rfl rfl
  obtain ⟨-, command⟩ :=
    @selects_every_spelling _ _ huser hrepo hend spelling "" "" rfl rfl
  have first := command " octo/widgets" (by rintro _ ⟨⟩; rfl)
  rw [spelled] at alone first
  exact ⟨spelled, alone, first⟩

end Selector

end TermLink
