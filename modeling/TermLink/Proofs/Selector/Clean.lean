import TermLink.Proofs.Selector.Basic
import TermLink.Proofs.Session.Secret

/-!
# Clean selectors

A selector that was written out consists of two names. One that is taken from an address may hold
any characters besides its slash, since an address is not limited to those of names; it consists of
two names just when it is read as itself, and it can go with a dial just when it can be written into
a header field.
-/

namespace TermLink

namespace Gate

/-- A selector keeps no dial from being made that could be made without one, unless it cannot be
written. -/
theorem SessionRequest.exists_dial_repo (backend : Backend) (r : SessionRequest)
    (selector : String) :
    (∃ dial, { r with repo := some selector }.dial backend = .ok dial) ↔
      (∃ dial, { r with repo := none }.dial backend = .ok dial) ∧ Header.Writable selector := by
  have written (f : String) (size : Geometry) :
      (SessionInfo.toHeaders? f size (some selector) backend.secret).isSome ↔
        (SessionInfo.toHeaders? f size none backend.secret).isSome
          ∧ Header.Writable selector := by
    rw [SessionInfo.isSome_toHeaders?_iff f size (some selector),
      SessionInfo.isSome_toHeaders?_iff f size none backend.secret]
    constructor
    · rintro ⟨fields, hrepo, hsecret⟩
      exact ⟨⟨fields, nofun, hsecret⟩, hrepo selector rfl⟩
    · rintro ⟨⟨fields, -, hsecret⟩, hrepo⟩
      exact ⟨fields, fun r hr => Option.some.inj hr ▸ hrepo, hsecret⟩
  simp only [exists_dial, written]
  constructor
  · rintro ⟨f, size, hf, hsize, fields, hrepo⟩
    exact ⟨⟨f, size, hf, hsize, fields⟩, hrepo⟩
  · rintro ⟨⟨f, size, hf, hsize, fields⟩, hrepo⟩
    exact ⟨f, size, hf, hsize, fields, hrepo⟩

end Gate

namespace Selector

theorem IsClean.writable {selector : String} (H : IsClean selector.toList) :
    Header.Writable selector := by
  intro c hc
  have range := H.toNat c hc
  omega

theorem lead_ne_nil {h : Host} (hh : h ∈ hosts) : h.lead ≠ [] := by
  intro none
  rcases lead_of_mem_hosts hh with mark | mark <;> simp [none] at mark

/-- A selector stands in the text that it was read from. -/
theorem stands_of_parse? {text selector : String} (h : parse? text = some selector) :
    IsPair selector.toList ∧ ∃ lead, ∃ tail ∈ endings,
      (lead = [] ∧ IsClean selector.toList ∨ ∃ host ∈ hosts, lead = host.lead)
        ∧ (Text.trimmed text).toList = lead ++ (selector.toList ++ tail) := by
  rcases of_parse? h with ⟨host, hhost, selected⟩ | ⟨same, clean⟩
  · obtain ⟨pair, tail, htail, stands⟩ := host.of_parse? selected
    exact ⟨pair, host.lead, tail, htail, .inr ⟨host, hhost, rfl⟩, stands⟩
  · refine ⟨clean.isPair, [], [], by simp [endings], .inl ⟨rfl, clean⟩, ?_⟩
    rw [same, List.append_nil, List.nil_append]

/-- Only a clean selector is read as itself. -/
theorem parse?_eq_self_iff {selector : String} :
    parse? selector = some selector ↔ IsClean selector.toList := by
  constructor
  · intro h
    obtain ⟨-, lead, tail, -, which, stands⟩ := stands_of_parse? h
    rcases which with ⟨-, clean⟩ | ⟨host, hhost, rfl⟩
    · exact clean
    · -- The address would be longer than itself.
      have long : 0 < host.lead.length := List.length_pos_iff.mpr (lead_ne_nil hhost)
      have short := length_trim_le Text.isBlank selector.toList
      rw [Text.toList_trimmed] at stands
      rw [stands] at short
      simp only [List.length_append] at short
      omega
  · exact parse?_of_clean

theorem infix_firstWord (text : String) : (Text.firstWord text).toList <:+: text.toList := by
  rw [Text.firstWord, String.toList_ofList]
  exact (List.takeWhile_prefix _).isInfix.trans (List.dropWhile_suffix _).isInfix

theorem infix_trimmed (text : String) : (Text.trimmed text).toList <:+: text.toList := by
  obtain ⟨lead, tail, -, -, heq⟩ := exists_trim Text.isBlank text.toList
  exact ⟨lead, tail, by rw [Text.toList_trimmed, ← heq]⟩

/-- A selector that is read from a text or from a command is a pair of parts, and stands in the
text as it is. It is clean where it was written out, and else just when all its characters but the
slash are those of names. Just then it is read as itself; and it can then go with every dial, as
any selector can that may be written into a header field. -/
theorem clean_iff_of_selects {text selector : String}
    (h : parse? text = some selector ∨ ofCommand? text = some selector) :
    IsPair selector.toList
      ∧ (∃ lead, ∃ tail ∈ endings, lead ++ (selector.toList ++ tail) <:+: text.toList
          ∧ (lead = [] ∧ IsClean selector.toList ∨ ∃ host ∈ hosts, lead = host.lead))
      ∧ (IsClean selector.toList ↔ ∀ c ∈ selector.toList, c = '/' ∨ isNameChar c)
      ∧ (parse? selector = some selector ↔ IsClean selector.toList)
      ∧ (IsClean selector.toList → Header.Writable selector)
      ∧ ∀ (backend : Gate.Backend) (r : Gate.SessionRequest),
          (∃ dial, { r with repo := some selector }.dial backend = .ok dial) ↔
            (∃ dial, { r with repo := none }.dial backend = .ok dial)
              ∧ Header.Writable selector := by
  obtain ⟨address, within, selected⟩ :
      ∃ address : String, address.toList <:+: text.toList ∧ parse? address = some selector := by
    rcases h with h | h
    · exact ⟨text, List.infix_rfl, h⟩
    · exact ⟨Text.firstWord text, infix_firstWord text, h⟩
  obtain ⟨pair, lead, tail, htail, which, stands⟩ := stands_of_parse? selected
  refine ⟨pair, ⟨lead, tail, htail, ?_, which⟩, pair.isClean_iff, parse?_eq_self_iff,
    IsClean.writable, fun backend r => r.exists_dial_repo backend selector⟩
  rw [← stands]
  exact (infix_trimmed address).trans within

theorem clean_iff_of_selects_git :
    let text := "git@github.com:octo/widgets.git now"
    ofCommand? text = some "octo/widgets" ∧ IsClean "octo/widgets".toList
      ∧ Header.Writable "octo/widgets" ∧ parse? "octo/widgets" = some "octo/widgets" := by
  intro text
  have selected : ofCommand? text = some "octo/widgets" := by decide +kernel
  have clean : IsClean "octo/widgets".toList := by decide +kernel
  obtain ⟨-, -, -, self, writable, -⟩ := clean_iff_of_selects (.inr selected)
  exact ⟨selected, clean, writable clean, self.mpr clean⟩

/-- An address whose name holds another letter is taken all the same. Its selector is not clean,
is not read as a selector again, and lets no dial be made. -/
theorem unclean_selected :
    let text := "github.com/octo/w\u00efdgets"
    let selector := "octo/w\u00efdgets"
    parse? text = some selector ∧ ofCommand? text = some selector ∧ ¬IsClean selector.toList
      ∧ parse? selector = none
      ∧ ∀ (backend : Gate.Backend) (r : Gate.SessionRequest),
          ¬∃ dial, { r with repo := some selector }.dial backend = .ok dial := by
  intro text selector
  refine ⟨by decide +kernel, by decide +kernel, by decide +kernel, by decide +kernel, ?_⟩
  intro backend r dialled
  have writable := ((r.exists_dial_repo backend selector).mp dialled).2
  have unwritable : ¬Header.Writable selector := by
    rw [← Header.all_isVisible_encode]
    decide +kernel
  exact unwritable writable

end Selector

end TermLink
