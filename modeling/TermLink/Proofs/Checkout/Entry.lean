import TermLink.Checkout.Preparer
import TermLink.Proofs.Checkout.Name
import TermLink.Proofs.Sequence
import TermLink.Proofs.Text.Utf8

/-!
# One step below a root

A name that leads one step from a directory, and the bytes of the paths below a root that go through
such a name. Where the root is a text, all of these are texts, so that reading them forgivingly
changes nothing.
-/

namespace TermLink

namespace Path

/-- The path of a directory with the slash after which the names in it come. -/
def lead (directory : Bytes) : Bytes :=
  if directory = [] ∨ directory.getLast? = some slash then directory else directory ++ [slash]

variable {directory path : Bytes}

theorem joinBytes_of_noSlash (h : slash ∉ path) : joinBytes directory path =
    lead directory ++ path := by
  have relative : beginsWith [slash] path = false := by
    rw [beginsWith, Option.isSome_eq_false_iff, Option.isNone_iff_eq_none,
      Option.eq_none_iff_forall_ne_some]
    intro rest hrest
    rw [afterLead?_eq_some_iff.mp hrest] at h
    exact h (List.mem_append_left _ List.mem_cons_self)
  rw [joinBytes, joinOn, relative, lead]
  by_cases empty : directory = []
  · simp [empty]
  · by_cases slashed : directory.getLast? = some slash <;> simp [empty, slashed]

/-- A text joined to a text is a text. -/
theorem joinBytes_encode (directory path : String) :
    ∃ text, joinBytes (Utf8.encode directory) (Utf8.encode path) = Utf8.encode text := by
  have mark : Utf8.encode "/" = [slash] := rfl
  rw [joinBytes, joinOn]
  split
  · exact ⟨path, rfl⟩
  split
  · exact ⟨directory ++ path, by rw [Utf8.encode_append]⟩
  · exact ⟨directory ++ "/" ++ path, by simp [mark]⟩

end Path

namespace Checkout

/-- A name that leads from a directory to something right below it. -/
structure IsComponent (n : String) : Prop where
  nonempty : n ≠ ""
  notSame : n ≠ "."
  notAbove : n ≠ ".."
  noSlash : '/' ∉ n.toList

/-- Whatever an address says, the name of its directory leads no further than one step. -/
theorem isComponent_of_name? {address n : String} (h : name? address = some n) :
    IsComponent n := by
  rw [name?] at h
  split at h
  · cases h
  · next usable =>
    obtain rfl := Option.some.inj h
    rw [not_or, not_or] at usable
    have differs {part : List Char} (hpart : lastPart address.toList ≠ part) :
        String.ofList (lastPart address.toList) ≠ String.ofList part := by
      intro same
      rw [← String.toList_inj, String.toList_ofList, String.toList_ofList] at same
      exact hpart same
    refine ⟨differs usable.1, differs usable.2.1, differs usable.2.2, ?_⟩
    rw [String.toList_ofList]
    exact fun slash => absurd (isDivider_of_mem_lastPart slash) (by decide)

namespace IsComponent

variable {n : String}

theorem slash_notMem_encode (hn : IsComponent n) : Path.slash ∉ Utf8.encode n := by
  intro slash
  rw [← String.ofList_toList (s := n), Utf8.encode_ofList] at slash
  obtain ⟨c, hc, hbyte⟩ := List.mem_flatMap.mp slash
  have number : c.toNat = '/'.toNat := Utf8.eq_of_mem_utf8EncodeChar (by decide) hbyte
  have same : c = '/' := by
    rw [← Char.ofNat_toNat c, number]
    rfl
  exact hn.noSlash (same ▸ hc)

theorem encode_ne_nil (hn : IsComponent n) : Utf8.encode n ≠ [] := by
  intro empty
  have same := Utf8.decode?_encode n
  rw [empty] at same
  exact hn.nonempty (Option.some.inj same).symm

end IsComponent

namespace Preparer

variable {n : String}

/-- The directory of an entry is one step below the root. -/
theorem directory_entry (p : Preparer) (hn : IsComponent n) :
    p.directory (.entry n) = Path.lead p.rootPath ++ Utf8.encode n :=
  Path.joinBytes_of_noSlash hn.slash_notMem_encode

/-- The repository of an entry is one step below its directory. -/
theorem repository_eq (p : Preparer) (hn : IsComponent n) :
    p.repository n = p.directory (.entry n) ++ Path.slash :: Utf8.encode gitName := by
  have nonempty : p.directory (.entry n) ≠ [] := by
    rw [p.directory_entry hn]
    exact List.append_ne_nil_of_right_ne_nil _ hn.encode_ne_nil
  have unslashed : (p.directory (.entry n)).getLast? ≠ some Path.slash := by
    rw [p.directory_entry hn, List.getLast?_append_of_ne_nil _ hn.encode_ne_nil]
    exact fun last => hn.slash_notMem_encode (List.mem_of_getLast? last)
  have short : Path.slash ∉ Utf8.encode gitName := by decide
  rw [repository, Path.joinBytes_of_noSlash short, Path.lead,
    if_neg (not_or.mpr ⟨nonempty, unslashed⟩), List.append_assoc]
  rfl

/-- Below a root that is a text, the path of a place as a text is the very directory. -/
theorem encode_path {root : String} (p : Preparer) (hroot : p.rootPath = Utf8.encode root)
    (place : Place) : Utf8.encode (p.path place) = p.directory place := by
  have text : ∃ text, p.directory place = Utf8.encode text := by
    cases place with
    | root => exact ⟨root, hroot⟩
    | entry n =>
      rw [directory, hroot]
      exact Path.joinBytes_encode root n
  obtain ⟨text, htext⟩ := text
  rw [path, htext, Utf8.decodeLossy_encode]

end Preparer
end Checkout
end TermLink
