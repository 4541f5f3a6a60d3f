import TermLink.Proofs.Message.Wire

/-!
# Lines from chunks

A reader of lines gives what the whole lines of a body hold, however the body is cut into chunks,
and keeps the bytes of the line that has not ended.

## Implementation notes

The reader hands a line over together with its line feed, and a body is cut at its line feeds; the
two agree because white space at the end of a line does not count.
-/

namespace TermLink

namespace Bytes

/-- Lines each of which has ended. -/
inductive Whole : Bytes → Prop
  | nil : Whole []
  | line {line rest : Bytes} (hline : lineFeed ∉ line) (hrest : Whole rest) :
    Whole (line ++ lineFeed :: rest)

/-- A body in two parts: the lines that have ended, and the one that has not. -/
structure Cut (body ended held : Bytes) : Prop where
  eq : body = ended ++ held
  ended : ended = [] ∨ ended.getLast? = some lineFeed
  held : lineFeed ∉ held

theorem whole_of_getLast? {body : Bytes} (h : body = [] ∨ body.getLast? = some lineFeed) :
    Whole body := by
  induction body with
  | nil => exact .nil
  | cons b rest ih =>
    by_cases hrest : rest = []
    · subst hrest
      obtain rfl : b = lineFeed := by simpa using h
      exact @Whole.line [] _ (by simp) .nil
    · have last : rest.getLast? = some lineFeed := by
        simpa [List.getLast?_cons, List.getLast?_eq_some_getLast hrest] using h
      have tail : Whole rest := ih (.inr last)
      by_cases hb : b = lineFeed
      · subst hb
        exact @Whole.line [] _ (by simp) tail
      · cases tail with
        | nil => exact absurd rfl hrest
        | @line line more hline hmore =>
          have longer : lineFeed ∉ b :: line := by simp [Ne.symm hb, hline]
          exact .line longer hmore

/-- Every body can be cut after its last line feed. -/
theorem exists_cut (body : Bytes) : ∃ ended held, Cut body ended held := by
  induction body with
  | nil => exact ⟨[], [], rfl, .inl rfl, by simp⟩
  | cons b rest ih =>
    obtain ⟨ended, held, rfl, hended, hheld⟩ := ih
    by_cases hb : ended = [] ∧ b ≠ lineFeed
    · obtain ⟨rfl, hb⟩ := hb
      exact ⟨[], b :: held, rfl, .inl rfl, by simp [Ne.symm hb, hheld]⟩
    · refine ⟨b :: ended, held, rfl, .inr ?_, hheld⟩
      rcases hended with rfl | hlast
      · simpa using hb
      · simp [List.getLast?_cons, hlast]

end Bytes

namespace Message

open Bytes (lineFeed)

theorem decode_congr {a b : Bytes} (h : a.trimmed = b.trimmed) : decode a = decode b := by
  simp only [decode, h]

theorem trimmed_lineFeed (line : Bytes) : Bytes.trimmed (line ++ [lineFeed]) = line.trimmed :=
  trim_append_right (by simp [lineFeed, Bytes.isBlank]) line

/-- The line feed of a line does not count. -/
theorem itemOfLine?_lineFeed (line : Bytes) :
    itemOfLine? (line ++ [lineFeed]) = itemOfLine? line := by
  simp only [itemOfLine?, trimmed_lineFeed, decode_congr (trimmed_lineFeed line)]

theorem decodeLines_line {line : Bytes} (hline : lineFeed ∉ line) (rest : Bytes) :
    decodeLines (line ++ lineFeed :: rest) = (itemOfLine? line).toList ++ decodeLines rest := by
  have piece : ∀ b ∈ line, decide (b = lineFeed) = false := by
    rintro b hb
    apply decide_eq_false
    rintro rfl
    exact hline hb
  have cut : Bytes.lines (line ++ lineFeed :: rest) = line :: Bytes.lines rest :=
    pieces_append_cons piece (decide_eq_true rfl) rest
  by_cases hblank : line.trimmed = [] <;> simp [decodeLines, cut, itemOfLine?, hblank]

namespace LineReader

variable (r : LineReader) (done : List Item)

theorem feedAll_eq (bytes : Bytes) :
    r.feedAll done bytes = ((r.feedAll [] bytes).1, done.reverse ++ (r.feedAll [] bytes).2) := by
  induction bytes generalizing r done with
  | nil => simp [feedAll]
  | cons b rest ih =>
    simp only [feedAll]
    cases r.feed b with
    | mk next item =>
      cases item with
      | none => exact ih next done
      | some item =>
        have later := ih next (item :: done)
        have first := ih next [item]
        simp only [later, first, List.reverse_cons, List.append_assoc, List.reverse_nil,
          List.nil_append]

theorem feedAll_append (a b : Bytes) :
    r.feedAll done (a ++ b) = (r.feedAll done a).1.feedAll (r.feedAll done a).2.reverse b := by
  induction a generalizing r done with
  | nil => simp [feedAll]
  | cons x a ih =>
    simp only [List.cons_append, feedAll]
    cases r.feed x with
    | mk next item => cases item <;> exact ih _ _

/-- Chunks are read like the bytes of all of them. -/
theorem pushAll_eq (chunks : List Bytes) :
    ((r.pushAll chunks).1, (r.pushAll chunks).2.flatten) = r.feedAll [] chunks.flatten := by
  induction chunks generalizing r with
  | nil => rfl
  | cons chunk rest ih =>
    have tail := ih (r.push chunk).1
    simp only [push] at tail
    rw [List.flatten_cons, feedAll_append, feedAll_eq, ← tail]
    simp [pushAll, push]

/-- Bytes without a line feed are held. -/
theorem feedAll_held {bytes : Bytes} (h : lineFeed ∉ bytes) :
    r.feedAll done bytes = (⟨bytes.reverse ++ r.held⟩, done.reverse) := by
  induction bytes generalizing r with
  | nil => rfl
  | cons b rest ih =>
    have hb : b ≠ lineFeed := by
      rintro rfl
      simp at h
    have hrest : lineFeed ∉ rest := by
      intro hmem
      exact h (List.mem_cons_of_mem _ hmem)
    simp only [feedAll, feed, if_neg hb, ih _ hrest]
    simp

/-- A line feed ends the line that is held. -/
theorem feedAll_line {line : Bytes} (h : lineFeed ∉ line) (rest : Bytes) :
    feedAll {} done (line ++ lineFeed :: rest) =
      feedAll {} ((itemOfLine? line).toList ++ done) rest := by
  have ended : (line.reverse ++ []).reverse ++ [lineFeed] = line ++ [lineFeed] := by simp
  rw [feedAll_append, feedAll_held _ _ h]
  simp only [feedAll, feed, if_true, List.reverse_cons, ended, itemOfLine?_lineFeed,
    List.reverse_reverse]
  cases itemOfLine? line <;> rfl

theorem feedAll_whole {ended : Bytes} (h : ended.Whole) (rest : Bytes) :
    feedAll {} done (ended ++ rest) = feedAll {} ((decodeLines ended).reverse ++ done) rest := by
  induction h generalizing done with
  | nil => rfl
  | @line line more hline hmore ih =>
    rw [List.append_assoc, List.cons_append, feedAll_line _ hline, ih, decodeLines_line hline]
    cases itemOfLine? line <;> simp

/-- The reader gives the items of the lines that have ended, and holds the rest. -/
theorem feedAll_cut {body ended held : Bytes} (h : body.Cut ended held) :
    feedAll {} [] body = (⟨held.reverse⟩, decodeLines ended) := by
  rw [h.eq, feedAll_whole _ (Bytes.whole_of_getLast? h.ended), feedAll_held _ _ h.held]
  simp

end LineReader

/-- Lines that were written have ended. -/
theorem cut_encodeLines (ms : List Message) : (encodeLines ms).Cut (encodeLines ms) [] := by
  refine ⟨(List.append_nil _).symm, ?_, by simp⟩
  rcases List.eq_nil_or_concat ms with rfl | ⟨first, last, rfl⟩
  · exact .inl rfl
  · right
    simp [encodeLines, encodeLine, ← List.append_assoc]

/-- How a body is cut into chunks cannot be told from what a reader of lines gives for it, which is
what the lines hold that have ended; only the bytes after them are held. -/
theorem pushAll_of_cut :
    (∀ body : Bytes, ∃ ended held, body.Cut ended held)
      ∧ (∀ (chunks : List Bytes) (ended held : Bytes), Bytes.Cut chunks.flatten ended held →
          (LineReader.pushAll {} chunks).2.flatten = decodeLines ended
            ∧ (LineReader.pushAll {} chunks).1.pending = held.length)
      ∧ ∀ (ms : List Message) (chunks : List Bytes), chunks.flatten = encodeLines ms →
          (LineReader.pushAll {} chunks).2.flatten = ms.map .ok
            ∧ (LineReader.pushAll {} chunks).1.pending = 0
            ∧ decodeLines (encodeLines ms) = ms.map .ok := by
  have reads : ∀ (chunks : List Bytes) (ended held : Bytes), Bytes.Cut chunks.flatten ended held →
      (LineReader.pushAll {} chunks).2.flatten = decodeLines ended
        ∧ (LineReader.pushAll {} chunks).1.pending = held.length := by
    intro chunks ended held hcut
    have all := (LineReader.pushAll_eq {} chunks).trans (LineReader.feedAll_cut hcut)
    obtain ⟨reader, items⟩ := Prod.mk.inj all
    exact ⟨items, by simp [LineReader.pending, reader]⟩
  refine ⟨Bytes.exists_cut, reads, ?_⟩
  intro ms chunks hchunks
  have written := decodeLines_encodeLines ms
  have cut : Bytes.Cut chunks.flatten (encodeLines ms) [] := hchunks ▸ cut_encodeLines ms
  obtain ⟨items, pending⟩ := reads chunks _ _ cut
  exact ⟨items.trans written, pending, written⟩

theorem pushAll_of_cut_torn :
    let chunks := [Utf8.encode "\x7b\"type\":\"pi", Utf8.encode "ng\"\x7d\r\n\n x\n\x7b"]
    let torn := [(encodeLines [.ping 7, .exit 3]).take 9, (encodeLines [.ping 7, .exit 3]).drop 9]
    (Bytes.Cut chunks.flatten (Utf8.encode "\x7b\"type\":\"ping\"\x7d\r\n\n x\n") [123]
        ∧ (LineReader.pushAll {} chunks).2.flatten = [.ok (.ping 0), .error .malformed]
        ∧ (LineReader.pushAll {} chunks).1.pending = 1)
      ∧ torn.flatten = encodeLines [.ping 7, .exit 3]
      ∧ (LineReader.pushAll {} torn).2.flatten = [.ok (.ping 7), .ok (.exit 3)] := by
  intro chunks torn
  obtain ⟨-, reads, written⟩ := pushAll_of_cut
  have cut : Bytes.Cut chunks.flatten (Utf8.encode "\x7b\"type\":\"ping\"\x7d\r\n\n x\n") [123] :=
    ⟨by decide, .inr (by decide), by decide⟩
  have items : decodeLines (Utf8.encode "\x7b\"type\":\"ping\"\x7d\r\n\n x\n") =
      [.ok (.ping 0), .error .malformed] := by
    decide +kernel
  have whole : torn.flatten = encodeLines [.ping 7, .exit 3] := by simp [torn]
  obtain ⟨given, pending⟩ := reads chunks _ _ cut
  exact ⟨⟨cut, given.trans items, pending⟩, whole, (written _ torn whole).1⟩

end Message
end TermLink
