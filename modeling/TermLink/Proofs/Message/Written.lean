import TermLink.Proofs.Json.Record
import TermLink.Proofs.Message.Wire

/-!
# The ways to write a message

A message is decoded from every object that gives its fields, in any order and among any others, and
from every way to write that object.
-/

namespace TermLink

namespace Message

open Json

/-- The message of a kind of which no field is given. -/
def Kind.blank : Kind → Message
  | .init => .init ⟨0, 0⟩ none
  | .data => .data []
  | .resize => .resize ⟨0, 0⟩
  | .exit => .exit 0
  | .ping => .ping 0
  | .pong => .pong 0
  | .error => .error ""
  | .status => .status ""

/-- The ways to give a field that has a value and a default: the value under a name of the field,
null where there is no value, and nothing where the value is the default. -/
inductive Gives (f : Field) (value default : Slot) : Option (String × Json) → Prop
  | value {name : String} {v : Json} (hname : name ∈ f.names) (hv : value = some v) :
    Gives f value default (some (name, v))
  | null {name : String} (hname : name ∈ f.names) (hv : value = none) :
    Gives f value default (some (name, .null))
  | nothing (h : value = default) : Gives f value default none

/-- Whether a name means nothing to messages of a kind. -/
def Kind.Ignores (k : Kind) (name : String) : Prop :=
  name ≠ tagName ∧ ∀ f ∈ k.fields, name ∉ f.names

/-- The fields of an object that gives a message: its tag, its own fields, and any others that mean
nothing to its kind and are values that can be read, all in any order. -/
inductive Given (m : Message) : List (String × Json) → Prop
  | fields {own : List (Option (String × Json))} {others given : List (String × Json)}
      (hown : List.Forall₂ (fun field entry => Gives field.1 field.2.1 field.2.2 entry)
        (m.kind.fields.zip (m.slots.zip m.kind.blank.slots)) own)
      (hothers : ∀ f ∈ others, m.kind.Ignores f.1 ∧ Within (·.isFinite) (maxDepth - 1) f.2)
      (horder : given.Perm ((tagName, .text m.kind.tag) :: own.reduceOption ++ others)) :
    Given m given

theorem Gives.mem_names {f : Field} {value default : Slot} {entry : Option (String × Json)}
    (h : Gives f value default entry) : ∀ e ∈ entry, e.1 ∈ f.names := by
  cases h with
  | value hname | null hname =>
    intro e he
    obtain rfl := Option.mem_some.mp he
    exact hname
  | nothing => simp

theorem Gives.within {P : Numeral → Prop} {n : Nat} {f : Field} {value default : Slot}
    {entry : Option (String × Json)} (h : Gives f value default entry)
    (hvalue : ∀ v, value = some v → Within P n v) : ∀ e ∈ entry, Within P n e.2 := by
  intro e he
  cases h with
  | value _ hv =>
    obtain rfl := Option.mem_some.mp he
    exact hvalue _ hv
  | null =>
    obtain rfl := Option.mem_some.mp he
    exact .null n
  | nothing => simp at he

/-- A reader to which the default is nothing reads what was given as the value. -/
theorem Gives.read {α : Type} (read : Slot → Option α) {f : Field} {value default : Slot}
    {entry : Option (String × Json)} (h : Gives f value default entry)
    (hdefault : read default = read none) (hnull : value = none → read (some .null) = read none) :
    read (entry.map Prod.snd) = read value := by
  cases h with
  | value _ hv =>
    rw [hv]
    rfl
  | null _ hv =>
    rw [hv]
    exact hnull hv
  | nothing hv =>
    rw [hv, hdefault]
    rfl

variable {m : Message}

theorem fields_zip_slots (m : Message) :
    (m.kind.fields.zip (m.slots.zip m.kind.blank.slots)).map Prod.fst = m.kind.fields := by
  cases m <;> rfl

/-- What gives a message's own fields is an entry for each. -/
theorem entries_of_gives {own : List (Option (String × Json))}
    (h : List.Forall₂ (fun field entry => Gives field.1 field.2.1 field.2.2 entry)
      (m.kind.fields.zip (m.slots.zip m.kind.blank.slots)) own) :
    Entries m.kind.fields own := by
  rw [← fields_zip_slots m]
  exact List.forall₂_map_left_iff.mpr (h.imp fun _ _ hg => hg.mem_names)

theorem apart_fields (k : Kind) : k.fields.Pairwise Apart := by
  cases k <;> simp [Kind.fields, Apart, Field.names]

theorem tagName_not_mem_names (k : Kind) : ∀ f ∈ k.fields, tagName ∉ f.names := by
  cases k <;> simp [Kind.fields, Field.names, tagName]

/-- The tag is not among fields under a kind's own names. -/
theorem fieldsNamed_tagName {k : Kind} {own : List (Option (String × Json))}
    (h : Entries k.fields own) : fieldsNamed [tagName] own.reduceOption = [] := by
  apply fieldsNamed_of_forall_not_mem
  intro e he hname
  obtain ⟨f, hf, hmem⟩ := h.exists_of_mem he
  rw [List.mem_singleton.mp hname] at hmem
  exact tagName_not_mem_names k f hf hmem

/-- The slots of fields that give a message hold that message. -/
theorem ofSlots?_of_gives {own : List (Option (String × Json))}
    (h : List.Forall₂ (fun field entry => Gives field.1 field.2.1 field.2.2 entry)
      (m.kind.fields.zip (m.slots.zip m.kind.blank.slots)) own) :
    ofSlots? m.kind (own.map (Option.map Prod.snd)) = some m := by
  have zero := readInt64?_int64Json 0
  have whole := ofSlots?_slots m
  cases m with
  | init size repo =>
    obtain _ | ⟨hcols, _ | ⟨hrows, _ | ⟨hrepo, _ | _⟩⟩⟩ := h
    have cols := hcols.read readInt64? zero (by simp)
    have rows := hrows.read readInt64? zero (by simp)
    have selector := hrepo.read readOptionalText? rfl fun _ => rfl
    simp only [kind, List.map_cons, List.map_nil, ofSlots?, cols, rows, selector]
    exact whole
  | resize size =>
    obtain _ | ⟨hcols, _ | ⟨hrows, _ | _⟩⟩ := h
    have cols := hcols.read readInt64? zero (by simp)
    have rows := hrows.read readInt64? zero (by simp)
    simp only [kind, List.map_cons, List.map_nil, ofSlots?, cols, rows]
    exact whole
  | data payload =>
    obtain _ | ⟨hpayload, _ | _⟩ := h
    have payload := hpayload.read readPayload? rfl (by simp)
    simp only [kind, List.map_cons, List.map_nil, ofSlots?, payload]
    exact whole
  | exit code =>
    obtain _ | ⟨hcode, _ | _⟩ := h
    have code := hcode.read readInt32? (readInt32?_ofInt 0) (by simp)
    simp only [kind, List.map_cons, List.map_nil, ofSlots?, code]
    exact whole
  | ping timestamp | pong timestamp =>
    obtain _ | ⟨htime, _ | _⟩ := h
    have time := htime.read readInt64? zero (by simp)
    simp only [kind, List.map_cons, List.map_nil, ofSlots?, time]
    exact whole
  | error words | status words =>
    obtain _ | ⟨hwords, _ | _⟩ := h
    have text := hwords.read readText? rfl (by simp)
    simp only [kind, List.map_cons, List.map_nil, ofSlots?, text]
    exact whole

/-- An object that gives a message is read as that message. -/
theorem Given.ofJson? {given : List (String × Json)} (h : m.Given given) :
    Message.ofJson? (.object given) = some m := by
  cases h with
  | @fields own others given hown hothers horder =>
    have entries := entries_of_gives hown
    have tag : fieldsNamed [tagName] given = [.text m.kind.tag] := by
      have mine := fieldsNamed_tagName entries
      have theirs : fieldsNamed [tagName] others = [] := by
        apply fieldsNamed_of_forall_not_mem
        intro e he hname
        exact (hothers e he).1.1 (List.mem_singleton.mp hname)
      have all : fieldsNamed [tagName]
          ([(tagName, .text m.kind.tag)] ++ own.reduceOption ++ others) = [.text m.kind.tag] := by
        rw [fieldsNamed_append, fieldsNamed_append, mine, theirs]
        simp [fieldsNamed]
      have single := fieldsNamed_perm [tagName] horder
      rw [← List.singleton_append (x := (tagName, _)), all] at single
      exact List.perm_singleton.mp single
    have slots : slotsOfFields? m.kind.fields given = some (own.map (Option.map Prod.snd)) := by
      rw [slotsOfFields?_perm _ horder, ← List.singleton_append]
      apply slotsOfFields?_of_entries entries (apart_fields m.kind)
      · intro e he f hf
        rw [List.mem_singleton.mp he]
        exact tagName_not_mem_names m.kind f hf
      · intro e he f hf
        exact (hothers e he).1.2 f hf
    simp only [Message.ofJson?, tag, Kind.ofJson?, ofTag?_tag, slots, ofSlots?_of_gives hown, bind,
      Option.bind]

/-- An object that gives a message is not nested too deeply, and its numerals are finite. -/
theorem Given.within {given : List (String × Json)} (h : m.Given given) :
    Within (·.isFinite) maxDepth (.object given) := by
  cases h with
  | @fields own others given hown hothers horder =>
    have mine : ∀ e ∈ own.reduceOption, Within (·.isFinite) (maxDepth - 1) e.2 := by
      intro e he
      obtain ⟨⟨f, value, default⟩, hfield, hgives⟩ :=
        exists_rel_of_mem hown (List.reduceOption_mem_iff.mp he)
      have slot : value ∈ m.slots := (List.of_mem_zip (List.of_mem_zip hfield).2).1
      refine hgives.within ?_ e rfl
      rintro v rfl
      exact (plain_of_mem_slots _ slot).finite
    have all : ∀ e ∈ given, Within (·.isFinite) (maxDepth - 1) e.2 := by
      intro e he
      rw [horder.mem_iff, List.mem_append, List.mem_cons] at he
      rcases he with (rfl | he) | he
      · exact .text _ _
      · exact mine e he
      · exact (hothers e he).2
    exact .object all

/-- Every way to write an object that gives a message, with any blanks around it, is decoded as that
message. The numbers in it are to be finite when they are computed in double precision, which they
are up to `Numeral.largest`, however they are spelled. -/
theorem decode_of_given :
    (∀ x : Numeral, x.size ≤ Numeral.largest → x.isFinite)
      ∧ ∀ (m : Message) (given : List (String × Json)) (text : List Char) (before after : Bytes),
        m.Given given → Grammar.Writes (.object given) text →
        (∀ b ∈ before, Bytes.isBlank b) → (∀ b ∈ after, Bytes.isBlank b) →
        decode (before ++ Utf8.encode (String.ofList text) ++ after) = .ok m := by
  refine ⟨fun _ => Numeral.isFinite_of_size_le, ?_⟩
  intro m given text before after hgiven htext hbefore hafter
  exact decode_of_writes hgiven.ofJson? hgiven.within (Nat.le_refl _) htext hbefore hafter

theorem decode_of_given_error :
    let hundred : Numeral := ⟨false, ['1'], [], some ⟨false, ['2']⟩⟩
    let list : Json := .array [.object [], .number hundred]
    let given := [("x", list), ("error", .text "boom"), ("type", .text "error")]
    let text := ("\x7b \"x\":[\x7b\x7d, 1E2],\"error\" :\"b\\u006Fom\",\t\"type\":\"error\"" ++
      "\n\x7d").toList
    hundred.size ≤ Numeral.largest ∧ (error "boom").Given given
      ∧ Grammar.Writes (.object given) text
      ∧ decode ([9] ++ Utf8.encode (String.ofList text) ++ [13, 10]) = .ok (.error "boom") := by
  intro hundred list given text
  have small : hundred.size ≤ Numeral.largest := by
    have one : Nat.ofDigitChars 10 ['1'] 0 = 1 := rfl
    have two : Nat.ofDigitChars 10 ['2'] 0 = 2 := rfl
    have value : hundred.size = (100 : Nat) := by
      norm_num [hundred, Numeral.size, Numeral.power, one, two]
    have below : 100 ≤ Numeral.largest := by decide +kernel
    rw [value]
    exact_mod_cast below
  have listWithin : Within (·.isFinite) (maxDepth - 1) list := by
    refine .array fun v hv => ?_
    rw [List.mem_pair] at hv
    rcases hv with rfl | rfl
    · exact .object (by simp)
    · exact .number _ (decode_of_given.1 hundred small)
  have gives : (error "boom").Given given := by
    refine @Given.fields _ [some ("error", .text "boom")] [("x", list)] given ?_ ?_ ?_
    · exact .cons (.value (by decide) rfl) .nil
    · intro f hf
      rw [List.mem_singleton.mp hf]
      exact ⟨⟨by decide, by decide⟩, listWithin⟩
    · exact (List.reverse_perm given).symm.trans (.cons _ (.cons _ (.cons _ .nil)))
  have writes : Grammar.Writes (.object given) text := by
    have none : ∀ c ∈ ([] : List Char), isSpace c := by simp
    have space : ∀ c ∈ [' '], isSpace c := by simp [isSpace]
    have tab : ∀ c ∈ ['\t'], isSpace c := by simp [isSpace]
    have feed : ∀ c ∈ ['\n'], isSpace c := by simp [isSpace]
    have number : Grammar.Number hundred ['1', 'E', '2'] :=
      .parts .plus (.digits (by decide) (by simp)) .none (.marked (.inr rfl) .none (by simp))
    have zero : Hex.value? '0' = some 0 := rfl
    have six : Hex.value? '6' = some 6 := rfl
    have fifteen : Hex.value? 'F' = some 15 := rfl
    have escape : Grammar.Character 'o' "\\u006F".toList :=
      .code (.digits zero zero six fifteen)
    have first : Grammar.Character 'b' ['b'] := .plain (by decide) (by decide) (by decide)
    have boom : Grammar.Spells (.text "boom") "\"b\\u006Fom\"".toList :=
      @Grammar.Spells.text "boom" _ (.cons first (.cons escape (characters_escaped ['o', 'm'])))
    have name := fun s => spells_spelling (.text s) (by simp)
    have all := Grammar.Spaced.more .openObject space (.more (name "x") none (.more .colon none
      (.more .openArray none (.more .openObject none (.more .closeObject none (.more .comma space
      (.more (.number number) none (.more .closeArray none (.more .comma none
      (.more (name "error") space (.more .colon none (.more boom none (.more .comma tab
      (.more (name "type") none (.more .colon none
      (.more (name "error") feed (.one .closeObject)))))))))))))))))
    exact all
  have blank : ∀ b ∈ ([9] : Bytes), Bytes.isBlank b := by simp [Bytes.isBlank]
  have ended : ∀ b ∈ ([13, 10] : Bytes), Bytes.isBlank b := by simp [Bytes.isBlank]
  exact ⟨small, gives, writes, decode_of_given.2 _ _ _ _ _ gives writes blank ended⟩

end Message
end TermLink
