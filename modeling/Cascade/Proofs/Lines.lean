import Mathlib.Data.List.Basic
import Cascade.Source.Line

/-!
# Lines by their bytes

The line that holds an offset is found by walking along the lines of a source.  Which line this is
can be said without the walk, by the bytes of the source alone: the line breaks in front of the
offset give its number, the last of them is where it begins, and the first one from the offset on is
where it ends.  This is so for every offset, also for one that lies inside a character.

## Main definitions

* `Text.bytes` : the UTF-8 form of a text.
* `AreLines` : each text ends with its only line break, which the last one may lack.
* `Line.HoldsAt` : a line holds an offset of some bytes.

## Main results

* `areLines_splitLines` : a text is split at its line breaks and nowhere else.
* `exists_of_lineAt?` : the line that is found, with the text in front of it and behind it.
* `lineAt?_eq_some_iff_holdsAt` : the line that is found is the one that holds the offset.
-/

namespace Cascade

/-! ### Bytes -/

namespace Text

/-- The UTF-8 form of a text. -/
def bytes (cs : List Char) : List UInt8 :=
  cs.flatMap String.utf8EncodeChar

/-- The byte of a line break. -/
def lineFeed : UInt8 :=
  10

@[simp] theorem bytes_nil : bytes [] = [] := rfl

@[simp] theorem bytes_append (cs ds : List Char) : bytes (cs ++ ds) = bytes cs ++ bytes ds :=
  List.flatMap_append

theorem bytes_singleton (c : Char) : bytes [c] = String.utf8EncodeChar c :=
  List.flatMap_singleton _ _

theorem bytes_lineBreak : bytes ['\n'] = [lineFeed] := by decide

theorem length_bytes (cs : List Char) : (bytes cs).length = byteSize cs := by
  induction cs with
  | nil => rfl
  | cons c cs ih =>
    rw [← List.singleton_append, bytes_append, bytes_singleton, List.length_append,
      String.length_utf8EncodeChar, ih, List.singleton_append, byteSize_cons]

/-- The form is that of the text as a string, which can be read back. -/
theorem bytes_injective : Function.Injective bytes := by
  intro cs ds h
  refine String.ofList_injective (String.toByteArray_inj.1 ?_)
  exact congrArg List.toByteArray h

/-- The byte of a line break is part of no other character. -/
theorem lineFeed_mem_utf8EncodeChar {c : Char} :
    lineFeed ∈ String.utf8EncodeChar c ↔ c = '\n' := by
  constructor
  · intro h
    have hval : c.val.toNat = 10 := by
      unfold String.utf8EncodeChar at h
      simp only [lineFeed] at h
      split_ifs at h <;>
        simp only [List.mem_cons, List.not_mem_nil, or_false, ← UInt8.toNat_inj,
          UInt8.toNat_ofNat', UInt8.reduceToNat] at h <;> omega
    exact Char.ext (UInt32.toNat_inj.1 hval)
  · rintro rfl
    decide

theorem count_lineFeed_bytes (cs : List Char) : (bytes cs).count lineFeed = cs.count '\n' := by
  induction cs with
  | nil => rfl
  | cons c cs ih =>
    rw [← List.singleton_append, bytes_append, List.count_append, List.count_append, ih,
      bytes_singleton]
    by_cases hc : c = '\n'
    · subst hc
      rfl
    · have hother : '\n' ∉ [c] := List.mem_singleton.not.2 (Ne.symm hc)
      rw [List.count_eq_zero.2 (lineFeed_mem_utf8EncodeChar.not.2 hc), List.count_eq_zero.2 hother]

theorem lineFeed_mem_bytes {cs : List Char} : lineFeed ∈ bytes cs ↔ '\n' ∈ cs := by
  rw [← List.count_pos_iff, count_lineFeed_bytes, List.count_pos_iff]

end Text

open Text (byteSize bytes lineFeed)

/-! ### Lines -/

/-- Whether a text is a line in front of a rest: it has a line break at its end and nowhere else, or
it has none and the source ends with it. -/
def IsLine (text rest : List Char) : Prop :=
  ∃ body, '\n' ∉ body ∧ (text = body ++ ['\n'] ∨ text = body ∧ rest = [])

/-- Whether some texts are lines: each ends with its only line break, which the last one may
lack. -/
inductive AreLines : List (List Char) → Prop
  | nil : AreLines []
  | last {body : List Char} (hne : body ≠ []) (hbody : '\n' ∉ body) : AreLines [body]
  | line {body : List Char} {lines : List (List Char)} (hbody : '\n' ∉ body)
      (hlines : AreLines lines) : AreLines ((body ++ ['\n']) :: lines)

/-- A text is split behind each of its line breaks, and nowhere else. -/
theorem areLines_splitLines (cs : List Char) : AreLines (splitLines cs) := by
  induction cs with
  | nil => exact .nil
  | cons c cs ih =>
    rw [splitLines]
    split
    · rename_i hc
      subst hc
      have hempty : AreLines (([] ++ ['\n']) :: splitLines cs) := .line (by simp) ih
      exact hempty
    · rename_i hc
      have hne : '\n' ≠ c := Ne.symm hc
      split
      · exact .last (List.cons_ne_nil c []) (by simpa using hne)
      · rename_i line lines hlines
        rw [hlines] at ih
        cases ih with
        | last _ hbody => exact .last (List.cons_ne_nil c line) (by simp [hne, hbody])
        | @line body _ hbody hrest =>
          have hlonger : AreLines ((c :: body ++ ['\n']) :: lines) :=
            .line (by simp [hne, hbody]) hrest
          exact hlonger

/-- In front of a line there are as many line breaks as lines, and the last of them stands right
before it. -/
theorem AreLines.of_append {above below : List (List Char)} {text : List Char}
    (h : AreLines (above ++ text :: below)) :
    above.flatten.count '\n' = above.length ∧
      (above.flatten = [] ∨ above.flatten.getLast? = some '\n') ∧ IsLine text below.flatten := by
  induction above with
  | nil =>
    refine ⟨rfl, .inl rfl, ?_⟩
    cases h with
    | last _ hbody => exact ⟨text, hbody, .inr ⟨rfl, rfl⟩⟩
    | line hbody _ => exact ⟨_, hbody, .inl rfl⟩
  | cons first above ih =>
    rw [List.cons_append] at h
    generalize hlines : above ++ text :: below = lines at h ih
    cases h with
    | last => simp at hlines
    | @line body _ hbody hrest =>
      obtain ⟨hcount, hlast, hline⟩ := ih hrest
      refine ⟨?_, .inr ?_, hline⟩
      · simp [hcount, List.count_eq_zero.2 hbody]
      · rw [List.flatten_cons, List.getLast?_append]
        rcases hlast with hnil | hbreak
        · simp [hnil]
        · simp [hbreak]

/-- A line is found where the walk along the lines has passed those in front of it. -/
theorem exists_of_findLine? {number offset : Nat} {lines : List (List Char)} {line : Line}
    (h : findLine? number lines offset = some line) :
    ∃ above below, lines = above ++ line.text :: below ∧ line.number = number + above.length ∧
      byteSize above.flatten + line.column = offset ∧ line.column < byteSize line.text := by
  induction lines generalizing number offset with
  | nil => cases h
  | cons first lines ih =>
    rw [findLine?] at h
    split at h
    · cases h
      exact ⟨[], lines, rfl, rfl, Nat.zero_add _, ‹_›⟩
    · obtain ⟨above, below, rfl, hnumber, hoffset, hcolumn⟩ := ih h
      refine ⟨first :: above, below, rfl, ?_, ?_, hcolumn⟩
      · rw [hnumber, List.length_cons]
        omega
      · rw [List.flatten_cons, Text.byteSize_append]
        omega

/-- There is no line for an offset behind the last byte, and for no other one. -/
theorem findLine?_eq_none_iff {number offset : Nat} {lines : List (List Char)} :
    findLine? number lines offset = none ↔ byteSize lines.flatten ≤ offset := by
  induction lines generalizing number offset with
  | nil => simp [findLine?]
  | cons first lines ih =>
    rw [findLine?, List.flatten_cons, Text.byteSize_append]
    split
    · simp only [reduceCtorEq, false_iff]
      omega
    · rw [ih]
      omega

theorem lineAt?_eq_none_iff {source : String} {offset : Nat} :
    lineAt? source offset = none ↔ source.utf8ByteSize ≤ offset := by
  rw [lineAt?, findLine?_eq_none_iff, flatten_splitLines, Text.byteSize_toList]

/-- The line that is found stands in the source behind a line break or at the very start, as many
bytes in front of the offset as its column says. -/
theorem exists_of_lineAt? {source : String} {offset : Nat} {line : Line}
    (h : lineAt? source offset = some line) :
    ∃ front rest, source.toList = front ++ line.text ++ rest ∧
      line.number = 1 + front.count '\n' ∧ (front = [] ∨ front.getLast? = some '\n') ∧
      IsLine line.text rest ∧ byteSize front + line.column = offset ∧
      line.column < byteSize line.text := by
  obtain ⟨above, below, hlines, hnumber, hoffset, hcolumn⟩ := exists_of_findLine? h
  obtain ⟨hcount, hlast, hline⟩ := (hlines ▸ areLines_splitLines source.toList).of_append
  refine ⟨above.flatten, below.flatten, ?_, hcount ▸ hnumber, hlast, hline, hoffset, hcolumn⟩
  rw [← flatten_splitLines source.toList, hlines]
  simp

/-! ### Lines by their bytes -/

/-- Whether a line is the one that holds an offset of some bytes. -/
structure Line.HoldsAt (line : Line) (bs : List UInt8) (offset : Nat) : Prop where
  /-- The number is one more than the number of line breaks in front of the offset. -/
  number_eq : line.number = 1 + (bs.take offset).count lineFeed
  column_le : line.column ≤ offset
  /-- The line is the first one, or begins right behind a line break. -/
  starts : offset - line.column = 0 ∨ bs[offset - line.column - 1]? = some lineFeed
  /-- There is no line break between the start of the line and the offset. -/
  unbroken : lineFeed ∉ (bs.take offset).drop (offset - line.column)
  /-- The line goes up to and with the first line break from the offset on, or else to the end. -/
  bytes_eq : bytes line.text = (bs.drop (offset - line.column)).take
    (line.column + (bs.drop offset).idxOf lineFeed + 1)
  column_lt : line.column < (bytes line.text).length

/-- From a column of a line on, the first line break is the one that ends the line. -/
theorem IsLine.bytes_eq_take {text rest : List Char} (h : IsLine text rest) {column : Nat}
    (hcolumn : column < byteSize text) :
    lineFeed ∉ (bytes text).take column ∧
      bytes text = (bytes text ++ bytes rest).take
        (column + ((bytes text ++ bytes rest).drop column).idxOf lineFeed + 1) := by
  obtain ⟨body, hbody, htext⟩ := h
  have hnone : lineFeed ∉ bytes body := Text.lineFeed_mem_bytes.not.2 hbody
  have hsize := Text.length_bytes body
  rcases htext with rfl | ⟨rfl, rfl⟩
  · rw [Text.byteSize_append] at hcolumn
    have hle : column ≤ (bytes body).length := Nat.le_of_lt_succ (hsize ▸ hcolumn)
    have hrest : lineFeed ∉ (bytes body).drop column :=
      fun hmem => hnone (List.mem_of_mem_drop hmem)
    have hindex : ((bytes (body ++ ['\n']) ++ bytes rest).drop column).idxOf lineFeed =
        (bytes body).length - column := by
      rw [Text.bytes_append, Text.bytes_lineBreak, List.append_assoc,
        List.drop_append_of_le_length hle, List.idxOf_append_of_notMem hrest, List.singleton_append,
        List.idxOf_cons_self, List.length_drop, Nat.add_zero]
    have hlength : column + ((bytes body).length - column) + 1 =
        (bytes (body ++ ['\n'])).length := by
      rw [Text.bytes_append, List.length_append, Nat.add_sub_cancel' hle]
      rfl
    refine ⟨?_, by rw [hindex, hlength, List.take_left]⟩
    rw [Text.bytes_append, List.take_append_of_le_length hle]
    exact fun hmem => hnone (List.mem_of_mem_take hmem)
  · refine ⟨fun hmem => hnone (List.mem_of_mem_take hmem), ?_⟩
    have hrest : lineFeed ∉ (bytes text).drop column :=
      fun hmem => hnone (List.mem_of_mem_drop hmem)
    rw [Text.bytes_nil, List.append_nil, List.idxOf_eq_length hrest, List.length_drop,
      List.take_of_length_le (by omega)]

/-- The line that is found holds the offset. -/
theorem Line.holdsAt_of_lineAt? {source : String} {offset : Nat} {line : Line}
    (h : lineAt? source offset = some line) : line.HoldsAt (bytes source.toList) offset := by
  obtain ⟨front, rest, hsource, hnumber, hfront, hline, hoffset, hcolumn⟩ := exists_of_lineAt? h
  obtain ⟨hunbroken, htext⟩ := hline.bytes_eq_take hcolumn
  rw [← Text.length_bytes] at hoffset hcolumn
  have hstart : offset - line.column = (bytes front).length := by omega
  have hbytes : bytes source.toList = bytes front ++ (bytes line.text ++ bytes rest) := by
    rw [hsource, Text.bytes_append, Text.bytes_append, List.append_assoc]
  have htake : (bytes source.toList).take offset =
      bytes front ++ (bytes line.text).take line.column := by
    rw [hbytes, ← hoffset, List.take_length_add_append,
      List.take_append_of_le_length (Nat.le_of_lt hcolumn)]
  have hdrop : (bytes source.toList).drop offset =
      (bytes line.text ++ bytes rest).drop line.column := by
    rw [hbytes, ← hoffset, List.drop_length_add_append]
  refine ⟨?_, by omega, ?_, ?_, ?_, hcolumn⟩
  · rw [hnumber, htake, List.count_append, Text.count_lineFeed_bytes,
      List.count_eq_zero.2 hunbroken, Nat.add_zero]
  · rcases hfront with rfl | hbreak
    · exact .inl hstart
    · obtain ⟨body, rfl⟩ := List.getLast?_eq_some_iff.1 hbreak
      refine .inr ?_
      rw [hstart, hbytes, Text.bytes_append, Text.bytes_lineBreak]
      simp
  · rw [htake, hstart, List.drop_left]
    exact hunbroken
  · rw [hdrop, hstart, hbytes, List.drop_left]
    exact htext

namespace Line.HoldsAt

variable {line line' : Line} {bs : List UInt8} {offset : Nat}

theorem offset_lt (h : line.HoldsAt bs offset) : offset < bs.length := by
  have hlength := congrArg List.length h.bytes_eq
  have hcolumn := h.column_lt
  have hle := h.column_le
  rw [List.length_take, List.length_drop] at hlength
  omega

/-- A line cannot begin in front of the line break behind which another one begins. -/
theorem column_le_column (h : line.HoldsAt bs offset) (h' : line'.HoldsAt bs offset) :
    line'.column ≤ line.column := by
  by_contra hlt
  have hle := h'.column_le
  have hbreak := h.starts.resolve_left (by omega)
  refine h'.unbroken (List.mem_of_getElem? (i := line'.column - line.column - 1) ?_)
  rw [List.getElem?_drop, List.getElem?_take_of_lt (by omega), ← hbreak]
  congr 1
  omega

/-- There is only one line that holds an offset. -/
theorem unique (h : line.HoldsAt bs offset) (h' : line'.HoldsAt bs offset) : line = line' := by
  have hcolumn : line.column = line'.column :=
    Nat.le_antisymm (h'.column_le_column h) (h.column_le_column h')
  have hnumber : line.number = line'.number := h.number_eq.trans h'.number_eq.symm
  have htext : line.text = line'.text := by
    refine Text.bytes_injective ?_
    rw [h.bytes_eq, h'.bytes_eq, hcolumn]
  obtain ⟨number, text, column⟩ := line
  cases hnumber
  cases htext
  cases hcolumn
  rfl

end Line.HoldsAt

/-- A line is found for the offsets of the bytes of a source, and the line that is found is the one
that holds the offset. -/
theorem lineAt?_eq_some_iff_holdsAt (source : String) (offset : Nat) :
    (lineAt? source offset = none ↔ source.utf8ByteSize ≤ offset) ∧
      ∀ line, lineAt? source offset = some line ↔
        line.HoldsAt (bytes source.toList) offset := by
  refine ⟨lineAt?_eq_none_iff, fun line => ⟨Line.holdsAt_of_lineAt?, fun h => ?_⟩⟩
  have hlt : offset < source.utf8ByteSize := by
    rw [← Text.byteSize_toList, ← Text.length_bytes]
    exact h.offset_lt
  cases hline : lineAt? source offset with
  | none => exact absurd (lineAt?_eq_none_iff.1 hline) (Nat.not_le_of_lt hlt)
  | some line' => rw [h.unique (Line.holdsAt_of_lineAt? hline)]

/-- The second byte of a character of two bytes, in a line that has no line break. -/
example : lineAt? "a\n\né" 4 = some ⟨3, ['é'], 1⟩ := by decide +kernel

end Cascade
