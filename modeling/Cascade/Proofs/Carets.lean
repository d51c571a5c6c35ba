import Mathlib
import Cascade.Proofs.Lines
import Cascade.Proofs.Recognition
import Cascade.Report

/-!
# Where the caret points

A diagnostic ends with three lines: a bar, the line of the source that is at fault, and a caret
below it.  The line is shown without the blank characters around it, and the caret moves to the left
by as many columns as there are spaces and tabs in front of the line.  Other blank characters are
left out of the line as well, but the caret does not move for them.  So the caret stands below the
character at fault exactly if nothing but spaces and tabs stands in front of the first visible
character of the line.  The line and the bars are right in any case.

## Main definitions

* `Report.shownPrefix`, `Report.shownAfter` : the line that is shown in front of the character at
  fault, with the number of the line, and behind it.
* `Report.ShowsCaret` : a text ends with the line at fault and a caret at an index below it.
* `Report.PointsAt` : the caret stands below the character at fault.

## Main results

* `exists_lineAt?` : the line around a visible character.
* `Report.splitLines_excerpt` : the three rows of an excerpt.
* `Report.showsCaret_diagnostic` : the line that is shown and the index of the caret.
* `Report.pointsAt_diagnostic_iff` : the caret stands below the character if the line is indented
  with spaces and tabs.
-/

namespace Cascade

open Lexeme (isInLine takeWhile_run)
open Text (byteSize isBlank)

/-! ### Lines that are put together -/

/-- A line break splits the lines of a text. -/
theorem splitLines_append (front rest : List Char) :
    splitLines (front ++ '\n' :: rest) = splitLines (front ++ ['\n']) ++ splitLines rest := by
  induction front with
  | nil => simp [splitLines]
  | cons c front ih =>
    rw [List.cons_append, List.cons_append, splitLines, splitLines, ih]
    split
    · rfl
    · cases hlines : splitLines (front ++ ['\n']) with
      | nil =>
        have hflatten := flatten_splitLines (front ++ ['\n'])
        rw [hlines] at hflatten
        exact absurd hflatten.symm (by simp)
      | cons line lines => rfl

/-- A text without a line break is a line together with the line break behind it. -/
theorem splitLines_line {body : List Char} (h : '\n' ∉ body) (rest : List Char) :
    splitLines (body ++ '\n' :: rest) = (body ++ ['\n']) :: splitLines rest := by
  induction body with
  | nil => rfl
  | cons c body ih =>
    obtain ⟨hc, hbody⟩ := not_or.1 (List.mem_cons.not.1 h)
    rw [List.cons_append, splitLines, if_neg (Ne.symm hc), ih hbody, List.cons_append]

/-! ### Blank characters around a line -/

section Around

variable {p : Char → Bool} {c : Char} (hc : p c = false) (front rest : List Char)

include hc

theorem takeWhile_append_cons : (front ++ c :: rest).takeWhile p = front.takeWhile p := by
  induction front with
  | nil => simp [hc]
  | cons d front ih => by_cases hd : p d <;> simp [hd, ih]

theorem dropWhile_append_cons :
    (front ++ c :: rest).dropWhile p = front.dropWhile p ++ c :: rest := by
  induction front with
  | nil => simp [hc]
  | cons d front ih => by_cases hd : p d <;> simp [hd, ih]

theorem rdropWhile_append_cons :
    (front ++ c :: rest).rdropWhile p = front ++ c :: rest.rdropWhile p := by
  rw [List.rdropWhile, List.reverse_append, List.reverse_cons, List.append_assoc,
    List.singleton_append, dropWhile_append_cons hc]
  simp [List.rdropWhile]

end Around

/-! ### Texts in bytes -/

namespace Text

theorem utf8Size_of_isDigit {d : Char} (h : d.isDigit = true) : d.utf8Size = 1 := by
  simp only [Char.isDigit, Bool.and_eq_true, decide_eq_true_eq] at h
  have hle : d.val ≤ 0x7F := UInt32.le_trans h.2 (by decide)
  rw [Char.utf8Size]
  exact if_pos hle

theorem byteSize_eq_length {cs : List Char} (h : ∀ c ∈ cs, c.utf8Size = 1) :
    byteSize cs = cs.length := by
  induction cs with
  | nil => rfl
  | cons c cs ih =>
    obtain ⟨hc, hcs⟩ := List.forall_mem_cons.1 h
    rw [byteSize_cons, hc, ih hcs, List.length_cons, Nat.add_comm]

theorem byteSize_replicate (n : Nat) {c : Char} (hc : c.utf8Size = 1) :
    byteSize (List.replicate n c) = n := by
  rw [byteSize_eq_length fun d hd => List.eq_of_mem_replicate hd ▸ hc, List.length_replicate]

/-- A text that is split twice is split at the places in their order. -/
theorem exists_append_of_byteSize_le {front rest front' rest' : List Char}
    (h : front ++ rest = front' ++ rest') (hle : byteSize front' ≤ byteSize front) :
    ∃ mid, front = front' ++ mid ∧ rest' = mid ++ rest := by
  rcases List.append_eq_append_iff.1 h with ⟨mid, rfl, rfl⟩ | hmid
  · rw [byteSize_append] at hle
    have hmid : mid = [] := by
      by_contra hne
      have := byteSize_pos hne
      omega
    exact ⟨[], by simp [hmid], by simp [hmid]⟩
  · exact hmid

/-- Around a visible character a text is cut down on both sides. -/
theorem trim_append_cons {c : Char} (hc : isBlank c = false) (front rest : List Char) :
    trim (front ++ c :: rest) = front.dropWhile isBlank ++ c :: rest.rdropWhile isBlank := by
  rw [trim, dropWhile_append_cons hc]
  exact rdropWhile_append_cons hc _ rest

end Text

/-! ### Indentation -/

namespace Report

/-- A space and a tab are blank and take one byte. -/
theorem isBlank_of_isIndent {c : Char} (h : isIndent c = true) :
    isBlank c = true ∧ c.utf8Size = 1 := by
  simp only [isIndent, Bool.or_eq_true, decide_eq_true_eq] at h
  rcases h with rfl | rfl <;> decide

/-- The indentation is part of the blank characters in front of a line. -/
theorem dropWhile_dropWhile_isIndent (cs : List Char) :
    (cs.dropWhile isIndent).dropWhile isBlank = cs.dropWhile isBlank := by
  induction cs with
  | nil => rfl
  | cons c cs ih =>
    by_cases hc : isIndent c = true
    · rw [List.dropWhile_cons_of_pos hc, List.dropWhile_cons_of_pos (isBlank_of_isIndent hc).1, ih]
    · rw [List.dropWhile_cons_of_neg hc]

/-- The indentation has at most as many characters as there are bytes in the blank characters in
front of a line, and as many only if there are no other blank characters. -/
theorem length_takeWhile_isIndent (cs : List Char) :
    (cs.takeWhile isIndent).length ≤ byteSize (cs.takeWhile isBlank) ∧
      ((cs.takeWhile isIndent).length = byteSize (cs.takeWhile isBlank) ↔
        ∀ c ∈ cs.takeWhile isBlank, isIndent c = true) := by
  induction cs with
  | nil => simp
  | cons c cs ih =>
    by_cases hc : isIndent c = true
    · obtain ⟨hblank, hsize⟩ := isBlank_of_isIndent hc
      obtain ⟨hle, hiff⟩ := ih
      rw [List.takeWhile_cons_of_pos hc, List.takeWhile_cons_of_pos hblank, List.length_cons,
        Text.byteSize_cons, hsize, List.forall_mem_cons, ← hiff]
      exact ⟨by omega, fun h => ⟨hc, by omega⟩, fun h => by omega⟩
    · rw [List.takeWhile_cons_of_neg hc]
      by_cases hblank : isBlank c = true
      · have hpos := c.utf8Size_pos
        rw [List.takeWhile_cons_of_pos hblank, Text.byteSize_cons, List.forall_mem_cons]
        refine ⟨Nat.zero_le _, fun h => ?_, fun h => absurd h.1 hc⟩
        rw [List.length_nil] at h
        omega
      · rw [List.takeWhile_cons_of_neg hblank]
        simp

end Report

/-! ### The line around a character -/

theorem isInLine_of_notMem {cs : List Char} (h : '\n' ∉ cs) : ∀ c ∈ cs, isInLine c = true := by
  intro c hc
  have hne : c ≠ '\n' := by
    rintro rfl
    exact h hc
  simp [isInLine, hne]

/-- Behind a line break the characters of a line are the longest run of them. -/
theorem rtakeWhile_isInLine {above left : List Char} (hleft : '\n' ∉ left)
    (habove : above = [] ∨ above.getLast? = some '\n') :
    (above ++ left).rtakeWhile isInLine = left := by
  have hrun : ∀ d ∈ left.reverse, isInLine d = true :=
    isInLine_of_notMem (List.mem_reverse.not.2 hleft)
  have hstop : ∀ d, above.reverse.head? = some d → isInLine d = false := by
    rintro d hd
    rw [List.head?_reverse] at hd
    rcases habove with rfl | hbreak
    · cases hd
    · rw [hbreak] at hd
      cases hd
      rfl
  rw [List.rtakeWhile, List.reverse_append, takeWhile_run hrun hstop, List.reverse_reverse]

/-- A line goes up to the next line break, which is blank. -/
theorem IsLine.around {left tail rest : List Char} {c : Char} (h : IsLine (left ++ c :: tail) rest)
    (hc : c ≠ '\n') :
    '\n' ∉ left ∧
      tail.rdropWhile isBlank = ((tail ++ rest).takeWhile isInLine).rdropWhile isBlank := by
  obtain ⟨body, hbody, htext | ⟨rfl, rfl⟩⟩ := h
  · obtain rfl | ⟨middle, d, rfl⟩ := tail.eq_nil_or_concat'
    · exact absurd (List.append_inj' htext rfl).2 (by simpa using hc)
    · have hconcat : (left ++ c :: middle) ++ [d] = body ++ ['\n'] := by simpa using htext
      obtain ⟨rfl, hd⟩ := List.append_inj' hconcat rfl
      obtain rfl : d = '\n' := by simpa using hd
      simp only [List.mem_append, List.mem_cons, not_or] at hbody
      have hstop : ∀ d, ('\n' :: rest).head? = some d → isInLine d = false := by
        rintro d ⟨⟩
        rfl
      refine ⟨hbody.1, ?_⟩
      rw [List.rdropWhile_concat_pos _ _ _ (by decide), List.append_assoc, List.singleton_append,
        takeWhile_run (isInLine_of_notMem hbody.2.2) hstop]
  · simp only [List.mem_append, List.mem_cons, not_or] at hbody
    refine ⟨hbody.1, ?_⟩
    rw [takeWhile_run (isInLine_of_notMem hbody.2.2) (fun d hd => by cases hd)]

/-- The line around a visible character. -/
theorem exists_lineAt? {source : String} {front rest : List Char} {c : Char}
    (hsource : source.toList = front ++ c :: rest) (hc : isBlank c = false) :
    ∃ tail, lineAt? source (byteSize front) = some ⟨1 + front.count '\n',
        front.rtakeWhile isInLine ++ c :: tail, byteSize (front.rtakeWhile isInLine)⟩ ∧
      tail.rdropWhile isBlank = (rest.takeWhile isInLine).rdropWhile isBlank := by
  have hbreak : c ≠ '\n' := by
    rintro rfl
    exact absurd hc (by decide)
  cases hline : lineAt? source (byteSize front) with
  | none =>
    have hle := lineAt?_eq_none_iff.1 hline
    have hpos := c.utf8Size_pos
    rw [← Text.byteSize_toList, hsource, Text.byteSize_append, Text.byteSize_cons] at hle
    omega
  | some line =>
    obtain ⟨above, below, hsplit, hnumber, habove, htext, hoffset, hcolumn⟩ :=
      exists_of_lineAt? hline
    -- The line begins in front of the character and ends behind it.
    rw [hsource, List.append_assoc] at hsplit
    obtain ⟨left, rfl, hleft⟩ := Text.exists_append_of_byteSize_le hsplit (by omega)
    have hcolumn_eq : line.column = byteSize left := by
      rw [Text.byteSize_append] at hoffset
      omega
    rw [hcolumn_eq] at hcolumn
    obtain ⟨right, hright, hrest⟩ := Text.exists_append_of_byteSize_le hleft (by omega)
    cases right with
    | nil => simp [hright] at hcolumn
    | cons d tail =>
      obtain ⟨rfl, rfl⟩ := List.cons.inj hrest
      rw [hright] at htext
      obtain ⟨hnone, htail⟩ := htext.around hbreak
      refine ⟨tail, congrArg some ?_, htail⟩
      rw [rtakeWhile_isInLine hnone habove, List.count_append, List.count_eq_zero.2 hnone,
        Nat.add_zero, ← hnumber, ← hright, ← hcolumn_eq]

namespace Report

/-! ### The rows of a diagnostic -/

/-- The number of the line behind a text. -/
def lineNumber (front : List Char) : List Char :=
  (toString (1 + front.count '\n')).toList

/-- What is shown of a line in front of a place. -/
def shownBefore (front : List Char) : List Char :=
  (front.rtakeWhile isInLine).dropWhile isBlank

/-- What is shown of a line behind a place. -/
def shownAfter (rest : List Char) : List Char :=
  (rest.takeWhile isInLine).rdropWhile isBlank

/-- What stands in front of a character in the line that is shown. -/
def shownPrefix (front : List Char) : List Char :=
  lineNumber front ++ [' ', '|', ' '] ++ shownBefore front

theorem byteSize_shownPrefix (front : List Char) : byteSize (shownPrefix front) =
    byteSize (lineNumber front) + 3 + byteSize (shownBefore front) := by
  rw [shownPrefix, Text.byteSize_append, Text.byteSize_append]
  rfl

/-- Whether the first bar of a line stands in a column. -/
def BarAt (line : List Char) (column : Nat) : Prop :=
  ∃ left right, line = left ++ '|' :: right ∧ '|' ∉ left ∧ byteSize left = column

/-- Whether a text ends with a bar, the line around a character and a caret at an index. -/
def ShowsCaret (output : String) (front : List Char) (c : Char) (rest : List Char)
    (index : Nat) : Prop :=
  ∃ above empty dashes, splitLines output.toList =
      above ++ [empty, shownPrefix front ++ c :: shownAfter rest ++ ['\n'], dashes ++ ['^', '\n']] ∧
    (∃ column, BarAt empty column ∧
      BarAt (shownPrefix front ++ c :: shownAfter rest ++ ['\n']) column ∧
      BarAt (dashes ++ ['^', '\n']) column) ∧
    byteSize dashes = index

/-- Whether a text ends with the line around a character and a caret below the character. -/
def PointsAt (output : String) (front : List Char) (c : Char) (rest : List Char) : Prop :=
  ShowsCaret output front c rest (byteSize (shownPrefix front))

/-- A caret stands at one index only. -/
theorem ShowsCaret.unique {output : String} {front rest : List Char} {c : Char}
    {index index' : Nat} (h : ShowsCaret output front c rest index)
    (h' : ShowsCaret output front c rest index') : index = index' := by
  obtain ⟨above, empty, dashes, hlines, -, rfl⟩ := h
  obtain ⟨above', empty', dashes', hlines', -, rfl⟩ := h'
  have hrows := (List.append_inj' (hlines.symm.trans hlines') rfl).2
  simp only [List.cons.injEq, List.append_left_inj, and_true] at hrows
  rw [hrows.2.2]

/-! ### A diagnostic row by row -/

theorem isDigit_of_mem_lineNumber {front : List Char} {d : Char} (h : d ∈ lineNumber front) :
    d.isDigit = true := by
  rw [lineNumber, Nat.toString_eq_repr, Nat.toList_repr] at h
  exact Nat.isDigit_of_mem_toDigits (by decide) (by decide) h

/-- A number has no line break and no bar. -/
theorem notMem_lineNumber {front : List Char} {d : Char} (hd : d.isDigit = false) :
    d ∉ lineNumber front := by
  intro h
  rw [isDigit_of_mem_lineNumber h] at hd
  cases hd

/-- The columns in front of the bars: those of the number, and one more. -/
def gutter (front : List Char) : List Char :=
  List.replicate ((toString (1 + front.count '\n')).length + 1) ' '

/-- The bars stand one column behind the number. -/
theorem byteSize_gutter (front : List Char) :
    byteSize (gutter front) = byteSize (lineNumber front) + 1 := by
  have hnumber : byteSize (lineNumber front) = (lineNumber front).length :=
    Text.byteSize_eq_length fun _ hd => Text.utf8Size_of_isDigit (isDigit_of_mem_lineNumber hd)
  rw [gutter, Text.byteSize_replicate _ rfl, hnumber, lineNumber, String.length_toList]

theorem barAt_gutter (front right : List Char) :
    BarAt (gutter front ++ '|' :: right) (byteSize (lineNumber front) + 1) :=
  ⟨gutter front, right, rfl, by simp [gutter], byteSize_gutter front⟩

theorem barAt_shownPrefix (front right : List Char) :
    BarAt (shownPrefix front ++ right) (byteSize (lineNumber front) + 1) := by
  have hnumber : '|' ∉ lineNumber front := notMem_lineNumber rfl
  refine ⟨lineNumber front ++ [' '], ' ' :: (shownBefore front ++ right), ?_, ?_, ?_⟩
  · simp [shownPrefix]
  · simpa using hnumber
  · rw [Text.byteSize_append]
    rfl

/-- A source that fits the offsets is pointed at where it should be. -/
theorem toNat_pointer (r : Report) {source : String} (hsize : source.utf8ByteSize < 2 ^ 32) :
    (r.pointer source).toNat = min r.position.offset.toNat (source.utf8ByteSize - 1) := by
  rw [pointer, UInt32.toNat_min, UInt32.toNat_ofNat', Text.byteSize_toList,
    Nat.mod_eq_of_lt (by omega)]

theorem exists_heading (r : Report) : ∃ text, r.heading.toList = text ++ ['\n'] := by
  unfold heading
  exact ⟨_, String.toList_append⟩

/-- An excerpt has three rows. -/
theorem splitLines_excerpt (front : List Char) {text : List Char} (column : Nat)
    (h : '\n' ∉ Text.trim (text.dropWhile isIndent)) :
    splitLines (excerpt ⟨1 + front.count '\n', text, column⟩).toList =
      [gutter front ++ ['|', '\n'],
        lineNumber front ++ [' ', '|', ' '] ++ Text.trim (text.dropWhile isIndent) ++ ['\n'],
        gutter front ++ ['|', ' '] ++
          List.replicate (column - (text.takeWhile isIndent).length) '-' ++ ['^', '\n']] := by
  generalize hdashes : List.replicate (column - (text.takeWhile isIndent).length) '-' = dashes
  have htext : (excerpt ⟨1 + front.count '\n', text, column⟩).toList =
      (gutter front ++ ['|']) ++ '\n' ::
        ((lineNumber front ++ [' ', '|', ' '] ++ Text.trim (text.dropWhile isIndent)) ++ '\n' ::
          ((gutter front ++ ['|', ' '] ++ dashes ++ ['^']) ++ ['\n'])) := by
    simp [excerpt, row, gutter, lineNumber, ← hdashes]
  have hnumber : '\n' ∉ lineNumber front := notMem_lineNumber rfl
  have hgutter : '\n' ∉ gutter front := by simp [gutter]
  have hrow : '\n' ∉ dashes := by simp [← hdashes]
  rw [htext, splitLines_line (by simp [hgutter]), splitLines_line (by simp [h, hnumber]),
    splitLines_line (by simp [hgutter, hrow])]
  simp [splitLines]

section Diagnostic

variable {source : String} {front rest : List Char} {c : Char} (hc : isBlank c = false)

include hc

theorem isIndent_eq_false : isIndent c = false := by
  by_contra h
  rw [(isBlank_of_isIndent (Bool.eq_true_of_not_eq_false h)).1] at hc
  cases hc

/-- A line is shown without the blank characters around it. -/
theorem trim_dropWhile_isIndent (left tail : List Char) :
    Text.trim ((left ++ c :: tail).dropWhile isIndent) =
      left.dropWhile isBlank ++ c :: tail.rdropWhile isBlank := by
  rw [dropWhile_append_cons (isIndent_eq_false hc), Text.trim_append_cons hc,
    dropWhile_dropWhile_isIndent]

theorem lineBreak_notMem_shown : '\n' ∉ shownBefore front ++ c :: shownAfter rest := by
  simp only [List.mem_append, List.mem_cons, not_or]
  refine ⟨fun h => ?_, ?_, fun h => ?_⟩
  · have hline := List.mem_rtakeWhile_imp ((List.dropWhile_suffix _).subset h)
    exact absurd hline (by decide)
  · rintro rfl
    exact absurd hc (by decide)
  · have hline := List.mem_takeWhile_imp ((List.rdropWhile_prefix _ _).subset h)
    exact absurd hline (by decide)

/-- A diagnostic ends with the line around the character it points at.  The caret stands as far to
the right as the character stands in its line, less the spaces and tabs in front of the line. -/
theorem showsCaret_diagnostic (r : Report) (hsize : source.utf8ByteSize < 2 ^ 32)
    (hsource : source.toList = front ++ c :: rest)
    (hoffset : byteSize front = min r.position.offset.toNat (source.utf8ByteSize - 1)) :
    ShowsCaret (r.diagnostic source) front c rest
      (byteSize (lineNumber front) + 3 + (byteSize (front.rtakeWhile isInLine) -
        ((front.rtakeWhile isInLine).takeWhile isIndent).length)) := by
  obtain ⟨tail, hline, htail⟩ := exists_lineAt? hsource hc
  obtain ⟨head, hhead⟩ := r.exists_heading
  have hshown : Text.trim ((front.rtakeWhile isInLine ++ c :: tail).dropWhile isIndent) =
      shownBefore front ++ c :: shownAfter rest := by
    rw [trim_dropWhile_isIndent hc, htail]
    rfl
  have hrows := splitLines_excerpt front (byteSize (front.rtakeWhile isInLine))
    (hshown ▸ lineBreak_notMem_shown hc)
  rw [hshown, takeWhile_append_cons (isIndent_eq_false hc)] at hrows
  rw [hoffset, ← toNat_pointer r hsize] at hline
  refine ⟨splitLines r.heading.toList, gutter front ++ ['|', '\n'], gutter front ++ ['|', ' '] ++
    List.replicate (byteSize (front.rtakeWhile isInLine) -
      ((front.rtakeWhile isInLine).takeWhile isIndent).length) '-', ?_,
    ⟨_, barAt_gutter front _, ?_, ?_⟩, ?_⟩
  · rw [diagnostic, hline]
    simp only
    rw [String.toList_append, hhead, List.append_assoc, List.singleton_append, splitLines_append,
      hrows]
    simp [shownPrefix]
  · rw [List.append_assoc]
    exact barAt_shownPrefix front _
  · rw [List.append_assoc, List.append_assoc]
    exact barAt_gutter front _
  · rw [Text.byteSize_append, Text.byteSize_append, byteSize_gutter, Text.byteSize_replicate _ rfl]
    rfl

/-- The caret stands below the character at fault exactly if the line is indented with spaces and
tabs only.  The line that is shown and the bars are right in any case. -/
theorem pointsAt_diagnostic_iff (r : Report) (hsize : source.utf8ByteSize < 2 ^ 32)
    (hsource : source.toList = front ++ c :: rest)
    (hoffset : byteSize front = min r.position.offset.toNat (source.utf8ByteSize - 1)) :
    ShowsCaret (r.diagnostic source) front c rest
        (byteSize (lineNumber front) + 3 + (byteSize (front.rtakeWhile isInLine) -
          ((front.rtakeWhile isInLine).takeWhile isIndent).length)) ∧
      (PointsAt (r.diagnostic source) front c rest ↔
        ∀ d ∈ (front.rtakeWhile isInLine).takeWhile isBlank, isIndent d = true) := by
  have hcaret := showsCaret_diagnostic hc r hsize hsource hoffset
  refine ⟨hcaret, ?_⟩
  obtain ⟨hle, hiff⟩ := length_takeWhile_isIndent (front.rtakeWhile isInLine)
  have hprefix := byteSize_shownPrefix front
  have hsplit : byteSize ((front.rtakeWhile isInLine).takeWhile isBlank) +
      byteSize (shownBefore front) = byteSize (front.rtakeWhile isInLine) := by
    rw [shownBefore, ← Text.byteSize_append, List.takeWhile_append_dropWhile]
  -- What is shown begins behind all blank characters, but the caret moves for the indentation only.
  rw [← hiff]
  constructor
  · intro h
    have hindex := h.unique hcaret
    omega
  · intro h
    have hindex : byteSize (shownPrefix front) = byteSize (lineNumber front) + 3 +
        (byteSize (front.rtakeWhile isInLine) -
          ((front.rtakeWhile isInLine).takeWhile isIndent).length) := by
      omega
    rw [PointsAt, hindex]
    exact hcaret

end Diagnostic

/-- In a line behind a space and a tab, and behind a character of two bytes. -/
theorem pointsAt_diagnostic_indented :
    isBlank '$' = false ∧ "x\n \té$\n".utf8ByteSize < 2 ^ 32 ∧
      "x\n \té$\n".toList = ['x', '\n', ' ', '\t', 'é'] ++ '$' :: ['\n'] ∧
      byteSize ['x', '\n', ' ', '\t', 'é'] =
        min (6 : UInt32).toNat ("x\n \té$\n".utf8ByteSize - 1) ∧
      PointsAt (diagnostic ⟨.unrecognisedToken "$", ⟨6, "shell"⟩⟩ "x\n \té$\n")
        ['x', '\n', ' ', '\t', 'é'] '$' ['\n'] := by
  refine ⟨by decide, by decide, by decide, by decide, ?_⟩
  exact (pointsAt_diagnostic_iff (by decide) ⟨.unrecognisedToken "$", ⟨6, "shell"⟩⟩ (by decide)
    (by decide) (by decide)).2.2 (List.all_eq_true.1 (by decide))

/-- Behind a blank character that is neither a space nor a tab the caret stands too far to the
right. -/
theorem not_pointsAt_diagnostic :
    tokenize "\u00a0$" "shell" = .error ⟨.unrecognisedToken "$", ⟨2, "shell"⟩⟩ ∧
      isBlank '$' = false ∧ "\u00a0$".utf8ByteSize < 2 ^ 32 ∧
      "\u00a0$".toList = ['\u00a0'] ++ '$' :: [] ∧
      byteSize ['\u00a0'] = min (2 : UInt32).toNat ("\u00a0$".utf8ByteSize - 1) ∧
      ¬PointsAt (diagnostic ⟨.unrecognisedToken "$", ⟨2, "shell"⟩⟩ "\u00a0$") ['\u00a0'] '$'
        [] := by
  refine ⟨by cbv, by decide, by decide, by decide, by decide, fun h => ?_⟩
  have hindex := h.unique (showsCaret_diagnostic (by decide)
    ⟨.unrecognisedToken "$", ⟨2, "shell"⟩⟩ (by decide) (by decide) (by decide))
  rw [byteSize_shownPrefix] at hindex
  exact absurd (Nat.add_left_cancel hindex) (by decide)

end Report

end Cascade
