/-!
# Offsets in a text, counted in bytes

Offsets in a source are counted in bytes of its UTF-8 form, while the text itself is a list of
characters.  This file measures a text and cuts it at an offset.

## Main definitions

* `byteSize` : the number of bytes that a text takes.
* `dropBytes?` : what is left of a text from an offset on, if the offset does not lie inside a
  character or behind the end.

## Main results

* `utf8ByteSize_ofList` : the measure is the size of the text as a string.
* `byteSize_append` : the measure is additive.
* `dropBytes?_byteSize_append` : cutting at the size of the first part leaves the second.
* `eq_append_of_dropBytes?` : a cut splits the text at the offset asked for.
-/

namespace Cascade.Text

/-- The number of bytes in the UTF-8 form of a text. -/
def byteSize : List Char → Nat
  | [] => 0
  | c :: cs => c.utf8Size + byteSize cs

/-- The rest of a text behind its first `n` bytes.  There is none if the text is shorter, or if
the cut would go through a character. -/
def dropBytes? : Nat → List Char → Option (List Char)
  | 0, cs => some cs
  | _ + 1, [] => none
  | n + 1, c :: cs => if c.utf8Size ≤ n + 1 then dropBytes? (n + 1 - c.utf8Size) cs else none

@[simp] theorem byteSize_nil : byteSize [] = 0 := rfl

@[simp] theorem byteSize_cons (c : Char) (cs : List Char) :
    byteSize (c :: cs) = c.utf8Size + byteSize cs := rfl

@[simp] theorem byteSize_append (cs ds : List Char) :
    byteSize (cs ++ ds) = byteSize cs + byteSize ds := by
  induction cs with
  | nil => simp
  | cons c cs ih => simp [ih, Nat.add_assoc]

/-- The measure is the number of bytes of the text as a string. -/
theorem utf8ByteSize_ofList (cs : List Char) : (String.ofList cs).utf8ByteSize = byteSize cs := by
  induction cs with
  | nil => rfl
  | cons c cs ih =>
    rw [String.ofList_cons, String.utf8ByteSize_append, String.utf8ByteSize_singleton, ih,
      byteSize_cons]

theorem byteSize_toList (s : String) : byteSize s.toList = s.utf8ByteSize := by
  rw [← utf8ByteSize_ofList, String.ofList_toList]

theorem byteSize_pos {cs : List Char} (h : cs ≠ []) : 0 < byteSize cs := by
  cases cs with
  | nil => exact absurd rfl h
  | cons c cs => have := c.utf8Size_pos; simp only [byteSize_cons]; omega

theorem dropBytes?_zero (cs : List Char) : dropBytes? 0 cs = some cs := by
  cases cs <;> rfl

/-- Cutting a text at the size of its first part leaves the second part. -/
theorem dropBytes?_byteSize_append (cs ds : List Char) :
    dropBytes? (byteSize cs) (cs ++ ds) = some ds := by
  induction cs with
  | nil => exact dropBytes?_zero ds
  | cons c cs ih =>
    have hc := c.utf8Size_pos
    obtain ⟨n, hn⟩ : ∃ n, c.utf8Size + byteSize cs = n + 1 :=
      ⟨_, (Nat.sub_add_cancel (by omega)).symm⟩
    have hsub : n + 1 - c.utf8Size = byteSize cs := by omega
    rw [byteSize_cons, hn, List.cons_append, dropBytes?, if_pos (by omega), hsub, ih]

/-- A cut splits the text into a part of the size asked for and the rest. -/
theorem eq_append_of_dropBytes? {n : Nat} {cs rest : List Char} (h : dropBytes? n cs = some rest) :
    ∃ front, cs = front ++ rest ∧ byteSize front = n := by
  induction cs generalizing n with
  | nil =>
    cases n with
    | zero => exact ⟨[], by simpa [dropBytes?] using h, rfl⟩
    | succ n => simp [dropBytes?] at h
  | cons c cs ih =>
    cases n with
    | zero => exact ⟨[], by simpa [dropBytes?] using h, rfl⟩
    | succ n =>
      rw [dropBytes?] at h
      split at h
      · obtain ⟨front, rfl, hfront⟩ := ih h
        exact ⟨c :: front, rfl, by simp only [byteSize_cons, hfront]; omega⟩
      · exact absurd h (by simp)

end Cascade.Text
