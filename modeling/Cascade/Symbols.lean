import Cascade.ValueType

/-!
# Declared variables

A table of the variables of one program and their types.  A later declaration of a name replaces
an earlier one.

## Main definitions

* `Symbols` : the table.
* `Symbols.declare`, `Symbols.lookup?`, `Symbols.size` : its operations.
* `Symbols.lookup` : the type of a variable, or the fault that it has none.

## Main results

* `Symbols.lookup?_declare` : a declaration changes the type of its own name only.
-/

namespace Cascade

/-- The declared variables with their types, the latest declaration first. -/
@[ext] structure Symbols where
  /-- The entries of the table. -/
  entries : List (String × ValueType)
  /-- No name has two entries. -/
  nodup : (entries.map Prod.fst).Nodup
deriving DecidableEq

namespace Symbols

/-- The table without a variable. -/
def empty : Symbols :=
  ⟨[], List.nodup_nil⟩

/-- The entries of the other names. -/
def others (symbols : Symbols) (name : String) : List (String × ValueType) :=
  symbols.entries.filter fun entry => entry.1 ≠ name

theorem nodup_cons_others (symbols : Symbols) (name : String) (type : ValueType) :
    (((name, type) :: symbols.others name).map Prod.fst).Nodup := by
  rw [List.map_cons, List.nodup_cons]
  constructor
  · intro h
    obtain ⟨entry, hentry, rfl⟩ := List.mem_map.1 h
    simp [others] at hentry
  · exact symbols.nodup.sublist (List.filter_sublist.map Prod.fst)

/-- The table with one more variable, in place of any earlier one with the name. -/
def declare (symbols : Symbols) (name : String) (type : ValueType) : Symbols :=
  ⟨(name, type) :: symbols.others name, symbols.nodup_cons_others name type⟩

/-- The type of a variable. -/
def lookup? (symbols : Symbols) (name : String) : Option ValueType :=
  symbols.entries.lookup name

/-- The type of a variable, or the fault that it was not declared. -/
def lookup (symbols : Symbols) (name : String) : Except Fault ValueType :=
  match symbols.lookup? name with
  | some type => .ok type
  | none => .error (.variableNotDeclared name)

/-- The number of variables. -/
def size (symbols : Symbols) : Nat :=
  symbols.entries.length

/-- Whether there is no variable. -/
def isEmpty (symbols : Symbols) : Bool :=
  symbols.entries.isEmpty

@[simp] theorem lookup?_empty (name : String) : empty.lookup? name = none := rfl

private theorem lookup_filter_ne {name other : String} (h : other ≠ name)
    (entries : List (String × ValueType)) :
    (entries.filter fun entry => entry.1 ≠ name).lookup other = entries.lookup other := by
  induction entries with
  | nil => rfl
  | cons entry entries ih =>
    obtain ⟨key, type⟩ := entry
    by_cases hk : key = name
    · subst hk
      have hb : (other == key) = false := by simpa using h
      simpa [List.lookup_cons, hb] using ih
    · simp only [ne_eq, hk, not_false_eq_true, decide_true, List.filter_cons_of_pos,
        List.lookup_cons]
      cases other == key <;> simp_all

/-- A declaration changes the type of its own name only. -/
theorem lookup?_declare (symbols : Symbols) (name other : String) (type : ValueType) :
    (symbols.declare name type).lookup? other =
      if other = name then some type else symbols.lookup? other := by
  by_cases h : other = name
  · simp [lookup?, declare, h]
  · have hb : (other == name) = false := by simpa using h
    simp only [lookup?, declare, List.lookup_cons, hb, h, if_false]
    exact lookup_filter_ne h symbols.entries

end Symbols

end Cascade
