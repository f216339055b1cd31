/-!
# TOML values

The values of a TOML document.  Settings have neither fractions nor times, so of those values
only the kind is kept.

Main results:

- `Entries.lookup_set` and `Entries.lookup_set_of_ne`: what is found after an entry was set.
- `Entries.lookup_setLast`: the same of an entry that was made the last one.
-/

namespace AttributeScope
namespace Toml

/-- A value of a TOML document. -/
inductive Value where
  | string (text : String)
  /-- A whole number of 64 bits. -/
  | integer (n : Int)
  /-- A number with a fraction or an exponent, an infinity or no number at all. -/
  | float
  | boolean (value : Bool)
  /-- A date, a time or both. -/
  | dateTime
  | array (items : List Value)
  | table (entries : List (String × Value))

/-- Entries by name, in the order in which they were first written. -/
abbrev Entries (α : Type) := List (String × α)

namespace Entries

/-- Set the entry of that name. -/
def set {α : Type} (key : String) (value : α) : Entries α → Entries α
  | [] => [(key, value)]
  | (other, old) :: rest =>
    if other = key then (key, value) :: rest else (other, old) :: set key value rest

/-- Entries without those of a name. -/
def erase {α : Type} (key : String) (entries : Entries α) : Entries α :=
  entries.filter fun entry => entry.1 != key

/-- Set the entry of that name and make it the last one. -/
def setLast {α : Type} (key : String) (value : α) (entries : Entries α) : Entries α :=
  erase key entries ++ [(key, value)]

/-- An entry that was set is found. -/
@[simp] theorem lookup_set {α : Type} (key : String) (value : α) (entries : Entries α) :
    (set key value entries).lookup key = some value := by
  induction entries with
  | nil => simp [set]
  | cons entry rest ih =>
    obtain ⟨other, old⟩ := entry
    by_cases h : other = key
    · simp [set, h]
    · have hbeq : (key == other) = false := beq_false_of_ne fun e => h e.symm
      simp [set, h, List.lookup_cons, hbeq, ih]

/-- Every other entry stays as it is. -/
theorem lookup_set_of_ne {α : Type} {key other : String} (h : other ≠ key) (value : α)
    (entries : Entries α) : (set key value entries).lookup other = entries.lookup other := by
  induction entries with
  | nil =>
    have hbeq : (other == key) = false := beq_false_of_ne h
    simp [set, List.lookup_cons, hbeq]
  | cons entry rest ih =>
    obtain ⟨name, old⟩ := entry
    by_cases hname : name = key
    · have hbeq : (other == key) = false := beq_false_of_ne h
      simp [set, hname, List.lookup_cons, hbeq]
    · by_cases hother : other = name
      · simp [set, hname, hother]
      · have hbeq : (other == name) = false := beq_false_of_ne hother
        simp [set, hname, List.lookup_cons, hbeq, ih]

theorem lookup_erase_append {α : Type} (key : String) (entries rest : Entries α) :
    (erase key entries ++ rest).lookup key = rest.lookup key := by
  induction entries with
  | nil => simp [erase]
  | cons entry others ih =>
    obtain ⟨name, old⟩ := entry
    by_cases h : name = key
    · simpa [erase, h] using ih
    · have hbeq : (key == name) = false := beq_false_of_ne fun e => h e.symm
      simpa [erase, h, List.lookup_cons, hbeq] using ih

/-- An entry that was set as the last one is found. -/
@[simp] theorem lookup_setLast {α : Type} (key : String) (value : α) (entries : Entries α) :
    (setLast key value entries).lookup key = some value := by
  simp [setLast, lookup_erase_append]

end Entries
end Toml
end AttributeScope
