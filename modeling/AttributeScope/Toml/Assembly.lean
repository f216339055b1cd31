import AttributeScope.Toml.Value

/-!
# Assembling TOML tables

A document gives the entries of its tables one by one: by assignments, whose keys may lead into
subtables, and by headers, which begin a table or one more element of an array of tables.  No
entry may be given twice, and a table that was completed in one way cannot be extended in another.
-/

namespace AttributeScope
namespace Toml

/-- How a table came to be. -/
inductive Origin where
  /-- By a header of its own; dotted keys do not extend it. -/
  | header
  /-- Because a header names a table inside of it. -/
  | implied
  /-- By a dotted key. -/
  | dotted
deriving DecidableEq, Repr

/-- What an entry of a table stands for while a document is read. -/
inductive Item where
  | value (value : Value)
  | table (origin : Origin) (entries : List (String × Item))
  /-- An array of tables, the last one first. -/
  | tables (elements : List (List (String × Item)))

/-- A key path: the tables on the way and the last key. -/
structure KeyPath where
  parents : List String
  key : String
deriving DecidableEq, Repr

/-- A value with the key path that it is given to. -/
structure Assignment where
  path : KeyPath
  value : Value

/-- A header and the assignments below it. -/
structure Section where
  /-- Whether the header adds an element to an array of tables. -/
  isElement : Bool
  path : KeyPath
  assignments : List Assignment

/-- Whether a table may be passed or entered by a dotted key; it is entered if no further table is
named. -/
def Origin.admits (origin : Origin) (entered : Bool) : Bool :=
  match origin with
  | .header => false
  | .implied => !entered
  | .dotted => true

/-- Give a value to a key, in the tables that lead there by a dotted key. -/
def assign (parents : List String) (key : String) (value : Value) (entries : Entries Item) :
    Option (Entries Item) :=
  match parents with
  | [] => if (entries.lookup key).isSome then none else some (entries.set key (.value value))
  | first :: rest =>
    match entries.lookup first with
    | none => (assign rest key value []).map fun inner => entries.set first (.table .dotted inner)
    | some (.table origin inner) =>
      if origin.admits rest.isEmpty then
        (assign rest key value inner).map fun inner => entries.set first (.table origin inner)
      else none
    | some (.tables (current :: earlier)) =>
      if rest.isEmpty then none
      else
        (assign rest key value current).map fun inner =>
          entries.set first (.tables (inner :: earlier))
    | some (.tables []) => none
    | some (.value _) => none

/-- Give several values to keys, one after the other. -/
def assignAll (assignments : List Assignment) (entries : Entries Item) : Option (Entries Item) :=
  assignments.foldlM (fun entries a => assign a.path.parents a.path.key a.value entries) entries

/-- Change a table, in the tables that lead there by a header. -/
def descend (parents : List String) (change : Entries Item → Option (Entries Item))
    (entries : Entries Item) : Option (Entries Item) :=
  match parents with
  | [] => change entries
  | first :: rest =>
    match entries.lookup first with
    | none => (descend rest change []).map fun inner => entries.set first (.table .implied inner)
    | some (.table origin inner) =>
      (descend rest change inner).map fun inner => entries.set first (.table origin inner)
    | some (.tables (current :: earlier)) =>
      (descend rest change current).map fun inner =>
        entries.set first (.tables (inner :: earlier))
    | some (.tables []) => none
    | some (.value _) => none

/-- What a header and its assignments make of an entry.  A header completes a table that was only
implied, or adds an element to an array of tables. -/
def Section.item? (s : Section) : Option Item → Option Item
  | none =>
    (assignAll s.assignments []).map fun entries =>
      if s.isElement then .tables [entries] else .table .header entries
  | some (.table .implied entries) =>
    if s.isElement then none
    else (assignAll s.assignments entries).map fun entries => .table .header entries
  | some (.tables elements) =>
    if s.isElement then
      (assignAll s.assignments []).map fun entries => .tables (entries :: elements)
    else none
  | some _ => none

/-- Add a section to the table that holds it.  The table of a header comes last there, even if it
was implied before. -/
def Section.addTo (s : Section) (entries : Entries Item) : Option (Entries Item) :=
  (s.item? (entries.lookup s.path.key)).map fun item =>
    if s.isElement then entries.set s.path.key item else entries.setLast s.path.key item

/-- The entries of a document: assignments at the top, then sections. -/
def assemble (assignments : List Assignment) (sections : List Section) : Option (Entries Item) :=
  (assignAll assignments []).bind fun entries =>
    sections.foldlM (fun entries s => descend s.path.parents s.addTo entries) entries

mutual

/-- The value that an item stands for. -/
def Item.toValue : Item → Value
  | .value value => value
  | .table _ entries => .table (entriesToValues entries)
  | .tables elements => .array (elementsToValues elements).reverse

/-- The values that entries stand for. -/
def entriesToValues : List (String × Item) → List (String × Value)
  | [] => []
  | (key, item) :: rest => (key, item.toValue) :: entriesToValues rest

/-- The values that elements of an array of tables stand for. -/
def elementsToValues : List (List (String × Item)) → List Value
  | [] => []
  | entries :: rest => .table (entriesToValues entries) :: elementsToValues rest

end

end Toml
end AttributeScope
