import AttributeScope.Toml.Syntax

/-!
# TOML documents

A text is a TOML document if its lines can be read and their entries fit together.
-/

namespace AttributeScope
namespace Toml

/-- The assignments in front of the first header, and the sections. -/
def sections : List Line → List Assignment × List Section
  | [] => ([], [])
  | .assignment assignment :: rest =>
    let (assignments, sections) := sections rest
    (assignment :: assignments, sections)
  | .header isElement path :: rest =>
    let (assignments, sections) := sections rest
    ([], ⟨isElement, path, assignments⟩ :: sections)

/-- The mark that may stand at the beginning of a text. -/
def byteOrderMark : Char := Char.ofNat 0xFEFF

/-- A text without a mark at its beginning. -/
def withoutMark : List Char → List Char
  | c :: rest => if c = byteOrderMark then rest else c :: rest
  | [] => []

/-- The entries of a document. -/
def ofText? (text : String) : Option (Entries Value) := do
  let input := withoutMark text.toList
  let lines ← readLines (input.length + 1) input
  let (assignments, sections) := sections lines
  let entries ← assemble assignments sections
  some (entriesToValues entries)

end Toml
end AttributeScope
