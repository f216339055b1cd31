/-!
# Styled text

Text for a terminal, as pieces that are plain or styled.  Colored, a styled piece begins with a
reset and the sequences of its style and ends with a reset; uncolored, only its text is written.

Main results:

- `render_append`: pieces are written one after the other.
- `render_false`: uncolored, the texts of the pieces are written.
-/

namespace AttributeScope
namespace Terminal

/-- How a text stands out. -/
inductive Style where
  | bold
  | dimmed
  | cyan
  /-- A warning: bold and yellow. -/
  | warning
deriving DecidableEq, Repr

/-- A piece of output. -/
inductive Piece where
  | plain (text : String)
  | styled (style : Style) (text : String)
deriving DecidableEq, Repr

namespace Style

/-- The parameters of the sequences that switch a style on. -/
def parameters : Style → List String
  | bold => ["1"]
  | dimmed => ["2"]
  | cyan => ["36"]
  | warning => ["1", "33"]

end Style

/-- The control sequence with a parameter. -/
def sequence (parameter : String) : String := "\x1b[" ++ parameter ++ "m"

/-- The control sequence that switches every style off. -/
def reset : String := sequence "0"

namespace Piece

/-- The text of a piece. -/
def text : Piece → String
  | plain text => text
  | styled _ text => text

/-- A piece as it is written. -/
def render (colored : Bool) : Piece → String
  | plain text => text
  | styled style text =>
    if colored then
      reset ++ String.join (style.parameters.map sequence) ++ text ++ reset
    else text

end Piece

/-- Pieces as they are written, one after the other. -/
def render (colored : Bool) (pieces : List Piece) : String :=
  String.join (pieces.map (Piece.render colored))

/-- Pieces are written one after the other. -/
theorem render_append (colored : Bool) (left right : List Piece) :
    render colored (left ++ right) = render colored left ++ render colored right := by
  simp [render]

/-- Uncolored, the texts of the pieces are written. -/
theorem render_false (pieces : List Piece) :
    render false pieces = String.join (pieces.map Piece.text) := by
  have h : pieces.map (Piece.render false) = pieces.map Piece.text :=
    List.map_congr_left fun piece _ => by cases piece <;> rfl
  rw [render, h]

/-- When output is colored. -/
inductive ColorChoice where
  | never
  | always
  /-- If the terminal shows colors. -/
  | auto
deriving DecidableEq, Repr

/-- What the surroundings of a run say about colors. -/
structure ColorHints where
  noColor : Bool := false
  color : Bool := false
  ci : Bool := false
  /-- Whether the output goes to a terminal. -/
  terminal : Bool := false
  /-- Whether the terminal is one without colors. -/
  dumb : Bool := false
deriving DecidableEq, Repr

namespace ColorChoice

/-- The choice of a run.  Being told to leave colors out wins over being told to use them, and
both win over the surroundings. -/
def resolve (force disable : Bool) (hints : ColorHints) : ColorChoice :=
  if disable then never
  else if force then always
  else if hints.noColor then never
  else if hints.color then always
  else if !hints.terminal || hints.ci then never
  else auto

/-- Whether a choice colors the output. -/
def isColored (hints : ColorHints) : ColorChoice → Bool
  | never => false
  | always => true
  | auto => !hints.dumb

end ColorChoice
end Terminal
end AttributeScope
