import AlgebraicData.Text.Brace

/-!
# Layouts

A layout is text with line breaks whose indentation is not decided yet: each break knows how many
blocks are open around the line it begins.  Rendering then gives every block the same indent.
-/

namespace AlgebraicData.Target

/-- A part of a layout. -/
inductive Piece where
  /-- Text put down as it is. -/
  | text (value : String)
  /-- A new line, inside `depth` blocks. -/
  | newline (depth : Nat)
deriving DecidableEq, Repr

/-- Text and line breaks in order. -/
abbrev Layout :=
  List Piece

namespace Layout

/-- Text on the current line. -/
def text (value : String) : Layout :=
  [.text value]

/-- The piece inside one more block. -/
def deepenPiece : Piece → Piece
  | .text value => .text value
  | .newline depth => .newline (depth + 1)

/-- The layout inside one more block. -/
def deepen (layout : Layout) : Layout :=
  layout.map deepenPiece

/-- The layouts one after another with `separator` between them. -/
def separated (separator : String) (layouts : List Layout) : Layout :=
  List.intercalate (text separator) layouts

/-- The layout between two texts. -/
def enclosed (opening closing : String) (layout : Layout) : Layout :=
  text opening ++ layout ++ text closing

/-- The layout in parentheses if need be. -/
def parenthesizedIf (needed : Bool) (layout : Layout) : Layout :=
  if needed then enclosed "(" ")" layout else layout

/-- One line or more inside braces, each layout beginning a line; `{}` for nothing. -/
def block : List Layout → Layout
  | [] => text "{}"
  | layouts =>
    text openBrace ++ layouts.flatMap (fun layout => .newline 1 :: layout.deepen) ++
      [.newline 0, .text closeBrace]

/-- The text of a piece, with `indent` spaces for each block. -/
def renderPiece (indent : Nat) : Piece → String
  | .text value => value
  | .newline depth => String.ofList ('\n' :: List.replicate (depth * indent) ' ')

/-- The text of a layout, with `indent` spaces for each block. -/
def render (indent : Nat) (layout : Layout) : String :=
  String.join (layout.map (renderPiece indent))

end Layout

end AlgebraicData.Target
