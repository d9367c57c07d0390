set_option autoImplicit false

/-!
# Lines of a text

## Main definitions

* `lines` — the lines of a text, each without its line feed and without a carriage return
  right before that line feed.
-/

namespace Constellation

/-- A line without the carriage return at its end, if it has one. -/
def dropReturn (line : List Char) : List Char :=
  if line.getLast? = some '\r' then line.dropLast else line

/-- The lines of a text. A line feed ends a line. What follows the last line feed is a line of its
own if it is not empty, and it keeps its carriage return because nothing ends it. -/
def lines (text : List Char) : List (List Char) :=
  let pieces := text.splitOn '\n'
  pieces.dropLast.map dropReturn ++ (pieces.getLast?.toList.filter fun piece => !piece.isEmpty)

end Constellation
