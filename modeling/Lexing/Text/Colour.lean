/-!
# Coloured lines

Lines that report problems are red on a terminal.
-/

namespace Lexing.Colour

/-- What turns the colour of a terminal to red. -/
def red : String := "\x1b[31m"

/-- What turns the colour of a terminal back. -/
def plain : String := "\x1b[0m"

/-- A text in red if it is to be coloured. Where the text itself turns the colour back, it is turned
to red again. -/
def inRed (coloured : Bool) (text : String) : String :=
  if coloured then red ++ text.replace plain (plain ++ red) ++ plain else text

end Lexing.Colour
