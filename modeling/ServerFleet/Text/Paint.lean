/-!
Terminal colours. A painter sets a text between the escape code of its colour and the reset
code, and leaves it as it is when colours are off.
-/

namespace ServerFleet.Text

/-- The colours and weights of terminal output. -/
inductive Color where
  /-- For what is healthy. -/
  | green
  /-- For warnings and disabled servers. -/
  | yellow
  /-- For errors. -/
  | red
  /-- For server ids. -/
  | cyan
  /-- For what matters less. -/
  | dim
  /-- For labels. -/
  | bold
deriving DecidableEq

def Color.code : Color → String
  | .green => "32"
  | .yellow => "33"
  | .red => "31"
  | .cyan => "36"
  | .dim => "2"
  | .bold => "1"

def paint (enabled : Bool) (color : Color) (s : String) : String :=
  if enabled then "\x1b[" ++ color.code ++ "m" ++ s ++ "\x1b[0m" else s

end ServerFleet.Text
