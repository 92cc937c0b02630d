import ServerFleet.Text.Bytes

/-!
Scripts of the command shell as trees: words with their expansions, redirections, and commands.
-/

namespace ServerFleet.Shell

/-- The stream a redirection is about. -/
inductive Stream where
  | input
  | output
  | errors
deriving DecidableEq

/-- What a redirection does with its stream. -/
inductive Redirect where
  | readFrom
  | writeTo
  | appendTo
  | sameAs (other : Stream)
deriving DecidableEq

mutual

/-- A piece of a word. The values of expansions are split into fields unless they are quoted. -/
inductive Piece where
  | text (t : Bytes)
  | parameter (name : String) (quoted : Bool)
  | substitution (body : List Command) (quoted : Bool)

/-- A command. Words are lists of pieces. -/
inductive Command where
  /-- Assignments and the words of a program with its arguments. -/
  | simple (assignments : List (String × List Piece)) (words : List (List Piece))
  /-- Runs a body once for each field of some words. -/
  | each (name : String) (words : List (List Piece)) (body : List Command)
  /-- Runs a body as long as a condition succeeds, or fails. -/
  | loop (whileSuccess : Bool) (condition body : List Command)
  | branch (condition yes no : List Command)
  | group (body : List Command)
  | subshell (body : List Command)
  | both (first second : Command)
  | either (first second : Command)
  | negate (c : Command)
  | pipe (first second : Command)
  | redirect (c : Command) (stream : Stream) (how : Redirect) (target : List Piece)

end

/-- A piece whose value is not split into fields. -/
def Piece.quoted : Piece → Piece
  | .text t => .text t
  | .parameter name _ => .parameter name true
  | .substitution body _ => .substitution body true

abbrev Word := List Piece

abbrev Script := List Command

instance : Inhabited Command := ⟨.group []⟩

end ServerFleet.Shell
