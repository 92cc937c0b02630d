import ServerFleet.Decimal.Binary64
import ServerFleet.Launch.SystemError
import ServerFleet.Text.Layout

/-!
Why a call on a client failed. The bound on a handshake is worded by the largest unit of time that
leaves a whole part, and behind a point the rest without trailing zeros.
-/

namespace ServerFleet

/-- A span of time in nanoseconds. -/
structure Duration where
  nanoseconds : Nat
deriving DecidableEq

namespace Duration

/-- A number of units of `10 ^ places` nanoseconds. -/
def inUnit (nanoseconds places : Nat) (unit : String) : String :=
  let whole := nanoseconds / tenTo places
  let rest := nanoseconds % tenTo places
  let fraction :=
    if rest = 0 then []
    else '.' :: ((Text.paddedDigits places rest).reverse.dropWhile (· = '0')).reverse
  toString whole ++ String.ofList fraction ++ unit

/-- The text of a span, such as `1.5s` or `20ms`. -/
def text (d : Duration) : String :=
  if tenTo 9 ≤ d.nanoseconds then inUnit d.nanoseconds 9 "s"
  else if tenTo 6 ≤ d.nanoseconds then inUnit d.nanoseconds 6 "ms"
  else if tenTo 3 ≤ d.nanoseconds then inUnit d.nanoseconds 3 "µs"
  else inUnit d.nanoseconds 0 "ns"

end Duration

/-- A failure of a client. -/
inductive ClientError where
  /-- The handshake was rejected or could not be completed. -/
  | handshake (message : String)
  /-- The handshake did not end within its bound. -/
  | handshakeTimeout (limit : Duration)
  /-- A request was answered by an error. -/
  | request (method message : String)
  /-- The connection is gone. -/
  | closed
  /-- Input or output on the server's pipes failed. -/
  | io (cause : IoError)
deriving DecidableEq

def ClientError.message : ClientError → String
  | .handshake m => s!"initialize failed: {m}"
  | .handshakeTimeout limit => s!"initialize timed out after {limit.text}"
  | .request method m => s!"{method} failed: {m}"
  | .closed => "server connection closed"
  | .io cause => cause.message

end ServerFleet
