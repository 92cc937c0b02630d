import ServerFleet.Diagnostics.Aggregate
import ServerFleet.Instance.Status
import ServerFleet.Manager.Roster

/-!
What the manager is asked, what it asks of its clients in turn, and what it answers. A request
about a file is put to the resolved clients one after another; `Request.isSatisfied` says when no
further client is asked, and `Request.answer` makes the answer out of the replies.
-/

namespace ServerFleet.Manager

/-- A place in a file, counted from zero. -/
structure Position where
  line : Nat
  character : Nat
deriving DecidableEq, Inhabited

/-- A question about a place in a file. -/
inductive Query where
  | hover
  | completion
  | definition
  | references
deriving DecidableEq, Inhabited

/-- What the manager asks of a client. -/
inductive ClientCall where
  /-- Do the handshake. -/
  | handshake
  | open (file : Path)
  | change (file : Path) (text : String)
  | save (file : Path)
  /-- Wait until diagnostics for a file were published, for a number of milliseconds. -/
  | awaitDiagnostics (file : Path) (limit : Nat)
  | query (q : Query) (file : Path) (position : Position)
  | shutdown
deriving Inhabited

namespace Query

def name : Query → String
  | hover => "hover"
  | completion => "completion"
  | definition => "definition"
  | references => "references"

end Query

namespace ClientCall

def name : ClientCall → String
  | handshake => "initialize"
  | .open _ => "open"
  | change _ _ => "change"
  | save _ => "save"
  | awaitDiagnostics _ _ => "wait"
  | query q _ _ => q.name
  | shutdown => "shutdown"

end ClientCall

/-- The reply of a client. -/
inductive ClientReply where
  | done
  | failed
  /-- What a hover shows, if there is anything. -/
  | hover (contents : Option Json)
  /-- What the other questions find. -/
  | items (found : List Json)
deriving Inhabited

/-- A call on the manager. -/
inductive Request where
  /-- The clients that apply to a file, started where necessary. -/
  | clientsForFile (file : Path)
  /-- Open a file everywhere, and wait for diagnostics if asked to. -/
  | touchFile (file : Path) (wait : Bool)
  /-- A file has new contents, or is opened again when none are given. -/
  | fileChanged (file : Path) (text : Option String)
  | fileSaved (file : Path)
  | query (q : Query) (file : Path) (position : Position)
  | allDiagnostics
  | diagnosticsForFile (file : Path)
  | status
  | registry
  | setServerEnabled (server : String) (enabled : Bool)
  | isServerEnabled (server : String)
  | resetServer (server : String)
  | shutdown
deriving Inhabited

/-- What a call gives back. -/
inductive Answer where
  | done
  | clients (found : List ClientId)
  | count (n : Nat)
  | flag (b : Bool)
  | hover (contents : Option Json)
  | items (found : List Json)
  | diagnostics (files : DiagnosticTable)
  | fileDiagnostics (found : List Diagnostic)
  | status (servers : List ServerStatus)
  | ids (ids : List String)
deriving Inhabited

namespace ClientReply

/-- The contents of a hover that shows something. -/
def shown? : ClientReply → Option Json
  | hover contents => contents
  | _ => none

/-- What was found; nothing for a failure. -/
def found : ClientReply → List Json
  | items l => l
  | _ => []

def isDone : ClientReply → Bool
  | done => true
  | _ => false

end ClientReply

namespace Request

/-- The file that is routed, if the request is about one. -/
def routed? : Request → Option Path
  | clientsForFile f => some f
  | touchFile f _ => some f
  | fileChanged f _ => some f
  | fileSaved f => some f
  | query _ f _ => some f
  | _ => none

/-- What each resolved client is asked about a file. -/
def clientCall? (r : Request) (file : Path) : Option ClientCall :=
  match r with
  | touchFile _ _ => some (.open file)
  | fileChanged _ (some text) => some (.change file text)
  | fileChanged _ none => some (.open file)
  | fileSaved _ => some (.save file)
  | query q _ position => some (.query q file position)
  | _ => none

/-- Whether a reply ends the round of the clients. -/
def isSatisfied : Request → ClientReply → Bool
  | query .hover _ _, reply => reply.shown?.isSome
  | query .definition _ _, reply => !reply.found.isEmpty
  | _, _ => false

/-- The answer once the clients that had to be asked have replied. -/
def answer (r : Request) (replies : List (ClientId × ClientReply)) : Answer :=
  match r with
  | touchFile _ _ => .count (replies.countP (·.2.isDone))
  | query .hover _ _ => .hover (replies.findSome? (·.2.shown?))
  | query .definition _ _ =>
    .items ((replies.find? fun e => !e.2.found.isEmpty).map (·.2.found) |>.getD [])
  | query _ _ _ => .items (replies.flatMap (·.2.found))
  | _ => .done

/-- The clients whose diagnostics are waited for after the round. -/
def awaited (r : Request) (replies : List (ClientId × ClientReply)) : List ClientId :=
  match r with
  | touchFile _ true => (replies.filter (·.2.isDone)).map (·.1)
  | _ => []

end Request

end ServerFleet.Manager
