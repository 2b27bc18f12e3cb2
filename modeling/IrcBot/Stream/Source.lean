/-
The reading side of a non-blocking stream, as its reader meets it: pieces of
data with refusals between them. An interrupted read is repeated at once, so
one refill of the line buffer ends in data, in a refusal or at the end of the
stream.
-/
import IrcBot.Stream.LineBuffer

namespace IrcBot

/-- Why the system refused to read or write. -/
inductive IoError where
  | connectionReset
  | brokenPipe
  | writeZero
  /-- The peer aborted the connection. -/
  | resetByPeer
  deriving DecidableEq, Repr

def IoError.message : IoError → Text
  | .connectionReset => "connection reset".toList
  | .brokenPipe => "broken pipe".toList
  | .writeZero => "write zero".toList
  | .resetByPeer => "Connection reset by peer (os error 104)".toList

/-- What one read meets. Data of no bytes is the end of the stream. -/
inductive Arrival where
  | data (bytes : Bytes)
  | blocked
  | interrupted
  | failed (error : IoError)
  deriving DecidableEq, Repr

def Arrival.isInterrupted : Arrival → Bool
  | .interrupted => true
  | _ => false

structure Source where
  arrivals : List Arrival := []
  /-- Whether the stream is at its end after the arrivals, or only has nothing to give yet. -/
  ended : Bool := false
  deriving DecidableEq, Repr, Inhabited

namespace Source

/-- The most bytes one read takes. -/
def chunk : Nat := 4096

def read (s : Source) : Arrival × Source :=
  match s.arrivals with
  | [] => (if s.ended then .data [] else .blocked, s)
  | .data bytes :: rest =>
    let left := bytes.drop chunk
    (.data (bytes.take chunk), { s with arrivals := if left = [] then rest else .data left :: rest })
  | arrival :: rest => (arrival, { s with arrivals := rest })

/-- Why a refill brought nothing and none will. -/
inductive Stop where
  /-- The end of the stream. -/
  | closed
  | failed (error : IoError)
  deriving DecidableEq, Repr

/-- The source as it is once interrupted reads have been repeated. -/
def settled (s : Source) : Source :=
  { s with arrivals := s.arrivals.dropWhile Arrival.isInterrupted }

/-- Reads one chunk into the buffer. `false` means that there is nothing to read for now. -/
def fill (s : Source) (b : LineBuffer) : Except Stop Bool × Source × LineBuffer :=
  match s.settled.read with
  | (.data [], s) => (.error .closed, s, b)
  | (.data bytes, s) => (.ok true, s, b.extend bytes)
  | (.failed e, s) => (.error (.failed e), s, b)
  | (.blocked, s) | (.interrupted, s) => (.ok false, s, b)

end Source

end IrcBot
