import BrokerCluster.Naming.Service
import BrokerCluster.Wire.Request

/-!
# The client of the name service

Each call sends one request line and reads one reply. A call that changes the
table succeeds only if the reply is `ok`; a reply that begins with `error` means
that a name is not known.
-/
namespace BrokerCluster.Naming

/-- Sends a request line and returns the reply, or why there is none. -/
abbrev Ask (m : Type → Type) := String → m (Except Wire.Failure String)

namespace Client

variable {m : Type → Type} [Monad m]

def registerLine (name address : String) : String := "register " ++ name ++ " " ++ address

def resolveLine (name : String) : String := "resolve " ++ name

def unregisterLine (name : String) : String := "unregister " ++ name

/-- Accepts the reply `ok` and no other. -/
def expectOk : Except Wire.Failure String → Except Wire.Failure Unit
  | .ok reply => if reply = "ok" then .ok () else .error (.unexpectedReply reply)
  | .error failure => .error failure

/-- Reads a reply that holds an address or says that there is none. -/
def addressIn : Except Wire.Failure String → Except Wire.Failure (Option String)
  | .ok reply => .ok (if "error".isPrefixOf reply then none else some reply)
  | .error failure => .error failure

def register (ask : Ask m) (name address : String) : m (Except Wire.Failure Unit) :=
  expectOk <$> ask (registerLine name address)

def resolve (ask : Ask m) (name : String) : m (Except Wire.Failure (Option String)) :=
  addressIn <$> ask (resolveLine name)

def unregister (ask : Ask m) (name : String) : m (Except Wire.Failure Unit) :=
  expectOk <$> ask (unregisterLine name)

end Client

/-- One round trip with a name server over a connection of its own. -/
def roundTrip (line : String) : StateM Table (Except Wire.Failure String) := fun table =>
  let (table, output) := serve table (Wire.writeLine line)
  (Wire.replyIn output, table)

end BrokerCluster.Naming
