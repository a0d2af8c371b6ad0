import BrokerCluster.Naming.Table
import BrokerCluster.Wire.Line

/-!
# The name service

One request line gets one reply line. A session greets its client, answers line
by line, and ends after a line that is just the word `exit`, at the end of its
input, or at a line that cannot be read. Words after `exit` are answered like
`exit` and do not end the session.
-/
namespace BrokerCluster.Naming

/-- The line that greets a client. -/
def banner : String := "ok SDP"

inductive Request where
  | register (name address : String)
  | resolve (name : String)
  | unregister (name : String)
  | exit
  /-- A line that asks for nothing, with the reply that says so. -/
  | malformed (reply : String)
  deriving DecidableEq, Repr

def Request.ofLine (line : String) : Request :=
  match Text.words line with
  | "register" :: arguments =>
    match arguments with
    | [name, address] => .register name address
    | _ => .malformed "error usage: register <name> <ip:port>"
  | "resolve" :: arguments =>
    match arguments with
    | [name] => .resolve name
    | _ => .malformed "error usage: resolve <name>"
  | "unregister" :: arguments =>
    match arguments with
    | [name] => .unregister name
    | _ => .malformed "error usage: unregister <name>"
  | "exit" :: _ => .exit
  | _ => .malformed "error usage: <command> <args>"

def answer (table : Table) : Request → Table × String
  | .register name address => (table.register name address, "ok")
  | .resolve name => (table, (table.address? name).getD "error domain not found")
  | .unregister name => (table.unregister name, "ok")
  | .exit => (table, "ok bye")
  | .malformed reply => (table, reply)

def answerLine (table : Table) (line : String) : Table × String := answer table (.ofLine line)

def endsSession (line : String) : Bool := Text.trim line == "exit"

/-- Answers the lines of one session until it ends. -/
def answerLines (table : Table) : List String → Table × List String
  | [] => (table, [])
  | line :: rest =>
    let (table, reply) := answerLine table line
    if endsSession line then (table, [reply])
    else
      let (table, replies) := answerLines table rest
      (table, reply :: replies)

/-- Serves a client that sends these bytes and then finishes: the table after, and the bytes written. -/
def serve (table : Table) (input : List UInt8) : Table × List UInt8 :=
  let (table, replies) := answerLines table (Wire.readLines input).1
  (table, Wire.writeLines (banner :: replies))

end BrokerCluster.Naming
