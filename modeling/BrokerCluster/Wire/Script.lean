import BrokerCluster.Wire.Request

/-!
# Servers that follow a script

A scripted server greets each connection alike and answers each line with the
next reply of one list, the last of which it uses again and again. It shows what
a client makes of every behaviour a server can have: silence, a connection that
closes early, or bytes that are no line.
-/
namespace BrokerCluster.Wire

/-- What a scripted server does with a line. -/
inductive ScriptedReply where
  /-- Answers with these bytes and a line feed. -/
  | line (reply : List UInt8)
  /-- Sends just these bytes and closes. -/
  | raw (reply : List UInt8)
  | close
  /-- Never answers and stays. -/
  | hang
  deriving DecidableEq, Repr

structure Script where
  /-- Whether it accepts connections. -/
  accepts : Bool := true
  /-- The greeting; without one a connection is closed at once. -/
  banner : Option (List UInt8)
  replies : List ScriptedReply
  /-- A line that is answered apart from the list, and its answer. -/
  aside : Option (String × String) := none
  deriving DecidableEq, Repr

namespace Script

/-- The next reply, and the script without it unless it is the last. -/
def next (script : Script) : ScriptedReply × Script :=
  match script.replies with
  | [] => (.close, script)
  | [reply] => (reply, script)
  | reply :: rest => (reply, { script with replies := rest })

/-- What a server makes of the lines of one connection. -/
structure Conversation where
  /-- The lines it took, those answered aside left out. -/
  received : List String := []
  output : List UInt8 := []
  /-- Whether it keeps the connection open without ever writing more. -/
  hangs : Bool := false

/-- Takes lines until there are no more or the script ends the connection. -/
def converse (script : Script) : List String → Conversation × Script
  | [] => ({}, script)
  | line :: rest =>
    match script.aside.filter fun (question, _) => question == line with
    | some (_, answer) =>
      let (talk, script) := script.converse rest
      ({ talk with output := writeLine answer ++ talk.output }, script)
    | none =>
      let (reply, script) := script.next
      match reply with
      | .line reply =>
        let (talk, script) := script.converse rest
        ({ talk with received := line :: talk.received, output := reply ++ lineFeed :: talk.output },
          script)
      | .raw reply => ({ received := [line], output := reply }, script)
      | .close => ({ received := [line] }, script)
      | .hang => ({ received := [line], hangs := true }, script)

/-- The reply to a message on a connection of its own to `address`, and the lines that arrived. -/
def request (script : Script) (address message : String) :
    Except Failure String × List String × Script :=
  if !script.accepts then
    (.error (.connect (address ++ ": Connection refused (os error 111)")), [], script)
  else
    match script.banner with
    | none => (.error .closed, [], script)
    | some banner =>
      match expectLine (banner ++ [lineFeed]) with
      | .error failure => (.error failure, [], script)
      | .ok (_, left) =>
        let (talk, script) := script.converse (readLines (writeLine message)).1
        let output := left ++ talk.output
        if talk.hangs && !output.contains lineFeed && output.length ≤ lineLimit then
          (.error .timeout, talk.received, script)
        else ((expectLine output).map (·.1), talk.received, script)

end Script

end BrokerCluster.Wire
