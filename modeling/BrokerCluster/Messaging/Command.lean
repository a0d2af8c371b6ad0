import BrokerCluster.Text.Words

/-!
# Commands of the messaging service

A command line is a sequence of words. A known command with the wrong number of
words, and any other line, is answered with a usage error. The words of a message
are joined by single spaces, whatever was between them.
-/
namespace BrokerCluster.Messaging

/-- What a line asks of an idle session. -/
inductive Command where
  /-- Declares an exchange and selects it. -/
  | exchange (kind name : String)
  /-- Declares a queue and selects it. -/
  | queue (name : String)
  /-- Binds the selected queue to the selected exchange. -/
  | bind (key : String)
  /-- Publishes a message at the selected exchange. -/
  | publish (key message : String)
  /-- Subscribes to the selected queue. -/
  | subscribe
  | exit
  /-- A line that asks for nothing, with the reply that says so. -/
  | malformed (reply : String)
  deriving DecidableEq, Repr

def Command.ofLine (line : String) : Command :=
  match Text.words line with
  | "exchange" :: arguments =>
    match arguments with
    | [kind, name] => .exchange kind name
    | _ => .malformed "error usage: exchange <type> <name>"
  | "queue" :: arguments =>
    match arguments with
    | [name] => .queue name
    | _ => .malformed "error usage: queue <name>"
  | "bind" :: arguments =>
    match arguments with
    | [key] => .bind key
    | _ => .malformed "error usage: bind <binding-key>"
  | "publish" :: arguments =>
    match arguments with
    | key :: word :: more => .publish key (Text.joinWords (word :: more))
    | _ => .malformed "error usage: publish <routing-key> <message>"
  | "subscribe" :: _ => .subscribe
  | "exit" :: _ => .exit
  | _ => .malformed "error usage: <command> <args>"

/-- Whether a line ends a subscription, the only thing that a subscribed session listens to. -/
def isStop (line : String) : Bool := (Text.words line).head? == some "stop"

end BrokerCluster.Messaging
