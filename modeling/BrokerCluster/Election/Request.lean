import BrokerCluster.Election.Status
import BrokerCluster.Text.Words

/-!
# The lines that brokers exchange in an election

A broker asks its peers with `elect`, announces itself with `declare` and, once
it leads, sends `ping`. The functions that write a line stand beside those that
read it.
-/
namespace BrokerCluster.Election

def banner : String := "ok LEP"

def electLine (candidate : BrokerId) : String := "elect " ++ Text.int64Text candidate

def declareLine (leader : BrokerId) : String := "declare " ++ Text.int64Text leader

/-- The reply of a broker that takes part in an election. -/
def acceptReply : String := "ok"

/-- The reply that says who has a broker's vote. -/
def voteReply (voter granted : BrokerId) : String :=
  "vote " ++ Text.int64Text voter ++ " " ++ Text.int64Text granted

def ackReply (own : BrokerId) : String := "ack " ++ Text.int64Text own

def pongReply : String := "pong"

/-- What a line asks of a broker. -/
inductive Request where
  | ping
  | elect (candidate : BrokerId)
  | declare (leader : BrokerId)
  /-- A known word with the wrong arguments, and the reply that says so. -/
  | malformed (reply : String)
  | unknown
  deriving DecidableEq, Repr

def idArgument? : List String → Option BrokerId
  | [text] => Text.readInt64? text
  | _ => none

def Request.ofLine (line : String) : Request :=
  match Text.words line with
  | "ping" :: _ => .ping
  | "elect" :: arguments =>
    match idArgument? arguments with
    | some id => .elect id
    | none => .malformed "error usage: elect <id>"
  | "declare" :: arguments =>
    match idArgument? arguments with
    | some id => .declare id
    | none => .malformed "error usage: declare <id>"
  | _ => .unknown

/-- The reply to a line that asks for nothing known. -/
def unknownReply : String := "error usage: <command> <args>"

/-- Whether a reply grants a vote to a candidate: its third word is the candidate's id. -/
def isVoteFor (reply : String) (candidate : BrokerId) : Bool :=
  ((Text.words reply)[2]?.bind Text.readInt64?) == some candidate

end BrokerCluster.Election
