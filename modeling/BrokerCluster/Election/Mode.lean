/-!
# Election modes

A cluster elects its leader by one of three methods, or not at all.
-/
namespace BrokerCluster.Election

/-- How the brokers of a cluster choose their leader. -/
inductive Mode where
  /-- There is no leader. -/
  | none
  /-- The highest id travels around a ring. -/
  | ring
  /-- Higher ids are challenged until none answers. -/
  | bully
  /-- The candidate asks every peer for its vote, once. -/
  | raft
  deriving DecidableEq, Repr

namespace Mode

/-- The name of a mode, in lower case. -/
def name : Mode → String
  | none => "none"
  | ring => "ring"
  | bully => "bully"
  | raft => "raft"

/-- The word for a mode in descriptions. -/
def title : Mode → String
  | none => "None"
  | ring => "Ring"
  | bully => "Bully"
  | raft => "Raft"

def all : List Mode := [none, ring, bully, raft]

def isEnabled (mode : Mode) : Bool := mode != none

/-- The mode with a name, whatever the case of its ASCII letters. -/
def parse? (text : String) : Option Mode := all.find? fun mode => mode.name == text.toLower

/-- The mode with a name; a name that is not known switches elections off. -/
def ofText (text : String) : Mode := (parse? text).getD none

def unknownMessage (text : String) : String := "unknown election mode '" ++ text.toLower ++ "'"

end Mode

end BrokerCluster.Election
