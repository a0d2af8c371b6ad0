import BrokerCluster.Text.Words

/-!
# Publish statistics

Each datagram names a server and a routing key, and the tally counts datagrams
for each such pair. Servers, and the keys of a server, stand in ascending order
of their text, which is also the order of their bytes, so the report does not
depend on the order in which datagrams came.
-/
namespace BrokerCluster.Monitoring

/-- Entries by name, in ascending order of names. -/
abbrev Ordered (α : Type) := List (String × α)

/-- Changes the entry of a name, which is new if there is none. -/
def upsert {α : Type} (name : String) (change : Option α → α) : Ordered α → Ordered α
  | [] => [(name, change none)]
  | (n, entry) :: rest =>
    if name < n then (name, change none) :: (n, entry) :: rest
    else if n = name then (n, change (some entry)) :: rest
    else (n, entry) :: upsert name change rest

/-- For each server, the number of datagrams for each routing key. -/
abbrev Tally := Ordered (Ordered Nat)

namespace Tally

def empty : Tally := []

/-- Counts one publish on a server under a key. -/
def add (tally : Tally) (server key : String) : Tally :=
  upsert server (fun keys => upsert key (fun count => count.getD 0 + 1) (keys.getD [])) tally

/-- Counts a datagram of exactly two words and says whether it was one. -/
def record (tally : Tally) (datagram : String) : Tally × Bool :=
  match Text.words datagram with
  | [server, key] => (tally.add server key, true)
  | _ => (tally, false)

def count (tally : Tally) (server key : String) : Nat :=
  (((tally.lookup server).getD []).lookup key).getD 0

def serverTotal (keys : Ordered Nat) : Nat := keys.foldr (fun (_, count) total => count + total) 0

def received (tally : Tally) : Nat :=
  tally.foldr (fun (_, keys) total => serverTotal keys + total) 0

def serverReport (server : String) (keys : Ordered Nat) : String :=
  "Server " ++ server ++ "\n" ++
    String.join (keys.map fun (key, count) => "  " ++ key ++ " " ++ toString count ++ "\n")

/-- The report: a line for each server and, indented, a line for each of its keys. -/
def report (tally : Tally) : String :=
  String.join (tally.map fun (server, keys) => serverReport server keys)

def recordAll (tally : Tally) (datagrams : List String) : Tally :=
  datagrams.foldl (fun t d => (t.record d).1) tally

end Tally

end BrokerCluster.Monitoring
