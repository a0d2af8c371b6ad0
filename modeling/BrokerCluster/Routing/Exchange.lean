import BrokerCluster.Routing.Trie

/-!
# Exchanges

An exchange has a name, a kind that never changes, and the bindings its kind
calls for: under exact keys (direct and default), under no key at all (fanout),
or under patterns (topic). Resolving a key lists each bound queue at most once,
in the order in which it is first found.
-/
namespace BrokerCluster.Routing

variable {κ : Type}

/-- How an exchange picks queues for a key. -/
inductive ExchangeKind where
  | default
  | direct
  | fanout
  | topic
  deriving DecidableEq, Repr

namespace ExchangeKind

/-- The name of a kind, in lower case. -/
def name : ExchangeKind → String
  | default => "default"
  | direct => "direct"
  | fanout => "fanout"
  | topic => "topic"

/-- Every kind, in the order in which they are listed for users. -/
def all : List ExchangeKind := [default, direct, fanout, topic]

/-- The kind with a name, whatever the case of its ASCII letters. -/
def parse? (text : String) : Option ExchangeKind := all.find? fun kind => kind.name == text.toLower

end ExchangeKind

/-- Queues by the exact key they are bound under. -/
abbrev Routes (κ : Type) := List (String × List κ)

namespace Routes

def at? (routes : Routes κ) (key : String) : List κ := (routes.lookup key).getD []

def insert [DecidableEq κ] (key : String) (q : κ) : Routes κ → Routes κ
  | [] => [(key, [q])]
  | (k, qs) :: rest => if k = key then (k, addUnique q qs) :: rest else (k, qs) :: insert key q rest

end Routes

inductive Bindings (κ : Type) where
  /-- Queues under exact keys. -/
  | direct (routes : Routes κ)
  /-- Queues that get every message. -/
  | fanout (queues : List κ)
  /-- Queues under patterns. -/
  | topic (patterns : Trie κ)
  deriving DecidableEq, Repr

namespace Bindings

/-- The bindings that an exchange of a kind starts with. -/
def empty : ExchangeKind → Bindings κ
  | .default | .direct => direct []
  | .fanout => fanout []
  | .topic => topic .empty

/-- Bindings with one more. A fanout exchange has no use for the key. -/
def bind [DecidableEq κ] (key : String) (q : κ) : Bindings κ → Bindings κ
  | direct routes => direct (routes.insert key q)
  | fanout queues => fanout (addUnique q queues)
  | topic patterns => topic (patterns.insert (segments key) q)

/-- The queues that a message with this key is for. -/
def resolve [DecidableEq κ] (key : String) : Bindings κ → List κ
  | direct routes => routes.at? key
  | fanout queues => queues
  | topic patterns => patterns.resolve (segments key)

end Bindings

/-- A named exchange; `κ` stands for queues. -/
structure Exchange (κ : Type) where
  name : String
  kind : ExchangeKind
  bindings : Bindings κ
  deriving DecidableEq, Repr

namespace Exchange

def fresh (name : String) (kind : ExchangeKind) : Exchange κ := ⟨name, kind, .empty kind⟩

def bind [DecidableEq κ] (exchange : Exchange κ) (key : String) (q : κ) : Exchange κ :=
  { exchange with bindings := exchange.bindings.bind key q }

def route [DecidableEq κ] (exchange : Exchange κ) (key : String) : List κ :=
  exchange.bindings.resolve key

end Exchange

end BrokerCluster.Routing
