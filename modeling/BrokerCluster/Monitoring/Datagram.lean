import BrokerCluster.Monitoring.Tally
import BrokerCluster.Text.Number
import BrokerCluster.Text.Utf8
import BrokerCluster.Wire.Address

/-!
# Monitoring datagrams

A broker reports each successful publish in one datagram: its own address and
the routing key. A datagram that is too large is not sent. The receiver looks
only at the bytes that fit its buffer and reads faulty bytes as replacement
characters.
-/
namespace BrokerCluster.Monitoring

/-- The address of a broker: a host, without brackets, and a port. -/
structure Origin where
  host : String
  port : UInt16
  deriving DecidableEq, Repr

def Origin.text (origin : Origin) : String := Wire.addressText origin.host origin.port

/-- The address that a text gives, divided at its last colon. Brackets around the host are dropped. -/
def Origin.ofText (text : String) : Origin :=
  let reversed := text.toList.reverse
  let port := (reversed.takeWhile (· ≠ ':')).reverse
  let host := ((reversed.dropWhile (· ≠ ':')).drop 1).reverse.filter fun c => c ≠ '[' ∧ c ≠ ']'
  ⟨String.ofList host, (Text.readUInt16? (String.ofList port)).getD 0⟩

/-- The most bytes that one datagram carries. -/
def datagramLimit : Nat := 65507

/-- The bytes of a datagram that the receiver looks at. -/
def receiveLimit : Nat := 1024

/-- The text that reports one publish. -/
def notice (origin : Origin) (key : String) : String := origin.text ++ " " ++ key

/-- The bytes that are sent for a text, if they can be. -/
def send? (text : String) : Option (List UInt8) :=
  let bytes := Text.encode text
  if bytes.length ≤ datagramLimit then some bytes else none

/-- The text that the receiver sees in a datagram. -/
def receive (bytes : List UInt8) : String := Text.decodeLossy (bytes.take receiveLimit)

def Tally.notify (tally : Tally) (origin : Origin) (key : String) : Tally :=
  match send? (notice origin key) with
  | some bytes => (tally.record (receive bytes)).1
  | none => tally

end BrokerCluster.Monitoring
