import BrokerCluster.Wire.Line

/-!
# Failures of a connection

The causes for which a request between two hosts gets no usable answer, each
with the text shown for it.
-/
namespace BrokerCluster.Wire

/-- Why a request got no usable answer. -/
inductive Failure where
  /-- No connection could be made; `detail` names the address and the reason. -/
  | connect (detail : String)
  /-- The other side closed the connection before it answered. -/
  | closed
  /-- No answer came within the time allowed. -/
  | timeout
  /-- The answer was longer than a line may be. -/
  | lineTooLong
  /-- An answer came that the request does not allow. -/
  | unexpectedReply (reply : String)
  /-- Any other fault of the stream. -/
  | io (detail : String)
  deriving DecidableEq, Repr

def Failure.message : Failure → String
  | .connect detail => "Connection failed: " ++ detail
  | .closed => "Connection closed by peer"
  | .timeout => "Network timeout"
  | .lineTooLong => "Line exceeds the maximum length"
  | .unexpectedReply reply => "Unexpected reply: " ++ reply
  | .io detail => "IO error: " ++ detail

def Failure.ofFault : LineFault → Failure
  | .tooLong => .lineTooLong
  | .notUtf8 => .io "Unable to decode input as UTF8"

end BrokerCluster.Wire
