/-!
# Addresses

Where a host can be reached, in one text: the host, a colon, and the port. A host
is written as it is, without brackets.
-/
namespace BrokerCluster.Wire

def addressText (host : String) (port : UInt16) : String := host ++ ":" ++ toString port.toNat

end BrokerCluster.Wire
