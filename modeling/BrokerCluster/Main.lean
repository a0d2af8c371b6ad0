import BrokerCluster.Network.Election
import BrokerCluster.Network.Messaging
import BrokerCluster.Network.Naming
import Std.Async.Signal

/-!
# The program

Reads what the plan depends on, follows the plan, and runs a service until it is
interrupted.
-/
namespace BrokerCluster

open Std.Async CommandLine

def readBytes (path : String) : IO (Except Config.ReadFault (List UInt8)) := do
  try return .ok (← IO.FS.readBinFile path).toList
  catch fault => return .error (.system (Network.faultText fault))

def planFor (arguments : List String) : IO Plan := do
  let file ←
    match fileToRead? arguments with
    | some path => readBytes path
    | none => pure (.error .missing)
  let found ← Config.overriding.filterMapM fun name => do
    return (← IO.getEnv name).map (name, ·)
  return plan (fun _ => file) (fun name => found.lookup name) arguments

/-- Takes a port for a broker and keeps it open. -/
def keepListening : Listen (StateT (Array TCP.Socket.Server) Async) := fun host port => do
  match ← Network.listen host port with
  | .error reason => return .error reason
  | .ok server =>
    modify (·.push server)
    let name ← server.getSockName
    return .ok name.port

/-- Starts a service in the background and gives the line that says so. -/
def launch (service : Service) : Async (Except Failure String) := do
  match service with
  | .broker config =>
    let (started, servers) ← (Broker.start keepListening config (← Network.currentTime)).run.run #[]
    match started, servers with
    | .ok broker, #[messaging, election] =>
      let notifier ← config.endpoint?.bindM fun (host, port) => Network.Notifier.open? host port
      background (Network.runMessaging messaging notifier)
      Network.runElections broker election
      return .ok (service.startedLine (Network.socketText (← messaging.getSockName))
        (Network.socketText (← election.getSockName)))
    | .ok _, _ => return .error (.startup "a broker needs two ports")
    | .error error, _ => return .error (.ofBroker error)
  | .nameService host port =>
    match ← Network.listen host port with
    | .error reason => return .error (.ofAddress service (Wire.addressText host port) reason)
    | .ok server =>
      background (Network.runNameService server)
      return .ok (service.startedLine (Network.socketText (← server.getSockName)) "")
  | .monitor host port interval =>
    match ← Network.openDatagrams host port with
    | .error reason => return .error (.ofAddress service (Wire.addressText host port) reason)
    | .ok socket =>
      background (Network.runMonitoring socket interval)
      return .ok (service.startedLine (Network.socketText (← socket.getSockName)) "")

def complain (failure : Failure) : IO UInt32 := do
  IO.eprintln ("Error: " ++ failure.message)
  return 1

/-- Runs a service until the program is interrupted. -/
def runService (service : Service) : IO UInt32 := do
  let interrupt ← (← Signal.Waiter.mk .sigint false).wait
  match ← (launch service).block with
  | .error failure => complain failure
  | .ok line =>
    let output ← IO.getStdout
    output.putStrLn line
    output.flush
    discard interrupt.block
    return 0

end BrokerCluster

open BrokerCluster in
/-- Follows the plan that the arguments make. -/
def main (arguments : List String) : IO UInt32 := do
  match ← planFor arguments with
  | .information =>
    IO.print CommandLine.usage
    return 0
  | .misuse =>
    IO.eprint CommandLine.usage
    return 2
  | .fail failure => complain failure
  | .start service => runService service
