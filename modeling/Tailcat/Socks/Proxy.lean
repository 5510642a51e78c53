import Tailcat.Relay.Connection
import Tailcat.Socks.Handshake

/-!
# The proxy

`poll` takes over the connections whose handshakes are done, calls `service` for each connection and
then forgets those that are finished. The threads of the handshakes and the readers of the host
sockets run all the time, and the tunnels move between the calls of `service`. The sockets of
different clients share nothing; a machine runs one of them.

## Main definitions

* `SocksStage`: where a client's socket stands
* `SocksOutput`: what happens at it
* `socksMachine`: a socket of the proxy
-/

namespace Tailcat

/-- How far a socket has come, from being accepted to the dial. -/
inductive SocksStage
  /-- The thread of the handshake works. -/
  | accepted
  /-- The thread has closed the socket. -/
  | turnedAway
  /-- The socket waits in `handshakes_`. -/
  | ready (port : UInt16)
  /-- The socket is one of `connections_`. -/
  | relayed (relay : RelayState)
  /-- The proxy has closed the socket and forgotten it. -/
  | dropped
  deriving DecidableEq

/-- Where `poll` stands, as far as it concerns the socket. -/
inductive PollPoint
  | outside
  /-- Handshakes have been adopted, and `service` has not returned. -/
  | servicing
  | serviced
  deriving DecidableEq

/-- A socket of the proxy, and how far `poll` has come with it. -/
structure SocksState where
  stage : SocksStage := .accepted
  poll : PollPoint := .outside
  deriving DecidableEq

/-- What happens at a socket: what the thread wrote, what `adopt_handshakes` did, and what happened
at the connection. A tunnel that cannot be dialed is none; then only the host is closed. -/
inductive SocksOutput
  | wrote (octets : List UInt8)
  | hostClosed
  | dialed (port : UInt16)
  | tunnelConnected
  | relay (o : RelayOutput)
  deriving DecidableEq

/-- What a client does until its handshake is done, a call of `poll`, or an event at the connection.
Dialing works or throws. -/
inductive SocksEvent
  | handshake (peer : Peer Exn) (sent : List UInt8)
  | beginPoll (dialThrows : Bool)
  | relay (e : RelayEvent)
  | endPoll

namespace SocksState

/-- `adopt_handshakes`: what the client is told where dialing throws may throw again, which makes no
difference. -/
def adopt (dialThrows : Bool) : SocksStage → SocksStage × List SocksOutput
  | .ready port =>
    if dialThrows then (.dropped, [.relay (.reply 0x01), .hostClosed])
    else (.relayed { connection := .new .socksProxy }, [.dialed port])
  | stage => (stage, [])

/-- `remove_if`. -/
def erase : SocksStage → SocksStage
  | .relayed r => if r.connection.finished then .dropped else .relayed r
  | stage => stage

/-- A part of `service`. -/
def isService : RelayEvent → Bool
  | .beginService .. | .middleService .. | .endService => true
  | _ => false

/-- A tunnel that connects is seen to do so. -/
def connecting : RelayEvent → List SocksOutput
  | .tunnelConnected => [.tunnelConnected]
  | _ => []

/-- Where `poll` stands after a part of `service`. -/
def afterService (point : ServicePoint) : PollPoint :=
  if point = .idle then .serviced else .servicing

theorem afterService_of_ne {point : ServicePoint} (h : point ≠ .idle) :
    afterService point = .servicing := if_neg h

theorem afterService_ne_outside (point : ServicePoint) : afterService point ≠ .outside := by
  unfold afterService
  split <;> decide

/-- An event at the connection. `service` is called once in a `poll`. -/
def relayStep (poll : PollPoint) (r : RelayState) (e : RelayEvent) :
    Option (SocksState × List SocksOutput) :=
  if isService e ∧ poll ≠ .servicing then
    none
  else
    ((relayMachine .socksProxy).step r e).map fun (r', os) =>
      ({ stage := .relayed r', poll := if isService e then afterService r'.point else poll },
        connecting e ++ os.map .relay)

end SocksState

/-- A socket of the proxy that was started with an address. -/
def socksMachine (serverAddress : List UInt8) : Machine SocksState SocksEvent SocksOutput where
  init := {}
  step s
    | .handshake peer sent =>
      if s.stage = .accepted then
        let (ready, host) := beginHandshake peer serverAddress false { unread := sent }
        some ({ s with stage := ready.elim .turnedAway .ready },
          host.writes.map .wrote ++ if host.opened then [] else [.hostClosed])
      else
        none
    | .beginPoll dialThrows =>
      if s.poll = .outside then
        let (stage, os) := SocksState.adopt dialThrows s.stage
        some ({ stage, poll := .servicing }, os)
      else
        none
    | .relay e =>
      match s.stage with
      | .relayed r => SocksState.relayStep s.poll r e
      | _ => none
    | .endPoll =>
      match s.stage, s.poll with
      | _, .outside => none
      | .relayed _, .servicing => none
      | stage, _ => some ({ stage := SocksState.erase stage }, [])

end Tailcat
