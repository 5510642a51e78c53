import Tailcat.Base.Talk
import Tailcat.Protocol.Address

/-!
# The SOCKS5 handshake

A thread of its own talks with each client of the proxy until the client has asked for a connection
to the server. It reads exact numbers of octets, which depend on what it has read before, answers
the greeting and refuses what it does not serve. Then it puts the port into the queue from which the
proxy takes over the connection.

Greetings and requests are languages; the thread reads them and acts on what it has read.

## Main definitions

* `beginHandshake`: the thread
* `Greeting`, `SocksAddress.Spelled`, `SocksRequest.Spelled`: what a client can send
* `readGreeting`, `readSocksRequest`: the reading of the thread
* `welcome`, `answer`: what it does then

## Main results

* `readGreeting_recognises`, `readSocksRequest_recognises`: what is read
* `handshake_eq`, `request_eq`: the thread reads, and acts
* `beginHandshake_writes`: what it writes, whatever the client does
-/

namespace Tailcat

/-! ## The thread -/

/-- What is done with the socket of the application. -/
abbrev HostM (α : Type) := Talk Exn UInt8 α

/-- So many octets, and no fewer. -/
def readExact (peer : Peer Exn) (size : ℕ) : HostM (List UInt8) :=
  Talk.readExact peer (.runtimeError "unexpected EOF in SOCKS5 handshake") size

/-- The ten octets of `socks_reply`. -/
def replyOctets (code : UInt8) : List UInt8 :=
  [0x05, code, 0x00, 0x01, 0x00, 0x00, 0x00, 0x00, 0x00, 0x00]

/-- Write a reply with this code. -/
def socksReply (peer : Peer Exn) (code : UInt8) : HostM Unit :=
  Talk.writeAll peer (replyOctets code)

/-- The name under which clients reach the server. -/
def serverName : List UInt8 := "server.tailcat".toList.map Char.toUInt8

/-- `std::tolower` in the locale of a program that does not set one. -/
def lowerAscii (value : List UInt8) : List UInt8 :=
  value.map fun c => if 'A'.toUInt8 ≤ c ∧ c ≤ 'Z'.toUInt8 then c + 32 else c

/-- `std::to_string` of an octet. -/
def decimal (c : UInt8) : List UInt8 := (Nat.toDigits 10 c.toNat).map Char.toUInt8

/-- The text of an IPv4 address. -/
def dotted (address : List UInt8) : List UInt8 := ['.'.toUInt8].intercalate (address.map decimal)

/-- The text that stands for every IPv6 address. -/
def ipv6Text : List UInt8 := "<ipv6>".toList.map Char.toUInt8

/-- Reply, close and go. -/
def refuse (peer : Peer Exn) (code : UInt8) : HostM (Option UInt16) := do
  socksReply peer code
  Talk.close
  return none

/-- The target of a request, unless its type is unknown. -/
def readTarget (peer : Peer Exn) (atyp : UInt8) : HostM (Option (List UInt8)) := do
  if atyp = 0x01 then
    let address ← readExact peer 4
    return some (dotted address)
  else if atyp = 0x03 then
    let length ← readExact peer 1
    let name ← readExact peer (length.getD 0 0).toNat
    return some name
  else if atyp = 0x04 then
    let _ ← readExact peer 16
    return some ipv6Text
  else
    return none

/-- Two octets as a port. -/
def readPort (peer : Peer Exn) : HostM UInt16 := do
  let portBytes ← readExact peer 2
  return (portBytes.getD 0 0).toUInt16 <<< 8 ||| (portBytes.getD 1 0).toUInt16

/-- `queue->ready.push_back`, unless the proxy is gone. -/
def enqueue (stopped : Bool) (port : UInt16) : HostM (Option UInt16) := do
  if stopped then
    Talk.close
    return none
  else
    return some port

/-- The thread from the answer to the greeting on. -/
def request (peer : Peer Exn) (serverAddress : List UInt8) (stopped : Bool) :
    HostM (Option UInt16) := do
  let header ← readExact peer 4
  if header.getD 0 0 ≠ 0x05 ∨ header.getD 2 0 ≠ 0x00 then
    Talk.fail (.runtimeError "invalid SOCKS5 request")
  else if header.getD 1 0 ≠ 0x01 then
    refuse peer 0x07
  else
    match ← readTarget peer (header.getD 3 0) with
    | none => refuse peer 0x08
    | some targetHost =>
      -- The port is looked at before the target.
      let port ← readPort peer
      if port = 0 then
        refuse peer 0x01
      else if lowerAscii targetHost ≠ serverName ∧ targetHost ≠ serverAddress then
        refuse peer 0x04
      else
        enqueue stopped port

/-- What the thread does, up to its exceptions; the port that it put into the queue. -/
def handshake (peer : Peer Exn) (serverAddress : List UInt8) (stopped : Bool) :
    HostM (Option UInt16) := do
  let greeting ← readExact peer 2
  if greeting.getD 0 0 ≠ 0x05 ∨ greeting.getD 1 0 = 0 then
    Talk.fail (.runtimeError "invalid SOCKS5 greeting")
  else
    let methods ← readExact peer (greeting.getD 1 0).toNat
    -- No authentication is the only method that is served.
    if 0x00 ∉ methods then
      Talk.writeAll peer [0x05, 0xff]
      Talk.close
      return none
    else
      Talk.writeAll peer [0x05, 0x00]
      request peer serverAddress stopped

/-- The thread: exceptions close the socket. -/
def beginHandshake (peer : Peer Exn) (serverAddress : List UInt8) (stopped : Bool)
    (host : Duplex UInt8) : Option UInt16 × Duplex UInt8 :=
  match handshake peer serverAddress stopped host with
  | (.ok ready, host) => (ready, host)
  | (.error _, host) => (none, { host with opened := false })

/-! ## What clients send -/

/-- A greeting, with the methods that it offers. -/
inductive Greeting : List UInt8 → List UInt8 → Prop
  | mk {n : UInt8} {methods : List UInt8} (hn : n ≠ 0) (hlen : methods.length = n.toNat) :
    Greeting methods (0x05 :: n :: methods)

/-- The destination of a request, by its type. -/
inductive SocksAddress
  | ipv4 (octets : List UInt8)
  | name (octets : List UInt8)
  | ipv6 (octets : List UInt8)
  deriving DecidableEq

namespace SocksAddress

/-- An address and its spelling, with the type in front. -/
inductive Spelled : SocksAddress → List UInt8 → Prop
  | ipv4 {octets : List UInt8} (h : octets.length = 4) : Spelled (.ipv4 octets) (0x01 :: octets)
  | name {n : UInt8} {octets : List UInt8} (h : octets.length = n.toNat) :
    Spelled (.name octets) (0x03 :: n :: octets)
  | ipv6 {octets : List UInt8} (h : octets.length = 16) : Spelled (.ipv6 octets) (0x04 :: octets)

/-- The text that the thread makes of an address. -/
def target : SocksAddress → List UInt8
  | ipv4 octets => dotted octets
  | name octets => octets
  | ipv6 _ => ipv6Text

/-- The address is the name of the server, in any case, or its `tc` address. -/
def Designates (serverAddress : List UInt8) : SocksAddress → Prop
  | name octets => lowerAscii octets = serverName ∨ octets = serverAddress
  | _ => False

instance (serverAddress : List UInt8) : (a : SocksAddress) → Decidable (a.Designates serverAddress)
  | .name _ => inferInstanceAs (Decidable (_ ∨ _))
  | .ipv4 _ | .ipv6 _ => .isFalse id

end SocksAddress

/-- A request, as far as it is read: another command than CONNECT, a CONNECT to an address of an
unknown type, or one that is complete. -/
inductive SocksRequest
  | command (command atyp : UInt8)
  | addressType (atyp : UInt8)
  | connect (address : SocksAddress) (port : UInt16)
  deriving DecidableEq

namespace SocksRequest

/-- A request and what is read of it. -/
inductive Spelled : SocksRequest → List UInt8 → Prop
  | command {command atyp : UInt8} (h : command ≠ 0x01) :
    Spelled (.command command atyp) [0x05, command, 0x00, atyp]
  | addressType {atyp : UInt8} (h₁ : atyp ≠ 0x01) (h₃ : atyp ≠ 0x03) (h₄ : atyp ≠ 0x04) :
    Spelled (.addressType atyp) [0x05, 0x01, 0x00, atyp]
  | connect {address : SocksAddress} {w : List UInt8} {port : UInt16} (h : address.Spelled w) :
    Spelled (.connect address port) (0x05 :: 0x01 :: 0x00 :: (w ++ beBytes 2 port.toNat))

/-- The code of the reply to a request that is refused. -/
def refusal (serverAddress : List UInt8) : SocksRequest → Option UInt8
  | command .. => some 0x07
  | addressType _ => some 0x08
  | connect address port =>
    if port = 0 then some 0x01
    else if address.Designates serverAddress then none
    else some 0x04

end SocksRequest

/-! ## Reading -/

/-- The methods of the greeting. -/
def readGreeting (peer : Peer Exn) : HostM (List UInt8) := do
  let greeting ← readExact peer 2
  if greeting.getD 0 0 ≠ 0x05 ∨ greeting.getD 1 0 = 0 then
    Talk.fail (.runtimeError "invalid SOCKS5 greeting")
  else
    readExact peer (greeting.getD 1 0).toNat

/-- An address of a known type. -/
def readAddress (peer : Peer Exn) (atyp : UInt8) : HostM SocksAddress := do
  if atyp = 0x01 then
    let address ← readExact peer 4
    return .ipv4 address
  else if atyp = 0x03 then
    let length ← readExact peer 1
    let name ← readExact peer (length.getD 0 0).toNat
    return .name name
  else
    let address ← readExact peer 16
    return .ipv6 address

/-- The request, of which an unknown command or address type is left to the caller. -/
def readSocksRequest (peer : Peer Exn) : HostM SocksRequest := do
  let header ← readExact peer 4
  if header.getD 0 0 ≠ 0x05 ∨ header.getD 2 0 ≠ 0x00 then
    Talk.fail (.runtimeError "invalid SOCKS5 request")
  else if header.getD 1 0 ≠ 0x01 then
    return .command (header.getD 1 0) (header.getD 3 0)
  else if header.getD 3 0 ≠ 0x01 ∧ header.getD 3 0 ≠ 0x03 ∧ header.getD 3 0 ≠ 0x04 then
    return .addressType (header.getD 3 0)
  else
    let address ← readAddress peer (header.getD 3 0)
    let port ← readPort peer
    return .connect address port

/-- What the thread does about a request. -/
def answer (peer : Peer Exn) (serverAddress : List UInt8) (stopped : Bool) :
    SocksRequest → HostM (Option UInt16)
  | .command .. => refuse peer 0x07
  | .addressType _ => refuse peer 0x08
  | .connect address port =>
    if port = 0 then refuse peer 0x01
    else if lowerAscii address.target ≠ serverName ∧ address.target ≠ serverAddress then
      refuse peer 0x04
    else
      enqueue stopped port

/-- A known type of address. -/
theorem readTarget_eq (peer : Peer Exn) {atyp : UInt8}
    (h : ¬ (atyp ≠ 0x01 ∧ atyp ≠ 0x03 ∧ atyp ≠ 0x04)) :
    readTarget peer atyp = readAddress peer atyp >>= fun a => pure (some a.target) := by
  unfold readTarget readAddress
  split
  · simp only [bind_assoc, pure_bind]
    rfl
  split
  · simp only [bind_assoc, pure_bind]
    rfl
  · have h₄ : atyp = 0x04 := by
      by_contra h₄
      exact h ⟨‹_›, ‹_›, h₄⟩
    rw [if_pos h₄]
    simp only [bind_assoc, pure_bind]
    rfl

/-- **The thread reads a request, and acts.** -/
theorem request_eq (peer : Peer Exn) (serverAddress : List UInt8) (stopped : Bool) :
    request peer serverAddress stopped =
      readSocksRequest peer >>= answer peer serverAddress stopped := by
  unfold request readSocksRequest
  rw [bind_assoc]
  congr
  funext header
  split
  · rfl
  split
  · rfl
  -- An unknown type of address is known from the header; `readTarget` reads nothing for it.
  by_cases htype : header.getD 3 0 ≠ 0x01 ∧ header.getD 3 0 ≠ 0x03 ∧ header.getD 3 0 ≠ 0x04
  · rw [if_pos htype]
    unfold readTarget
    rw [if_neg htype.1, if_neg htype.2.1, if_neg htype.2.2]
    rfl
  · rw [if_neg htype, readTarget_eq peer htype]
    simp only [bind_assoc, pure_bind]
    rfl

/-- What the thread does about the methods of a greeting. -/
def welcome (peer : Peer Exn) (serverAddress : List UInt8) (stopped : Bool) (methods : List UInt8) :
    HostM (Option UInt16) := do
  if 0x00 ∉ methods then
    Talk.writeAll peer [0x05, 0xff]
    Talk.close
    return none
  else
    Talk.writeAll peer [0x05, 0x00]
    readSocksRequest peer >>= answer peer serverAddress stopped

/-- The thread reads a greeting, answers it, and goes on. -/
theorem handshake_eq (peer : Peer Exn) (serverAddress : List UInt8) (stopped : Bool) :
    handshake peer serverAddress stopped =
      readGreeting peer >>= welcome peer serverAddress stopped := by
  unfold handshake readGreeting welcome
  rw [bind_assoc, request_eq]
  congr
  funext greeting
  split <;> rfl

/-! ### The languages that are read -/

theorem readExact_recognises (peer : Peer Exn) (size : ℕ) :
    Talk.Recognises (readExact peer size) fun xs w => w = xs ∧ xs.length = size :=
  Talk.readExact_recognises peer _ size

theorem Greeting.two_le {methods w : List UInt8} (h : Greeting methods w) : 2 ≤ w.length := by
  cases h
  simp

theorem readGreeting_recognises (peer : Peer Exn) :
    Talk.Recognises (readGreeting peer) Greeting := by
  refine Talk.Recognises.readExact_bind peer _ (fun _ _ h => h.two_le) fun greeting hlen => ?_
  obtain ⟨a, n, rfl⟩ := List.length_eq_two.mp hlen
  simp only [List.getD_cons_zero, List.getD_cons_succ]
  split
  · rename_i hbad
    refine (Talk.Recognises.fail _).congr fun methods w => iff_of_false id ?_
    rintro ⟨hn, -⟩
    simp [hn] at hbad
  · rename_i hgood
    obtain ⟨rfl, hn⟩ : a = 0x05 ∧ n ≠ 0 := by simpa using hgood
    refine (readExact_recognises peer n.toNat).congr fun methods w => ?_
    constructor
    · rintro ⟨rfl, hlen⟩
      exact .mk hn hlen
    · rintro ⟨-, hlen⟩
      exact ⟨rfl, hlen⟩

theorem readPort_recognises (peer : Peer Exn) :
    Talk.Recognises (readPort peer) fun port w => w = beBytes 2 port.toNat := by
  refine ((readExact_recognises peer 2).bind fun _ _ => .pure _).congr fun port w => ?_
  constructor
  · rintro ⟨portBytes, _, _, ⟨rfl, hlen⟩, ⟨rfl, rfl⟩, rfl⟩
    obtain ⟨hi, lo, rfl⟩ := List.length_eq_two.mp hlen
    simp only [List.getD_cons_zero, List.getD_cons_succ]
    rw [UInt16.toNat_shiftLeft_or, List.append_nil]
    exact (beBytes_beNat [hi, lo]).symm
  · rintro rfl
    refine ⟨beBytes 2 port.toNat, _, [], ⟨rfl, length_beBytes _ _⟩, ⟨?_, rfl⟩,
      (List.append_nil _).symm⟩
    apply UInt16.toNat_inj.mp
    have hport : port.toNat < 256 ^ 2 := port.toNat_lt
    have hspell : beBytes 2 port.toNat =
        [UInt8.ofNat (port.toNat / 256 ^ 1), UInt8.ofNat (port.toNat / 256 ^ 0)] := rfl
    rw [hspell]
    simp only [List.getD_cons_zero, List.getD_cons_succ]
    rw [UInt16.toNat_shiftLeft_or, ← hspell, beNat_beBytes_of_lt hport]

theorem readAddress_recognises (peer : Peer Exn) {atyp : UInt8}
    (h : ¬ (atyp ≠ 0x01 ∧ atyp ≠ 0x03 ∧ atyp ≠ 0x04)) :
    Talk.Recognises (readAddress peer atyp) fun address w => address.Spelled (atyp :: w) := by
  unfold readAddress
  -- One reading for each type of address; of a name the length is read first.
  split
  · rename_i h₁
    subst h₁
    refine ((readExact_recognises peer 4).bind fun _ _ => .pure _).congr fun address w => ?_
    constructor
    · rintro ⟨octets, _, _, ⟨rfl, hlen⟩, ⟨rfl, rfl⟩, rfl⟩
      rw [List.append_nil]
      exact .ipv4 hlen
    · rintro (⟨hlen⟩ | _ | _)
      exact ⟨w, w, [], ⟨rfl, hlen⟩, ⟨rfl, rfl⟩, (List.append_nil _).symm⟩
  split
  · rename_i h₃
    subst h₃
    refine ((readExact_recognises peer 1).bind fun length _ =>
      (readExact_recognises peer _).bind fun _ _ => .pure _).congr fun address w => ?_
    constructor
    · rintro ⟨length, _, _, ⟨rfl, hone⟩, ⟨octets, _, _, ⟨rfl, hlen⟩, ⟨rfl, rfl⟩, rfl⟩, rfl⟩
      obtain ⟨n, rfl⟩ := List.length_eq_one_iff.mp hone
      rw [List.append_nil]
      exact .name hlen
    · rintro (_ | @⟨n, octets, hlen⟩ | _)
      exact ⟨[n], [n], octets, ⟨rfl, rfl⟩, ⟨octets, octets, [], ⟨rfl, hlen⟩, ⟨rfl, rfl⟩,
        (List.append_nil _).symm⟩, rfl⟩
  · have h₄ : atyp = 0x04 := by
      by_contra h₄
      exact h ⟨‹_›, ‹_›, h₄⟩
    subst h₄
    refine ((readExact_recognises peer 16).bind fun _ _ => .pure _).congr fun address w => ?_
    constructor
    · rintro ⟨octets, _, _, ⟨rfl, hlen⟩, ⟨rfl, rfl⟩, rfl⟩
      rw [List.append_nil]
      exact .ipv6 hlen
    · rintro (_ | _ | ⟨hlen⟩)
      exact ⟨w, w, [], ⟨rfl, hlen⟩, ⟨rfl, rfl⟩, (List.append_nil _).symm⟩

theorem SocksAddress.Spelled.exists_cons {address : SocksAddress} {w : List UInt8}
    (h : address.Spelled w) :
    ∃ atyp u, w = atyp :: u ∧ ¬ (atyp ≠ 0x01 ∧ atyp ≠ 0x03 ∧ atyp ≠ 0x04) := by
  cases h with
  | ipv4 => exact ⟨_, _, rfl, by decide⟩
  | name => exact ⟨_, _, rfl, by decide⟩
  | ipv6 => exact ⟨_, _, rfl, by decide⟩

theorem SocksRequest.Spelled.four_le {request : SocksRequest} {w : List UInt8}
    (h : request.Spelled w) : 4 ≤ w.length := by
  cases h with
  | command => exact le_rfl
  | addressType => exact le_rfl
  | connect h =>
    obtain ⟨atyp, u, rfl, -⟩ := h.exists_cons
    simp only [List.length_cons, List.length_append]
    omega

/-- What four octets spell the beginning of. -/
theorem SocksRequest.spelled_append {version command reserved atyp : UInt8} {w : List UInt8}
    {request : SocksRequest} :
    request.Spelled ([version, command, reserved, atyp] ++ w) ↔
      version = 0x05 ∧ reserved = 0x00 ∧
        ((command ≠ 0x01 ∧ request = .command command atyp ∧ w = []) ∨
          (command = 0x01 ∧ (atyp ≠ 0x01 ∧ atyp ≠ 0x03 ∧ atyp ≠ 0x04) ∧
            request = .addressType atyp ∧ w = []) ∨
          (command = 0x01 ∧ ¬ (atyp ≠ 0x01 ∧ atyp ≠ 0x03 ∧ atyp ≠ 0x04) ∧
            ∃ address port u, address.Spelled (atyp :: u) ∧ request = .connect address port ∧
              w = u ++ beBytes 2 port.toNat)) := by
  constructor
  · -- Every kind of request begins with these four octets.
    intro h
    generalize hw : [version, command, reserved, atyp] ++ w = full at h
    cases h with
    | command h =>
      obtain ⟨rfl, rfl, rfl, rfl, rfl⟩ :
          version = _ ∧ command = _ ∧ reserved = _ ∧ atyp = _ ∧ w = _ := by simpa using hw
      exact ⟨rfl, rfl, .inl ⟨h, rfl, rfl⟩⟩
    | addressType h₁ h₃ h₄ =>
      obtain ⟨rfl, rfl, rfl, rfl, rfl⟩ :
          version = _ ∧ command = _ ∧ reserved = _ ∧ atyp = _ ∧ w = _ := by simpa using hw
      exact ⟨rfl, rfl, .inr (.inl ⟨rfl, ⟨h₁, h₃, h₄⟩, rfl, rfl⟩)⟩
    | connect h =>
      obtain ⟨t, u, rfl, ht⟩ := h.exists_cons
      obtain ⟨rfl, rfl, rfl, rfl, rfl⟩ :
          version = _ ∧ command = _ ∧ reserved = _ ∧ atyp = _ ∧ w = _ := by simpa using hw
      exact ⟨rfl, rfl, .inr (.inr ⟨rfl, ht, _, _, u, h, rfl, rfl⟩)⟩
  · rintro ⟨rfl, rfl, ⟨h, rfl, rfl⟩ | ⟨rfl, ⟨h₁, h₃, h₄⟩, rfl, rfl⟩ |
      ⟨rfl, -, address, port, u, h, rfl, rfl⟩⟩
    · exact .command h
    · exact .addressType h₁ h₃ h₄
    · exact .connect h

/-- A CONNECT to an address of a known type. -/
theorem readConnect_recognises (peer : Peer Exn) {atyp : UInt8}
    (htype : ¬ (atyp ≠ 0x01 ∧ atyp ≠ 0x03 ∧ atyp ≠ 0x04)) :
    Talk.Recognises (do
      let address ← readAddress peer atyp
      let port ← readPort peer
      return SocksRequest.connect address port)
      fun request w => request.Spelled ([0x05, 0x01, 0x00, atyp] ++ w) := by
  refine ((readAddress_recognises peer htype).bind fun address _ =>
    (readPort_recognises peer).bind fun port _ => .pure _).congr fun request w => ?_
  rw [SocksRequest.spelled_append]
  constructor
  · rintro ⟨address, u, _, h, ⟨port, _, _, rfl, ⟨rfl, rfl⟩, rfl⟩, rfl⟩
    exact ⟨rfl, rfl, .inr (.inr ⟨rfl, htype, address, port, u, h, rfl, by rw [List.append_nil]⟩)⟩
  · rintro ⟨-, -, ⟨h, -, -⟩ | ⟨-, h, -, -⟩ | ⟨-, -, address, port, u, h, rfl, rfl⟩⟩
    · exact absurd rfl h
    · exact absurd h htype
    · exact ⟨address, u, _, h, ⟨port, _, [], rfl, ⟨rfl, rfl⟩, (List.append_nil _).symm⟩, rfl⟩

theorem readSocksRequest_recognises (peer : Peer Exn) :
    Talk.Recognises (readSocksRequest peer) SocksRequest.Spelled := by
  refine Talk.Recognises.readExact_bind peer _ (fun _ _ h => h.four_le) fun header hlen => ?_
  match header, hlen with
  | [version, command, reserved, atyp], _ =>
  simp only [List.getD_cons_zero, List.getD_cons_succ]
  -- The conditions are looked at in the order of the source.
  split
  · rename_i hbad
    refine (Talk.Recognises.fail _).congr fun request w => iff_of_false id ?_
    intro h
    obtain ⟨rfl, rfl, -⟩ := SocksRequest.spelled_append.mp h
    simp at hbad
  rename_i hgood
  obtain ⟨rfl, rfl⟩ : version = 0x05 ∧ reserved = 0x00 := by simpa using hgood
  split
  · rename_i hcommand
    refine (Talk.Recognises.pure _).congr fun request w => ?_
    rw [SocksRequest.spelled_append]
    simp [hcommand]
  rename_i hcommand
  obtain rfl : command = 0x01 := not_not.mp hcommand
  split
  · rename_i htype
    refine (Talk.Recognises.pure _).congr fun request w => ?_
    rw [SocksRequest.spelled_append]
    simp [htype]
  · exact readConnect_recognises peer ‹_›

/-! ## What is written -/

/-- After a welcome: nothing more is written, or one reply that does not tell of success, and
nothing is written where the port was put into the queue. -/
structure SocksAnswers (d : Duplex UInt8) (x : Except Exn (Option UInt16) × Duplex UInt8) : Prop where
  writes : x.2.writes = d.writes ∨
    ∃ code, code ≠ 0x00 ∧ x.2.writes = d.writes ++ [replyOctets code]
  ready : ∀ port, x.1 = .ok (some port) → x.2.writes = d.writes ∧ x.2.opened = d.opened

theorem refuse_answers (peer : Peer Exn) {code : UInt8} (hcode : code ≠ 0x00) (d : Duplex UInt8) :
    SocksAnswers d (refuse peer code d) := by
  unfold refuse socksReply
  rcases Talk.writeAll_bind peer (replyOctets code)
    (fun _ => do Talk.close; return (none : Option UInt16)) d with h | ⟨e, h⟩
  · rw [h]
    exact ⟨.inr ⟨code, hcode, rfl⟩, fun port he => by cases he⟩
  · rw [h]
    exact ⟨.inr ⟨code, hcode, rfl⟩, fun port he => by cases he⟩

theorem enqueue_answers (stopped : Bool) (port : UInt16) (d : Duplex UInt8) :
    SocksAnswers d (enqueue stopped port d) := by
  cases stopped with
  | true => exact ⟨.inl rfl, fun port he => by cases he⟩
  | false => exact ⟨.inl rfl, fun _ _ => ⟨rfl, rfl⟩⟩

theorem answer_answers (peer : Peer Exn) (serverAddress : List UInt8) (stopped : Bool)
    (request : SocksRequest) (d : Duplex UInt8) :
    SocksAnswers d (answer peer serverAddress stopped request d) := by
  cases request with
  | command => exact refuse_answers peer (by decide) d
  | addressType => exact refuse_answers peer (by decide) d
  | connect address port =>
    unfold answer
    dsimp only
    split
    · exact refuse_answers peer (by decide) d
    split
    · exact refuse_answers peer (by decide) d
    · exact enqueue_answers stopped port d

/-- A request is read without writing. -/
theorem readSocksRequest_answers (peer : Peer Exn) (serverAddress : List UInt8) (stopped : Bool)
    (d : Duplex UInt8) :
    SocksAnswers d ((readSocksRequest peer >>= answer peer serverAddress stopped) d) := by
  by_cases hrequest : ∀ request v, SocksRequest.Spelled request v → ¬ v <+: d.unread
  · obtain ⟨e, unread, k, hk⟩ := (readSocksRequest_recognises peer).throws d hrequest
    rw [Talk.bind_of_error hk]
    exact ⟨.inl rfl, fun port he => by cases he⟩
  · push Not at hrequest
    obtain ⟨request, v, hv, rest, hrest⟩ := hrequest
    obtain ⟨k, hk⟩ := (readSocksRequest_recognises peer).reads request v rest d hv hrest.symm
    rw [Talk.bind_of_ok hk]
    obtain ⟨hwrites, hready⟩ :=
      answer_answers peer serverAddress stopped request { d with unread := rest, reads := k }
    exact ⟨hwrites, hready⟩

/-- What a thread can have written. -/
inductive ThreadWrites : List (List UInt8) → Prop
  | nothing : ThreadWrites []
  | noMethod : ThreadWrites [[0x05, 0xff]]
  | welcome : ThreadWrites [[0x05, 0x00]]
  | refused {code : UInt8} (h : code ≠ 0x00) : ThreadWrites [[0x05, 0x00], replyOctets code]

theorem welcome_writes (peer : Peer Exn) (serverAddress : List UInt8) (stopped : Bool)
    (methods unread : List UInt8) (k : ℕ) :
    ThreadWrites (welcome peer serverAddress stopped methods { unread, reads := k }).2.writes ∧
      ∀ port, (welcome peer serverAddress stopped methods { unread, reads := k }).1 =
          .ok (some port) →
        (welcome peer serverAddress stopped methods { unread, reads := k }).2.writes =
            [[0x05, 0x00]] ∧
          (welcome peer serverAddress stopped methods { unread, reads := k }).2.opened = true := by
  unfold welcome
  split
  · -- The greeting is refused. It makes no difference whether the write throws.
    rcases Talk.writeAll_bind peer [0x05, 0xff]
      (fun _ => do Talk.close; return (none : Option UInt16)) { unread, reads := k }
      with h | ⟨e, h⟩
    · rw [h]
      exact ⟨.noMethod, fun port he => by cases he⟩
    · rw [h]
      exact ⟨.noMethod, fun port he => by cases he⟩
  · rcases Talk.writeAll_bind peer [0x05, 0x00]
      (fun _ => readSocksRequest peer >>= answer peer serverAddress stopped) { unread, reads := k }
      with h | ⟨e, h⟩
    · have hanswers := readSocksRequest_answers peer serverAddress stopped
        { unread, reads := k, writes := [[0x05, 0x00]] }
      rw [h]
      refine ⟨?_, fun port he => hanswers.ready port he⟩
      rcases hanswers.writes with hw | ⟨code, hcode, hw⟩
      · exact hw ▸ .welcome
      · exact hw ▸ .refused hcode
    · rw [h]
      exact ⟨.welcome, fun port he => by cases he⟩

/-- **What the thread writes**, whatever the client does: at most one reply, and none of success or
where the port was put into the queue. -/
theorem beginHandshake_writes (peer : Peer Exn) (serverAddress : List UInt8) (stopped : Bool)
    (sent : List UInt8) {ready : Option UInt16} {host : Duplex UInt8}
    (h : beginHandshake peer serverAddress stopped { unread := sent } = (ready, host)) :
    ThreadWrites host.writes ∧
      ∀ port, ready = some port → host.writes = [[0x05, 0x00]] ∧ host.opened = true := by
  unfold beginHandshake at h
  rw [handshake_eq] at h
  -- What the client has sent begins with a greeting, or nothing is written.
  by_cases hgreeting : ∀ methods u, Greeting methods u → ¬ u <+: sent
  · obtain ⟨e, unread, k, hk⟩ := (readGreeting_recognises peer).throws { unread := sent } hgreeting
    rw [Talk.bind_of_error hk] at h
    obtain ⟨rfl, rfl⟩ := Prod.mk.inj h
    exact ⟨.nothing, nofun⟩
  push Not at hgreeting
  obtain ⟨methods, u, hu, rest, hrest⟩ := hgreeting
  obtain ⟨k, hk⟩ := (readGreeting_recognises peer).reads methods u rest { unread := sent } hu
    hrest.symm
  rw [Talk.bind_of_ok hk] at h
  obtain ⟨hwrites, hready⟩ := welcome_writes peer serverAddress stopped methods rest k
  split at h
  · rename_i hresult
    obtain ⟨rfl, rfl⟩ := Prod.mk.inj h
    rw [hresult] at hwrites hready
    exact ⟨hwrites, fun port hp => hready port (by rw [hp])⟩
  · rename_i hresult
    obtain ⟨rfl, rfl⟩ := Prod.mk.inj h
    rw [hresult] at hwrites
    exact ⟨hwrites, nofun⟩

end Tailcat
