import Tailcat.Socks.Handshake

/-!
# The connections that the proxy takes over

A client has its connection taken over when it asks for the server by name or by address. Texts that
the thread makes of other addresses are neither, since a server's address has been parsed before and
so begins with a letter.

## Main definitions

* `ServerAddress`: an address that has been parsed
* `TakenOver`: the clients whose connection is taken over
* `TurnedAway`: the other clients, and what they are sent

## Main results

* `target_iff`: which texts of addresses designate the server
* `handshake_parsed`: which connections are taken over
-/

namespace Tailcat

/-! ## Acting -/

/-- The address with which the proxy was started. It has been parsed before. -/
structure ServerAddress where
  toList : List UInt8
  parsed : ∃ info, parseTailcatAddr toList = .ok info

theorem ServerAddress.head_eq (server : ServerAddress) :
    server.toList.head? = some 't'.toUInt8 := by
  obtain ⟨info, h⟩ := server.parsed
  obtain ⟨⟨rest, hrest⟩, -⟩ := parse_eq_ok.mp h
  rw [← hrest]
  rfl

/-- A text that begins below the letters is neither the name nor the address of a server. -/
theorem not_designated (server : ServerAddress) {text : List UInt8} {c : UInt8}
    (htext : text.head? = some c) (hc : c < 'A'.toUInt8) :
    lowerAscii text ≠ serverName ∧ text ≠ server.toList := by
  constructor
  · intro h
    have hhead : (lowerAscii text).head? = serverName.head? := by rw [h]
    rw [lowerAscii, List.head?_map, htext, Option.map_some,
      if_neg fun hle => absurd hle.1 (UInt8.not_le.mpr hc)] at hhead
    obtain rfl := Option.some.inj hhead
    exact absurd hc (by decide)
  · intro h
    have hhead := server.head_eq
    rw [← h, htext] at hhead
    obtain rfl := Option.some.inj hhead
    exact absurd hc (by decide)

/-- Decimal numbers begin below the letters. -/
theorem decimal_head (c : UInt8) : ∃ x, (decimal c).head? = some x ∧ x < 'A'.toUInt8 := by
  have hc : (decimal c).head?.any (· < 'A'.toUInt8) = true :=
    UInt8.forall_of_ofNat (P := fun c => (decimal c).head?.any (· < 'A'.toUInt8) = true)
      (by decide +kernel) c
  cases hhead : (decimal c).head? with
  | none =>
    rw [hhead] at hc
    cases hc
  | some x =>
    rw [hhead] at hc
    exact ⟨x, rfl, of_decide_eq_true hc⟩

theorem dotted_head {octets : List UInt8} (h : octets.length = 4) :
    ∃ x, (dotted octets).head? = some x ∧ x < 'A'.toUInt8 := by
  match octets, h with
  | [a, b, c, d], _ =>
    obtain ⟨x, hx, hlt⟩ := decimal_head a
    refine ⟨x, ?_, hlt⟩
    have hdotted : dotted [a, b, c, d] =
        decimal a ++ '.'.toUInt8 :: (dotted [b, c, d]) := by
      simp [dotted, List.intercalate]
    rw [hdotted, List.head?_append, hx]
    rfl

/-- The thread takes the text of an address for the server's just where it is. -/
theorem target_iff (server : ServerAddress) {address : SocksAddress} {w : List UInt8}
    (h : address.Spelled w) :
    ¬ (lowerAscii address.target ≠ serverName ∧ address.target ≠ server.toList) ↔
      address.Designates server.toList := by
  cases h with
  | ipv4 h =>
    obtain ⟨x, hx, hlt⟩ := dotted_head h
    exact iff_of_false (not_not.mpr (not_designated server hx hlt)) id
  | name h => rw [not_and_or, not_not, not_not]; rfl
  | ipv6 h => exact iff_of_false (not_not.mpr (not_designated server rfl (by decide))) id

theorem answer_of_refusal (peer : Peer Exn) (server : ServerAddress) (stopped : Bool)
    {request : SocksRequest} {w : List UInt8} {code : UInt8} (hw : request.Spelled w)
    (h : request.refusal server.toList = some code) :
    answer peer server.toList stopped request = refuse peer code := by
  cases hw with
  | command =>
    obtain rfl := Option.some.inj h
    rfl
  | addressType =>
    obtain rfl := Option.some.inj h
    rfl
  | connect hw =>
    dsimp only [SocksRequest.refusal] at h
    dsimp only [answer]
    split_ifs at h with hport hserver
    · obtain rfl := Option.some.inj h
      exact if_pos hport
    · obtain rfl := Option.some.inj h
      rw [if_neg hport, if_pos (not_not.mp fun hn => hserver ((target_iff server hw).mp hn))]

theorem answer_of_accepted (peer : Peer Exn) (server : ServerAddress) (stopped : Bool)
    {address : SocksAddress} {port : UInt16} {w : List UInt8}
    (hw : (SocksRequest.connect address port).Spelled w) (hport : port ≠ 0)
    (h : address.Designates server.toList) :
    answer peer server.toList stopped (.connect address port) = enqueue stopped port := by
  cases hw with
  | connect hw =>
    dsimp only [answer]
    rw [if_neg hport, if_neg ((target_iff server hw).mpr h)]

/-! ## Which connections are taken over -/

/-- The client has sent a greeting and a request with which the server is asked for at a port, and
behind them `rest`. -/
def TakenOver (serverAddress sent : List UInt8) (port : UInt16) (rest : List UInt8) : Prop :=
  ∃ methods address u v, Greeting methods u ∧ 0x00 ∈ methods ∧
    (SocksRequest.connect address port).Spelled v ∧ port ≠ 0 ∧ address.Designates serverAddress ∧
    sent = u ++ v ++ rest

/-- What is written to a client that is turned away. -/
inductive TurnedAway (serverAddress sent : List UInt8) : List UInt8 → Prop
  | badGreeting (h : ∀ methods u, Greeting methods u → ¬ u <+: sent) :
    TurnedAway serverAddress sent []
  | noMethod {methods u rest : List UInt8} (hu : Greeting methods u) (hsent : sent = u ++ rest)
    (h : 0x00 ∉ methods) : TurnedAway serverAddress sent [0x05, 0xff]
  | badRequest {methods u rest : List UInt8} (hu : Greeting methods u) (hsent : sent = u ++ rest)
    (hmethods : 0x00 ∈ methods) (h : ∀ request v, SocksRequest.Spelled request v → ¬ v <+: rest) :
    TurnedAway serverAddress sent [0x05, 0x00]
  | refused {methods u rest v : List UInt8} {request : SocksRequest} {code : UInt8}
    (hu : Greeting methods u) (hsent : sent = u ++ v ++ rest) (hmethods : 0x00 ∈ methods)
    (hv : request.Spelled v) (h : request.refusal serverAddress = some code) :
    TurnedAway serverAddress sent ([0x05, 0x00] ++ replyOctets code)

section Outcomes

variable {peer : Peer Exn} {server : ServerAddress} {stopped : Bool} {sent : List UInt8}

theorem beginHandshake_of_no_greeting (serverAddress : List UInt8)
    (h : ∀ methods u, Greeting methods u → ¬ u <+: sent) :
    ∃ unread k, beginHandshake peer serverAddress stopped { unread := sent } =
      (none, { unread, reads := k, opened := false }) := by
  obtain ⟨e, unread, k, hk⟩ := (readGreeting_recognises peer).throws { unread := sent } h
  refine ⟨unread, k, ?_⟩
  rw [beginHandshake, handshake_eq, Talk.bind_of_error hk]

theorem handshake_of_greeting (peer : Peer Exn) (serverAddress : List UInt8) (stopped : Bool)
    {methods u rest : List UInt8} (hu : Greeting methods u) (hsent : sent = u ++ rest) :
    ∃ k, handshake peer serverAddress stopped { unread := sent } =
      welcome peer serverAddress stopped methods { unread := rest, reads := k } := by
  obtain ⟨k, hk⟩ := (readGreeting_recognises peer).reads methods u rest { unread := sent } hu hsent
  exact ⟨k, by rw [handshake_eq, Talk.bind_of_ok hk]⟩

theorem refuse_of_accepting (hpeer : peer.Accepting) (code : UInt8) (d : Duplex UInt8) :
    refuse peer code d =
      (.ok none, { d with writes := d.writes ++ [replyOctets code], opened := false }) := by
  unfold refuse socksReply
  rw [Talk.bind_of_ok (Talk.writeAll_of_accepting hpeer _ _)]
  rfl

/-- A welcome without a method. -/
theorem welcome_of_no_method (hpeer : peer.Accepting) {methods : List UInt8}
    (serverAddress : List UInt8) (h : 0x00 ∉ methods) (d : Duplex UInt8) :
    welcome peer serverAddress stopped methods d =
      (.ok none, { d with writes := d.writes ++ [[0x05, 0xff]], opened := false }) := by
  unfold welcome
  rw [if_pos h, Talk.bind_of_ok (Talk.writeAll_of_accepting hpeer _ _)]
  rfl

/-- A welcome with a method. -/
theorem welcome_of_method (hpeer : peer.Accepting) {methods : List UInt8}
    (serverAddress : List UInt8) (h : 0x00 ∈ methods) (d : Duplex UInt8) :
    welcome peer serverAddress stopped methods d =
      (readSocksRequest peer >>= answer peer serverAddress stopped)
        { d with writes := d.writes ++ [[0x05, 0x00]] } := by
  unfold welcome
  rw [if_neg (not_not.mpr h), Talk.bind_of_ok (Talk.writeAll_of_accepting hpeer _ _)]

/-- A client that asks for the server. -/
theorem beginHandshake_of_accepted (hpeer : peer.Accepting) {port : UInt16} {rest : List UInt8}
    (h : TakenOver server.toList sent port rest) :
    ∃ k, beginHandshake peer server.toList false { unread := sent } =
      (some port, { unread := rest, reads := k, writes := [[0x05, 0x00]] }) := by
  obtain ⟨methods, address, u, v, hu, hmethods, hv, hport, hserver, rfl⟩ := h
  obtain ⟨k, hk⟩ := handshake_of_greeting peer server.toList false hu
    (List.append_assoc u v rest)
  obtain ⟨l, hl⟩ := (readSocksRequest_recognises peer).reads _ v rest
    { unread := v ++ rest, reads := k, writes := [] ++ [[0x05, 0x00]] } hv rfl
  refine ⟨l, ?_⟩
  rw [beginHandshake, hk, welcome_of_method hpeer _ hmethods, Talk.bind_of_ok hl,
    answer_of_accepted peer server false hv hport hserver]
  rfl

/-- A client that does not. -/
theorem beginHandshake_of_not_accepted (hpeer : peer.Accepting)
    (h : ∀ port rest, ¬ TakenOver server.toList sent port rest) :
    ∃ host, beginHandshake peer server.toList false { unread := sent } = (none, host) ∧
      host.opened = false ∧ TurnedAway server.toList sent host.writes.flatten := by
  -- The stages of the handshake one by one: each is passed, or says what is written.
  by_cases hgreeting : ∀ methods u, Greeting methods u → ¬ u <+: sent
  · obtain ⟨unread, k, hk⟩ := beginHandshake_of_no_greeting server.toList hgreeting
    exact ⟨_, hk, rfl, .badGreeting hgreeting⟩
  push Not at hgreeting
  obtain ⟨methods, u, hu, rest, hsent⟩ := hgreeting
  obtain ⟨k, hk⟩ := handshake_of_greeting peer server.toList false hu hsent.symm
  unfold beginHandshake
  rw [hk]
  by_cases hmethods : 0x00 ∉ methods
  · rw [welcome_of_no_method hpeer _ hmethods]
    exact ⟨_, rfl, rfl, .noMethod hu hsent.symm hmethods⟩
  rw [not_not] at hmethods
  rw [welcome_of_method hpeer _ hmethods]
  by_cases hrequest : ∀ request v, SocksRequest.Spelled request v → ¬ v <+: rest
  · obtain ⟨e, unread, l, hl⟩ := (readSocksRequest_recognises peer).throws
      { unread := rest, reads := k, writes := [] ++ [[0x05, 0x00]] } hrequest
    rw [Talk.bind_of_error hl]
    exact ⟨_, rfl, rfl, .badRequest hu hsent.symm hmethods hrequest⟩
  push Not at hrequest
  obtain ⟨request, v, hv, rest', rfl⟩ := hrequest
  obtain ⟨l, hl⟩ := (readSocksRequest_recognises peer).reads request v rest'
    { unread := v ++ rest', reads := k, writes := [] ++ [[0x05, 0x00]] } hv rfl
  rw [Talk.bind_of_ok hl]
  cases hrefusal : request.refusal server.toList with
  | some code =>
    rw [answer_of_refusal peer server false hv hrefusal, refuse_of_accepting hpeer]
    rw [← List.append_assoc] at hsent
    exact ⟨_, rfl, rfl, .refused hu hsent.symm hmethods hv hrefusal⟩
  | none =>
    -- A request that is not refused is one that asks for the server.
    cases request with
    | command => cases hrefusal
    | addressType => cases hrefusal
    | connect address port =>
      dsimp only [SocksRequest.refusal] at hrefusal
      split_ifs at hrefusal with hport hserver
      exact absurd ⟨methods, address, u, v, hu, hmethods, hv, hport, hserver, by
        rw [List.append_assoc, hsent]⟩ (h port rest')

end Outcomes

/-- **Which connections are taken over**: those of the clients that ask for the server, as far as
they have sent what is read. Every other client is told so, and its socket is closed. -/
theorem handshake_parsed {peer : Peer Exn} (hpeer : peer.Accepting) (server : ServerAddress)
    (sent : List UInt8) {ready : Option UInt16} {host : Duplex UInt8}
    (h : beginHandshake peer server.toList false { unread := sent } = (ready, host)) :
    (∀ port, ready = some port ↔ ∃ rest, TakenOver server.toList sent port rest) ∧
      (∀ port rest, TakenOver server.toList sent port rest →
        host.writes.flatten = [0x05, 0x00] ∧ host.unread = rest ∧ host.opened = true) ∧
      (ready = none →
        host.opened = false ∧ TurnedAway server.toList sent host.writes.flatten) := by
  -- What is taken over is taken over with this port only, since the handshake is a function.
  have hforward : ∀ port rest, TakenOver server.toList sent port rest → ready = some port ∧
      host.writes.flatten = [0x05, 0x00] ∧ host.unread = rest ∧ host.opened = true := by
    intro port rest hacc
    obtain ⟨k, hk⟩ := beginHandshake_of_accepted hpeer hacc
    obtain ⟨rfl, rfl⟩ := Prod.mk.inj (h.symm.trans hk)
    exact ⟨rfl, rfl, rfl, rfl⟩
  by_cases hacc : ∃ port rest, TakenOver server.toList sent port rest
  · obtain ⟨port, rest, hacc⟩ := hacc
    obtain rfl := (hforward port rest hacc).1
    refine ⟨fun port' => ⟨?_, ?_⟩, fun port' rest' h' => (hforward port' rest' h').2, nofun⟩
    · rintro ⟨⟩
      exact ⟨rest, hacc⟩
    · rintro ⟨rest', h'⟩
      exact (hforward port' rest' h').1
  · push Not at hacc
    obtain ⟨host', hhost, hclosed, haway⟩ := beginHandshake_of_not_accepted hpeer hacc
    obtain ⟨rfl, rfl⟩ := Prod.mk.inj (h.symm.trans hhost)
    refine ⟨fun port => ⟨nofun, ?_⟩, fun port rest h' => absurd h' (hacc port rest), fun _ =>
      ⟨hclosed, haway⟩⟩
    rintro ⟨rest, h'⟩
    exact absurd h' (hacc port rest)

/-- The address of a region id alone. -/
def exampleServer : ServerAddress where
  toList := "tcomFwWCAAAQIAAAAAAAAAAAAAAAAAAAAAAAAAAAAAAAAAAAAAH2FpCg".toList.map Char.toUInt8
  parsed := by
    have h : (parseTailcatAddr
      ("tcomFwWCAAAQIAAAAAAAAAAAAAAAAAAAAAAAAAAAAAAAAAAAAAH2FpCg".toList.map
        Char.toUInt8)).toOption.isSome = true := by decide +kernel
    obtain ⟨info, hinfo⟩ := Option.isSome_iff_exists.mp h
    refine ⟨info, ?_⟩
    revert hinfo
    cases parseTailcatAddr _ with
    | error e => nofun
    | ok info' =>
      rintro ⟨⟩
      rfl

/-- A client that sends one octet at a time asks for port 22, and goes on. -/
theorem handshake_parsed_example :
    let peer : Peer Exn := { more := fun _ => 0, resets := none, refuses := fun _ => none }
    let sent : List UInt8 := [0x05, 0x02, 0x02, 0x00] ++
      (0x05 :: 0x01 :: 0x00 :: ((0x03 :: 0x0e :: serverName) ++ [0x00, 0x16])) ++ [0x53, 0x53, 0x48]
    let (ready, host) := beginHandshake peer exampleServer.toList false { unread := sent }
    ready = some 22 ∧ host.unread = [0x53, 0x53, 0x48] := by
  intro peer sent
  have hacc : TakenOver exampleServer.toList sent 22 [0x53, 0x53, 0x48] :=
    ⟨[0x02, 0x00], .name serverName, _, _, .mk (by decide) rfl, by decide, .connect (.name rfl),
      by decide, .inl (by decide), rfl⟩
  have hpeer : peer.Accepting := fun _ => rfl
  have h := handshake_parsed hpeer exampleServer sent rfl
  exact ⟨(h.1 22).mpr ⟨_, hacc⟩, (h.2.1 22 _ hacc).2.1⟩

end Tailcat
