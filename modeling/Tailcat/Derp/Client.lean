import Tailcat.Derp.Http

/-!
# The DERP client

`connect` opens a connection, reads the greeting of the server, sends its own and reads the answer;
afterwards frames are sent and received until `close`. All of them read frames through one receive
buffer, and whoever is at the other end decides what is in it: the buffer stays bounded, and behind
a header that announces too much nothing is read any more.

## Main definitions

* `parseDerpServerKey`: the greeting of a server
* `DerpClient`, `derpClientMachine`: the client, with what its calls on the network do as events
* `Oversized`: a buffer whose first header announces more than 10 MiB
* `ReadState.Bounded`: what holds of the reader between two steps

## Main results

* `readStep_bounded`, `readStep_oversized`: what a step of the reader does to a bounded buffer
* `derpClient_step`: what a step of the client does to its reader
* `receive_buffer_bounded`: the buffer in every run of a client
-/

namespace Tailcat

/-! ## The client -/

/-- The first octets of the greeting. -/
def kDerpMagic : List UInt8 := [0x44, 0x45, 0x52, 0x50, 0xf0, 0x9f, 0x94, 0x91]

/-- The key of the server, behind the magic of its greeting. -/
def parseDerpServerKey (payload : List UInt8) : Except Exn Key32 :=
  if h : payload.length < 40 ∨ payload.take 8 ≠ kDerpMagic then
    .error (.runtimeError "invalid DERP server greeting")
  else
    .ok (Octets.ofTake 32 (payload.drop 8) (by rw [List.length_drop]; omega))

/-- How far `connect` has got: it reads the greeting of the server, is about to write its own, or
reads the answer. -/
inductive ConnectPoint
  | serverKey
  | clientInfo
  | serverInfo
  deriving DecidableEq

/-- A client; `connecting` is where `connect` stands while it is under way. -/
structure DerpClient where
  reader : ReadState := {}
  isConnected : Bool := false
  serverPublic : Key32 := Octets.zero 32
  connecting : Option ConnectPoint := none

/-- The calls, and what they find: `connect` with what opening the connection and sending the
request does, `clientInfo` with what sealing and writing the client's greeting does, the events of
`read_frame` and `read_frame_for`, and `send_packet` or `send_pong` with what writing does. -/
inductive DerpClientEvent
  | connect (opened : Except Exn Unit)
  | clientInfo (written : Except Exn Unit)
  | read (e : ReadEvent)
  | send (written : Except Exn Unit)
  | close

/-- A call of `close`, and how the other calls end. -/
inductive DerpClientOutput
  | closed
  | read (result : ReadResult)
  | connected (result : Except Exn Unit)
  | sent (result : Except Exn Unit)

namespace DerpClient

/-- The exception of every call on a client that is not connected. -/
def notConnected : Exn := .runtimeError "DERP client is not connected"

/-- No call is under way. -/
def Idle (c : DerpClient) : Prop := c.connecting = none ∧ c.reader.point = .idle

instance (c : DerpClient) : Decidable c.Idle := inferInstanceAs (Decidable (_ ∧ _))

/-- The client after `close`. -/
def closed (c : DerpClient) : DerpClient :=
  { c with reader := {}, isConnected := false, connecting := none }

/-- An exception in `connect` closes the client, and is thrown again. -/
def fails (c : DerpClient) (x : Exn) : DerpClient × List DerpClientOutput :=
  (c.closed, [.closed, .connected (.error x)])

/-- A frame that `connect` has read; `openServerInfo` opens a box of the server's. -/
def accept (openServerInfo : Key32 → List UInt8 → Except Exn String) (c : DerpClient)
    (f : DerpFrame) : ConnectPoint → DerpClient × List DerpClientOutput
  | .serverKey =>
    if f.type ≠ .serverKey then
      c.fails (.runtimeError "DERP server did not send ServerKey first")
    else
      match parseDerpServerKey f.payload with
      | .error x => c.fails x
      | .ok key => ({ c with serverPublic := key, connecting := some .clientInfo }, [])
  | _ =>
    if f.type ≠ .serverInfo then
      c.fails (.runtimeError "DERP server did not send ServerInfo after ClientInfo")
    else
      match openServerInfo c.serverPublic f.payload with
      | .error x => c.fails x
      | .ok _ => ({ c with isConnected := true, connecting := none }, [.connected (.ok ())])

/-- A step of `read_frame` in `connect`. -/
def connectRead (openServerInfo : Key32 → List UInt8 → Except Exn String) (c : DerpClient)
    (point : ConnectPoint) (r : ReadState × List ReadResult) :
    DerpClient × List DerpClientOutput :=
  let c := { c with reader := r.1, connecting := some point }
  match r.2 with
  | .frame f :: _ => c.accept openServerInfo f point
  | .threw x :: _ => c.fails x
  | _ => (c, []) -- without a deadline it does not give up

/-- Whether an event is a call of `receive` or `receive_for`. -/
def isCall : ReadEvent → Bool
  | .readFrame => true
  | .readFrameFor _ => true
  | _ => false

/-- A call, with what the server sends, or the destructor. -/
def step (openServerInfo : Key32 → List UInt8 → Except Exn String) (c : DerpClient) :
    DerpClientEvent → Option (DerpClient × List DerpClientOutput)
  | .connect opened =>
    if c.Idle then
      match opened with
      | .error x => some (c.closed.closed, [.closed, .closed, .connected (.error x)])
      | .ok () =>
        let (c', os) := c.closed.connectRead openServerInfo .serverKey
          (readLoop c.closed.reader.receiveBuffer (nextPoint none))
        some (c', .closed :: os)
    else
      none
  | .clientInfo written =>
    if c.connecting = some .clientInfo then
      match written with
      | .error x => some (c.fails x)
      | .ok () => some (c.connectRead openServerInfo .serverInfo
          (readLoop c.reader.receiveBuffer (nextPoint none)))
    else
      none
  | .read e =>
    match c.connecting with
    | none =>
      if isCall e ∧ c.reader.point = .idle ∧ ¬ c.isConnected then
        some (c, [.read (.threw notConnected)])
      else
        (readStep c.reader e).map fun r => ({ c with reader := r.1 }, r.2.map .read)
    | some .clientInfo => none
    | some point => (readStep c.reader e).map (c.connectRead openServerInfo point)
  | .send written =>
    if c.Idle then
      if ¬ c.isConnected then some (c, [.sent (.error notConnected)])
      else some (c, [.sent written])
    else
      none
  | .close => if c.Idle then some (c.closed, [.closed]) else none

end DerpClient

/-- The calls on a client that starts without a connection. -/
def derpClientMachine (openServerInfo : Key32 → List UInt8 → Except Exn String) :
    Machine DerpClient DerpClientEvent DerpClientOutput where
  init := {}
  step := DerpClient.step openServerInfo

/-! ## The buffer of the reader -/

/-- The header at the front of a buffer announces more than 10 MiB. -/
def Oversized : List UInt8 → Prop
  | _ :: a :: b :: c :: d :: _ => 10 * 1024 * 1024 < (loadLength a b c d).toNat
  | _ => False

instance : DecidablePred Oversized := fun buffer => by
  unfold Oversized
  split <;> infer_instance

/-- Nothing is taken off behind a header that announces too much. -/
theorem takeBufferedFrame_oversized {buffer : List UInt8} (h : Oversized buffer) :
    takeBufferedFrame buffer = .error (.runtimeError "DERP frame exceeds safety limit") := by
  unfold Oversized at h
  split at h
  · unfold takeBufferedFrame
    dsimp only
    rw [if_pos]
    exact UInt32.lt_iff_toNat_lt.mpr h
  · cases h

/-- Five octets are a header. -/
theorem exists_header {buffer : List UInt8} (h : 5 ≤ buffer.length) :
    ∃ type a b c d tail, buffer = type :: a :: b :: c :: d :: tail := by
  rcases buffer with - | ⟨type, - | ⟨a, - | ⟨b, - | ⟨c, - | ⟨d, tail⟩⟩⟩⟩⟩
  case cons.cons.cons.cons.cons => exact ⟨type, a, b, c, d, tail, rfl⟩
  all_goals simp at h

/-- A buffer without a complete frame is shorter than the longest frame. -/
theorem length_lt_of_take_none {buffer : List UInt8} (h : takeBufferedFrame buffer = .ok none) :
    buffer.length < 5 + maxFrameSize := by
  change buffer.length < 5 + 10 * 1024 * 1024
  by_cases hlong : 5 ≤ buffer.length
  · obtain ⟨type, a, b, c, d, tail, rfl⟩ := exists_header hlong
    unfold takeBufferedFrame at h
    dsimp only at h
    split_ifs at h with hlarge hoverflow hshort
    · have hle : (loadLength a b c d).toNat ≤ 10 * 1024 * 1024 :=
        UInt32.le_iff_toNat_le.mp (UInt32.not_lt.mp hlarge)
      omega
    · cases h
  · omega

/-- What is left behind a frame is shorter. -/
theorem length_le_of_take_some {buffer rest : List UInt8} {f : DerpFrame}
    (h : takeBufferedFrame buffer = .ok (some (f, rest))) : rest.length ≤ buffer.length := by
  unfold takeBufferedFrame at h
  split at h
  · dsimp only at h
    split_ifs at h
    · cases h
    · obtain ⟨-, rfl⟩ := Prod.mk.inj (Option.some.inj (Except.ok.inj h))
      rw [List.length_drop]
      exact Nat.sub_le _ _
  · cases h

/-- The longest that the buffer ever is: a frame of the largest size that lacks an octet, and a
piece behind it. -/
abbrev maxReceiveBuffer : ℕ := 5 + 10 * 1024 * 1024 - 1 + 16 * 1024

/-- What holds of the reader between two steps: its buffer is bounded, and a call that is on its way
to the network has found no complete frame. -/
structure ReadState.Bounded (s : ReadState) : Prop where
  length_le : s.receiveBuffer.length ≤ maxReceiveBuffer
  pastTake : s.point.PastTake → takeBufferedFrame s.receiveBuffer = .ok none

theorem ReadState.Bounded.init : ReadState.Bounded {} := ⟨Nat.zero_le _, fun h => h.elim⟩

/-- The top of the loop on a buffer that is bounded. -/
theorem readLoop_bounded {buffer : List UInt8} (h : buffer.length ≤ maxReceiveBuffer)
    (next : ReadPoint) : (readLoop buffer next).1.Bounded := by
  unfold readLoop
  split
  · exact ⟨h, fun hp => hp.elim⟩
  · rename_i htake
    exact ⟨(length_le_of_take_some htake).trans h, fun hp => hp.elim⟩
  · rename_i htake
    exact ⟨h, fun _ => htake⟩

/-- Octets are read only behind a buffer without a complete frame, and 16 KiB at most. -/
theorem readStep_piece {s s' : ReadState} {piece : List UInt8} {os : List ReadResult}
    (h : readStep s (.received piece) = some (s', os)) :
    s.point.PastTake ∧ piece.length ≤ 16 * 1024 := by
  obtain ⟨buffer, point⟩ := s
  cases point with
  | receiving deadline =>
    refine ⟨trivial, ?_⟩
    by_contra hlong
    have hstuck : readStep ⟨buffer, .receiving deadline⟩ (.received piece) = none :=
      if_pos (not_le.mp hlong)
    rw [hstuck] at h
    cases h
  | _ => cases h

/-- **A step of the reader** keeps its buffer bounded, also where the piece that it reads has been
put behind the buffer and nothing has been taken off yet. -/
theorem readStep_bounded {s s' : ReadState} {e : ReadEvent} {os : List ReadResult}
    (hs : s.Bounded) (h : readStep s e = some (s', os)) :
    (s.receiveBuffer ++ e.piece).length ≤ maxReceiveBuffer ∧ s'.Bounded := by
  have hpiece : (s.receiveBuffer ++ e.piece).length ≤ maxReceiveBuffer := by
    cases e with
    | received piece =>
      obtain ⟨hpast, hle⟩ := readStep_piece h
      have hlt := length_lt_of_take_none (hs.pastTake hpast)
      change s.receiveBuffer.length < 5 + 10 * 1024 * 1024 at hlt
      rw [List.length_append]
      change s.receiveBuffer.length + piece.length ≤ 5 + 10 * 1024 * 1024 - 1 + 16 * 1024
      omega
    | _ => simpa [ReadEvent.piece] using hs.length_le
  refine ⟨hpiece, ?_⟩
  rcases readStep_cases h with ⟨next, hl⟩ | hq
  · have hloop := readLoop_bounded hpiece next
    rwa [← hl] at hloop
  · refine ⟨hq.receiveBuffer ▸ hs.length_le, fun hp => ?_⟩
    rw [hq.receiveBuffer]
    exact hs.pastTake (hq.pastTake hp)

/-- The top of the loop on a buffer whose header announces too much. -/
theorem readLoop_oversized {buffer : List UInt8} (h : Oversized buffer) (next : ReadPoint) :
    readLoop buffer next = (⟨buffer, .idle⟩,
      [.threw (.runtimeError "DERP frame exceeds safety limit")]) := by
  unfold readLoop
  rw [takeBufferedFrame_oversized h]

/-- **A step of the reader behind a header that announces too much** reads nothing and returns no
frame. -/
theorem readStep_oversized {s s' : ReadState} {e : ReadEvent} {os : List ReadResult}
    (hs : s.Bounded) (ho : Oversized s.receiveBuffer) (h : readStep s e = some (s', os)) :
    s'.receiveBuffer = s.receiveBuffer ∧ (∀ piece, e ≠ .received piece) ∧
      ∀ f, .frame f ∉ os := by
  have hpast : ¬ s.point.PastTake := by
    intro hp
    have htake := hs.pastTake hp
    rw [takeBufferedFrame_oversized ho] at htake
    cases htake
  have hunread : ∀ piece, e ≠ .received piece := by
    rintro piece rfl
    exact hpast (readStep_piece h).1
  rcases readStep_cases h with ⟨next, hl⟩ | hq
  · have hpiece : e.piece = [] := by
      cases e with
      | received piece => exact absurd rfl (hunread piece)
      | _ => rfl
    rw [hpiece, List.append_nil, readLoop_oversized ho] at hl
    obtain ⟨rfl, rfl⟩ := Prod.mk.inj hl
    exact ⟨rfl, hunread, by simp⟩
  · refine ⟨hq.receiveBuffer, hunread, fun f hf => ?_⟩
    have hmem : f ∈ returnedFrames os := List.mem_filterMap.mpr ⟨.frame f, hf, rfl⟩
    rw [hq.returned] at hmem
    cases hmem

/-! ## Steps of the client -/

section Client

variable {openServerInfo : Key32 → List UInt8 → Except Exn String} {c c' : DerpClient}
  {e : DerpClientEvent} {os : List DerpClientOutput}

/-- The octets that an event adds to the buffer. -/
def DerpClientEvent.piece : DerpClientEvent → List UInt8
  | .read e => e.piece
  | _ => []

/-- What a step of the client does to its reader: nothing; a step of the reader; the top of its
loop, which throws nothing; or it closes the client. -/
inductive ReaderStep (c : DerpClient) (e : DerpClientEvent) (c' : DerpClient)
    (os : List DerpClientOutput) : Prop
  | unchanged (reader : c'.reader = c.reader) (unread : ∀ piece, e ≠ .read (.received piece))
      (frame : ∀ f, .read (.frame f) ∉ os)
  | reads (e' : ReadEvent) (event : e = .read e') (results : List ReadResult)
      (step : readStep c.reader e' = some (c'.reader, results))
      (frame : ∀ f, .read (.frame f) ∈ os → .frame f ∈ results)
  | loops (next : ReadPoint) (results : List ReadResult)
      (loop : readLoop c.reader.receiveBuffer next = (c'.reader, results))
      (kept : ∀ x, results.head? ≠ some (.threw x))
      (unread : ∀ piece, e ≠ .read (.received piece)) (frame : ∀ f, .read (.frame f) ∉ os)
  | closes (bounded : c'.reader.Bounded) (closed : .closed ∈ os)

/-- A frame that `connect` has read leaves the reader as it is, or closes the client. -/
theorem accept_reader (openServerInfo : Key32 → List UInt8 → Except Exn String) (c : DerpClient)
    (f : DerpFrame) (point : ConnectPoint) :
    ((c.accept openServerInfo f point).1.reader = {} ∧
        .closed ∈ (c.accept openServerInfo f point).2) ∨
      (c.accept openServerInfo f point).1.reader = c.reader ∧
        ∀ result, .read result ∉ (c.accept openServerInfo f point).2 := by
  unfold DerpClient.accept
  split
  · split
    · exact .inl ⟨rfl, List.mem_cons_self⟩
    split
    · exact .inl ⟨rfl, List.mem_cons_self⟩
    · exact .inr ⟨rfl, by simp⟩
  · split
    · exact .inl ⟨rfl, List.mem_cons_self⟩
    split
    · exact .inl ⟨rfl, List.mem_cons_self⟩
    · exact .inr ⟨rfl, by simp⟩

/-- A step of `read_frame` in `connect` is one of the reader, or closes the client. -/
theorem connectRead_reader (openServerInfo : Key32 → List UInt8 → Except Exn String)
    (c : DerpClient) (point : ConnectPoint) (r : ReadState × List ReadResult) :
    ((c.connectRead openServerInfo point r).1.reader = {} ∧
        .closed ∈ (c.connectRead openServerInfo point r).2) ∨
      (c.connectRead openServerInfo point r).1.reader = r.1 ∧
        (∀ x, r.2.head? ≠ some (.threw x)) ∧
        ∀ result, .read result ∉ (c.connectRead openServerInfo point r).2 := by
  obtain ⟨reader, results⟩ := r
  unfold DerpClient.connectRead
  dsimp only
  split
  · rename_i f tail
    rcases accept_reader openServerInfo { c with reader, connecting := some point } f point
      with hclosed | ⟨hreader, hread⟩
    · exact .inl hclosed
    · exact .inr ⟨hreader, by simp, hread⟩
  · exact .inl ⟨rfl, List.mem_cons_self⟩
  · rename_i hthrew
    refine .inr ⟨rfl, fun x hx => ?_, by simp⟩
    obtain ⟨tail, rfl⟩ := List.head?_eq_some_iff.mp hx
    exact hthrew x tail rfl

/-- **A step of the client** is one of these for its reader. -/
theorem derpClient_step (h : c.step openServerInfo e = some (c', os)) : ReaderStep c e c' os := by
  unfold DerpClient.step at h
  cases e with
  | connect opened =>
    dsimp only at h
    split at h
    · cases opened with
      | error x =>
        obtain ⟨rfl, rfl⟩ := Prod.mk.inj (Option.some.inj h)
        exact .closes .init List.mem_cons_self
      | ok _ =>
        obtain ⟨rfl, rfl⟩ := Prod.mk.inj (Option.some.inj h)
        refine .closes ?_ List.mem_cons_self
        exact ⟨Nat.zero_le _, fun _ => rfl⟩
    · cases h
  | clientInfo written =>
    dsimp only at h
    split at h
    · cases written with
      | error x =>
        obtain ⟨rfl, rfl⟩ := Prod.mk.inj (Option.some.inj h)
        exact .closes .init List.mem_cons_self
      | ok _ =>
        have hc := congrArg Prod.fst (Option.some.inj h)
        have hos := congrArg Prod.snd (Option.some.inj h)
        dsimp only at hc hos
        subst hc hos
        rcases connectRead_reader openServerInfo c .serverInfo
            (readLoop c.reader.receiveBuffer (nextPoint none)) with
          ⟨hreader, hclosed⟩ | ⟨hreader, hkept, hread⟩
        · exact .closes (hreader ▸ .init) hclosed
        · exact .loops (nextPoint none) _ (by rw [hreader]) hkept (by simp) fun f => hread _
    · cases h
  | read e =>
    dsimp only at h
    split at h
    · split at h
      · rename_i hcall
        obtain ⟨rfl, rfl⟩ := Prod.mk.inj (Option.some.inj h)
        refine .unchanged rfl ?_ (by simp)
        rintro piece he
        cases he
        cases hcall.1
      · obtain ⟨⟨reader, results⟩, hs, he⟩ := Option.map_eq_some_iff.mp h
        obtain ⟨rfl, rfl⟩ := Prod.mk.inj he
        exact .reads e rfl results hs (by simp)
    · cases h
    · -- While `connect` runs, what the reader returns goes to it and not to a caller.
      rename_i point _ hpoint
      obtain ⟨⟨reader, results⟩, hs, he⟩ := Option.map_eq_some_iff.mp h
      have hc := congrArg Prod.fst he
      have hos := congrArg Prod.snd he
      dsimp only at hc hos
      subst hc hos
      rcases connectRead_reader openServerInfo c point
          (reader, results) with ⟨hreader, hclosed⟩ | ⟨hreader, -, hread⟩
      · exact .closes (hreader ▸ .init) hclosed
      · exact .reads e rfl results (by rw [hs, hreader]) fun f hf => absurd hf (hread _)
  | send written =>
    dsimp only at h
    split at h
    · split at h
      · obtain ⟨rfl, rfl⟩ := Prod.mk.inj (Option.some.inj h)
        exact .unchanged rfl (by simp) (by simp)
      · obtain ⟨rfl, rfl⟩ := Prod.mk.inj (Option.some.inj h)
        exact .unchanged rfl (by simp) (by simp)
    · cases h
  | close =>
    dsimp only at h
    split at h
    · obtain ⟨rfl, rfl⟩ := Prod.mk.inj (Option.some.inj h)
      exact .closes .init List.mem_cons_self
    · cases h

/-- Octets are read by a step of the reader. -/
theorem derpClient_reads {piece : List UInt8}
    (h : c.step openServerInfo (.read (.received piece)) = some (c', os)) :
    ∃ r, readStep c.reader (.received piece) = some r := by
  dsimp only [DerpClient.step] at h
  split at h
  · rw [if_neg (fun hcall => Bool.false_ne_true hcall.1)] at h
    obtain ⟨r, hs, -⟩ := Option.map_eq_some_iff.mp h
    exact ⟨r, hs⟩
  · cases h
  · obtain ⟨r, hs, -⟩ := Option.map_eq_some_iff.mp h
    exact ⟨r, hs⟩

/-- **A step of the client keeps its buffer bounded**, also while it is taken. -/
theorem derpClient_bounded (hb : c.reader.Bounded) (h : c.step openServerInfo e = some (c', os)) :
    (c.reader.receiveBuffer ++ e.piece).length ≤ maxReceiveBuffer ∧ c'.reader.Bounded := by
  constructor
  · cases e with
    | read e =>
      cases e with
      | received piece =>
        obtain ⟨r, hs⟩ := derpClient_reads h
        exact (readStep_bounded hb hs).1
      | _ => simpa [DerpClientEvent.piece, ReadEvent.piece] using hb.length_le
    | _ => simpa [DerpClientEvent.piece] using hb.length_le
  · cases derpClient_step h with
    | unchanged reader unread frame => exact reader ▸ hb
    | reads e' event results step frame => exact (readStep_bounded hb step).2
    | loops next results loop kept unread frame =>
      have hloop := readLoop_bounded hb.length_le next
      rwa [loop] at hloop
    | closes bounded closed => exact bounded

/-- **A step of the client behind a header that announces too much** reads nothing and returns no
frame, unless it closes the client. -/
theorem derpClient_oversized (hb : c.reader.Bounded) (ho : Oversized c.reader.receiveBuffer)
    (h : c.step openServerInfo e = some (c', os)) (hopen : .closed ∉ os) :
    c'.reader.receiveBuffer = c.reader.receiveBuffer ∧
      (∀ piece, e ≠ .read (.received piece)) ∧ ∀ f, .read (.frame f) ∉ os := by
  cases derpClient_step h with
  | unchanged reader unread frame => exact ⟨congrArg _ reader, unread, frame⟩
  | reads e' event results step frame =>
    obtain ⟨hbuffer, hunread, hframe⟩ := readStep_oversized hb ho step
    refine ⟨hbuffer, ?_, fun f hf => hframe f (frame f hf)⟩
    rintro piece rfl
    cases event
    exact hunread piece rfl
  | loops next results loop kept unread frame =>
    rw [readLoop_oversized ho] at loop
    obtain ⟨-, rfl⟩ := Prod.mk.inj loop
    exact absurd rfl (kept _)
  | closes bounded closed => exact absurd closed hopen

/-! ## Runs -/

theorem derpClient_runs_bounded {es : List DerpClientEvent}
    (hr : (derpClientMachine openServerInfo).Runs es c os) : c.reader.Bounded :=
  hr.invariant (I := fun c => c.reader.Bounded) .init fun _ _ _ _ hb hs =>
    (derpClient_bounded hb hs).2

end Client

/-- **The receive buffer stays bounded**, whatever the server sends, whatever is called and whatever
is thrown: it never holds more than a frame of 10 MiB that lacks an octet and 16 KiB behind it,
between two steps or while a piece is taken in. When the header at its front announces more than
10 MiB, nothing is read and no frame is returned until `close` is called. -/
theorem receive_buffer_bounded (openServerInfo : Key32 → List UInt8 → Except Exn String)
    (es : List DerpClientEvent) (c : DerpClient) (os : List DerpClientOutput)
    (hr : (derpClientMachine openServerInfo).Runs es c os) :
    c.reader.receiveBuffer.length ≤ 5 + 10 * 1024 * 1024 - 1 + 16 * 1024 ∧
    (∀ e c' os', (derpClientMachine openServerInfo).step c e = some (c', os') →
      (c.reader.receiveBuffer ++ e.piece).length ≤ 5 + 10 * 1024 * 1024 - 1 + 16 * 1024) ∧
    (Oversized c.reader.receiveBuffer → ∀ es' c' os',
      (derpClientMachine openServerInfo).Runs (es ++ es') c' (os ++ os') → .closed ∉ os' →
        c'.reader.receiveBuffer = c.reader.receiveBuffer ∧
        (∀ piece, .read (.received piece) ∉ es') ∧ ∀ f, .read (.frame f) ∉ os') := by
  have hb := derpClient_runs_bounded hr
  refine ⟨hb.length_le, fun e c' os' hs => (derpClient_bounded hb hs).1,
    fun ho es' c' os' hr' hopen => ?_⟩
  obtain ⟨ps, hfrom, hps⟩ := hr.split hr'
  obtain rfl := List.append_cancel_left hps
  -- From the oversized state on, every step that does not close leaves the buffer as it is.
  have hall := hfrom.trace_invariant
    (I := fun es c' os => c'.reader.Bounded ∧ (.closed ∉ os →
      c'.reader.receiveBuffer = c.reader.receiveBuffer ∧
        (∀ piece, .read (.received piece) ∉ es) ∧ ∀ f, .read (.frame f) ∉ os))
    ⟨hb, fun _ => ⟨rfl, by simp, by simp⟩⟩ ?_
  · exact hall.2 hopen
  · rintro es₁ c₁ os₁ e c₂ os₂ - ⟨hb₁, ih⟩ hs
    refine ⟨(derpClient_bounded hb₁ hs).2, fun hopen => ?_⟩
    rw [List.mem_append, not_or] at hopen
    obtain ⟨hbuffer, hunread, hframe⟩ := ih hopen.1
    obtain ⟨hbuffer', hunread', hframe'⟩ :=
      derpClient_oversized hb₁ (hbuffer ▸ ho) hs hopen.2
    refine ⟨hbuffer'.trans hbuffer, fun piece hm => ?_, fun f hm => ?_⟩
    · rcases List.mem_append.mp hm with hm | hm
      · exact hunread piece hm
      · exact hunread' piece (List.mem_singleton.mp hm).symm
    · rcases List.mem_append.mp hm with hm | hm
      · exact hframe f hm
      · exact hframe' f hm

/-- A connected client that receives a header of 4 GiB; the next call throws at once. -/
theorem receive_buffer_bounded_example :
    let greeting : List UInt8 := [1, 0, 0, 0, 40] ++ kDerpMagic ++ List.replicate 32 7
    let es : List DerpClientEvent := [.connect (.ok ()), .read (.received greeting),
      .clientInfo (.ok ()), .read (.received [3, 0, 0, 0, 0]), .read .readFrame,
      .read (.received [5, 0xff, 0xff, 0xff, 0xff])]
    ∃ c os, (derpClientMachine fun _ _ => .ok "").Runs es c os ∧
      Oversized c.reader.receiveBuffer ∧
      ∀ c' os', (derpClientMachine fun _ _ => .ok "").Runs (es ++ [.read .readFrame]) c' (os ++ os') →
        .closed ∉ os' → ∀ f, .read (.frame f) ∉ os' := by
  intro greeting es
  obtain ⟨⟨c, os⟩, hr⟩ : ∃ r, (derpClientMachine fun _ _ => .ok "").run es = some r := ⟨_, rfl⟩
  have hoversized : ((derpClientMachine fun _ _ => .ok "").run es).map
      (fun r => decide (Oversized r.1.reader.receiveBuffer)) = some true := by
    decide +kernel
  rw [hr] at hoversized
  have ho := of_decide_eq_true (Option.some.inj hoversized)
  refine ⟨c, os, hr, ho, fun c' os' hr' hopen => ?_⟩
  exact ((receive_buffer_bounded _ es c os hr).2.2 ho _ c' os' hr' hopen).2.2

end Tailcat
