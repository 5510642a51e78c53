import Tailcat.Base.Framing
import Tailcat.Base.Machine
import Tailcat.Derp.Frame

/-!
# Reading frames from a DERP server

The reading half of the DERP client: `read_frame` and `read_frame_for` take frames off the receive
buffer, receive more octets when it holds no complete frame, and may give up at a deadline with a
partial frame left in the buffer. Every clock reading and every outcome of a receive is an event,
so a run covers any calls, any cutting of the stream and any timing.

## Main definitions

* `takeBufferedFrame`: the frame at the front of the buffer, and what is left behind it
* `readMachine`: the calls, step by step
* `derpFraming`: the frames within the limit as a framing

## Main results

* `read_invariant`: the reader stands partway in the stream of frames
* `read_reassembles`: the calls return the frames of the stream, in order
-/

namespace Tailcat

/-- The frame at the front of the buffer with what is left behind it, or `none` when the buffer
holds no complete frame. -/
def takeBufferedFrame (receiveBuffer : List UInt8) :
    Except Exn (Option (DerpFrame × List UInt8)) :=
  match receiveBuffer with
  | type :: a :: b :: c :: d :: _ =>
    let len := loadLength a b c d
    if len > 10 * 1024 * 1024 then
      .error (.runtimeError "DERP frame exceeds safety limit")
    else
      let payloadSize := len.toNat
      if payloadSize > 2 ^ 64 - 1 - 5 then
        .error (.runtimeError "DERP frame length overflow")
      else
        let frameSize := 5 + payloadSize
        if receiveBuffer.length < frameSize then
          .ok none
        else
          .ok (some (⟨⟨type⟩, (receiveBuffer.drop 5).take payloadSize⟩,
            receiveBuffer.drop frameSize))
  | _ => .ok none

/-- Where a call of `read_frame` or `read_frame_for` stands. -/
inductive ReadPoint
  /-- No call is under way. -/
  | idle
  /-- `read_frame_for` is about to read the clock for its deadline. -/
  | starting (timeout : ℤ)
  /-- `read_frame_for` is about to compare the clock with its deadline. -/
  | checking (deadline : ℤ)
  /-- `receive_some` is in `curl_easy_recv`. -/
  | receiving (deadline : Option ℤ)
  /-- `receive_some` has nothing to read and is about to compare the clock with its deadline. -/
  | waiting (deadline : ℤ)
  deriving DecidableEq

/-- What the reading half of a client keeps: the octets that are not consumed yet, and the call
under way. -/
structure ReadState where
  receiveBuffer : List UInt8 := []
  point : ReadPoint := .idle
  deriving DecidableEq

/-- The calls, the clock readings in milliseconds and the outcomes of `curl_easy_recv`. -/
inductive ReadEvent
  | readFrame
  | readFrameFor (timeout : ℤ)
  | clock (now : ℤ)
  | received (piece : List UInt8)
  | again
  | failed (code : String)

/-- How a call ends. -/
inductive ReadResult
  | frame (f : DerpFrame)
  | nullopt
  | threw (e : Exn)
  deriving DecidableEq

/-- The top of the loop of both calls: return the buffered frame, or go on to receive. -/
def readLoop (receiveBuffer : List UInt8) (next : ReadPoint) : ReadState × List ReadResult :=
  match takeBufferedFrame receiveBuffer with
  | .error e => (⟨receiveBuffer, .idle⟩, [.threw e])
  | .ok (some (f, rest)) => (⟨rest, .idle⟩, [.frame f])
  | .ok none => (⟨receiveBuffer, next⟩, [])

/-- Where the loop goes on when the buffer holds no frame: only `read_frame_for` looks at the
clock before it receives. -/
def nextPoint : Option ℤ → ReadPoint
  | none => .receiving none
  | some deadline => .checking deadline

/-- A call, a reading of the clock, or an outcome of `curl_easy_recv`; what a call does not ask for
is no step. -/
def readStep (s : ReadState) (e : ReadEvent) : Option (ReadState × List ReadResult) :=
  match s.point, e with
  | .idle, .readFrame => some (readLoop s.receiveBuffer (nextPoint none))
  | .idle, .readFrameFor timeout =>
    if timeout < 0 then
      some (s, [.threw (.invalidArgument "negative DERP frame timeout")])
    else
      some ({ s with point := .starting timeout }, [])
  | .starting timeout, .clock now =>
    some (readLoop s.receiveBuffer (nextPoint (some (now + timeout))))
  | .checking deadline, .clock now =>
    if now ≥ deadline then
      some ({ s with point := .idle }, [.nullopt])
    else
      some ({ s with point := .receiving (some deadline) }, [])
  | .receiving deadline, .received piece =>
    if piece.length > 16 * 1024 then
      none
    else if piece = [] then
      some ({ s with point := .idle },
        [.threw (.runtimeError "DERP TLS connection closed while reading")])
    else
      some (readLoop (s.receiveBuffer ++ piece) (nextPoint deadline))
  | .receiving none, .again => some (s, [])
  | .receiving (some deadline), .again => some ({ s with point := .waiting deadline }, [])
  | .receiving _, .failed code =>
    some ({ s with point := .idle },
      [.threw (.runtimeError ("DERP TLS receive failed: " ++ code))])
  | .waiting deadline, .clock now =>
    if now ≥ deadline then
      some ({ s with point := .idle }, [.nullopt])
    else
      some ({ s with point := .receiving (some deadline) }, [])
  | _, _ => none

/-- The reading half of a connected client. -/
def readMachine : Machine ReadState ReadEvent ReadResult := ⟨{}, readStep⟩

/-! ## Frames as a framing -/

theorem takeBufferedFrame_short {b : List UInt8} (h : b.length < 5) :
    takeBufferedFrame b = .ok none := by
  rcases b with - | ⟨_, - | ⟨_, - | ⟨_, - | ⟨_, - | ⟨_, b⟩⟩⟩⟩⟩
  · rfl
  · rfl
  · rfl
  · rfl
  · rfl
  · simp only [List.length_cons] at h
    omega

/-- Behind a header that announces `n` octets. -/
theorem takeBufferedFrame_header (type : DerpFrameType) {n : ℕ} (hn : n ≤ 10 * 1024 * 1024)
    (tail : List UInt8) :
    takeBufferedFrame (type.octet :: beBytes 4 n ++ tail) =
      if tail.length < n then .ok none else .ok (some (⟨type, tail.take n⟩, tail.drop n)) := by
  obtain ⟨a, b, c, d, hb⟩ : ∃ a b c d, beBytes 4 n = [a, b, c, d] := ⟨_, _, _, _, rfl⟩
  have hlen : (loadLength a b c d).toNat = n := by
    rw [toNat_loadLength, ← hb, beNat_beBytes_of_lt (by omega)]
  have hle : ¬ loadLength a b c d > 10 * 1024 * 1024 := by
    rw [gt_iff_lt, UInt32.lt_iff_toNat_lt, hlen]
    exact Nat.not_lt.mpr hn
  rw [hb]
  simp only [takeBufferedFrame, List.cons_append, List.nil_append, if_neg hle, hlen,
    if_neg (show ¬ n > 2 ^ 64 - 1 - 5 by omega), List.length_cons, Nat.add_comm 5 n,
    List.drop_succ_cons, List.drop_zero]
  by_cases h : tail.length < n
  · rw [if_pos h, if_pos (by omega)]
  · rw [if_neg h, if_neg (by omega)]

/-- A frame that is there is taken. -/
theorem takeBufferedFrame_octets {f : DerpFrame} (hf : f.payload.length ≤ maxFrameSize)
    (rest : List UInt8) : takeBufferedFrame (f.octets ++ rest) = .ok (some (f, rest)) := by
  rw [DerpFrame.octets, List.append_assoc, takeBufferedFrame_header f.type hf]
  simp

/-- A frame that is cut short is waited for. -/
theorem takeBufferedFrame_cut {f : DerpFrame} (hf : f.payload.length ≤ maxFrameSize)
    {b : List UInt8} (hb : b <+: f.octets) (hne : b ≠ f.octets) :
    takeBufferedFrame b = .ok none := by
  by_cases h5 : b.length < 5
  · exact takeBufferedFrame_short h5
  · -- The header has arrived, and a proper prefix of the payload.
    have hh : f.type.octet :: beBytes 4 f.payload.length <+: b :=
      List.prefix_of_prefix_length_le (List.prefix_append _ _) hb (by simp; omega)
    obtain ⟨tail, rfl⟩ := hh
    have ht : tail <+: f.payload := (List.prefix_append_right_inj _).mp hb
    rw [takeBufferedFrame_header f.type hf, if_pos]
    refine lt_of_le_of_ne ht.length_le fun hl => hne ?_
    rw [ht.eq_of_length hl, DerpFrame.octets]

/-- The frames within the limit, as the client takes them off its buffer. -/
def derpFraming : Framing Exn DerpFrame UInt8 where
  valid f := f.payload.length ≤ maxFrameSize
  enc := DerpFrame.octets
  take := takeBufferedFrame
  take_nil := takeBufferedFrame_short (Nat.zero_lt_succ 4)
  take_enc _ hf rest := takeBufferedFrame_octets hf rest
  take_short _ hf _ hb hne := takeBufferedFrame_cut hf hb hne

/-! ## Runs -/

/-- The octets that an event adds to the buffer. -/
def ReadEvent.piece : ReadEvent → List UInt8
  | .received piece => piece
  | _ => []

/-- The frame that a call returned. -/
def ReadResult.frame? : ReadResult → Option DerpFrame
  | .frame f => some f
  | _ => none

/-- The octets received in a run. -/
def receivedOctets (es : List ReadEvent) : List UInt8 := es.flatMap ReadEvent.piece

/-- The frames returned in a run. -/
def returnedFrames (os : List ReadResult) : List DerpFrame := os.filterMap ReadResult.frame?

/-- The connection is neither closed nor broken, and no timeout is negative. -/
def ReadEvent.Sound : ReadEvent → Prop
  | .readFrameFor timeout => 0 ≤ timeout
  | .received piece => piece ≠ []
  | .failed _ => False
  | _ => True

/-- A call that is on its way to the network has found no complete frame. -/
def ReadPoint.PastTake : ReadPoint → Prop
  | .idle => False
  | .starting _ => False
  | _ => True

/-- The reader of `frames` stands partway, and a call that went past the buffer found no frame. -/
structure ReadInvariant (frames : List DerpFrame) (es : List ReadEvent) (s : ReadState)
    (os : List ReadResult) : Prop where
  partway : derpFraming.Partway frames (returnedFrames os) (receivedOctets es) s.receiveBuffer
  pastTake : s.point.PastTake → takeBufferedFrame s.receiveBuffer = .ok none

theorem readLoop_invariant {frames : List DerpFrame} (hf : ∀ f ∈ frames, derpFraming.valid f)
    {es : List ReadEvent} {os : List ReadResult} {buffer : List UInt8} (next : ReadPoint)
    (h : derpFraming.Partway frames (returnedFrames os) (receivedOctets es) buffer) :
    ReadInvariant frames es (readLoop buffer next).1 (os ++ (readLoop buffer next).2) ∧
      ∀ e, .threw e ∉ (readLoop buffer next).2 := by
  rcases h.take hf with ⟨ht, -⟩ | ⟨f, rest, ht, hp⟩
  · have hl : readLoop buffer next = (⟨buffer, next⟩, []) := by
      rw [readLoop, show takeBufferedFrame buffer = .ok none from ht]
    rw [hl]
    exact ⟨⟨by simpa using h, fun _ => ht⟩, by simp⟩
  · have hl : readLoop buffer next = (⟨rest, .idle⟩, [.frame f]) := by
      rw [readLoop, show takeBufferedFrame buffer = .ok (some (f, rest)) from ht]
    rw [hl]
    exact ⟨⟨by simpa [returnedFrames, ReadResult.frame?] using hp, False.elim⟩, by simp⟩

/-- A step that leaves the buffer alone, returns no frame, and throws only where something is
unsound. -/
structure QuietStep (s : ReadState) (e : ReadEvent) (s' : ReadState) (os : List ReadResult) :
    Prop where
  piece : e.piece = []
  receiveBuffer : s'.receiveBuffer = s.receiveBuffer
  returned : returnedFrames os = []
  pastTake : s'.point.PastTake → s.point.PastTake
  sound : e.Sound → ∀ x, .threw x ∉ os

/-- What a step does: it goes through the top of the loop with what it has received, or is quiet. -/
theorem readStep_cases {s s' : ReadState} {e : ReadEvent} {os : List ReadResult}
    (h : readStep s e = some (s', os)) :
    (∃ next, (s', os) = readLoop (s.receiveBuffer ++ e.piece) next) ∨ QuietStep s e s' os := by
  obtain ⟨buffer, point⟩ := s
  cases point with
  | idle =>
    cases e with
    | readFrame => exact .inl ⟨_, by simpa [readStep, ReadEvent.piece] using h.symm⟩
    | readFrameFor timeout =>
      right
      simp only [readStep] at h
      split at h
      · obtain ⟨rfl, rfl⟩ := Prod.mk.inj (Option.some.inj h)
        exact ⟨rfl, rfl, rfl, id, fun hs => absurd hs (by simpa [ReadEvent.Sound])⟩
      · obtain ⟨rfl, rfl⟩ := Prod.mk.inj (Option.some.inj h)
        exact ⟨rfl, rfl, rfl, id, by simp⟩
    | _ => cases h
  | starting timeout =>
    cases e with
    | clock now => exact .inl ⟨_, by simpa [readStep, ReadEvent.piece] using h.symm⟩
    | _ => cases h
  | checking deadline =>
    cases e with
    | clock now =>
      right
      simp only [readStep] at h
      split at h <;> obtain ⟨rfl, rfl⟩ := Prod.mk.inj (Option.some.inj h)
      · exact ⟨rfl, rfl, rfl, False.elim, by simp⟩
      · exact ⟨rfl, rfl, rfl, fun _ => trivial, by simp⟩
    | _ => cases h
  | receiving deadline =>
    cases e with
    | received piece =>
      simp only [readStep] at h
      split at h
      · cases h
      split at h
      · -- No octet: the connection was closed.
        rename_i hp
        right
        obtain ⟨rfl, rfl⟩ := Prod.mk.inj (Option.some.inj h)
        exact ⟨hp, rfl, rfl, False.elim, fun hs => absurd hp hs⟩
      · exact .inl ⟨_, (Option.some.inj h).symm⟩
    | again =>
      right
      cases deadline with
      | none =>
        obtain ⟨rfl, rfl⟩ := Prod.mk.inj (Option.some.inj h)
        exact ⟨rfl, rfl, rfl, id, by simp⟩
      | some deadline =>
        obtain ⟨rfl, rfl⟩ := Prod.mk.inj (Option.some.inj h)
        exact ⟨rfl, rfl, rfl, fun _ => trivial, by simp⟩
    | failed code =>
      right
      cases deadline <;> obtain ⟨rfl, rfl⟩ := Prod.mk.inj (Option.some.inj h) <;>
        exact ⟨rfl, rfl, rfl, False.elim, False.elim⟩
    | _ => cases deadline <;> cases h
  | waiting deadline =>
    cases e with
    | clock now =>
      right
      simp only [readStep] at h
      split at h <;> obtain ⟨rfl, rfl⟩ := Prod.mk.inj (Option.some.inj h)
      · exact ⟨rfl, rfl, rfl, False.elim, by simp⟩
      · exact ⟨rfl, rfl, rfl, fun _ => trivial, by simp⟩
    | _ => cases h

/-- One step keeps the invariant, and throws only where something is unsound. -/
theorem readStep_invariant {frames : List DerpFrame} (hf : ∀ f ∈ frames, derpFraming.valid f)
    {es : List ReadEvent} {s s' : ReadState} {os os' : List ReadResult} {e : ReadEvent}
    (hI : ReadInvariant frames es s os) (h : readStep s e = some (s', os'))
    (hr : receivedOctets (es ++ [e]) <+: derpFraming.stream frames) :
    ReadInvariant frames (es ++ [e]) s' (os ++ os') ∧ (e.Sound → ∀ x, .threw x ∉ os') := by
  have he : receivedOctets (es ++ [e]) = receivedOctets es ++ e.piece := by
    simp [receivedOctets]
  rcases readStep_cases h with ⟨next, hl⟩ | hq
  · -- The loop sees the buffer with the piece that was received, if any.
    have hp := hI.partway.receive (he ▸ hr)
    rw [← he] at hp
    have := readLoop_invariant hf next hp
    rw [← hl] at this
    exact ⟨this.1, fun _ => this.2⟩
  · refine ⟨⟨?_, fun hp => ?_⟩, hq.sound⟩
    · have hret : returnedFrames (os ++ os') = returnedFrames os := by
        rw [returnedFrames, List.filterMap_append, ← returnedFrames, ← returnedFrames, hq.returned,
          List.append_nil]
      rw [he, hq.piece, List.append_nil, hret, hq.receiveBuffer]
      exact hI.partway
    · rw [hq.receiveBuffer]
      exact hI.pastTake (hq.pastTake hp)

/-- What a prefix of the stream leads to: the reader stands partway. -/
theorem read_invariant {frames : List DerpFrame} (hf : ∀ f ∈ frames, derpFraming.valid f)
    {es : List ReadEvent} {s : ReadState} {os : List ReadResult} (h : readMachine.Runs es s os)
    (hr : receivedOctets es <+: derpFraming.stream frames) :
    ReadInvariant frames es s os ∧ ((∀ e ∈ es, e.Sound) → ∀ x, .threw x ∉ os) := by
  refine h.trace_invariant (I := fun es s os =>
    receivedOctets es <+: derpFraming.stream frames →
      ReadInvariant frames es s os ∧ ((∀ e ∈ es, e.Sound) → ∀ x, .threw x ∉ os)) ?_ ?_ hr
  · exact fun _ => ⟨⟨.start, False.elim⟩, by simp⟩
  · intro es s os e s' os' _ hI hs hr
    have hp : receivedOctets es <+: derpFraming.stream frames := by
      refine (List.prefix_append _ e.piece).trans ?_
      simpa [receivedOctets] using hr
    obtain ⟨hI, ht⟩ := hI hp
    obtain ⟨hI', ht'⟩ := readStep_invariant hf hI hs hr
    refine ⟨hI', fun hso x hx => ?_⟩
    rcases List.mem_append.mp hx with hx | hx
    · exact ht (fun e he => hso e (by simp [he])) x hx
    · exact ht' (hso e (by simp)) x hx

/-! ## Taking the frames that are left -/

/-- A call made when every octet has arrived: `read_frame`, or `read_frame_for` with its timeout
and the time at which it starts. -/
inductive ReadCall
  | readFrame
  | readFrameFor (timeout now : ℤ) (h : 0 ≤ timeout)

/-- What happens first when the call is made. -/
def ReadCall.events : ReadCall → List ReadEvent
  | .readFrame => [.readFrame]
  | .readFrameFor timeout now _ => [.readFrameFor timeout, .clock now]

/-- A call returns the frame at the front of the buffer, whatever the clock says. -/
theorem ReadCall.runs_frame {es : List ReadEvent} {buffer rest : List UInt8} {os : List ReadResult}
    {f : DerpFrame} (call : ReadCall) (h : readMachine.Runs es ⟨buffer, .idle⟩ os)
    (ht : takeBufferedFrame buffer = .ok (some (f, rest))) :
    readMachine.Runs (es ++ call.events) ⟨rest, .idle⟩ (os ++ [.frame f]) := by
  have hl : ∀ next, readLoop buffer next = (⟨rest, .idle⟩, [.frame f]) := fun next => by
    rw [readLoop, ht]
  cases call with
  | readFrame => exact h.snoc (congrArg some (hl (nextPoint none)))
  | readFrameFor timeout now hn =>
    have h₁ : readMachine.Runs (es ++ [.readFrameFor timeout]) ⟨buffer, .starting timeout⟩ os := by
      have hs : readMachine.step ⟨buffer, .idle⟩ (.readFrameFor timeout) =
          some (⟨buffer, .starting timeout⟩, []) := if_neg (not_lt.mpr hn)
      simpa using h.snoc hs
    have h₂ : readMachine.step ⟨buffer, .starting timeout⟩ (.clock now) =
        some (⟨rest, .idle⟩, [.frame f]) := congrArg some (hl (nextPoint (some (now + timeout))))
    simpa [ReadCall.events] using h₁.snoc h₂

/-- Calls return the frames that are left in the buffer, one by one. -/
theorem runs_calls {left : List DerpFrame} (hf : ∀ f ∈ left, derpFraming.valid f)
    {es : List ReadEvent} {os : List ReadResult} (calls : List ReadCall)
    (h : readMachine.Runs es ⟨derpFraming.stream left, .idle⟩ os) (hl : calls.length ≤ left.length) :
    ∃ s, readMachine.Runs (es ++ calls.flatMap ReadCall.events) s
      (os ++ (left.take calls.length).map .frame) := by
  induction calls generalizing left es os with
  | nil => exact ⟨_, by simpa using h⟩
  | cons call calls ih =>
    cases left with
    | nil => simp at hl
    | cons f left =>
      rw [Framing.stream_cons] at h
      have ht := derpFraming.take_enc f (hf f (by simp)) (derpFraming.stream left)
      obtain ⟨s, hs⟩ := ih (fun g hg => hf g (by simp [hg])) (call.runs_frame h ht)
        (by simpa using hl)
      exact ⟨s, by simpa using hs⟩

theorem encodings_eq {frames : List DerpFrame} {encs : List (List UInt8)}
    (h : List.Forall₂ (fun f e => encodeDerpFrame f.type f.payload = .ok e) frames encs) :
    encs = frames.map DerpFrame.octets ∧ ∀ f ∈ frames, derpFraming.valid f := by
  induction h with
  | nil => simp
  | cons he _ ih =>
    obtain ⟨hv, rfl⟩ := encodeDerpFrame_eq_ok.mp he
    exact ⟨by rw [ih.1]; rfl, by simpa using ⟨hv, ih.2⟩⟩

/-- **Reassembly**: however the encodings of some frames are cut into pieces and whatever the
clock says, the calls return a prefix of the frames, in order, and what is left of the received
octets is in the buffer. Nothing is thrown while the connection is sound. Once every octet has
arrived, no call goes back to the network before every frame is returned, and further calls return
the frames that are left. -/
theorem read_reassembles (frames : List DerpFrame) (encs : List (List UInt8))
    (henc : List.Forall₂ (fun f e => encodeDerpFrame f.type f.payload = .ok e) frames encs)
    (es : List ReadEvent) (s : ReadState) (os : List ReadResult) (h : readMachine.Runs es s os)
    (hr : receivedOctets es <+: encs.flatten) :
    returnedFrames os <+: frames ∧
    receivedOctets es =
      (encs.take (returnedFrames os).length).flatten ++ s.receiveBuffer ∧
    ((∀ e ∈ es, e.Sound) → ∀ x, .threw x ∉ os) ∧
    (receivedOctets es = encs.flatten →
      (s.point.PastTake → returnedFrames os = frames) ∧
      (s.point = .idle → ∀ calls : List ReadCall,
        (returnedFrames os).length + calls.length ≤ frames.length →
        ∃ s', readMachine.Runs (es ++ calls.flatMap ReadCall.events) s'
          (os ++ ((frames.drop (returnedFrames os).length).take calls.length).map .frame))) := by
  obtain ⟨rfl, hf⟩ := encodings_eq henc
  have hstream : ∀ l : List DerpFrame, (l.map DerpFrame.octets).flatten = derpFraming.stream l :=
    fun _ => rfl
  rw [hstream] at hr ⊢
  obtain ⟨⟨hp, ht⟩, hthrow⟩ := read_invariant hf h hr
  obtain ⟨left, hleft⟩ := hp.returned_prefix
  have htake : frames.take (returnedFrames os).length = returnedFrames os := by
    rw [← hleft, List.take_left]
  have hdrop : frames.drop (returnedFrames os).length = left := by
    rw [← hleft, List.drop_left]
  refine ⟨hp.returned_prefix, ?_, hthrow, fun hall => ⟨fun hpast => ?_, fun hidle calls hc => ?_⟩⟩
  · rw [← List.map_take, hstream, htake]
    exact hp.received_eq
  · -- A call that went past the buffer found no frame there.
    rcases hp.take hf with ⟨-, hdone⟩ | ⟨f, rest, hs, -⟩
    · exact hdone hall
    · have := (ht hpast).symm.trans hs
      cases this
  · -- The buffer holds exactly the frames that are left.
    have hb : s.receiveBuffer = derpFraming.stream left := by
      have := hp.received_eq.symm.trans hall
      rw [← hleft, Framing.stream_append] at this
      exact List.append_cancel_left this
    obtain ⟨buffer, point⟩ := s
    obtain rfl : buffer = _ := hb
    obtain rfl : point = _ := hidle
    rw [hdrop]
    refine runs_calls (fun f hm => hf f (by simp [← hleft, hm])) calls h ?_
    rw [← hleft, List.length_append] at hc
    omega

/-- Two frames, cut within the first header and between the payload octets; the first call gives up
at its deadline. -/
theorem read_reassembles_example :
    let frames : List DerpFrame := [⟨.recvPacket, [1, 2]⟩, ⟨⟨0x06⟩, []⟩]
    let es : List ReadEvent := [.readFrameFor 10, .clock 0, .clock 1, .received [5, 0, 0],
      .clock 2, .again, .clock 12, .readFrame, .received [0, 2, 1], .again,
      .received [2, 6, 0, 0, 0, 0]]
    readMachine.Runs es ⟨[6, 0, 0, 0, 0], .idle⟩ [.nullopt, .frame ⟨.recvPacket, [1, 2]⟩] ∧
      ∃ s', readMachine.Runs (es ++ [.readFrame]) s'
        ([.nullopt, .frame ⟨.recvPacket, [1, 2]⟩] ++ (frames.drop 1).map .frame) := by
  intro frames es
  have h : readMachine.Runs es ⟨[6, 0, 0, 0, 0], .idle⟩
      [.nullopt, .frame ⟨.recvPacket, [1, 2]⟩] := by decide
  have henc : List.Forall₂ (fun f e => encodeDerpFrame f.type f.payload = .ok e) frames
      [[5, 0, 0, 0, 2, 1, 2], [6, 0, 0, 0, 0]] :=
    .cons (by decide) (.cons (by decide) .nil)
  obtain ⟨-, -, -, hall⟩ := read_reassembles frames _ henc es _ _ h (by decide)
  exact ⟨h, (hall (by decide)).2 rfl [.readFrame] (by decide)⟩

end Tailcat
