import Tailcat.Protocol.Types

/-!
# DERP frames

A frame is a type octet, the length of the payload in four octets and the payload. The packets of
other nodes travel in the payload of such frames, behind the key of the node at the other end.

## Main definitions

* `DerpFrame`, `encodeDerpFrame`, `decodeDerpFrame`
* `makeDerpSendPacket`, `parseDerpRecvPacket`

## Main results

* `encodeDerpFrame_eq`: the octets of a frame within the limit
-/

namespace Tailcat

/-- The type octet of a frame. Every octet is a value of the enumeration, named or not. -/
structure DerpFrameType where
  octet : UInt8
  deriving DecidableEq

namespace DerpFrameType

/-- The greeting of the server, with its key. -/
def serverKey : DerpFrameType := ⟨0x01⟩
/-- The client's key and what it says about itself. -/
def clientInfo : DerpFrameType := ⟨0x02⟩
/-- What the server says about itself. -/
def serverInfo : DerpFrameType := ⟨0x03⟩
/-- A packet for a node. -/
def sendPacket : DerpFrameType := ⟨0x04⟩
/-- A packet from a node. -/
def recvPacket : DerpFrameType := ⟨0x05⟩
/-- The server asks for a pong. -/
def ping : DerpFrameType := ⟨0x12⟩
/-- The answer to a ping, with the value of the latter. -/
def pong : DerpFrameType := ⟨0x13⟩

end DerpFrameType

/-- A frame as it is decoded. -/
structure DerpFrame where
  type : DerpFrameType
  payload : List UInt8
  deriving DecidableEq

/-- The largest payload, 10 MiB. -/
abbrev maxFrameSize : ℕ := 10 * 1024 * 1024

/-- The largest packet in a frame, 64 KiB. -/
abbrev kDerpMaxPacket : ℕ := 64 <<< 10

/-- The type, the length in four octets and the payload. -/
def encodeDerpFrame (type : DerpFrameType) (payload : List UInt8) : Except Exn (List UInt8) :=
  if payload.length > 10 * 1024 * 1024 ∨ payload.length > 2 ^ 32 - 1 then
    .error (.runtimeError "unreasonably large DERP frame")
  else
    let len := UInt32.ofNat payload.length
    .ok (type.octet :: (len >>> 24 &&& 0xff).toUInt8 :: (len >>> 16 &&& 0xff).toUInt8 ::
      (len >>> 8 &&& 0xff).toUInt8 :: (len &&& 0xff).toUInt8 :: payload)

/-- Four octets as a big-endian number. -/
def loadLength (a b c d : UInt8) : UInt32 :=
  a.toUInt32 <<< 24 ||| b.toUInt32 <<< 16 ||| c.toUInt32 <<< 8 ||| d.toUInt32

/-- The frame that a text is, whose length must be the announced one. -/
def decodeDerpFrame (frame : List UInt8) : Except Exn DerpFrame :=
  match frame with
  | type :: a :: b :: c :: d :: payload =>
    if frame.length ≠ 5 + (loadLength a b c d).toNat then
      .error (.runtimeError "DERP frame length mismatch")
    else
      .ok ⟨⟨type⟩, payload⟩
  | _ => .error (.runtimeError "short DERP frame header")

/-- The payload of a frame with a packet: the destination, and the packet. -/
def makeDerpSendPacket (destination : Key32) (packet : List UInt8) : Except Exn (List UInt8) :=
  if packet.length > kDerpMaxPacket then
    .error (.runtimeError "DERP packet exceeds 64 KiB")
  else
    .ok (destination.toList ++ packet)

/-- The source and the packet of a payload, unless it is refused. -/
def parseDerpRecvPacket (payload : List UInt8) : Option (Key32 × List UInt8) :=
  if h : payload.length < 32 then
    none
  else
    let source := Octets.ofTake 32 payload (by omega)
    let packet := payload.drop 32
    if packet.length ≤ kDerpMaxPacket then some (source, packet) else none

/-! ## Encodings -/

theorem toNat_loadLength (a b c d : UInt8) :
    (loadLength a b c d).toNat = beNat [a, b, c, d] := by
  have ha := a.toNat_lt
  have hb := b.toNat_lt
  have hc := c.toNat_lt
  have hd := d.toNat_lt
  -- The octets do not overlap, so that `|` adds them.
  have hab : a.toNat * 2 ^ 24 ||| b.toNat * 2 ^ 16 = a.toNat * 2 ^ 24 + b.toNat * 2 ^ 16 :=
    Nat.or_eq_add_of_dvd 24 ⟨a.toNat, by ring⟩ (by omega)
  have habc : a.toNat * 2 ^ 24 + b.toNat * 2 ^ 16 ||| c.toNat * 2 ^ 8 =
      a.toNat * 2 ^ 24 + b.toNat * 2 ^ 16 + c.toNat * 2 ^ 8 :=
    Nat.or_eq_add_of_dvd 16 ⟨a.toNat * 2 ^ 8 + b.toNat, by ring⟩ (by omega)
  rw [loadLength, UInt32.toNat_or, UInt32.toNat_or, UInt32.toNat_or,
    a.toNat_toUInt32_shiftLeft 24 24 rfl (by decide) (by omega),
    b.toNat_toUInt32_shiftLeft 16 16 rfl (by decide) (by omega),
    c.toNat_toUInt32_shiftLeft 8 8 rfl (by decide) (by omega), UInt8.toNat_toUInt32, hab, habc,
    Nat.or_eq_add_of_dvd 8 ⟨a.toNat * 2 ^ 16 + b.toNat * 2 ^ 8 + c.toNat, by ring⟩ hd]
  simp only [beNat, List.foldl_cons, List.foldl_nil]
  ring

/-- The octets of a frame. -/
def DerpFrame.octets (f : DerpFrame) : List UInt8 :=
  f.type.octet :: beBytes 4 f.payload.length ++ f.payload

theorem encodeDerpFrame_eq_ok {f : DerpFrame} {e : List UInt8} :
    encodeDerpFrame f.type f.payload = .ok e ↔
      f.payload.length ≤ maxFrameSize ∧ e = f.octets := by
  rw [encodeDerpFrame]
  by_cases h : f.payload.length ≤ 10 * 1024 * 1024
  · have hlen : (UInt32.ofNat f.payload.length).toNat = f.payload.length := by
      rw [UInt32.toNat_ofNat', Nat.mod_eq_of_lt (by omega)]
    rw [if_neg (by omega), Except.ok.injEq, UInt32.toUInt8_shiftRight _ 24 24 rfl (by decide),
      UInt32.toUInt8_shiftRight _ 16 16 rfl (by decide),
      UInt32.toUInt8_shiftRight _ 8 8 rfl (by decide), UInt32.toUInt8_and_255, hlen]
    simp [DerpFrame.octets, beBytes, h, eq_comm]
  · rw [if_pos (by omega)]
    simp [h]

/-- A payload that starts with a key. -/
theorem parseDerpRecvPacket_append (source : Key32) (packet : List UInt8) :
    parseDerpRecvPacket (source.toList ++ packet) =
      if packet.length ≤ kDerpMaxPacket then some (source, packet) else none := by
  have hsource : source.toList.length = 32 := List.Vector.toList_length source
  have hlong : ¬ (source.toList ++ packet).length < 32 := by
    rw [List.length_append, hsource]
    omega
  unfold parseDerpRecvPacket
  rw [dif_neg hlong]
  simp only [Octets.ofTake_toList_append, List.drop_left' hsource]

/-- A packet that is accepted is no longer than a relay may deliver. -/
theorem length_le_of_parse {payload packet : List UInt8} {source : Key32}
    (h : parseDerpRecvPacket payload = some (source, packet)) : packet.length ≤ kDerpMaxPacket := by
  unfold parseDerpRecvPacket at h
  split at h
  · cases h
  · dsimp only at h
    split_ifs at h with hle
    obtain ⟨-, rfl⟩ := Prod.mk.inj (Option.some.inj h)
    exact hle

end Tailcat
