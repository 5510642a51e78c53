import Tailcat.Derp.Http

/-!
# The format of DERP frames

A frame is written by `encode_derp_frame`, and read by `decode_derp_frame`, which has it whole, or
by `take_buffered_frame`, which finds it at the front of a buffer. Writing and taking have a limit
of 10 MiB, and decoding has none, so that the three have one format up to this limit.

## Main definitions

* `OneFormat`: the three functions agree on an octet string
* `BeyondLimit`: an octet string is laid out as a frame whose payload is too large

## Main results

* `decodeDerpFrame_eq_ok`, `takeBufferedFrame_eq_all`: what is decoded, and what is taken whole
* `one_format_iff`: the octet strings that the three functions agree on
-/

namespace Tailcat

/-- The three functions agree on an octet string: it is decoded just if it is the encoding of what
is decoded, and just if the same frame is taken off a buffer with nothing left behind it. -/
structure OneFormat (b : List UInt8) : Prop where
  encodes_iff : ∀ f, decodeDerpFrame b = .ok f ↔ encodeDerpFrame f.type f.payload = .ok b
  takes_iff : ∀ f, decodeDerpFrame b = .ok f ↔ takeBufferedFrame b = .ok (some (f, []))

/-- An octet string is laid out as a frame with more than 10 MiB of payload. -/
def BeyondLimit (b : List UInt8) : Prop :=
  ∃ f : DerpFrame, b = f.octets ∧ maxFrameSize < f.payload.length ∧ f.payload.length < 2 ^ 32

/-- A header and the payload that it announces are the octets of a frame. -/
theorem octets_of_announced {type a b c d : UInt8} {payload : List UInt8}
    (h : payload.length = (loadLength a b c d).toNat) :
    type :: a :: b :: c :: d :: payload = DerpFrame.octets ⟨⟨type⟩, payload⟩ := by
  have hbytes : beBytes 4 payload.length = [a, b, c, d] := by
    rw [h, toNat_loadLength]
    exact beBytes_beNat [a, b, c, d]
  rw [DerpFrame.octets, hbytes]
  rfl

/-- **What is decoded**: the octets of a frame whose length fits its field. -/
theorem decodeDerpFrame_eq_ok {b : List UInt8} {f : DerpFrame} :
    decodeDerpFrame b = .ok f ↔ b = f.octets ∧ f.payload.length < 2 ^ 32 := by
  constructor
  · intro h
    unfold decodeDerpFrame at h
    split at h
    · rename_i type b₁ b₂ b₃ b₄ payload
      split_ifs at h with hlength
      obtain rfl := Except.ok.inj h
      simp only [List.length_cons] at hlength
      have hpayload : payload.length = (loadLength b₁ b₂ b₃ b₄).toNat := by omega
      exact ⟨octets_of_announced hpayload, hpayload ▸ (loadLength b₁ b₂ b₃ b₄).toNat_lt⟩
    · cases h
  · rintro ⟨rfl, hlt⟩
    obtain ⟨b₁, b₂, b₃, b₄, hb⟩ : ∃ b₁ b₂ b₃ b₄, beBytes 4 f.payload.length = [b₁, b₂, b₃, b₄] :=
      ⟨_, _, _, _, rfl⟩
    have hlength : (loadLength b₁ b₂ b₃ b₄).toNat = f.payload.length := by
      rw [toNat_loadLength, ← hb, beNat_beBytes_of_lt hlt]
    rw [DerpFrame.octets, hb]
    simp only [decodeDerpFrame, List.cons_append, List.nil_append, List.length_cons, hlength]
    rw [if_neg (by omega)]

/-- **What is taken whole**: the octets of a frame within the limit. -/
theorem takeBufferedFrame_eq_all {b : List UInt8} {f : DerpFrame} :
    takeBufferedFrame b = .ok (some (f, [])) ↔ b = f.octets ∧ f.payload.length ≤ maxFrameSize := by
  constructor
  · intro h
    unfold takeBufferedFrame at h
    split at h
    · rename_i type b₁ b₂ b₃ b₄ tail
      dsimp only at h
      split_ifs at h with hlarge hoverflow hshort
      · cases h
      · obtain ⟨rfl, hrest⟩ := Prod.mk.inj (Option.some.inj (Except.ok.inj h))
        rw [List.drop_eq_nil_iff] at hrest
        simp only [List.length_cons] at hshort hrest
        have htail : tail.length = (loadLength b₁ b₂ b₃ b₄).toNat := by omega
        have hpayload : (type :: b₁ :: b₂ :: b₃ :: b₄ :: tail).drop 5 = tail := rfl
        rw [hpayload, List.take_of_length_le htail.le]
        refine ⟨octets_of_announced htail, ?_⟩
        rw [htail]
        exact UInt32.le_iff_toNat_le.mp (UInt32.not_lt.mp hlarge)
    · cases h
  · rintro ⟨rfl, hle⟩
    rw [DerpFrame.octets, takeBufferedFrame_header f.type hle, if_neg (lt_irrefl _),
      List.take_length, List.drop_length]

/-- **One format up to the limit**: the three functions agree on an octet string just if it is not
laid out as a frame with more than 10 MiB of payload. -/
theorem one_format_iff (b : List UInt8) : OneFormat b ↔ ¬ BeyondLimit b := by
  constructor
  · rintro ⟨hencodes, -⟩ ⟨f, hb, hlarge, hlt⟩
    have hencoded := (hencodes f).mp (decodeDerpFrame_eq_ok.mpr ⟨hb, hlt⟩)
    exact absurd (encodeDerpFrame_eq_ok.mp hencoded).1 (not_le.mpr hlarge)
  · intro hwithin
    -- Within the limit every one of the three says that the octets are those of the frame.
    have hlimit : ∀ f : DerpFrame,
        b = f.octets ∧ f.payload.length < 2 ^ 32 ↔ b = f.octets ∧ f.payload.length ≤ maxFrameSize := by
      intro f
      apply and_congr_right
      intro hb
      constructor
      · intro hlt
        by_contra hlarge
        exact hwithin ⟨f, hb, not_le.mp hlarge, hlt⟩
      · intro hle
        exact hle.trans_lt (by decide)
    refine ⟨fun f => ?_, fun f => ?_⟩
    · rw [decodeDerpFrame_eq_ok, encodeDerpFrame_eq_ok, hlimit, and_comm]
    · rw [decodeDerpFrame_eq_ok, takeBufferedFrame_eq_all, hlimit]

/-- A frame with one octet more than 10 MiB is decoded, and cannot be encoded. -/
theorem one_format_beyond :
    ¬ OneFormat (DerpFrame.octets ⟨.recvPacket, List.replicate (10 * 1024 * 1024 + 1) 0⟩) := by
  generalize hf : (⟨.recvPacket, List.replicate (10 * 1024 * 1024 + 1) 0⟩ : DerpFrame) = f
  have hlength : f.payload.length = 10 * 1024 * 1024 + 1 := by
    rw [← hf]
    exact List.length_replicate
  rintro ⟨hencodes, -⟩
  have hdecoded : decodeDerpFrame f.octets = .ok f :=
    decodeDerpFrame_eq_ok.mpr ⟨rfl, by omega⟩
  have hle := (encodeDerpFrame_eq_ok.mp ((hencodes f).mp hdecoded)).1
  rw [hlength] at hle
  exact absurd hle (by decide)

end Tailcat
