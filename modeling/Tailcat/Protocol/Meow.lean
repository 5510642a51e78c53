import Tailcat.Protocol.Types

/-!
# MEOW packets

A client announces itself with a MEOW ping, which carries its node key and its disco key, and the
server answers with MEOWED. Both start with the same four octets; the octet after them tells them
apart.

## Main definitions

* `encodeMeowPing`, `encodeMeowed`
* `isMeowPacket`, `isMeowedPacket`, `parseMeowPing`

## Main results

* `parseMeowPing_encode`: a ping is read back, unless its disco key is zero
* `parseMeowPing_embedded`: the node key in a ping makes no difference but to itself
-/

namespace Tailcat

/-- The octets of "meow". -/
def meow : List UInt8 := [0x6d, 0x65, 0x6f, 0x77]

/-- The announcement of a client, with its two public keys. -/
def encodeMeowPing (nodePublic discoPublic : Key32) : List UInt8 :=
  meow ++ [0x01] ++ nodePublic.toList ++ discoPublic.toList

/-- The answer to an announcement. -/
def encodeMeowed : List UInt8 := meow ++ [0x02]

/-- Whether a packet belongs to the announcements. -/
def isMeowPacket (packet : List UInt8) : Bool :=
  packet.length ≥ 4 && packet.take 4 == meow

/-- Whether a packet answers an announcement. -/
def isMeowedPacket (packet : List UInt8) : Bool :=
  packet.length ≥ 5 && isMeowPacket packet && packet.getD 4 0 == 0x02

/-- The node key and the disco key of a ping; a zero disco key is refused. -/
def parseMeowPing (packet : List UInt8) : Option (Key32 × Key32) :=
  if h : packet.length < 69 ∨ ¬ isMeowPacket packet ∨ packet.getD 4 0 ≠ 0x01 then
    none
  else
    let nodePublic := Octets.ofTake 32 (packet.drop 5) (by simp only [List.length_drop]; omega)
    let discoPublic := Octets.ofTake 32 (packet.drop 37) (by simp only [List.length_drop]; omega)
    if discoPublic.allZero then none else some (nodePublic, discoPublic)

/-- What a packet announces that starts like a ping. -/
theorem parseMeowPing_append (node disco : Key32) (rest : List UInt8) :
    parseMeowPing (encodeMeowPing node disco ++ rest) =
      if disco.allZero then none else some (node, disco) := by
  have hnode : node.toList.length = 32 := List.Vector.toList_length node
  have hdisco : disco.toList.length = 32 := List.Vector.toList_length disco
  have hmeow : isMeowPacket (encodeMeowPing node disco ++ rest) = true := by
    simp [isMeowPacket, encodeMeowPing, meow]
  -- The node key starts behind the five octets of the head, the other key behind it.
  have hdrop5 : (encodeMeowPing node disco ++ rest).drop 5 =
      node.toList ++ (disco.toList ++ rest) := by
    simp [encodeMeowPing, meow]
  have hdrop37 : (encodeMeowPing node disco ++ rest).drop 37 = disco.toList ++ rest := by
    rw [show 37 = 5 + 32 from rfl, ← List.drop_drop, hdrop5, List.drop_left' hnode]
  have hlength : 69 ≤ (encodeMeowPing node disco ++ rest).length := by
    simp only [encodeMeowPing, meow, List.length_append, List.length_cons, List.length_nil, hnode,
      hdisco]
    omega
  have hcheck : ¬ ((encodeMeowPing node disco ++ rest).length < 69 ∨
      ¬ isMeowPacket (encodeMeowPing node disco ++ rest) ∨
      (encodeMeowPing node disco ++ rest).getD 4 0 ≠ 0x01) := by
    rintro (h | h | h)
    · omega
    · exact h hmeow
    · exact h rfl
  unfold parseMeowPing
  rw [dif_neg hcheck]
  simp only [hdrop5, hdrop37, Octets.ofTake_toList_append]

/-- A ping is read back. -/
theorem parseMeowPing_encode (node disco : Key32) (h : disco.allZero = false) :
    parseMeowPing (encodeMeowPing node disco) = some (node, disco) := by
  have he := parseMeowPing_append node disco []
  rwa [List.append_nil, h, if_neg Bool.false_ne_true] at he

/-- A ping is no answer. -/
theorem isMeowedPacket_ping (node : Key32) (rest : List UInt8) :
    isMeowedPacket (meow ++ [0x01] ++ node.toList ++ rest) = false := by
  simp [isMeowedPacket, meow]

theorem isMeowPacket_ping (node : Key32) (rest : List UInt8) :
    isMeowPacket (meow ++ [0x01] ++ node.toList ++ rest) = true := by
  simp [isMeowPacket, meow]

/-- A packet of a ping is no answer to one. -/
theorem isMeowedPacket_of_parse {packet : List UInt8} {x : Key32 × Key32}
    (h : parseMeowPing packet = some x) :
    isMeowPacket packet = true ∧ isMeowedPacket packet = false := by
  unfold parseMeowPing at h
  split at h
  · cases h
  · rename_i hc
    rw [not_or, not_or, not_not, not_not] at hc
    obtain ⟨-, hmeow, hping⟩ := hc
    refine ⟨hmeow, ?_⟩
    unfold isMeowedPacket
    rw [hping]
    exact Bool.and_eq_false_iff.mpr (.inr rfl)

/-- The disco key of a packet does not depend on its node key. -/
theorem parseMeowPing_embedded (node node' : Key32) (rest : List UInt8) :
    (parseMeowPing (meow ++ [0x01] ++ node.toList ++ rest)).map Prod.snd =
      (parseMeowPing (meow ++ [0x01] ++ node'.toList ++ rest)).map Prod.snd := by
  by_cases h : 32 ≤ rest.length
  · -- A complete ping: what is behind the node key are the disco key and more.
    obtain ⟨disco, more, rfl⟩ : ∃ disco : Key32, ∃ more, rest = disco.toList ++ more :=
      ⟨Octets.ofTake 32 rest h, rest.drop 32, by
        rw [Octets.toList_ofTake, List.take_append_drop]⟩
    have hp := fun node => parseMeowPing_append node disco more
    unfold encodeMeowPing at hp
    rw [← List.append_assoc, ← List.append_assoc, hp, hp]
    split <;> rfl
  · have hshort : ∀ node : Key32, parseMeowPing (meow ++ [0x01] ++ node.toList ++ rest) = none := by
      intro node
      refine dif_pos (Or.inl ?_)
      have hnode : node.toList.length = 32 := List.Vector.toList_length node
      simp only [meow, List.length_append, List.length_cons, List.length_nil, hnode]
      omega
    rw [hshort, hshort]

end Tailcat
