import Tailcat.Protocol.Canonical
import Tailcat.Protocol.Metered

/-!
# The parser comes to an end

However many elements an address announces, its parser takes two steps for each octet it reads at
most. Each pass through a loop that reads goes on in the octets, or throws. There is one loop that
does not read: over the nodes of a region, once they have been read. These nodes have paid for it.

## Main definitions

* `MeteredParse.Bounded run raw`: what the meter shows of a run over the octets `raw`

## Main results

* `length_le_of_decode`: a text stands for no more octets than it has characters
* `parser_terminates`: every run is bounded
-/

namespace Tailcat

/-! ## The octets of an address -/

theorem length_le_of_decodeGroups {text xs : List UInt8}
    (h : base64urlDecodeGroups text = .ok xs) : xs.length ≤ text.length := by
  -- A group of four characters gives three octets, and the last group one octet less than it has.
  induction text using base64urlDecodeGroups.induct generalizing xs with
  | case1 a b c d rest ih =>
    obtain ⟨va, -, h⟩ := Except.bind_eq_ok_iff.mp h
    obtain ⟨vb, -, h⟩ := Except.bind_eq_ok_iff.mp h
    obtain ⟨vc, -, h⟩ := Except.bind_eq_ok_iff.mp h
    obtain ⟨vd, -, h⟩ := Except.bind_eq_ok_iff.mp h
    obtain ⟨out, hout, h⟩ := Except.bind_eq_ok_iff.mp h
    obtain rfl := Except.ok.inj h
    have hrest := ih hout
    simp only [List.length_cons]
    omega
  | case2 a b c =>
    obtain ⟨va, -, h⟩ := Except.bind_eq_ok_iff.mp h
    obtain ⟨vb, -, h⟩ := Except.bind_eq_ok_iff.mp h
    obtain ⟨vc, -, h⟩ := Except.bind_eq_ok_iff.mp h
    obtain rfl := Except.ok.inj h
    simp
  | case3 a b =>
    obtain ⟨va, -, h⟩ := Except.bind_eq_ok_iff.mp h
    obtain ⟨vb, -, h⟩ := Except.bind_eq_ok_iff.mp h
    obtain rfl := Except.ok.inj h
    simp
  | case4 text h1 h2 h3 =>
    rw [base64urlDecodeGroups] at h
    · obtain rfl := Except.ok.inj h
      exact Nat.zero_le _
    · exact h1
    · exact h2
    · exact h3

/-- A text stands for no more octets than it has characters. -/
theorem length_le_of_decode {text xs : List UInt8} (h : base64urlDecode text = .ok xs) :
    xs.length ≤ text.length := by
  obtain ⟨-, -, -, hgroups⟩ := base64urlDecode_eq_ok_iff.mp h
  exact length_le_of_decodeGroups hgroups

/-! ## Runs -/

/-- A run over the octets `raw` stays within them, each pass goes on in them as its loop does, and
every octet that has been read pays for two steps. -/
structure MeteredParse.Bounded (run : MeteredParse) (raw : List UInt8) : Prop where
  data : run.cursor.data = raw
  pos : run.cursor.pos ≤ raw.length
  passes : ∀ p ∈ run.meter.passes, CborLoop.Advances raw.length p
  steps : run.meter.steps ≤ 2 * run.cursor.pos

/-- What has been spent from the first octet on. -/
theorem bounded_of_spent {raw : List UInt8} {c : CborReader} {m : Meter CborLoop} {k : ℕ} {r : ℤ}
    (h : Spent 2 CborLoop.Advances (Cursor.start raw) {} c m k r) (hr : r ≤ 0)
    (result : Except Exn ConnInfo) : MeteredParse.Bounded ⟨result, c, m⟩ raw := by
  obtain ⟨⟨n, -, hn, rfl, hsteps⟩, hpasses⟩ := h
  rw [Cursor.rest_start] at hn
  have hpos : ((Cursor.start raw).advance n).pos = n := Nat.zero_add n
  refine ⟨rfl, ?_, hpasses (by simp), ?_⟩
  · rwa [hpos]
  · have hzero : ((({} : Meter CborLoop).steps : ℕ) : ℤ) = 0 := rfl
    rw [hpos]
    rw [hzero] at hsteps
    push_cast at hsteps
    linarith

/-- The octets that are not there. -/
theorem bounded_nil (result : Except Exn ConnInfo) :
    MeteredParse.Bounded ⟨result, Cursor.start [], {}⟩ [] :=
  bounded_of_spent (.refl le_rfl) le_rfl result

/-- Every run is the parser's, over no more octets than the address has. -/
theorem exists_bounded (addr : List UInt8) :
    (meteredTailcatAddr addr).result = parseTailcatAddr addr ∧
      ∃ raw, raw.length ≤ addr.length ∧ (meteredTailcatAddr addr).Bounded raw := by
  unfold meteredTailcatAddr parseTailcatAddr
  split
  · exact ⟨rfl, [], Nat.zero_le _, bounded_nil _⟩
  rcases hdecode : base64urlDecode (addr.drop 2) with e | raw
  · exact ⟨rfl, [], Nat.zero_le _, bounded_nil _⟩
  have hlen : raw.length ≤ addr.length := by
    have h := length_le_of_decode hdecode
    rw [List.length_drop] at h
    omega
  -- The readers with a meter end as those without, having spent what they may.
  rcases hread : readInfo (Cursor.start raw) with e | ⟨s, r⟩
  · obtain ⟨halt, hq, rfl, hspent⟩ := MeteredCbor.meters_readInfo.throws {} _ e hread
    simp only [hread, hq]
    exact ⟨trivial, raw, hlen, bounded_of_spent hspent le_rfl _⟩
  · obtain ⟨m, hq, hspent⟩ := MeteredCbor.meters_readInfo.returns {} _ s r hread
    simp only [hread, hq]
    exact ⟨trivial, raw, hlen, bounded_of_spent hspent (by norm_num) _⟩

/-- **The parser comes to an end** within two steps for each octet it has read. Every pass through a
loop is one of these steps, and so is every call of `skip`. -/
theorem parser_terminates (addr : List UInt8) :
    let run := meteredTailcatAddr addr
    run.result = parseTailcatAddr addr ∧
      (∀ p ∈ run.meter.passes, CborLoop.Advances run.cursor.data.length p) ∧
      run.cursor.pos ≤ run.cursor.data.length ∧ run.meter.steps ≤ 2 * run.cursor.pos ∧
      run.cursor.data.length ≤ addr.length := by
  obtain ⟨hresult, raw, hlen, hbounded⟩ := exists_bounded addr
  obtain rfl := hbounded.data
  exact ⟨hresult, hbounded.passes, hbounded.pos, hbounded.steps, hlen⟩

/-- An address with one region of one node. -/
def nodeAddress : List UInt8 :=
  ascii "tcomFwWCABAQEBAQEBAQEBAQEBAQEBAQEBAQEBAQEBAQEBAQEBAWFygaJhaQFhToGg"

/-- The pass over this node stays where it is. -/
theorem parser_pass_stays : (meteredTailcatAddr nodeAddress).result.isOk ∧
    ¬ ∀ p ∈ (meteredTailcatAddr nodeAddress).meter.passes, p.start < p.stop := by
  decide +kernel

end Tailcat
