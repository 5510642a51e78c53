import Tailcat.Protocol.Items
import Tailcat.Protocol.Metered

/-!
# Skipping one item

`skip` knows the length of an item without looking at what it says. It returns just where an item
starts, and stops behind that item. Where none starts it throws, and even then the position is
within the octets.

## Main results

* `accepts_head`: what `head` returns on is a head
* `accepts_skip`: what `skip` returns on is an item
* `Item.eq_of_prefix`: one item at most starts at a position
* `skip_eq_ok_iff`, `skip_exactly_one`: where `skip` returns, and where it stops
-/

namespace Tailcat

open Reader CborReader

/-! ## Heads -/

theorem accepts_octet : Accepts octet fun b bs => bs = [b] := by
  intro c b d h
  rcases hc : c.rest with - | ⟨b', post⟩
  · cases (octet_nil hc).symm.trans h
  · obtain ⟨rfl, rfl⟩ := Prod.mk.inj (Except.ok.inj ((octet_cons hc).symm.trans h))
    exact ⟨[b'], post, rfl, rfl, rfl⟩

theorem accepts_uint (n : ℕ) :
    Accepts (uint n) fun v bs => bs.length = n ∧ v = bs.foldl shiftIn 0 := by
  intro c v d h
  rw [uint_apply] at h
  split at h
  · cases h
  · rename_i hn
    obtain ⟨rfl, rfl⟩ := Prod.mk.inj (Except.ok.inj h)
    have hlen : (c.rest.take n).length = n := List.length_take_of_le (Nat.not_lt.mp hn)
    exact ⟨c.rest.take n, c.rest.drop n, (List.take_append_drop _ _).symm, by rw [hlen], hlen, rfl⟩

/-- Every octet is the first octet of a head, as far as its two parts go. -/
theorem firstOctet_parts (b : UInt8) : b >>> 5 < 8 ∧ b >>> 5 <<< 5 ||| b &&& 31 = b :=
  UInt8.forall_of_ofNat (P := fun b => b >>> 5 < 8 ∧ b >>> 5 <<< 5 ||| b &&& 31 = b)
    (by decide +kernel) b

/-- The additional information that announces octets. -/
theorem valueWidth_mem {ai : UInt8} (h : valueWidth ai ≠ 0) :
    (ai, valueWidth ai) ∈ [((24 : UInt8), 1), (25, 2), (26, 4), (27, 8)] := by
  unfold valueWidth at h ⊢
  split_ifs at h ⊢ with h1 h2 h3 h4
  · simp [h1]
  · simp [h2]
  · simp [h3]
  · simp [h4]
  · exact absurd rfl h

/-- Any octets are the value of a head, when there are as many as it announces. -/
theorem IsHead.of_octets {major ai : UInt8} {bs : List UInt8}
    (h : (ai, bs.length) ∈ [((24 : UInt8), 1), (25, 2), (26, 4), (27, 8)]) :
    IsHead major (bs.foldl shiftIn 0) ((major <<< 5 ||| ai) :: bs) := by
  have hlen : bs.length ≤ 8 := by
    simp only [List.mem_cons, Prod.mk.injEq, List.not_mem_nil, or_false] at h
    omega
  have hval := toNat_foldl_shiftIn hlen
  have hfollow : IsHead major (bs.foldl shiftIn 0)
      ((major <<< 5 ||| ai) :: beBytes bs.length (bs.foldl shiftIn 0).toNat) :=
    .following h (hval ▸ beNat_lt bs)
  rwa [hval, beBytes_beNat] at hfollow

/-- **Heads**: `head` accepts nothing else. -/
theorem accepts_head : Accepts head fun x bs => x.1 < 8 ∧ IsHead x.1 x.2 bs := by
  refine accepts_octet.bind fun first xs hxs => ?_
  subst hxs
  obtain ⟨hmajor, hparts⟩ := firstOctet_parts first
  simp only [Reader.fail_bind]
  -- The value is in the first octet, or the head is refused, or the value follows.
  refine .ite (fun hai => .pure ⟨hmajor, ?_⟩) fun _ => .ite (fun _ => .fail _ _) fun _ =>
    .ite (fun _ => .fail _ _) fun hwidth => ?_
  · have h : IsHead (first >>> 5) _ _ := .immediate hai
    rwa [hparts] at h
  · refine (accepts_uint _).bind fun value bs ⟨hlen, hvalue⟩ => .pure ⟨hmajor, ?_⟩
    have hmem := valueWidth_mem hwidth
    rw [← hlen] at hmem
    have h : IsHead (first >>> 5) _ _ := .of_octets hmem
    rw [hparts] at h
    simpa [hvalue] using h

/-! ## Items -/

theorem accepts_skipString (n : UInt64) :
    Accepts (do requireLen n; Reader.move n.toNat) fun _ bs => bs.length = n.toNat := by
  intro c u d h
  rw [requireLen_bind] at h
  split at h
  · cases h
  · rename_i hn
    obtain ⟨-, rfl⟩ := Prod.mk.inj (Except.ok.inj h)
    have hlen : (c.rest.take n.toNat).length = n.toNat :=
      List.length_take_of_le (Nat.not_lt.mp hn)
    exact ⟨c.rest.take n.toNat, c.rest.drop n.toNat, (List.take_append_drop _ _).symm,
      by rw [hlen], hlen⟩

/-- **One item**, when the calls inside accept items. -/
theorem accepts_skipItem {self : CborM Unit} (hself : Accepts self fun _ bs => Item bs) :
    Accepts (skipItem self) fun _ bs => Item bs := by
  -- One case for each kind of item, as `skip` looks for their major types.
  refine accepts_head.bind fun ⟨major, value⟩ h ⟨_, hh⟩ => ?_
  refine .ite (fun hm => ?scalar) fun _ => .ite (fun hm => ?string) fun _ =>
    .ite (fun hm => ?array) fun _ => .ite (fun hm => ?map) fun _ => .ite (fun hm => ?tag) fun _ =>
    .fail _ _
  case scalar =>
    refine .pure ?_
    rw [List.append_nil]
    exact .scalar hm hh
  case string => exact (accepts_skipString value).mono fun _ s hs => .string hm hh hs
  case array =>
    obtain rfl : major = 4 := hm
    have hbody : Accepts self fun _ bs => ∃ x, Item x ∧ bs = id x :=
      hself.mono fun _ x hx => ⟨x, hx, rfl⟩
    refine (Accepts.times (fun _ => hbody) value.toNat ()).mono ?_
    rintro _ bs ⟨items, hn, hi, rfl⟩
    rw [List.flatMap_id]
    exact .array hh hn hi
  case map =>
    obtain rfl : major = 5 := hm
    have hbody : Accepts (do self; self) fun _ bs =>
        ∃ e : List UInt8 × List UInt8, (Item e.1 ∧ Item e.2) ∧ bs = e.1 ++ e.2 :=
      hself.bind fun _ k hk => hself.mono fun _ v hv => ⟨(k, v), ⟨hk, hv⟩, rfl⟩
    refine (Accepts.times (fun _ => hbody) value.toNat ()).mono ?_
    rintro _ bs ⟨entries, hn, he, rfl⟩
    exact .map hh hn (fun e hm => (he e hm).1) fun e hm => (he e hm).2
  case tag =>
    obtain rfl : major = 6 := hm
    exact hself.mono fun _ x hx => .tag hh hx

theorem accepts_skipWithin (depth : ℕ) : Accepts (skipWithin depth) fun _ bs => Item bs := by
  induction depth with
  | zero => exact .fail _ _
  | succ depth ih => exact accepts_skipItem ih

/-- **Nothing but an item** is skipped. -/
theorem accepts_skip : Accepts skip fun _ bs => Item bs :=
  fun c => accepts_skipWithin c.rest.length c

/-! ## Where `skip` stops -/

/-- `skip` returns where an item starts, and stops behind it. -/
theorem skip_eq_ok_iff {c d : CborReader} : skip c = .ok ((), d) ↔
    ∃ item, Item item ∧ item <+: c.rest ∧ d = c.advance item.length := by
  constructor
  · intro h
    obtain ⟨item, post, hrest, hd, hitem⟩ := accepts_skip c () d h
    exact ⟨item, hitem, ⟨post, hrest.symm⟩, hd⟩
  · rintro ⟨item, hitem, ⟨post, hpost⟩, rfl⟩
    exact reads_skip hitem c post hpost.symm

/-- No item is the start of another one. -/
theorem Item.eq_of_prefix {x y bs : List UInt8} (hx : Item x) (hy : Item y) (hxb : x <+: bs)
    (hyb : y <+: bs) : x = y := by
  -- `skip` returns once only, behind either of them.
  have hskip : ∀ {z}, Item z → z <+: bs → skip (Cursor.start bs) =
      .ok ((), (Cursor.start bs).advance z.length) := fun hz hzb =>
    skip_eq_ok_iff.mpr ⟨_, hz, hzb, rfl⟩
  have hend := (hskip hx hxb).symm.trans (hskip hy hyb)
  have hlen : x.length = y.length := by
    simpa [Cursor.advance, Cursor.start] using hend
  rw [List.prefix_iff_eq_take.mp hxb, List.prefix_iff_eq_take.mp hyb, hlen]

/-- **Exactly one item**: from any position within the octets, `skip` returns just where an item
starts and stops at its end, and otherwise throws. Neither leaves the octets. -/
theorem skip_exactly_one (data : List UInt8) (pos : ℕ) (hpos : pos ≤ data.length) :
    (∀ d, skip ⟨data, pos⟩ = .ok ((), d) ↔
      ∃ item, Item item ∧ item <+: data.drop pos ∧ d = ⟨data, pos + item.length⟩) ∧
    ((∀ item, Item item → ¬ item <+: data.drop pos) ↔ ∃ e, skip ⟨data, pos⟩ = .error e) ∧
    match MeteredCbor.skip {} ⟨data, pos⟩ with
    | .ok (_, d) => skip ⟨data, pos⟩ = .ok ((), d) ∧ d.pos ≤ data.length
    | .error halt => skip ⟨data, pos⟩ = .error halt.thrown ∧ halt.cursor.data = data ∧
        halt.cursor.pos ≤ data.length := by
  refine ⟨fun d => skip_eq_ok_iff, ?_, ?_⟩
  · -- Where `skip` does not return it throws.
    constructor
    · intro hno
      rcases h : skip ⟨data, pos⟩ with e | ⟨⟨⟩, d⟩
      · exact ⟨e, rfl⟩
      · obtain ⟨item, hitem, hstart, -⟩ := skip_eq_ok_iff.mp h
        exact absurd hstart (hno item hitem)
    · rintro ⟨e, he⟩ item hitem hstart
      cases he.symm.trans (skip_eq_ok_iff.mpr ⟨item, hitem, hstart, rfl⟩)
  · -- With a meter it does the same, and has moved within what was left.
    have hrest : (⟨data, pos⟩ : CborReader).rest.length = data.length - pos := Cursor.length_rest _
    rcases h : skip ⟨data, pos⟩ with e | ⟨⟨⟩, d⟩
    · obtain ⟨halt, hq, rfl, ⟨n, -, hn, hcursor, -⟩, -⟩ :=
        MeteredCbor.meters_skip.throws {} _ e h
      have hend : pos + n ≤ data.length := by omega
      rw [hq]
      refine ⟨rfl, ?_, ?_⟩
      · rw [hcursor, Cursor.data_advance]
      · rwa [hcursor]
    · obtain ⟨m, hq, ⟨n, -, hn, rfl, -⟩, -⟩ := MeteredCbor.meters_skip.returns {} _ () d h
      have hend : pos + n ≤ data.length := by omega
      rw [hq]
      exact ⟨rfl, hend⟩

/-- An array of an integer and of a string, between two simple values. -/
theorem skip_exactly_one_example : ∃ item, Item item ∧
    item <+: List.drop 1 [0xf6, 0x82, 0x00, 0x41, 0xff, 0xf6] ∧ item.length = 4 := by
  obtain ⟨hreturns, -⟩ := skip_exactly_one [0xf6, 0x82, 0x00, 0x41, 0xff, 0xf6] 1 (by decide)
  obtain ⟨item, hitem, hstart, hend⟩ :=
    (hreturns ⟨[0xf6, 0x82, 0x00, 0x41, 0xff, 0xf6], 5⟩).mp (by decide +kernel)
  have hpos : 5 = 1 + item.length := congrArg Cursor.pos hend
  exact ⟨item, hitem, hstart, by omega⟩

end Tailcat
