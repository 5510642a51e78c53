import Tailcat.Base.Machine
import Tailcat.Base.Wire
import Tailcat.Derp.Transport

/-!
# Writing frames to a DERP server

The writing half of the DERP client: a call encodes its frame and hands it to `curl_easy_send` until
all of it is accepted, or throws when that fails. How much of the frame was accepted before is known
to the call only, and the client stays connected: a later call starts with the front of its own
frame, wherever the frame before was broken off.

## Main definitions

* `DerpSend.encoding`: the frame of a call
* `sendMachine`: the calls, and the outcomes of `curl_easy_send`
* `SendEvent.FailsAtFront`: nothing fails in the middle of a frame
* `SendEvent.Unbroken`: nothing is accepted behind a frame that was broken off

## Main results

* `frames_whole`: what is on the connection while nothing fails in the middle of a frame
* `send_frames_iff`: which outcomes leave the frames on the connection intact
-/

namespace Tailcat

/-! ## The calls -/

/-- The octets that `send_packet` and `send_pong` write. -/
def DerpSend.encoding : DerpSend → Except Exn (List UInt8)
  | .packet destination contents => do
    encodeDerpFrame .sendPacket (← makeDerpSendPacket destination contents)
  | .pong value => encodeDerpFrame .pong value.toList

/-- Where a call stands. -/
inductive SendPoint
  /-- No call is under way. -/
  | idle
  /-- `send_all` is in `curl_easy_send`, and `sent` octets of the frame were accepted before. -/
  | sending (frame : List UInt8) (sent : ℕ)
  deriving DecidableEq

/-- The client, and what it has put on the connection, the last frame first. The client does not
look at the latter. -/
structure Sender where
  isConnected : Bool := true
  point : SendPoint := .idle
  calls : List (Attempt UInt8) := []

/-- The calls and the outcomes of `curl_easy_send`, of which `accepted` is `CURLE_OK`. -/
inductive SendEvent
  | call (sent : DerpSend)
  | accepted (n : ℕ)
  | again
  | failed (code : String)
  deriving DecidableEq

/-- The top of the loop of `send_all`. -/
def sendLoop (frame : List UInt8) (sent : ℕ) : SendPoint × List (Except Exn Unit) :=
  if sent < frame.length then (.sending frame sent, []) else (.idle, [.ok ()])

/-- A call, or an outcome of `curl_easy_send` while a frame is under way. -/
def sendStep (s : Sender) (e : SendEvent) : Option (Sender × List (Except Exn Unit)) :=
  match s.point, e with
  | .idle, .call sent =>
    if ¬ s.isConnected then
      some (s, [.error (.runtimeError "DERP client is not connected")])
    else
      match sent.encoding with
      | .error x => some (s, [.error x])
      | .ok frame =>
        let (point, results) := sendLoop frame 0
        some ({ s with point, calls := .start frame :: s.calls }, results)
  | .sending _ _, .again => some (s, [])
  | .sending _ _, .failed code =>
    some ({ s with point := .idle }, [.error (.runtimeError ("DERP TLS send failed: " ++ code))])
  | .sending frame sent, .accepted n =>
    if h : sent + n ≤ frame.length then
      if n = 0 then
        some ({ s with point := .idle },
          [.error (.runtimeError "DERP TLS connection closed while writing")])
      else
        let (point, results) := sendLoop frame (sent + n)
        some ({ s with point, calls := ⟨frame, sent + n, h⟩ :: s.calls.tail }, results)
    else
      none
  | _, _ => none

/-- The writing half of a connected client. -/
def sendMachine : Machine Sender SendEvent (Except Exn Unit) := ⟨{}, sendStep⟩

/-! ## Runs -/

/-- The frame of a call, when it has one. -/
def SendEvent.frame : SendEvent → Option (List UInt8)
  | .call sent => sent.encoding.toOption
  | _ => none

/-- The frames of the calls, in order. -/
def encodings (es : List SendEvent) : List (List UInt8) := es.filterMap SendEvent.frame

theorem encodings_snoc (es : List SendEvent) (e : SendEvent) :
    encodings (es ++ [e]) = encodings es ++ e.frame.toList := by
  rw [encodings, List.filterMap_append, ← encodings]
  cases h : e.frame <;> simp [h]

/-- What the client knows of the connection, after the events `es`: the frame under way is the last
one, and as much of it is on the connection as the call counts. -/
structure Sender.Counts (es : List SendEvent) (s : Sender) : Prop where
  isConnected : s.isConnected = true
  items : Attempt.items s.calls = encodings es
  sending : ∀ frame sent, s.point = .sending frame sent →
    ∃ h before, s.calls = ⟨frame, sent, h⟩ :: before

/-- What a step can do to the connection. -/
inductive SendTaken (s : Sender) (e : SendEvent) (s' : Sender) : Prop
  /-- A call is refused, or the connection is not ready. -/
  | kept (frame : e.frame = none) (accepted : ∀ n, e ≠ .accepted n) (eq : s' = s)
  /-- The call ends with an error. -/
  | stopped (frame : List UInt8) (sent : ℕ) (point : s.point = .sending frame sent)
      (outcome : e = .accepted 0 ∨ ∃ code, e = .failed code) (eq : s' = { s with point := .idle })
  /-- A call starts with its frame. -/
  | started (item : List UInt8) (frame : e.frame = some item) (point : s.point = .idle)
      (calls : s'.calls = .start item :: s.calls)
  /-- More of the frame under way is put on it, perhaps all of it. -/
  | wrote (n : ℕ) (accepted : e = .accepted n) (pos : 0 < n) (a a' : Attempt UInt8)
      (before : List (Attempt UInt8)) (item : a'.item = a.item) (count : 0 < a'.count)
      (calls : s.calls = a :: before) (calls' : s'.calls = a' :: before)
      (complete : s'.point = .idle → a'.item.length ≤ a'.count)

variable {es : List SendEvent} {s s' : Sender} {e : SendEvent} {results : List (Except Exn Unit)}

/-- The frame that the loop goes on with is the one it was called with; else it is complete. -/
theorem sendLoop_point (frame : List UInt8) (sent : ℕ) :
    (sendLoop frame sent).1 = .sending frame sent ∨
      (sendLoop frame sent).1 = .idle ∧ frame.length ≤ sent := by
  unfold sendLoop
  split
  · exact .inl rfl
  · exact .inr ⟨rfl, not_lt.mp ‹_›⟩

/-- **What a step can do**, while the frame under way stays the last one. -/
theorem sendStep_taken (hc : s.Counts es) (hs : sendStep s e = some (s', results)) :
    SendTaken s e s' ∧ s'.isConnected = true ∧ ∀ frame sent, s'.point = .sending frame sent →
      ∃ h before, s'.calls = ⟨frame, sent, h⟩ :: before := by
  obtain ⟨connected, point, calls⟩ := s
  obtain ⟨rfl, -, hsending⟩ := hc
  -- The loop goes on only with the frame and the count that it was called with.
  have hloop : ∀ frame sent (h : sent ≤ frame.length) before frame' sent',
      (sendLoop frame sent).1 = .sending frame' sent' →
      ∃ h' before', (⟨frame, sent, h⟩ : Attempt UInt8) :: before =
        ⟨frame', sent', h'⟩ :: before' := by
    intro frame sent h before frame' sent' hl
    rcases sendLoop_point frame sent with hp | ⟨hp, -⟩
    · obtain ⟨rfl, rfl⟩ := SendPoint.sending.inj (hp.symm.trans hl)
      exact ⟨h, before, rfl⟩
    · cases hp.symm.trans hl
  unfold sendStep at hs
  cases point with
  | idle =>
    cases e with
    | call sent =>
      dsimp only at hs
      rw [if_neg (by simp)] at hs
      cases hf : sent.encoding with
      | error x =>
        rw [hf] at hs
        obtain ⟨rfl, -⟩ := Prod.mk.inj (Option.some.inj hs)
        refine ⟨.kept ?_ (fun n h => by cases h) rfl, rfl, hsending⟩
        rw [SendEvent.frame, hf]
        rfl
      | ok frame =>
        rw [hf] at hs
        obtain ⟨rfl, -⟩ := Prod.mk.inj (Option.some.inj hs)
        refine ⟨.started frame ?_ rfl rfl, rfl, hloop frame 0 _ _⟩
        rw [SendEvent.frame, hf]
        rfl
    | accepted n => cases hs
    | again => cases hs
    | failed code => cases hs
  | sending frame sent =>
    obtain ⟨hle, before, rfl⟩ := hsending frame sent rfl
    cases e with
    | call sent' => cases hs
    | again =>
      obtain ⟨rfl, -⟩ := Prod.mk.inj (Option.some.inj hs)
      exact ⟨.kept rfl (fun n h => by cases h) rfl, rfl, hsending⟩
    | failed code =>
      obtain ⟨rfl, -⟩ := Prod.mk.inj (Option.some.inj hs)
      exact ⟨.stopped frame sent rfl (.inr ⟨code, rfl⟩) rfl, rfl, fun _ _ h => by cases h⟩
    | accepted n =>
      dsimp only at hs
      split_ifs at hs with hlong hzero
      · obtain ⟨rfl, -⟩ := Prod.mk.inj (Option.some.inj hs)
        exact ⟨.stopped frame sent rfl (.inl (by rw [hzero])) rfl, rfl, fun _ _ h => by cases h⟩
      · obtain ⟨rfl, -⟩ := Prod.mk.inj (Option.some.inj hs)
        have hcount : 0 < sent + n := by omega
        refine ⟨.wrote n rfl (by omega) ⟨frame, sent, hle⟩ ⟨frame, sent + n, hlong⟩ before rfl
          hcount rfl rfl fun h => ?_, rfl, hloop frame (sent + n) hlong before⟩
        rcases sendLoop_point frame (sent + n) with hp | ⟨-, hp⟩
        · cases hp.symm.trans h
        · exact hp

/-- The client goes on counting. -/
theorem Sender.Counts.step (hc : s.Counts es) (hs : sendStep s e = some (s', results)) :
    s'.Counts (es ++ [e]) := by
  obtain ⟨htaken, hconnected, hsending⟩ := sendStep_taken hc hs
  refine ⟨hconnected, ?_, hsending⟩
  rw [encodings_snoc, ← hc.items]
  cases htaken with
  | kept frame accepted eq =>
    rw [eq, frame, Option.toList_none, List.append_nil]
  | stopped frame sent point outcome eq =>
    rcases outcome with rfl | ⟨code, rfl⟩ <;> rw [eq] <;> exact (List.append_nil _).symm
  | started item frame point calls =>
    rw [calls, frame, Attempt.items_cons]
    rfl
  | wrote n accepted pos a a' before item count calls calls' complete =>
    rw [accepted, calls, calls', Attempt.items_cons, Attempt.items_cons, item]
    exact (List.append_nil _).symm

theorem sendMachine_counts (hr : sendMachine.Runs es s results) : s.Counts es := by
  refine hr.trace_invariant (I := fun es s _ => s.Counts es)
    ⟨rfl, rfl, fun _ _ h => by cases h⟩ ?_
  intro es s results e s' results' _ hI hs
  exact hI.step hs

/-! ## Frames that are broken off -/

/-- Octets are accepted only while no earlier frame is broken off. -/
def SendEvent.Unbroken (s : Sender) : SendEvent → Prop
  | .accepted n => 0 < n → ∀ a ∈ s.calls.tail, ¬ a.BrokenOff
  | _ => True

/-- `curl_easy_send` fails, or sends nothing, only before it has accepted any of the frame. -/
def SendEvent.FailsAtFront (s : Sender) : SendEvent → Prop
  | .failed _ => ∀ frame sent, s.point = .sending frame sent → sent = 0
  | .accepted n => n = 0 → ∀ frame sent, s.point = .sending frame sent → sent = 0
  | _ => True

/-- Nothing follows a broken frame just if octets are accepted only while none is broken off. -/
theorem intact_iff (hr : sendMachine.Runs es s results) :
    Attempt.Intact s.calls ↔ sendMachine.Meets SendEvent.Unbroken es := by
  have hinit : Attempt.Intact sendMachine.init.calls := trivial
  refine hr.iff_meets (P := fun s _ => Attempt.Intact s.calls) hinit ?_
  intro es s results e s' results' hr hs
  cases (sendStep_taken (sendMachine_counts hr) hs).1 with
  | kept frame accepted eq =>
    -- Nothing is accepted, so neither side changes.
    subst eq
    refine (and_iff_left ?_).symm
    cases e with
    | accepted n => exact absurd rfl (accepted n)
    | call sent => trivial
    | again => trivial
    | failed code => trivial
  | stopped frame sent point outcome eq =>
    subst eq
    refine (and_iff_left ?_).symm
    rcases outcome with rfl | ⟨code, rfl⟩
    · intro h
      exact absurd h (lt_irrefl 0)
    · trivial
  | started item frame point calls =>
    rw [calls]
    cases e with
    | call sent =>
      refine ⟨fun h => ⟨h.2, trivial⟩, fun h => ⟨fun hpos => ?_, h.1⟩⟩
      exact absurd hpos (lt_irrefl 0)
    | accepted n => cases frame
    | again => cases frame
    | failed code => cases frame
  | wrote n accepted pos a a' before item count calls calls' complete =>
    -- More of the last frame: it is on the connection, so the frames before it must be whole.
    subst accepted
    rw [calls', calls]
    unfold SendEvent.Unbroken
    rw [calls]
    constructor
    · intro h
      exact ⟨⟨fun _ => h.1 count, h.2⟩, fun _ => h.1 count⟩
    · intro h
      exact ⟨fun _ => h.2 pos, h.1.2⟩

/-- When nothing fails in the middle of a frame, only the frame under way is incomplete. -/
theorem not_brokenOff (hr : sendMachine.Runs es s results)
    (hf : sendMachine.Meets SendEvent.FailsAtFront es) :
    (∀ a ∈ s.calls.tail, ¬ a.BrokenOff) ∧ (s.point = .idle → ∀ a ∈ s.calls, ¬ a.BrokenOff) := by
  revert hf
  refine hr.trace_invariant (I := fun es s _ => sendMachine.Meets SendEvent.FailsAtFront es →
    (∀ a ∈ s.calls.tail, ¬ a.BrokenOff) ∧ (s.point = .idle → ∀ a ∈ s.calls, ¬ a.BrokenOff)) ?_ ?_
  · intro _
    exact ⟨fun a ha => (by cases ha), fun _ a ha => (by cases ha)⟩
  intro es s results e s' results' hr hI hs hf
  obtain ⟨hf, hfront⟩ := Machine.meets_snoc.mp hf
  have hfront := hfront s results hr
  obtain ⟨htail, hidle⟩ := hI hf
  have hcounts := sendMachine_counts hr
  cases (sendStep_taken hcounts hs).1 with
  | kept frame accepted eq =>
    subst eq
    exact ⟨htail, hidle⟩
  | stopped frame sent point outcome eq =>
    subst eq
    refine ⟨htail, fun _ a ha => ?_⟩
    -- Of the frame that failed nothing was accepted.
    obtain ⟨hle, before, hcalls⟩ := hcounts.sending frame sent point
    have hzero : sent = 0 := by
      rcases outcome with rfl | ⟨code, rfl⟩
      · exact hfront rfl frame sent point
      · exact hfront frame sent point
    dsimp only at ha
    rw [hcalls] at ha htail
    rcases List.mem_cons.mp ha with rfl | ha
    · subst hzero
      exact fun h => absurd h.1 (lt_irrefl 0)
    · exact htail a ha
  | started item frame point calls =>
    rw [calls]
    refine ⟨hidle point, fun _ a ha => ?_⟩
    rcases List.mem_cons.mp ha with rfl | ha
    · exact fun h => absurd h.1 (lt_irrefl 0)
    · exact hidle point a ha
  | wrote n accepted pos a a' before item count calls calls' complete =>
    rw [calls']
    rw [calls] at htail
    refine ⟨htail, fun hpoint b hb => ?_⟩
    rcases List.mem_cons.mp hb with rfl | hb
    · exact fun h => absurd h.2 (not_lt.mpr (complete hpoint))
    · exact htail b hb

/-- **Whole frames**: while nothing fails in the middle of a frame, the connection carries the
frames of some of the calls, in their order and each as a whole, and behind them what was accepted
of the frame under way. -/
theorem frames_whole (hr : sendMachine.Runs es s results)
    (hf : sendMachine.Meets SendEvent.FailsAtFront es) :
    Attempt.Intact s.calls ∧ ∃ complete : List (List UInt8), complete.Sublist (encodings es) ∧
      (s.point = .idle → Attempt.wire s.calls = complete.flatten) ∧
      ∀ frame sent, s.point = .sending frame sent →
        (complete ++ [frame]).Sublist (encodings es) ∧
        Attempt.wire s.calls = complete.flatten ++ frame.take sent := by
  obtain ⟨htail, hidle⟩ := not_brokenOff hr hf
  have hcounts := sendMachine_counts hr
  refine ⟨Attempt.intact_of_tail htail, ?_⟩
  rw [← hcounts.items]
  cases hpoint : s.point with
  | idle =>
    obtain ⟨complete, hs, hw⟩ := Attempt.wire_of_complete (hidle hpoint)
    refine ⟨complete, hs, fun _ => hw, fun frame sent h => ?_⟩
    cases h
  | sending frame sent =>
    obtain ⟨hle, before, hcalls⟩ := hcounts.sending frame sent hpoint
    rw [hcalls] at htail ⊢
    obtain ⟨complete, hs, hw⟩ := Attempt.wire_of_complete htail
    rw [Attempt.items_cons, Attempt.wire]
    refine ⟨complete, hs.trans (List.sublist_append_left _ _), fun h => ?_, ?_⟩
    · cases h
    · intro frame' sent' h
      obtain ⟨rfl, rfl⟩ := SendPoint.sending.inj h
      exact ⟨hs.append (.refl _), congrArg (· ++ _) hw⟩

/-- **Frames on the connection**: it carries a prefix of the frames of some of the calls, in their
order, and nothing behind a frame that was broken off, if and only if octets are accepted only while
no earlier frame is broken off; so it is when nothing fails in the middle of a frame. -/
theorem send_frames_iff (hr : sendMachine.Runs es s results) :
    (((∃ complete : List (List UInt8), complete.Sublist (encodings es) ∧
        Attempt.wire s.calls <+: complete.flatten) ∧ Attempt.Intact s.calls) ↔
      sendMachine.Meets SendEvent.Unbroken es) ∧
    (sendMachine.Meets SendEvent.FailsAtFront es → sendMachine.Meets SendEvent.Unbroken es) := by
  rw [← intact_iff hr]
  refine ⟨⟨And.right, fun h => ?_⟩, fun hf => ?_⟩
  · obtain ⟨complete, hs, hw⟩ := h.wire_prefix
    rw [(sendMachine_counts hr).items] at hs
    exact ⟨⟨complete, hs, hw⟩, h⟩
  · exact Attempt.intact_of_tail (not_brokenOff hr hf).1

/-- **A retry after an error**: three octets of a pong are accepted, the connection reports an
error, and the next call puts its frame behind these three octets. -/
theorem send_frames_broken :
    let call := SendEvent.call (.pong (Octets.zero 8))
    let es := [call, .accepted 3, .failed "Timeout was reached", call, .accepted 3]
    ∃ s results, sendMachine.Runs es s results ∧
      ¬ ∃ complete : List (List UInt8), complete.Sublist (encodings es) ∧
        Attempt.wire s.calls <+: complete.flatten := by
  intro call es
  obtain ⟨⟨s, results⟩, hr⟩ : ∃ r, sendMachine.run es = some r :=
    Option.isSome_iff_exists.mp (by decide +kernel)
  have hw : (sendMachine.run es).map (fun r => Attempt.wire r.1.calls) =
      some [0x13, 0, 0, 0x13, 0, 0] := by
    decide +kernel
  rw [hr] at hw
  refine ⟨s, results, hr, ?_⟩
  rintro ⟨complete, hsub, hp⟩
  have hnone : ∀ complete ∈ (encodings es).sublists,
      ¬ [0x13, 0, 0, 0x13, 0, 0] <+: complete.flatten := by
    decide +kernel
  exact hnone complete (List.mem_sublists.mpr hsub) (Option.some.inj hw ▸ hp)

/-- A packet that is accepted in two pieces, with a pause in between. -/
theorem send_frames_iff_example :
    let es := [.call (.packet (Octets.zero 32) [1, 2, 3]), .accepted 3, .again, .accepted 37]
    ∃ s results, sendMachine.Runs es s results ∧
      (∃ complete : List (List UInt8), complete.Sublist (encodings es) ∧
        Attempt.wire s.calls <+: complete.flatten) ∧ Attempt.Intact s.calls := by
  intro es
  obtain ⟨⟨s, results⟩, hr⟩ : ∃ r, sendMachine.run es = some r :=
    Option.isSome_iff_exists.mp (by decide +kernel)
  have hfront : sendMachine.Meets SendEvent.FailsAtFront es := by
    intro before e after t os hes _
    have he : e ∈ es := hes ▸ List.mem_append_right _ List.mem_cons_self
    simp only [es, List.mem_cons, List.not_mem_nil, or_false] at he
    rcases he with rfl | rfl | rfl | rfl
    · trivial
    · exact fun h => absurd h (by decide)
    · trivial
    · exact fun h => absurd h (by decide)
  obtain ⟨hiff, hunbroken⟩ := send_frames_iff hr
  exact ⟨s, results, hr, hiff.mpr (hunbroken hfront)⟩

end Tailcat
