import Tailcat.Ssh.Requests

/-!
# The size of an SSH terminal

A terminal has the size that the client has asked for last, in 16 bits for each dimension. Asking
for a terminal with a dimension that is not positive sets it to a default, and changing the size to
such a dimension leaves it as it is.

The size is made positive before it is cut to 16 bits. Multiples of 2¹⁶ become zero.

## Main definitions

* `requestedSize`: the size that the accepted requests have set
* `CutTo16`: a dimension, and what becomes of it in 16 bits

## Main results

* `winsize_requested`: the sizes that terminals get
-/

namespace Tailcat.Ssh

/-- A size after a request that is accepted. -/
def SessionOutput.size (before : Int32 × Int32) : SessionOutput → Int32 × Int32
  | .handled (.pty _ width height) _ true =>
    (if 0 < width then width else 80, if 0 < height then height else 24)
  | .handled (.window width height) _ true =>
    (if 0 < width then width else before.1, if 0 < height then height else before.2)
  | _ => before

/-- The size that the accepted requests have set. -/
def requestedSize (os : List SessionOutput) : Int32 × Int32 := os.foldl SessionOutput.size (80, 24)

@[simp] theorem requestedSize_snoc (os : List SessionOutput) (o : SessionOutput) :
    requestedSize (os ++ [o]) = o.size (requestedSize os) := by
  rw [requestedSize, List.foldl_append]
  rfl

/-- The size of a terminal that is opened or resized. -/
def SystemCall.window : SystemCall → Option Winsize
  | .openpty window => some window
  | .spawn .. => none
  | .setWinsize window => some window

/-- The sizes that a terminal was given. -/
def SessionOutput.windows (o : SessionOutput) : List Winsize := o.calls.filterMap SystemCall.window

/-- In 16 bits a dimension is what it is, if it fits, and positive unless all of them are zero. -/
structure CutTo16 (v : Int32) (n : UInt16) : Prop where
  exact : v.toInt < 2 ^ 16 → (n.toNat : ℤ) = v.toInt
  pos : ¬ (2 ^ 16 : ℤ) ∣ v.toInt → 0 < n.toNat

theorem toInt_pos {v : Int32} (h : 0 < v) : 0 < v.toInt := Int32.lt_iff_toInt_lt.mp h

theorem max_one {v : Int32} (h : 0 < v) : max v 1 = v := by
  have hv := toInt_pos h
  change (if v ≤ 1 then 1 else v) = v
  split_ifs with hle
  · have h1 : v.toInt ≤ 1 := Int32.le_iff_toInt_le.mp hle
    have h2 : (1 : Int32).toInt = v.toInt := le_antisymm hv h1
    exact Int32.toInt_inj.mp h2
  · rfl

/-- A positive dimension modulo 2¹⁶. -/
theorem toNat_cut {v : Int32} (h : 0 < v) :
    ((v.toUInt32.toUInt16.toNat : ℕ) : ℤ) = v.toInt % 2 ^ 16 := by
  have hv := toInt_pos h
  rw [UInt32.toNat_toUInt16, ← Int32.toNat_toBitVec]
  have hnat : (v.toBitVec.toNat : ℤ) = v.toInt := by
    rw [← Int32.toInt_toBitVec] at hv ⊢
    have hmsb := BitVec.msb_eq_false_iff_two_mul_lt.mpr (BitVec.toInt_pos_iff.mp hv.le)
    exact (BitVec.toInt_eq_toNat_of_msb hmsb).symm
  omega

theorem cutTo16_winsize {width height : Int32} (hwidth : 0 < width) (hheight : 0 < height) :
    CutTo16 width (ChildProcess.winsize width height).col ∧
      CutTo16 height (ChildProcess.winsize width height).row := by
  have hcut : ∀ v : Int32, 0 < v → CutTo16 v (max v 1).toUInt32.toUInt16 := by
    intro v h
    have hv := toInt_pos h
    have hmod := toNat_cut h
    rw [max_one h]
    exact ⟨fun hlt => by omega, fun hdvd => by omega⟩
  exact ⟨hcut width hwidth, hcut height hheight⟩

theorem requestedSize_pos (os : List SessionOutput) :
    0 < (requestedSize os).1 ∧ 0 < (requestedSize os).2 := by
  induction os using List.reverseRecOn with
  | nil => exact ⟨by decide, by decide⟩
  | append_singleton os o ih =>
    rw [requestedSize_snoc]
    have hite : ∀ v d : Int32, 0 < d → 0 < if 0 < v then v else d := by
      intro v d hd
      split_ifs with hv
      · exact hv
      · exact hd
    unfold SessionOutput.size
    split
    · exact ⟨hite _ _ (by decide), hite _ _ (by decide)⟩
    · exact ⟨hite _ _ ih.1, hite _ _ ih.2⟩
    · exact ih

/-! ## What one step does -/

section

variable {width height : Int32} {w : Winsize}

theorem ChildProcess.resize_windows {process : ChildProcess}
    (h : w ∈ (process.resize width height).filterMap SystemCall.window) :
    w = winsize width height := by
  unfold resize at h
  split_ifs at h
  · cases h
  · exact List.mem_singleton.mp h

theorem ChildProcess.startCalls_windows {command : CString} {usePty : Bool}
    {environment : List (CString × CString)} {fails : Option String}
    (h : w ∈ (startCalls command environment usePty width height fails).filterMap
      SystemCall.window) : w = winsize width height := by
  unfold startCalls at h
  cases usePty
  · cases fails <;> cases h
  · cases fails <;> exact List.mem_singleton.mp h

end

namespace RequestContext

variable {c : RequestContext} {os : List SessionOutput} (fails : Option String) (r : Request)

/-- The size of the terminal, as the context has it. -/
def ptySize (c : RequestContext) : Int32 × Int32 := (c.ptyWidth, c.ptyHeight)

/-- A request sets the size, and a terminal gets the size that is set then. -/
def Sized (c : RequestContext) (r : Request) (a : Answer) : Prop :=
  a.1.ptySize = (SessionOutput.handled r a.2.1 a.2.2).size c.ptySize ∧
    ∀ w ∈ a.2.1.filterMap SystemCall.window, w = ChildProcess.winsize a.1.ptyWidth a.1.ptyHeight

theorem sized_refused : c.Sized r (c, [], false) := by
  refine ⟨?_, fun w hw => by cases hw⟩
  cases r <;> rfl

theorem sized_env (name value : Option CString) :
    c.Sized (.env name value) (c.channelEnv name value) := by
  rcases name with _ | name
  · exact sized_refused _
  rcases value with _ | value
  · exact sized_refused _
  dsimp only [channelEnv]
  split_ifs
  · exact sized_refused _
  · exact ⟨rfl, fun w hw => by cases hw⟩

theorem sized_pty (term : Option CString) (width height : Int32) :
    c.Sized (.pty term width height) (c.channelPty term width height) := by
  unfold channelPty
  by_cases hprocess : c.process.isSome
  · rw [if_pos hprocess]
    exact sized_refused _
  · rw [if_neg hprocess]
    exact ⟨rfl, fun w hw => by cases hw⟩

theorem sized_window (width height : Int32) :
    c.Sized (.window width height) (c.channelWindow width height) := by
  refine ⟨rfl, fun w hw => ?_⟩
  dsimp only [channelWindow] at hw ⊢
  rcases hprocess : c.process with _ | process
  · rw [hprocess] at hw
    cases hw
  · rw [hprocess] at hw
    exact ChildProcess.resize_windows hw

theorem sized_start (command : Option CString) (hr : r = .shell ∨ r = .exec command) :
    c.Sized r (c.startSessionProcess command fails) := by
  unfold startSessionProcess
  by_cases hprocess : c.process.isSome
  · rw [if_pos hprocess]
    exact sized_refused _
  rw [if_neg hprocess]
  refine ⟨?_, fun w hw => ChildProcess.startCalls_windows hw⟩
  rcases hr with rfl | rfl <;> rfl

theorem sized_handle : c.Sized r (c.handle fails r) := by
  cases r with
  | env name value => exact sized_env name value
  | pty term width height => exact sized_pty term width height
  | window width height => exact sized_window width height
  | shell => exact sized_start fails .shell none (.inl rfl)
  | exec command => exact sized_start fails _ command (.inr rfl)
  | subsystem => exact sized_refused _

/-- Every terminal has the size that was requested last. -/
theorem windows_of_runs {es : List SessionEvent} (hr : requestMachine.Runs es c os) :
    c.ptySize = requestedSize os ∧ Machine.Throughout (fun before o => ∀ w ∈ o.windows,
      w = ChildProcess.winsize (requestedSize (before ++ [o])).1 (requestedSize (before ++ [o])).2)
      os := by
  refine hr.trace_invariant (I := fun _ c os => c.ptySize = requestedSize os ∧
    Machine.Throughout _ os) ⟨rfl, Machine.throughout_nil⟩ ?_
  intro es c os e c' os' _ ⟨hsize, hgiven⟩ hs
  rcases step_cases hs with ⟨r, fails, rfl, rfl⟩ | ⟨-, rfl, rfl⟩ | ⟨hsame, rfl⟩
  · obtain ⟨hset, hwindows⟩ := sized_handle (c := c) fails r
    have hnow : (c.handle fails r).1.ptySize = requestedSize (os ++ [c.output fails r]) := by
      rw [requestedSize_snoc, ← hsize]
      exact hset
    refine ⟨hnow, Machine.throughout_snoc.mpr ⟨hgiven, fun w hw => ?_⟩⟩
    rw [← hnow]
    exact hwindows w hw
  · refine ⟨?_, Machine.throughout_snoc.mpr ⟨hgiven, fun w hw => by cases hw⟩⟩
    rw [requestedSize_snoc]
    exact hsize
  · rw [List.append_nil]
    refine ⟨?_, hgiven⟩
    rw [← hsize, ptySize, hsame.ptyWidth, hsame.ptyHeight]
    rfl

end RequestContext

/-- **The sizes that terminals get**: a terminal that is opened or resized gets the size that the
accepted requests have set, if it fits in 16 bits. A dimension that does not fit is positive, unless
it is a multiple of 2¹⁶. -/
theorem winsize_requested {es : List SessionEvent} {c : RequestContext} {os : List SessionOutput}
    (hr : requestMachine.Runs es c os) :
    ∀ before o after, os = before ++ o :: after → ∀ w ∈ o.windows,
      CutTo16 (requestedSize (before ++ [o])).1 w.col ∧
        CutTo16 (requestedSize (before ++ [o])).2 w.row := by
  intro before o after hos w hw
  rw [(RequestContext.windows_of_runs hr).2 before o after hos w hw]
  have hpos := requestedSize_pos (before ++ [o])
  exact cutTo16_winsize hpos.1 hpos.2

/-- A change of one dimension leaves the other one. -/
theorem winsize_requested_example :
    CutTo16 (requestedSize [.handled (.pty none 100 40) [] true,
      .handled .shell [.openpty ⟨100, 40⟩, .spawn [] []] true,
      .handled (.window 90 (-1)) [.setWinsize ⟨90, 40⟩] true]).1 90 := by
  have hr : requestMachine.Runs [.request (.pty none 100 40) none, .request .shell none,
      .request (.window 90 (-1)) none] _ [.handled (.pty none 100 40) [] true,
      .handled .shell [.openpty ⟨100, 40⟩, .spawn [] []] true,
      .handled (.window 90 (-1)) [.setWinsize ⟨90, 40⟩] true] := rfl
  exact (winsize_requested hr [_, _] _ [] rfl ⟨90, 40⟩ (by decide)).1

/-- The positive dimensions that were requested last, whether the requests were accepted or not. -/
def positiveSize (os : List SessionOutput) : Int32 × Int32 :=
  os.foldl (fun before o => match o with
    | .handled (.pty _ width height) _ _ =>
      (if 0 < width then width else before.1, if 0 < height then height else before.2)
    | .handled (.window width height) _ _ =>
      (if 0 < width then width else before.1, if 0 < height then height else before.2)
    | _ => before) (80, 24)

/-- A second request for a terminal sets the size to the default, and a width of 2¹⁶ becomes
zero. -/
theorem winsize_not_positiveSize :
    (∃ c, requestMachine.Runs [.request (.pty none 100 40) none, .request (.pty none 0 0) none,
        .request .shell none] c [.handled (.pty none 100 40) [] true,
        .handled (.pty none 0 0) [] true,
        .handled .shell [.openpty ⟨80, 24⟩, .spawn [] []] true] ∧
      positiveSize [.handled (.pty none 100 40) [] true, .handled (.pty none 0 0) [] true,
        .handled .shell [.openpty ⟨80, 24⟩, .spawn [] []] true] = (100, 40)) ∧
    ∃ c, requestMachine.Runs [.request (.pty none 65536 24) none, .request .shell none] c
      [.handled (.pty none 65536 24) [] true,
        .handled .shell [.openpty ⟨0, 24⟩, .spawn [] []] true] :=
  ⟨⟨_, rfl, by decide⟩, _, rfl⟩

end Tailcat.Ssh
