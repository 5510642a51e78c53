import Tailcat.Base.Exceptions
import Tailcat.Ssh.KeySources
import Tailcat.Ssh.Requests

/-!
# The authentication of SSH sessions

A session begins with requests to authenticate. libssh gives them to callbacks, and keeps the client
from everything else until one of them has let it in. The server lets in every client, or those that
prove to have a key of its sources: a client may ask first whether a key would do, and shows by a
signature that it is its own.

## Main definitions

* `EmbeddedSshOptions`, `authNone`, `authPubkey`: the callbacks
* `sessionMachine`: a session, with its requests to authenticate
* `Gated`: what the server leaves to libssh
* `Listed`: a key is one of the sources

## Main results

* `mem_blobs_iff`: the keys that are loaded are those of the sources
* `authCallback_eq_true_iff`: who is let in
* `calls_admitted`: nothing is done for a client that was not let in
* `session_spawned`: at most one process is started
-/

namespace Tailcat.Ssh

open Ctype

/-! ## The keys of the sources -/

section Sources

variable {T K : Type} {L : Libssh T K} {W : SourceWorld}

/-- A line of the text has the key. -/
def HasKey (L : Libssh T K) (text blob : List UInt8) : Prop :=
  ∃ line ∈ text.splitOn newline, ¬ Skipped line ∧ keyOfLine L line = some blob

/-- The text of one of the sources has the key. -/
def Listed (L : Libssh T K) (W : SourceWorld) (sources blob : List UInt8) : Prop :=
  ∃ piece ∈ sources.splitOn comma, ∃ text,
    (sourceText L W (Blanks.trim isSpace piece)).1 = .ok text ∧ HasKey L text blob

theorem mem_pushUnique {keys : List (List UInt8)} {blob b : List UInt8} :
    b ∈ pushUnique keys blob ↔ b ∈ keys ∨ b = blob := by
  unfold pushUnique
  split_ifs with h
  · refine ⟨.inl, ?_⟩
    rintro (hb | rfl)
    · exact hb
    · exact h
  · rw [List.mem_append, List.mem_singleton]

theorem mem_appendUnique {target keys : List (List UInt8)} {b : List UInt8} :
    b ∈ appendUnique target keys ↔ b ∈ target ∨ b ∈ keys := by
  unfold appendUnique
  induction keys generalizing target with
  | nil => simp
  | cons blob keys ih =>
    rw [List.foldl_cons, ih, mem_pushUnique, List.mem_cons, or_assoc]

/-- The keys of a text are those of its lines. -/
theorem mem_of_parse {text : List UInt8} {blobs : List (List UInt8)}
    (h : parseSshAuthorizedKeysText L text = .ok blobs) (blob : List UInt8) :
    blob ∈ blobs ↔ HasKey L text blob := by
  obtain ⟨-, -, rfl⟩ := (acceptedKeys_eq_some L _ blobs).mp
    ((parse_toOption L text).symm.trans (toOption_eq_some.mpr h))
  simp [HasKey, and_assoc]

/-- The loop over the sources adds the keys of each of them. -/
theorem foldl_loadSource {sources : List (List UInt8)}
    {s : Except Exn (List (List UInt8)) × List SourceAction} {result : List (List UInt8)}
    {actions : List SourceAction}
    (h : sources.foldl (loadSource L W) s = (.ok result, actions)) :
    ∃ before, s.1 = .ok before ∧ ∀ blob, blob ∈ result ↔ blob ∈ before ∨
      ∃ source ∈ sources, ∃ text, (sourceText L W source).1 = .ok text ∧ HasKey L text blob := by
  induction sources generalizing s with
  | nil =>
    obtain rfl := h
    exact ⟨result, rfl, by simp⟩
  | cons source sources ih =>
    obtain ⟨middle, hmiddle, hresult⟩ := ih h
    rcases s with ⟨e | before, acts⟩
    · cases hmiddle
    obtain ⟨text, htext, hmap⟩ := Except.bind_eq_ok_iff.mp hmiddle
    obtain ⟨keys, hkeys, rfl⟩ := Except.map_eq_ok_iff.mp hmap
    refine ⟨before, rfl, fun blob => ?_⟩
    rw [hresult, mem_appendUnique, mem_of_parse hkeys, or_assoc]
    refine or_congr_right ?_
    constructor
    · rintro (hkey | ⟨other, hother, hkey⟩)
      · exact ⟨source, List.mem_cons_self .., text, htext, hkey⟩
      · exact ⟨other, List.mem_cons_of_mem _ hother, hkey⟩
    · rintro ⟨other, hother, text', htext', hkey⟩
      rcases List.mem_cons.mp hother with rfl | hother
      · obtain rfl := Except.ok.inj (htext'.symm.trans htext)
        exact .inl hkey
      · exact .inr ⟨other, hother, text', htext', hkey⟩

/-- **The keys that are loaded** are those of the sources, and there is one. -/
theorem mem_blobs_iff {sources : List UInt8} {blobs : List (List UInt8)}
    (h : (loadSshAuthorizedKeyBlobs L W sources).1 = .ok blobs) :
    blobs ≠ [] ∧ ∀ blob, blob ∈ blobs ↔ Listed L W sources blob := by
  unfold loadSshAuthorizedKeyBlobs at h
  split at h
  · cases h
  have hsplit := splitSources_eq sources
  split at h
  · cases h
  · rename_i list hlist
    split at hsplit
    · obtain rfl := Except.ok.inj (hlist.symm.trans hsplit)
      obtain ⟨result, hresult, h⟩ := Except.bind_eq_ok_iff.mp h
      split at h
      · cases h
      · rename_i hne
        obtain rfl := Except.ok.inj h
        obtain ⟨before, hbefore, hmem⟩ := foldl_loadSource (Prod.ext hresult rfl)
        obtain rfl := Except.ok.inj hbefore
        refine ⟨hne, fun blob => ?_⟩
        rw [hmem, Listed]
        simp
    · obtain ⟨e, he⟩ := hsplit
      cases hlist.symm.trans he

end Sources

/-! ## The callbacks -/

/-- `ssh_publickey_state_e`. -/
inductive SignatureState
  | error
  | none
  | valid
  | wrong
  deriving DecidableEq

/-- What the sessions of a server are told. -/
structure EmbeddedSshOptions where
  allowNone : Bool := false
  authorizedKeyBlobs : List (List UInt8) := []

/-- A request to authenticate. A missing key is a null pointer. -/
inductive AuthRequest (K : Type)
  | none
  | publickey (key : Option K) (signature : SignatureState)

/-- The request shows what it says. A key that comes without a signature is only asked about. -/
def AuthRequest.Proves {K : Type} : AuthRequest K → Prop
  | .none => True
  | .publickey _ signature => signature = .valid

section Callbacks

variable {T K : Type} (L : Libssh T K) (o : EmbeddedSshOptions)

/-- The callback for no authentication. -/
def authNone : Bool := o.allowNone

/-- The callback for a public key, which is asked before there is a signature, too. -/
def authPubkey (key : Option K) (signature : SignatureState) : Bool :=
  match key with
  | .none => false
  | some key =>
    if signature ≠ .none ∧ signature ≠ .valid then
      false
    else
      (L.exportPubkeyBase64 key).elim false o.authorizedKeyBlobs.contains

/-- The callback for a request. There is none for passwords. -/
def authCallback : AuthRequest K → Bool
  | .none => authNone o
  | .publickey key signature => authPubkey L o key signature

variable {L o}

/-- **Who is let in**: everyone, if the server says so, and whoever has signed with a key of the
server. -/
theorem authCallback_eq_true_iff {r : AuthRequest K} (hproves : r.Proves) :
    authCallback L o r = true ↔ (r = .none ∧ o.allowNone = true) ∨
      ∃ key blob, r = .publickey (some key) .valid ∧ L.exportPubkeyBase64 key = some blob ∧
        blob ∈ o.authorizedKeyBlobs := by
  cases r with
  | none => simp [authCallback, authNone]
  | publickey key signature =>
    obtain rfl : signature = .valid := hproves
    cases key with
    | none => simp [authCallback, authPubkey]
    | some key => cases hexport : L.exportPubkeyBase64 key <;>
        simp [authCallback, authPubkey, hexport]

end Callbacks

/-! ## A session with its authentication -/

/-- What a client does in its session: it authenticates, or asks for something. -/
inductive SshEvent (K : Type)
  | authenticate (r : AuthRequest K)
  | session (e : SessionEvent)

/-- What a session does, and what the callbacks for authentication have answered. -/
inductive SshOutput (K : Type)
  | answered (r : AuthRequest K) (accepted : Bool)
  | session (o : SessionOutput)

/-- What is asked of the system. -/
def SshOutput.calls {K : Type} : SshOutput K → List SystemCall
  | .answered .. => []
  | .session o => o.calls

/-- What is seen of the requests. -/
def SshOutput.request? {K : Type} : SshOutput K → Option SessionOutput
  | .answered .. => none
  | .session o => some o

/-- What an event is to the requests of the session. -/
def SshEvent.request? {K : Type} : SshEvent K → Option SessionEvent
  | .authenticate _ => none
  | .session e => some e

/-- What the server leaves to libssh: the callbacks of a session are called only when the client has
been let in, by a callback that has accepted what it has proved. -/
def Gated {K : Type} (os : List (SshOutput K)) : Prop :=
  Machine.Throughout (fun before out => out.request?.isSome →
    ∃ r : AuthRequest K, r.Proves ∧ .answered r true ∈ before) os

/-- A client that is let in before anything else. -/
theorem gated_of_accepted {K : Type} {r : AuthRequest K} (hproves : r.Proves)
    (asked handled : List (SshOutput K)) (hasked : ∀ out ∈ asked, out.request? = none) :
    Gated (asked ++ .answered r true :: handled) := by
  intro before out after hos hrequest
  refine ⟨r, hproves, ?_⟩
  rcases List.append_eq_append_iff.mp hos with ⟨rest, rfl, hrest⟩ | ⟨rest, rfl, hrest⟩
  · cases rest with
    | nil =>
      obtain ⟨rfl, -⟩ := List.cons.inj hrest
      cases hrequest
    | cons first rest =>
      obtain ⟨rfl, -⟩ := List.cons.inj hrest
      simp
  · -- Nothing that is asked before is a request.
    cases rest with
    | nil =>
      obtain ⟨rfl, -⟩ := List.cons.inj hrest
      cases hrequest
    | cons first rest =>
      obtain ⟨rfl, -⟩ := List.cons.inj hrest
      rw [hasked out (by simp)] at hrequest
      cases hrequest

section Session

variable {T K : Type} (L : Libssh T K) (o : EmbeddedSshOptions)

/-- The callbacks. -/
def RequestContext.sessionStep (c : RequestContext) :
    SshEvent K → Option (RequestContext × List (SshOutput K))
  | .authenticate r => some (c, [.answered r (authCallback L o r)])
  | .session e => (c.step e).map fun (c', os) => (c', os.map .session)

/-- A session over libssh, with its callbacks. -/
def sessionMachine : Machine RequestContext (SshEvent K) (SshOutput K) where
  init := {}
  step := RequestContext.sessionStep L o

variable {L o} {c c' : RequestContext} {e : SshEvent K} {es : List (SshEvent K)}
  {os : List (SshOutput K)}

/-- What a step of a session can do. -/
inductive SshStep (L : Libssh T K) (o : EmbeddedSshOptions) (c : RequestContext) :
    SshEvent K → RequestContext → List (SshOutput K) → Prop
  | authenticate {r : AuthRequest K} :
    SshStep L o c (.authenticate r) c [.answered r (authCallback L o r)]
  | session {e : SessionEvent} {c' : RequestContext} {ps : List SessionOutput}
      (hs : c.step e = some (c', ps)) : SshStep L o c (.session e) c' (ps.map .session)

theorem sessionMachine_step (hs : (sessionMachine L o).step c e = some (c', os)) :
    SshStep L o c e c' os := by
  cases e with
  | authenticate r =>
    obtain ⟨rfl, rfl⟩ := Prod.mk.inj (Option.some.inj hs)
    exact .authenticate
  | session e =>
    obtain ⟨⟨context, ps⟩, hstep, h⟩ := Option.map_eq_some_iff.mp hs
    obtain ⟨rfl, rfl⟩ := Prod.mk.inj h
    exact .session hstep

/-- The answers are those of the callbacks. -/
theorem answers (hr : (sessionMachine L o).Runs es c os) :
    ∀ r accepted, .answered r accepted ∈ os → accepted = authCallback L o r := by
  refine hr.trace_invariant
    (I := fun _ _ os => ∀ r accepted, .answered r accepted ∈ os → accepted = authCallback L o r)
    (fun _ _ h => absurd h List.not_mem_nil) ?_
  intro es c os e c' os' _ hall hs r accepted hmem
  rcases List.mem_append.mp hmem with hbefore | hnew
  · exact hall r accepted hbefore
  cases sessionMachine_step hs with
  | authenticate =>
    obtain ⟨rfl, rfl⟩ := SshOutput.answered.inj (List.mem_singleton.mp hnew)
    rfl
  | session =>
    obtain ⟨p, -, hp⟩ := List.mem_map.mp hnew
    cases hp

/-- **Nothing is done for a client that was not let in**: before a terminal is opened or a process
is started, everyone is let in, or the client has signed with a key of the server. -/
theorem calls_admitted (hr : (sessionMachine L o).Runs es c os) (hgated : Gated os) :
    Machine.Throughout (fun before out => out.calls ≠ [] →
      (o.allowNone = true ∧ .answered .none true ∈ before) ∨
      ∃ key blob, .answered (.publickey (some key) .valid) true ∈ before ∧
        L.exportPubkeyBase64 key = some blob ∧ blob ∈ o.authorizedKeyBlobs) os := by
  intro before out after hos hcalls
  have hrequest : out.request?.isSome := by
    cases out with
    | answered => exact absurd rfl hcalls
    | session => rfl
  obtain ⟨r, hproves, hmem⟩ := hgated before out after hos hrequest
  have haccepted := answers hr r true (hos ▸ List.mem_append_left _ hmem)
  rcases (authCallback_eq_true_iff hproves).mp haccepted.symm with
    ⟨rfl, hnone⟩ | ⟨key, blob, rfl, hexport, hblob⟩
  · exact .inl ⟨hnone, hmem⟩
  · exact .inr ⟨key, blob, hmem, hexport, hblob⟩

/-- What happens in a session is what its requests do. -/
theorem session_requests (hr : (sessionMachine L o).Runs es c os) :
    requestMachine.Runs (es.filterMap SshEvent.request?) c (os.filterMap SshOutput.request?) := by
  refine hr.project (fun c => c) SshEvent.request? SshOutput.request? rfl ?_
  intro c e c' os hs
  cases sessionMachine_step hs with
  | authenticate => exact .inl ⟨rfl, rfl, rfl⟩
  | @session e _ ps hstep =>
    refine .inr ⟨e, rfl, ?_⟩
    have hps : (ps.map (SshOutput.session (K := K))).filterMap SshOutput.request? = ps := by
      rw [List.filterMap_map]
      exact List.filterMap_some
    rw [hps]
    exact hstep

/-- The processes that are started. -/
def SshOutput.spawned {K : Type} (o : SshOutput K) : List (List (CString × CString)) :=
  o.calls.filterMap SystemCall.environment

/-- At most one process is started. -/
theorem session_spawned (hr : (sessionMachine L o).Runs es c os) :
    (os.flatMap SshOutput.spawned).length ≤ 1 := by
  have hseen := (RequestContext.seen_of_runs (session_requests hr)).process
  have hsame : os.flatMap SshOutput.spawned =
      (os.filterMap SshOutput.request?).flatMap SessionOutput.spawned := by
    clear hr hseen
    induction os with
    | nil => rfl
    | cons o os ih =>
      cases o with
      | answered r accepted => exact ih
      | session o => exact congrArg (o.spawned ++ ·) ih
  rw [hsame, hseen]
  exact Bool.toNat_le _

end Session

end Tailcat.Ssh
