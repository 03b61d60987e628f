import Mathlib.Data.Int.Cast.Basic
import NovaFederation.PyString
import NovaFederation.SagaLaw

/-!
# The client of the storage

`CephRBDClient` asks the `rbd` command for the info of an image and for its mirror status. A
client call is a coroutine over these two requests and the sleeps between two polls. The lag is
parsed from the free text of the mirror status; what cannot be parsed counts as no lag.

`RbdAnswers` is what the storage answers during one client call, and `backed` an engine's world
whose storage calls are executed by the client.
-/

namespace NovaFederation
open Coroutine

structure CephConfig where
  mirrorLagThresholdBytes : ℤ

structure RBDImageInfo where
  name : String
  pool : String
  sizeBytes : ℤ
  features : List String
  mirroringEnabled : Bool
  mirroringState : String

/-- What `rbd info` prints, with the keys that may be missing. -/
structure ImageDocument where
  name : Option String
  size : Option ℤ := none
  features : Option (List String) := none
  mirroring : Option (Option String) := none

structure MirrorDocument where
  state : Option String := none
  description : Option String := none

/-- The awaits of the client. A status is parsed before it is answered. -/
inductive CephCall
  | getImageInfo (pool image : String)
  | getMirrorStatus (pool image : String)
  | sleep (seconds : ℤ)
  deriving DecidableEq

@[reducible] def CephCall.Reply : CephCall → Type
  | .getImageInfo .. => RBDImageInfo
  | .getMirrorStatus .. => MirrorStatus
  | .sleep _ => Unit

abbrev Ceph := Coroutine Unit PyException CephCall CephCall.Reply
abbrev CephTrace := History PyException CephCall CephCall.Reply
abbrev CephWorld := Oracle PyException CephCall CephCall.Reply

namespace CephRBDClient

abbrev rbd (c : CephCall) : Ceph c.Reply := perform c

/-! ### Documents -/

/-- `get_image_info` after the command; a document without a name is a `KeyError`. -/
def getImageInfo (pool : String) (data : ImageDocument) : Except PyException RBDImageInfo :=
  match data.name with
  | some name => .ok {
      name
      pool
      sizeBytes := data.size.getD 0
      features := data.features.getD []
      mirroringEnabled := (data.features.getD []).contains "journaling"
      mirroringState := (data.mirroring.getD none).getD "disabled" }
  | none => .error ⟨.other, "'name'"⟩

/-- The number directly after the first key, up to a comma. -/
def entriesBehindMaster (desc : String) : Option ℤ := do
  let part ← (PyString.split desc "entries_behind_master=")[1]?
  let number ← (PyString.split part ",")[0]?
  PyString.int number

def getMirrorStatus (pool image : String) (data : MirrorDocument) : MirrorStatus :=
  let desc := data.description.getD ""
  let lagBytes : ℤ :=
    if PyString.contains "entries_behind_master" desc then
      -- an index error and a value error are passed over
      match entriesBehindMaster desc with
      | some entries => entries * 4096
      | none => 0
    else 0
  let state := data.state.getD "unknown"
  { image
    pool
    state
    description := desc
    lagBytes
    lagSeconds := 0
    synced := state == "up+replaying" && lagBytes == 0 }

theorem synced_iff (pool image : String) (data : MirrorDocument) :
    (getMirrorStatus pool image data).synced = true ↔
      data.state = some "up+replaying" ∧ (getMirrorStatus pool image data).lagBytes = 0 := by
  have hsynced : (getMirrorStatus pool image data).synced =
      (data.state.getD "unknown" == "up+replaying" &&
        (getMirrorStatus pool image data).lagBytes == 0) := rfl
  rw [hsynced, Bool.and_eq_true, beq_iff_eq, beq_iff_eq]
  refine and_congr_left fun _ => ?_
  cases data.state with
  | none => simp
  | some state => simp

/-! ### Client calls -/

/-- `max_lag_bytes or self.cfg.mirror_lag_threshold_bytes`. -/
def threshold (cfg : CephConfig) (maxLagBytes : Option ℤ) : ℤ :=
  match maxLagBytes with
  | some m => if m ≠ 0 then m else cfg.mirrorLagThresholdBytes
  | none => cfg.mirrorLagThresholdBytes

def syncTimeout (pool image : String) (timeoutSeconds lagBytes : ℤ) : PyException :=
  ⟨.cephSyncTimeout, s!"Image {pool}/{image} did not sync within {timeoutSeconds}s. " ++
    s!"Last lag: {lagBytes} bytes"⟩

/-- The local variable `status` before the first poll. -/
def unboundStatus : PyException :=
  ⟨.other, "cannot access local variable 'status' where it is not associated with a value"⟩

section Loop
variable (cfg : CephConfig) (pool image : String) (maxLagBytes : Option ℤ)
  (timeoutSeconds pollInterval : ℤ)

/-- The loop of `wait_for_sync`, watched for so many rounds: `none` says that it polls still. -/
def syncLoop : ℕ → ℤ → Option MirrorStatus → Ceph (Option MirrorStatus)
  | 0, _, _ => pure none
  | rounds + 1, elapsed, last =>
    if elapsed < timeoutSeconds then do
      let status ← rbd (.getMirrorStatus pool image)
      if status.lagBytes ≤ threshold cfg maxLagBytes then
        pure (some status)
      else
        rbd (.sleep pollInterval)
        syncLoop rounds (elapsed + pollInterval) (some status)
    else
      match last with
      | some status => throw (syncTimeout pool image timeoutSeconds status.lagBytes)
      | none => throw unboundStatus

def waitForSync (rounds : ℕ) : Ceph (Option MirrorStatus) :=
  syncLoop cfg pool image maxLagBytes timeoutSeconds pollInterval rounds 0 none

end Loop

def orCephError {α : Type} (p : Ceph α) : Ceph (Except PyException α) :=
  tryCatch (Except.ok <$> p) fun e =>
    if e.kind = .cephError then pure (.error e) else throw e

def preflightCheck (cfg : CephConfig) (pool image : String) (maxLagBytes : Option ℤ) :
    Ceph (Bool × String) := do
  match ← orCephError (rbd (.getImageInfo pool image)) with
  | .error e => pure (false, s!"Image not found: {e.message}")
  | .ok info =>
    if !info.mirroringEnabled then
      pure (false, s!"Mirroring not enabled on {pool}/{image}")
    else
      match ← orCephError (rbd (.getMirrorStatus pool image)) with
      | .error e => pure (false, s!"Cannot get mirror status: {e.message}")
      | .ok status =>
        let bound := threshold cfg maxLagBytes
        if bound < status.lagBytes then
          pure (false, s!"Mirror lag too high: {status.lagBytes} bytes " ++
            s!"(threshold: {bound} bytes)")
        else
          pure (true, "ok")

end CephRBDClient

/-! ### The world of one client call -/

structure RbdAnswers where
  info : Except PyException RBDImageInfo
  polls : ℕ → Except PyException MirrorStatus

def CephCall.isPoll : CephCall → Bool
  | .getMirrorStatus .. => true
  | _ => false

def CephCall.isSleep : CephCall → Bool
  | .sleep _ => true
  | _ => false

def polled (h : CephTrace) : ℕ := h.countP (·.call.isPoll)

def slept (h : CephTrace) : ℕ := h.countP (·.call.isSleep)

def RbdAnswers.world (a : RbdAnswers) : CephWorld
  | _, .getImageInfo _ _ => a.info
  | h, .getMirrorStatus _ _ => a.polls (polled h)
  | _, .sleep _ => .ok ()

/-! ### The engine over the client -/

namespace CephRBDClient

def waited (cfg : CephConfig) (a : RbdAnswers) (pool image : String) (maxLagBytes : Option ℕ)
    (timeoutSeconds : ℕ) : Outcome Unit PyException CephCall CephCall.Reply (Option MirrorStatus) :=
  run a.world (waitForSync cfg pool image (maxLagBytes.map (↑)) timeoutSeconds 5
    (timeoutSeconds + 1)) ()

def checked (cfg : CephConfig) (a : RbdAnswers) (pool image : String) (maxLagBytes : ℕ) :
    Outcome Unit PyException CephCall CephCall.Reply (Bool × String) :=
  run a.world (preflightCheck cfg pool image (some maxLagBytes)) ()

end CephRBDClient

open CephRBDClient

/-- `storage h` is what the storage answers to the client call that is made after `h`. -/
def backed (cfg : CephConfig) (storage : Trace → RbdAnswers) (O : World) : World
  | h, .preflightCheck pool image maxLagBytes =>
    (checked cfg (storage h) pool image maxLagBytes).1
  | h, .getMirrorStatus _ _ => (storage h).polls 0
  | h, .waitForSync pool image maxLagBytes timeoutSeconds =>
    match (waited cfg (storage h) pool image maxLagBytes timeoutSeconds).1 with
    | .ok (some status) => .ok status
    | .ok none => .error ⟨.other, "polling"⟩
    | .error e => .error e
  | h, c => O h c

end NovaFederation
