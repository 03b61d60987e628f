import NovaFederation.FRRClient
import NovaFederation.PreflightSafety

/-!
# The commands of the storage client

`CephRBDClient` demotes and promotes an image by one `rbd` command and looks at its exit code. A
peer is asked over gRPC; its servicer runs the same command against its own cluster and answers
with what the client raised.

The images of a cluster are what the commands make of them. A command that exits with zero has
taken effect and one that exits with another code has not; of one that raises, as after the time
limit of `subprocess.run`, either may be true, and so it may of a request whose reply is lost.
-/

namespace NovaFederation
open Coroutine History

structure CephAccess where
  confPath : String
  keyringPath : String
  clientName : String

structure RbdCall where
  cmd : List String
  deriving DecidableEq

@[reducible] def RbdCall.Reply : RbdCall → Type := fun _ => CompletedProcess

abbrev Rbd := Coroutine Unit PyException RbdCall RbdCall.Reply
abbrev RbdEvent := Event PyException RbdCall RbdCall.Reply
abbrev RbdWorld := Oracle PyException RbdCall RbdCall.Reply

namespace CephRBDClient
variable (cfg : CephAccess)

def plainCmd (args : List String) : RbdCall :=
  let id := PyString.removePrefix cfg.clientName "client."
  ⟨["rbd", s!"--conf={cfg.confPath}", s!"--keyring={cfg.keyringPath}", s!"--id={id}"] ++ args⟩

/-- `_run_plain`, whose output no caller here reads. -/
def runPlain (args : List String) : Rbd Unit := do
  let result ← perform (plainCmd cfg args)
  if result.returncode ≠ 0 then
    throw ⟨.cephError, PyString.trim result.stderr⟩

def imageSpec (pool image : String) : String := s!"{pool}/{image}"

def demoteArgs (pool image : String) : List String :=
  ["mirror", "image", "demote", imageSpec pool image]

def promoteArgs (pool image : String) (force : Bool) : List String :=
  ["mirror", "image", "promote", imageSpec pool image] ++ if force then ["--force"] else []

def demote (pool image : String) : Rbd Unit := runPlain cfg (demoteArgs pool image)

def promote (pool image : String) (force : Bool) : Rbd Unit :=
  runPlain cfg (promoteArgs pool image force)

end CephRBDClient

namespace CNFControlServicer
open CephRBDClient

def promoteRBDImage (cfg : CephAccess) (pool image : String) (force : Bool) :
    Rbd RBDPromoteResponse :=
  tryCatch (do
    promote cfg pool image force
    pure ⟨true, "promoted"⟩) fun e => pure ⟨false, e.message⟩

end CNFControlServicer

/-! ### One command -/

open CephRBDClient CNFControlServicer
variable {cfg : CephAccess} {W : RbdWorld} {pool image : String} {force : Bool}

def checkedExit : Except PyException CompletedProcess → Except PyException Unit
  | .ok p => if p.returncode ≠ 0 then .error ⟨.cephError, PyString.trim p.stderr⟩ else .ok ()
  | .error e => .error e

def issued (W : RbdWorld) (c : RbdCall) : RbdEvent := ⟨c, W [] c⟩

theorem run_runPlain (cfg : CephAccess) (W : RbdWorld) (args : List String) :
    run W (runPlain cfg args) () =
      (checkedExit (issued W (plainCmd cfg args)).reply, (), [issued W (plainCmd cfg args)]) := by
  unfold run runPlain issued
  cases hW : W [] (plainCmd cfg args) with
  | error e =>
    rw [exec_bind, exec_perform_of_error hW]
    rfl
  | ok p =>
    rw [exec_bind, exec_perform_of_ok hW]
    dsimp only [checkedExit]
    split_ifs <;> rfl

theorem run_promoteRBDImage (cfg : CephAccess) (W : RbdWorld) (pool image : String)
    (force : Bool) :
    run W (promoteRBDImage cfg pool image force) () =
      (.ok (match (run W (promote cfg pool image force) ()).1 with
        | .ok () => ⟨true, "promoted"⟩
        | .error e => ⟨false, e.message⟩), (),
        [issued W (plainCmd cfg (promoteArgs pool image force))]) := by
  have hrun : run W (promote cfg pool image force) () = _ :=
    run_runPlain cfg W (promoteArgs pool image force)
  unfold run at hrun ⊢
  unfold promoteRBDImage
  rw [exec_tryCatch, exec_bind, hrun]
  generalize checkedExit _ = r
  cases r <;> rfl

/-! ### The images of a cluster -/

abbrev Images := String → Bool

def Images.set (w : Images) (spec : String) (primary : Bool) : Images :=
  fun spec' => if spec' = spec then primary else w spec'

theorem Images.set_eq (w : Images) (spec spec' : String) (primary : Bool) :
    w.set spec primary spec' = if spec' = spec then primary else w spec' := rfl

/-- What `rbd mirror image` does when it succeeds. -/
def Images.act (w : Images) : RbdCall → Images
  | ⟨[_, _, _, _, "mirror", "image", "demote", spec]⟩ => w.set spec false
  | ⟨[_, _, _, _, "mirror", "image", "promote", spec]⟩ => w.set spec true
  | ⟨[_, _, _, _, "mirror", "image", "promote", spec, "--force"]⟩ => w.set spec true
  | _ => w

/-- The commands that took effect. -/
structure RbdEffects where
  took : RbdEvent → Bool
  of_exit : ∀ c p, took ⟨c, .ok p⟩ = decide (p.returncode = 0)

namespace RbdEffects

def unstarted : RbdEffects where
  took
    | ⟨_, .ok p⟩ => decide (p.returncode = 0)
    | ⟨_, .error _⟩ => false
  of_exit _ _ := rfl

def apply (eff : RbdEffects) (w : Images) (e : RbdEvent) : Images :=
  if eff.took e then w.act e.call else w

end RbdEffects

theorem Images.act_demote (w : Images) :
    w.act (plainCmd cfg (demoteArgs pool image)) = w.set (imageSpec pool image) false := rfl

theorem Images.act_promote (w : Images) :
    w.act (plainCmd cfg (promoteArgs pool image force)) = w.set (imageSpec pool image) true := by
  cases force <;> rfl

theorem imageSpec_inj {image' : String} :
    imageSpec pool image = imageSpec pool image' ↔ image = image' := by
  constructor
  · intro h
    have htext := congrArg String.toList h
    simp only [imageSpec, String.toList_append, toString] at htext
    exact String.toList_inj.1 (List.append_cancel_left htext)
  · rintro rfl
    rfl

end NovaFederation
