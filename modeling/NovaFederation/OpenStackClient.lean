import NovaFederation.SagaLaw

/-!
# The client of the compute service

`OpenStackClient` asks Nova for a server and Neutron for its floating addresses, and it stops a VM
by a request and a poll of its status every three seconds. A client call is a coroutine over these
requests and the sleeps between two polls. Both waits of the source leave the interval at its
default, so it is a constant here.

`statuses` reads off a client call what Nova answered for the VM, and `onNova` is an engine's world
whose calls about the VM are executed by the client.
-/

namespace NovaFederation
open Coroutine

/-- A server as the SDK returns it, in the fields that `get_vm` reads. The addresses are those of
its networks, and reading the id of the flavor may raise. -/
structure Server where
  id : String
  status : String
  host : String
  addresses : List (List String)
  volumesAttached : List String
  flavorId : Except PyException String

inductive NovaCall
  | getServer (vmId : String)
  | floatingIps (portId : String)
  | stopServer (vmId : String)
  | sleep (seconds : ℕ)
  deriving DecidableEq

@[reducible] def NovaCall.Reply : NovaCall → Type
  | .getServer _ => Option Server
  | .floatingIps _ => List String
  | .stopServer _ => Unit
  | .sleep _ => Unit

abbrev Nova := Coroutine Unit PyException NovaCall NovaCall.Reply
abbrev NovaTrace := History PyException NovaCall NovaCall.Reply
abbrev NovaWorld := Oracle PyException NovaCall NovaCall.Reply

namespace OpenStackClient

abbrev nova (c : NovaCall) : Nova c.Reply := perform c

def vmNotFound (vmId : String) : PyException := ⟨.vmNotFound, vmId⟩

def vmError (vmId target : String) : PyException :=
  ⟨.vmError, s!"VM {vmId} entered ERROR state while waiting for {target}"⟩

def vmTimeout (vmId target : String) (timeout : ℕ) : PyException :=
  ⟨.vmTimeout, s!"VM {vmId} did not reach {target} within {timeout}s"⟩

def getVm (vmId : String) : Nova VMDetails := do
  match ← nova (.getServer vmId) with
  | none => throw (vmNotFound vmId)
  | some server =>
    let floatingIps ← tryCatch (nova (.floatingIps server.id)) fun _ => pure []
    match server.flavorId with
    | .error e => throw e
    | .ok _ =>
      pure {
        status := server.status
        host := server.host
        ips := server.addresses.flatten
        floatingIps
        volumeIds := server.volumesAttached }

def waitLoop (vmId target : String) (timeout elapsed : ℕ) : Nova Unit :=
  if elapsed < timeout then do
    match ← nova (.getServer vmId) with
    | none => throw (attributeError "status")
    | some server =>
      if server.status = target then
        pure ()
      else if server.status = "ERROR" then
        throw (vmError vmId target)
      else
        nova (.sleep 3)
        waitLoop vmId target timeout (elapsed + 3)
  else throw (vmTimeout vmId target timeout)
termination_by timeout - elapsed

def waitVmStatus (vmId target : String) (timeout : ℕ) : Nova Unit :=
  waitLoop vmId target timeout 0

def stopVm (vmId : String) : Nova Unit := do
  nova (.stopServer vmId)
  waitVmStatus vmId "SHUTOFF" 120

end OpenStackClient

/-! ### The engine over the client -/

def toldStatus : Event PyException NovaCall NovaCall.Reply → Option String
  | ⟨.getServer _, .ok (some server)⟩ => some server.status
  | _ => none

def statuses (h : NovaTrace) : List String := h.filterMap toldStatus

/-- What a call of the engine does at Nova, in a world that answers the client. -/
def clientTrace (W : NovaWorld) : Call → NovaTrace
  | .getVm vmId => (run W (OpenStackClient.getVm vmId) ()).2.2
  | .stopVm vmId => (run W (OpenStackClient.stopVm vmId) ()).2.2
  | _ => []

/-- `nova h` answers the client call that is made after `h`. -/
def onNova (nova : Trace → NovaWorld) (O : World) : World
  | h, .getVm vmId => (run (nova h) (OpenStackClient.getVm vmId) ()).1
  | h, .stopVm vmId => (run (nova h) (OpenStackClient.stopVm vmId) ()).1
  | h, c => O h c

/-- The statuses that Nova has answered for the VM in a history that begins after `pre`. -/
def answeredFrom (nova : Trace → NovaWorld) : Trace → Trace → List String
  | _, [] => []
  | pre, e :: h =>
    statuses (clientTrace (nova pre) e.call) ++ answeredFrom nova (pre ++ [e]) h

def answered (nova : Trace → NovaWorld) (h : Trace) : List String := answeredFrom nova [] h

theorem answeredFrom_append (nova : Trace → NovaWorld) (pre h t : Trace) :
    answeredFrom nova pre (h ++ t) =
      answeredFrom nova pre h ++ answeredFrom nova (pre ++ h) t := by
  induction h generalizing pre with
  | nil => simp [answeredFrom]
  | cons e h ih => simp [answeredFrom, ih]

theorem answered_snoc (nova : Trace → NovaWorld) (h : Trace) (e : CallEvent) :
    answered nova (h ++ [e]) = answered nova h ++ statuses (clientTrace (nova h) e.call) := by
  rw [answered, answeredFrom_append]
  simp [answered, answeredFrom]

end NovaFederation
