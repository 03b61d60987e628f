import NovaFederation.CallOrder
import NovaFederation.Election
import NovaFederation.PyString

/-!
# The proxy of a worker

A node that is not the master is meant to forward requests to the master. The middleware asks
the agent for the master's address, and the agent looks it up in a dictionary that it has just
created empty; the peers registry in etcd is read by `get_peers` alone, which nobody calls here.
-/

namespace NovaFederation
open Coroutine History
variable {L : Type}

structure HttpRequest where
  method : String
  path : String
  query : String
  headers : List (String × String)
  body : String
  deriving DecidableEq

structure HttpResponse where
  statusCode : ℕ
  content : String
  headers : List (String × String)

/-- The awaits of the middleware: the rest of the application, the body of the request, and a
request of the HTTP client. -/
inductive ProxyCall
  | callNext (request : HttpRequest)
  | body (request : HttpRequest)
  | request (method url : String) (headers : List (String × String)) (content : String)
  deriving DecidableEq

@[reducible] def ProxyCall.Reply : ProxyCall → Type
  | .callNext _ => HttpResponse
  | .body _ => String
  | .request .. => HttpResponse

/-- The state is the agent's `_election`, which is `None` until the agent has made it. -/
abbrev Middleware (L : Type) :=
  Coroutine (Option (RaftElection L)) PyException ProxyCall ProxyCall.Reply

abbrev proxy (c : ProxyCall) : Middleware L c.Reply := perform c

namespace CNFAgent

def isMaster (election : Option (RaftElection L)) : Bool :=
  election.any (·.state.role = .master)

/-- `master_grpc_addr`. The dictionary is a new one. -/
def masterGrpcAddr (election : Option (RaftElection L)) : String :=
  match election with
  | some election =>
    let peers : List (String × String) := []
    (peers.lookup election.state.masterId).getD ""
  | none => ""

end CNFAgent

/-- `resp.json()`, encoded again; it raises on a body that is no JSON. -/
abbrev JsonCodec := String → Except PyException String

def HttpRequest.url (request : HttpRequest) (host port : String) : String :=
  let url := s!"http://{host}:{port}{request.path}"
  if request.query = "" then url else url ++ s!"?{request.query}"

def forwardToMaster (codec : JsonCodec) (request : HttpRequest) (masterAddr : String) :
    Middleware L HttpResponse := do
  let (host, _, port) := PyString.partition masterAddr ":"
  let port := if port = "" then "8080" else port
  let body ← proxy (.body request)
  let resp ← proxy (.request request.method (request.url host port) request.headers body)
  if resp.content = "" then
    pure { resp with content := "null" }
  else
    match codec resp.content with
    | .ok content => pure { resp with content }
    | .error e => throw e

def proxyToMaster (codec : JsonCodec) (request : HttpRequest) : Middleware L HttpResponse := do
  if request.path ∈ ["/healthz", "/readyz", "/metrics"] then
    proxy (.callNext request)
  else
    let election ← read
    if CNFAgent.isMaster election then
      proxy (.callNext request)
    else if CNFAgent.masterGrpcAddr election = "" then
      proxy (.callNext request)
    else
      forwardToMaster codec request (CNFAgent.masterGrpcAddr election)

abbrev ProxyEvent := Event PyException ProxyCall ProxyCall.Reply

abbrev ProxyWorld := Oracle PyException ProxyCall ProxyCall.Reply

def handled (codec : JsonCodec) (O : ProxyWorld) (election : Option (RaftElection L))
    (request : HttpRequest) : List ProxyEvent :=
  (run O (proxyToMaster codec request) election).2.2

def Forwards (request : HttpRequest) (addr : String) (e : ProxyEvent) : Prop :=
  ∃ port, e.call = .request request.method
    (request.url (PyString.partition addr ":").1 port) request.headers request.body

def HandlesLocally (e : ProxyEvent) : Prop := ∃ request, e.call = .callNext request

/-- The master that the agent has observed is registered and gets the request, and this node does
not handle it. -/
def MasterServes (codec : JsonCodec) (O : ProxyWorld) (election : Option (RaftElection L))
    (registry : List (String × String)) (request : HttpRequest) : Prop :=
  (∃ e ∈ election, ∃ addr, registry.lookup e.state.masterId = some addr ∧
      Has (Forwards request addr) (handled codec O election request)) ∧
    ¬ Has HandlesLocally (handled codec O election request)

/-- With an address, the request would go to the host at the port of that address, which is the
port of its gRPC server. -/
theorem forwards_of_forwardToMaster (codec : JsonCodec) (O : ProxyWorld)
    (election : Option (RaftElection L)) (request : HttpRequest) (masterAddr : String)
    (hbody : O [] (.body request) = .ok request.body) :
    Has (Forwards request masterAddr)
      (run O (forwardToMaster codec request masterAddr) election).2.2 := by
  unfold forwardToMaster Coroutine.run
  rw [exec_bind, exec_perform_of_ok hbody]
  refine Has.extend ?_ (exec_perform_extends _ _ _ _ _)
  rw [has_snoc]
  exact .inr ⟨_, rfl⟩

theorem masterGrpcAddr_eq (election : Option (RaftElection L)) :
    CNFAgent.masterGrpcAddr election = "" := by
  cases election with
  | none => rfl
  | some election => rfl

theorem handled_eq (codec : JsonCodec) (O : ProxyWorld) (election : Option (RaftElection L))
    (request : HttpRequest) :
    handled codec O election request = [⟨.callNext request, O [] (.callNext request)⟩] := by
  have hlocal : (exec O (proxy (.callNext request)) election []).2.2 =
      [⟨.callNext request, O [] (.callNext request)⟩] := by
    cases hO : O [] (.callNext request) with
    | ok v => rw [exec_perform_of_ok hO]; rfl
    | error e => rw [exec_perform_of_error hO]; rfl
  unfold handled proxyToMaster Coroutine.run
  by_cases hpath : request.path ∈ ["/healthz", "/readyz", "/metrics"]
  · rw [if_pos hpath]
    exact hlocal
  · rw [if_neg hpath, exec_bind]
    change (exec O (if CNFAgent.isMaster election = true then _ else _) election []).2.2 = _
    by_cases hmaster : CNFAgent.isMaster election = true
    · rw [if_pos hmaster]
      exact hlocal
    · rw [if_neg hmaster, if_pos (masterGrpcAddr_eq election)]
      exact hlocal

theorem never_master_serves (codec : JsonCodec) (O : ProxyWorld)
    (election : Option (RaftElection L)) (registry : List (String × String))
    (request : HttpRequest) : ¬ MasterServes codec O election registry request := by
  rintro ⟨-, hno⟩
  apply hno
  rw [handled_eq]
  exact ⟨_, List.mem_singleton_self _, request, rfl⟩

def observingWorker : RaftElection Unit where
  clusterId := "iad"
  grpcAddr := "iad:50051"
  state := { masterId := "fra" }

def listVmsRequest : HttpRequest where
  method := "GET"
  path := "/v1/vms"
  query := ""
  headers := []
  body := ""

/-- The master is registered, and the worker lists its own VMs. -/
theorem worker_serves :
    CNFAgent.isMaster (some observingWorker) = false ∧
      [("fra", "fra:50051"), ("iad", "iad:50051")].lookup observingWorker.state.masterId =
        some "fra:50051" ∧
      listVmsRequest.path ∉ ["/healthz", "/readyz", "/metrics"] ∧
      ¬ MasterServes .ok (fun _ _ => .error unavailable) (some observingWorker)
        [("fra", "fra:50051"), ("iad", "iad:50051")] listVmsRequest := by
  refine ⟨rfl, by decide, by decide, ?_⟩
  rintro ⟨-, hno⟩
  apply hno
  rw [handled_eq]
  exact ⟨_, List.mem_singleton_self _, listVmsRequest, rfl⟩

end NovaFederation
