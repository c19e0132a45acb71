import SecaasCharms.Exchange
import SecaasCharms.JsonValues

/-!
# The Wazuh charm

`Wazuh` (wazuh.py) calls the API of the Wazuh manager and turns every
exception into a text.  The action handlers (charm.py) turn what it returns
into the result of the action.
-/

namespace SecaasCharms.Wazuh

open TextLines
open Exchanges

/-! ## The API as `requests` presents it -/

inductive HttpMethod where
  | get
  | put
  deriving DecidableEq

structure HttpRequest where
  method : HttpMethod
  url : Text
  basicAuth : Option (Text × Text)
  headers : List (Text × Text)
  params : List (Text × Text)
  data : Option Text
  verify : Bool
  deriving DecidableEq

/-- A response, by what its `json()` gives or raises. -/
abbrev Response := Except Text Json

/-- `requests.get` and `requests.put`, which answer or raise. -/
abbrev Api := HttpRequest → Except Text Response

abbrev Calls := Exchange HttpRequest Text

def send (api : Api) (request : HttpRequest) : Calls Response :=
  ⟨[request], api request⟩

/-! ## The manager that the charm is configured with -/

structure Manager where
  url : Text

/-- `OsmConfig.get_service`, given what `json.loads` makes of `osm-config`. -/
def getService (osmConfig : Except Text Json) (serviceName : Text) :
    Except Text Json := do
  let config ← osmConfig
  let v0 ← config.getItem "v0".toList
  let k8s ← v0.getItem "k8s".toList
  let all ← k8s.getItem "services".toList
  let fields ← all.items
  let services := fields.filterMap (fun field =>
    if serviceName = field.1 then some field.2 else none)
  Json.getIndex 0 (.arr services)

def Service.ip (service : Json) : Except Text Json := do
  let ips ← service.getItem "ip".toList
  ips.getIndex 0

def Service.getPort (service : Json) (portName : Text) :
    Except Text Json := do
  let ports ← service.getItem "ports".toList
  let port ← ports.getItem portName
  port.getItem "port".toList

def getWazuhManagerInstance (printable : Char → Bool)
    (osmConfig : Except Text Json) : Except Text Manager := do
  let service ← getService osmConfig "wazuh".toList
  let ip ← Service.ip service
  let port ← Service.getPort service "api".toList
  return ⟨"https://".toList ++ ip.shown printable ++ ":".toList ++
    port.shown printable⟩

/-! ## The requests -/

def authRequest (manager : Manager) : HttpRequest where
  method := .get
  url := manager.url ++ "/security/user/authenticate".toList
  basicAuth := some ("user".toList, "password".toList)
  headers := []
  params := []
  data := none
  verify := false

def authorization (printable : Char → Bool) (token : Json) : Text × Text :=
  ("Authorization".toList, "Bearer ".toList ++ token.shown printable)

def bearerHeaders (printable : Char → Bool) (token : Json) :
    List (Text × Text) :=
  [("Content-Type".toList, "application/json".toList),
    authorization printable token]

def getRequest (printable : Char → Bool) (manager : Manager) (path : Text)
    (token : Json) : HttpRequest where
  method := .get
  url := manager.url ++ path
  basicAuth := none
  headers := bearerHeaders printable token
  params := []
  data := none
  verify := false

def agentsPath : Text := "/agents".toList

def clusterPath : Text := "/cluster/status".toList

def summaryPath : Text := "/agents/summary/status".toList

def activeResponseData (action : Text) : Text :=
  "\x7b\"command\": \"!".toList ++ action ++
    "\", \"custom\": true\x7d".toList

def activeResponseRequest (printable : Char → Bool) (manager : Manager)
    (action agentId : Text) (token : Json) : HttpRequest where
  method := .put
  url := manager.url ++ "/active-response".toList
  basicAuth := none
  headers := bearerHeaders printable token
  params := [("agents_list".toList, agentId)]
  data := some (activeResponseData action)
  verify := false

/-! ## The class `Wazuh` -/

def errorText (exception : Text) : Text :=
  "Error: ".toList ++ exception

section

variable (printable : Char → Bool) (api : Api)

/-- `__auth_token`: the token, or a text that is not one. -/
def authToken (manager : Manager) : List HttpRequest × Json :=
  Exchange.catching (fun e => .str (errorText e)) (do
    let response ← send api (authRequest manager)
    let answer ← Exchange.silent response
    let data ← Exchange.silent (answer.getItem "data".toList)
    Exchange.silent (data.getItem "token".toList))

/-- The body that `list_agents` and `active_response` share: one request with
the token, and its decoded answer. -/
def callWithToken (request : Json → HttpRequest) (manager : Manager) :
    List HttpRequest × Json :=
  Exchange.catching (fun e => .str (errorText e)) (do
    let token ← Exchange.returned (authToken api manager)
    let r ← send api (request token)
    Exchange.silent r)

def listAgents (manager : Manager) : List HttpRequest × Json :=
  callWithToken api (getRequest printable manager agentsPath) manager

def activeResponse (manager : Manager) (action agentId : Text) :
    List HttpRequest × Json :=
  callWithToken api (activeResponseRequest printable manager action agentId)
    manager

/-- `health_check`, which returns `None` when the cluster does not run. -/
def healthCheck (manager : Manager) : List HttpRequest × Option Text :=
  Exchange.catching (fun e => some (errorText e)) (do
    let token ← Exchange.returned (authToken api manager)
    let r ← send api (getRequest printable manager clusterPath token)
    let r2 ← send api (getRequest printable manager summaryPath token)
    let summary ← Exchange.silent r2
    let agents ← Exchange.silent (summary.getItem "data".toList)
    let cluster ← Exchange.silent r
    let data ← Exchange.silent (cluster.getItem "data".toList)
    let running ← Exchange.silent (data.getItem "running".toList)
    if running.equalsText "yes".toList = true then
      pure (some ("Health-check: Wazuh is running; ".toList ++
        agents.shown printable))
    else
      pure none)

/-! ## The action handlers -/

def listFailed (exception : Text) : ActionResult :=
  .failed ("Failed to list wazuh agents: ".toList ++ exception)

def healthCheckFailed (exception : Text) : ActionResult :=
  .failed ("Health-check failed with the following exception: ".toList ++
    exception)

/-- The handlers of `list-agents` and `active-response`, which also share the
text of their failure. -/
def reportCall (osmConfig : Except Text Json)
    (call : Manager → List HttpRequest × Json) :
    List HttpRequest × ActionResult :=
  Exchange.catching listFailed (do
    let wazuh ← Exchange.silent (getWazuhManagerInstance printable osmConfig)
    let result ← Exchange.returned (call wazuh)
    pure (.output (result.shown printable)))

def onListAgentsAction (osmConfig : Except Text Json) :
    List HttpRequest × ActionResult :=
  reportCall printable osmConfig (listAgents printable api)

def onActiveResponseAction (osmConfig : Except Text Json)
    (action agentId : Text) : List HttpRequest × ActionResult :=
  reportCall printable osmConfig
    (fun wazuh => activeResponse printable api wazuh action agentId)

def healthFields (output agentsStatus : Text) : List (Text × Text) :=
  [("output".toList, output), ("agents_status".toList, agentsStatus)]

def healthResults (output agentsStatus : Text) : ActionResult :=
  .results (healthFields output agentsStatus)

def clusterRunning : Text := "Health-check: Wazuh cluster is running".toList

def clusterNotRunning : Text :=
  "Health-check: Wazuh cluster is not running".toList

/-- `result.split(";")`. -/
def splitResult : Option Text → Except Text (List Text)
  | none => .error "'NoneType' object has no attribute 'split'".toList
  | some result => .ok (result.splitOn ';')

/-- `values[index]` on a list. -/
def itemAt (values : List Text) (index : ℕ) : Except Text Text :=
  match values[index]? with
  | some value => .ok value
  | none => .error "list index out of range".toList

/-- The handler of `health-check`, given which result keys are accepted. -/
def onHealthCheckAction (accepts : Text → Bool)
    (osmConfig : Except Text Json) : List HttpRequest × ActionResult :=
  Exchange.catching healthCheckFailed (do
    let wazuh ← Exchange.silent (getWazuhManagerInstance printable osmConfig)
    let result ← Exchange.returned (healthCheck printable api wazuh)
    let result ← Exchange.silent (splitResult result)
    let state ← Exchange.silent (itemAt result 0)
    let agents ← Exchange.silent (itemAt result 1)
    if state = "yes".toList then
      Exchange.silent
        (setResults printable accepts (healthFields clusterRunning agents))
    else
      Exchange.silent
        (setResults printable accepts
          (healthFields clusterNotRunning agents)))

end

end SecaasCharms.Wazuh
