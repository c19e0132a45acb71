import SecaasCharms.Exchange
import SecaasCharms.SnortHealth

/-!
# Actions that ask a local service, and health checks

Two kinds of handlers appear in several charms.  One sends a request to a
service on the same host and prints the JSON of the answer.  The other looks
for the first live process of a service and reports its usage.
-/

namespace SecaasCharms

open TextLines
open Exchanges
open SnortCharm (Process Measurements)

/-! ## Requests -/

/-- `requests.get` and `requests.post`, as the charms call them. -/
inductive ServiceRequest where
  | get (url : Text) (verify : Bool)
  | post (url : Text) (headers : List (Text × Text)) (data : Text)
      (verify : Bool)

def ServiceRequest.headers : ServiceRequest → List (Text × Text)
  | .get _ _ => []
  | .post _ headers _ _ => headers

def ServiceRequest.data : ServiceRequest → Text
  | .get _ _ => []
  | .post _ _ data _ => data

/-- What `requests` gives or raises, and what `json()` of the answer does. -/
abbrev Service := ServiceRequest → Except Text (Except Text Json)

def requestAction (printable : Char → Bool) (service : Service)
    (failed : Text → ActionResult) (request : ServiceRequest) :
    List ServiceRequest × ActionResult :=
  Exchange.catching failed (do
    let result ← (⟨[request], service request⟩ : Exchange ServiceRequest Text _)
    let answer ← Exchange.silent result
    pure (.output (answer.shown printable)))

/-- The result of the action, by what came back. -/
def answerResult (printable : Char → Bool) (failed : Text → ActionResult) :
    Except Text (Except Text Json) → ActionResult
  | .error exception => failed exception
  | .ok (.error exception) => failed exception
  | .ok (.ok answer) => .output (answer.shown printable)

theorem requestAction_eq (printable : Char → Bool) (service : Service)
    (failed : Text → ActionResult) (request : ServiceRequest) :
    requestAction printable service failed request =
      ([request], answerResult printable failed (service request)) := by
  unfold requestAction
  cases hresult : service request with
  | error exception =>
      rw [Exchange.bind_of_error rfl]
      rfl
  | ok result =>
      rw [Exchange.bind_of_ok rfl]
      cases result with
      | error exception => rfl
      | ok answer => rfl

namespace IptnetflowCharm

def stoppingFailed (exception : Text) : ActionResult :=
  .failed ("NetFlow collector stopping failed with the following ".toList ++
    "exception: ".toList ++ exception)

def onStartZeekAction (printable : Char → Bool) (service : Service) :
    List ServiceRequest × ActionResult :=
  requestAction printable service stoppingFailed
    (.get "http://localhost:5000/start-zeek".toList false)

def onStopZeekAction (printable : Char → Bool) (service : Service) :
    List ServiceRequest × ActionResult :=
  requestAction printable service stoppingFailed
    (.get "http://localhost:5000/stop-zeek".toList false)

def onStopNetflowAction (printable : Char → Bool) (service : Service) :
    List ServiceRequest × ActionResult :=
  requestAction printable service stoppingFailed
    (.get "http://localhost:5000/stop-netflow".toList false)

end IptnetflowCharm

/-! ## Health checks -/

def SnortCharm.Process.Live (word : Text) (process : Process) : Prop :=
  word <:+: process.name ∧ ¬ "zombie".toList <:+: process.status

instance (word : Text) : DecidablePred (SnortCharm.Process.Live word) :=
  fun process => inferInstanceAs
    (Decidable (word <:+: process.name ∧
      ¬ "zombie".toList <:+: process.status))

/-- The word in the name of a process, and the two texts of the report. -/
structure HealthCheck where
  word : Text
  running : Text
  notRunning : Text

def HealthCheck.onHealthCheckAction (check : HealthCheck)
    (printable : Char → Bool) (measurements : Measurements)
    (processes : List Process) : ActionResult :=
  match processes.find? (fun process => process.Live check.word) with
  | none => .output check.notRunning
  | some process =>
      match measurements.usage process with
      | .error exception => healthCheckFailed exception
      | .ok usage =>
          match measurements.traffic with
          | .error exception => healthCheckFailed exception
          | .ok traffic =>
              statusReport printable check.running
                [processInfo process.name usage] traffic

def SnortCharm.healthCheck : HealthCheck where
  word := "snort".toList
  running := "Status: Snort is running".toList
  notRunning := "Stop: Snort service is not running".toList

def NtopngCharm.healthCheck : HealthCheck where
  word := "ntopng-main".toList
  running := "Status: Ntopng is running".toList
  notRunning := "Health-check: Ntopng is not running".toList

def IptnetflowCharm.healthCheck : HealthCheck where
  word := "softflowd".toList
  running :=
    "Status: Iptables is running and Softflowd is running".toList
  notRunning :=
    "Health-check: Iptables is running but Softflowd is not running".toList

def NtopngCharm.onHealthCheckAction (printable : Char → Bool)
    (measurements : Measurements) (processes : List Process) : ActionResult :=
  NtopngCharm.healthCheck.onHealthCheckAction printable measurements processes

def IptnetflowCharm.onHealthCheckAction (printable : Char → Bool)
    (measurements : Measurements) (processes : List Process) : ActionResult :=
  IptnetflowCharm.healthCheck.onHealthCheckAction printable measurements
    processes

theorem SnortCharm.onHealthCheckAction_eq (printable : Char → Bool)
    (measurements : Measurements) (processes : List Process) :
    SnortCharm.onHealthCheckAction printable measurements processes =
      SnortCharm.healthCheck.onHealthCheckAction printable measurements
        processes :=
  rfl

namespace HealthCheck

variable (check : HealthCheck) (printable : Char → Bool)

theorem onHealthCheckAction_of_none {processes : List Process}
    (hdead : ∀ process ∈ processes, ¬ process.Live check.word)
    (measurements : Measurements) :
    check.onHealthCheckAction printable measurements processes =
      .output check.notRunning := by
  have hnone : processes.find? (fun process => process.Live check.word) =
      none := by
    apply List.find?_eq_none.mpr
    intro process hprocess
    rw [decide_eq_true_eq]
    exact hdead process hprocess
  rw [onHealthCheckAction, hnone]

/-- The report is about the first live process. -/
theorem onHealthCheckAction_of_live {before after : List Process}
    {process : Process} (hlive : process.Live check.word)
    (hbefore : ∀ other ∈ before, ¬ other.Live check.word)
    {measurements : Measurements} {usage : Usage} {traffic : Traffic}
    (husage : measurements.usage process = .ok usage)
    (htraffic : measurements.traffic = .ok traffic) :
    check.onHealthCheckAction printable measurements
        (before ++ process :: after) =
      statusReport printable check.running [processInfo process.name usage]
        traffic := by
  have hfound : (before ++ process :: after).find?
      (fun process => process.Live check.word) = some process := by
    apply List.find?_eq_some_iff_append.mpr
    refine ⟨decide_eq_true hlive, before, after, rfl, ?_⟩
    intro other hother
    rw [Bool.not_eq_true', decide_eq_false_iff_not]
    exact hbefore other hother
  simp only [onHealthCheckAction, hfound, husage, htraffic]

end HealthCheck

end SecaasCharms
