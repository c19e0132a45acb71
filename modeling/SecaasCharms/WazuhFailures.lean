import SecaasCharms.WazuhHealth

/-!
# Failures of the Wazuh API

Every method of the class `Wazuh` turns its exceptions into texts that are
then used as data: as a bearer token, as the result of an action, as input to
a split.  An action handles the failures of its calls when it sends no token
that it did not get, and ends with `event.fail` exactly when a call fails.
-/

namespace SecaasCharms.Wazuh

open TextLines
open Exchanges

variable {printable : Char → Bool} {api : Api}

inductive Action where
  | listAgents
  | activeResponse (action agentId : Text)
  | healthCheck

def Action.perform (printable : Char → Bool) (api : Api)
    (osmConfig : Except Text Json) : Action → List HttpRequest × ActionResult
  | .listAgents => onListAgentsAction printable api osmConfig
  | .activeResponse action agentId =>
      onActiveResponseAction printable api osmConfig action agentId
  | .healthCheck => onHealthCheckAction printable api isResultKey osmConfig

/-- The call with the token has a decoded answer, and the result shows it. -/
def ShowsAnswer (printable : Char → Bool) (api : Api) (manager : Manager)
    (request : Json → HttpRequest) (result : ActionResult) : Prop :=
  ∃ token answer, Authenticates api manager token ∧
    api (request token) = .ok (.ok answer) ∧
    result = .output (answer.shown printable)

/-- Every call of the action succeeds, and the result carries what the API
answered. -/
def Answered (printable : Char → Bool) (api : Api) (manager : Manager) :
    Action → ActionResult → Prop
  | .listAgents =>
      ShowsAnswer printable api manager
        (getRequest printable manager agentsPath)
  | .activeResponse action agentId =>
      ShowsAnswer printable api manager
        (activeResponseRequest printable manager action agentId)
  | .healthCheck => fun result =>
      ∃ token running agents, Authenticates api manager token ∧
        Reports (api (clusterRequest printable manager token))
          (api (summaryRequest printable manager token)) running agents ∧
        ReportsHealth printable running agents result

/-- The first call authenticates and every later one carries what it
returned; the action fails exactly when one of the calls does. -/
structure HandlesFailures (printable : Char → Bool) (api : Api)
    (manager : Manager) (answered : ActionResult → Prop)
    (performed : List HttpRequest × ActionResult) : Prop where
  authenticatesFirst : performed.1.head? = some (authRequest manager)
  bearersReturned : ∀ request ∈ performed.1.tail,
    (∃ token, Authenticates api manager token) ∧
      ∀ shown, ("Authorization".toList, "Bearer ".toList ++ shown) ∈
          request.headers →
        ∃ token, Authenticates api manager token ∧
          shown = token.shown printable
  successReported : (∃ result, answered result) → answered performed.2
  failureReported : (¬ ∃ result, answered result) →
    ∃ message, performed.2 = .failed message

theorem Authenticates.token_eq {manager : Manager} {token : Json}
    (htoken : Authenticates api manager token) :
    (authToken api manager).2 = token :=
  congrArg Prod.snd (authToken_of_authenticates htoken)

theorem Authenticates.unique {manager : Manager} {token other : Json}
    (htoken : Authenticates api manager token)
    (hother : Authenticates api manager other) : token = other :=
  htoken.token_eq.symm.trans hother.token_eq

theorem bearer_returned {manager : Manager} {token : Json}
    (htoken : Authenticates api manager token) {shown : Text}
    (hshown : ("Authorization".toList, "Bearer ".toList ++ shown) ∈
      bearerHeaders printable token) :
    ∃ token, Authenticates api manager token ∧
      shown = token.shown printable := by
  refine ⟨token, htoken, ?_⟩
  unfold bearerHeaders at hshown
  cases List.mem_cons.mp hshown with
  | inl hcontent =>
      have hname : "Authorization".toList = "Content-Type".toList :=
        congrArg Prod.fst hcontent
      exact absurd hname (by decide)
  | inr hbearer =>
      have hvalue := congrArg Prod.snd (List.mem_singleton.mp hbearer)
      exact List.append_cancel_left hvalue

/-! ## One call with the token -/

theorem callHandles_iff {manager : Manager} {request : Json → HttpRequest}
    (hheaders : ∀ token, (request token).headers =
      bearerHeaders printable token) :
    HandlesFailures printable api manager
        (ShowsAnswer printable api manager request)
        ((callWithToken api request manager).1,
          .output ((callWithToken api request manager).2.shown printable)) ↔
      ∃ token answer, Authenticates api manager token ∧
        api (request token) = .ok (.ok answer) := by
  rw [callWithToken_eq]
  constructor
  · intro hhandles
    by_contra hfails
    have hnone : ¬ ∃ result,
        ShowsAnswer printable api manager request result := by
      rintro ⟨result, token, answer, htoken, hanswer, -⟩
      exact hfails ⟨token, answer, htoken, hanswer⟩
    cases hhandles.failureReported hnone with
    | intro message hfailed =>
        exact absurd hfailed (ActionResult.output_ne_failed _ message)
  · rintro ⟨token, answer, htoken, hanswer⟩
    rw [authToken_of_authenticates htoken, hanswer]
    have hshows : ShowsAnswer printable api manager request
        (.output (answer.shown printable)) :=
      ⟨token, answer, htoken, hanswer, rfl⟩
    constructor
    · rfl
    · intro later hlater
      rw [List.mem_singleton.mp hlater]
      refine ⟨⟨token, htoken⟩, ?_⟩
      intro shown hshown
      rw [hheaders token] at hshown
      exact bearer_returned htoken hshown
    · intro _
      exact hshows
    · intro hnone
      exact absurd ⟨_, hshows⟩ hnone

/-! ## The health check -/

theorem Raises.not_reports {cluster summary : Except Text Response}
    {exception : Text} (hraises : Raises cluster summary exception)
    (running agents : Json) : ¬ Reports cluster summary running agents := by
  rintro ⟨clusterAnswer, summaryAnswer, rfl, rfl, ⟨data, hdata, hrunning⟩,
    hagents⟩
  unfold Summarizes at hagents
  cases hraises with
  | summaryWithoutData cluster hwithout =>
      rw [hagents] at hwithout
      cases hwithout
  | clusterWithoutData hsummary hwithout =>
      rw [hdata] at hwithout
      cases hwithout
  | clusterWithoutRunning hsummary hfound hwithout =>
      rw [hdata] at hfound
      cases hfound
      rw [hrunning] at hwithout
      cases hwithout

/-- One of the two calls after the authentication fails: it is refused, not
decodable or without the field that is read. -/
def CallFails (cluster summary : Except Text Response) : Prop :=
  ∃ exception, Raises cluster summary exception

theorem callFails_iff (cluster summary : Except Text Response) :
    CallFails cluster summary ↔
      ¬ ∃ running agents, Reports cluster summary running agents := by
  constructor
  · rintro ⟨exception, hraises⟩ ⟨running, agents, hreports⟩
    exact hraises.not_reports running agents hreports
  · exact (raises_or_reports cluster summary).resolve_right

/-- The handler gives its results a key that ops refuses. -/
theorem setResults_healthFields (output agentsStatus : Text) :
    setResults printable isResultKey (healthFields output agentsStatus) =
      .error (invalidResultKey printable "agents_status".toList) :=
  rfl

theorem partsResult_failed (parts : List Text) :
    ∃ message, partsResult isResultKey printable parts = .failed message := by
  match parts with
  | [] => exact ⟨_, rfl⟩
  | [state] => exact ⟨_, rfl⟩
  | state :: agents :: rest =>
      rw [partsResult, apply_ite (setResults printable isResultKey),
        setResults_healthFields, setResults_healthFields, ite_self]
      exact ⟨_, rfl⟩

theorem unpacked_failed (packed : Option Text) :
    ∃ message, unpacked isResultKey printable packed = .failed message := by
  cases packed with
  | none => exact ⟨_, rfl⟩
  | some text => exact partsResult_failed (text.splitOn ';')

/-- What the health check sends after an authentication carries its token. -/
theorem healthCheck_bearers {manager : Manager} {token : Json}
    (htoken : Authenticates api manager token) :
    ∀ request ∈ (healthCheck printable api manager).1.tail,
      request.headers = bearerHeaders printable token := by
  have hcall := htoken.token_eq
  obtain ⟨later, hsent, hlater⟩ := healthCheck_sent printable api manager
  rw [hcall] at hsent hlater
  intro request hrequest
  rw [hsent, List.tail_cons, List.mem_cons] at hrequest
  rcases hrequest with rfl | hrest
  · rfl
  · rw [hlater request hrest]
    rfl

/-- The health check never reports a success, so it is right when one of its
calls fails, and no token was made up. -/
theorem healthHandles_iff {manager : Manager} :
    HandlesFailures printable api manager
        (Answered printable api manager .healthCheck)
        ((healthCheck printable api manager).1,
          unpacked isResultKey printable
            (healthCheck printable api manager).2) ↔
      ∃ token, Authenticates api manager token ∧
        CallFails (api (clusterRequest printable manager token))
          (api (summaryRequest printable manager token)) := by
  obtain ⟨later, hsent, _⟩ := healthCheck_sent printable api manager
  obtain ⟨message, hfailed⟩ :=
    @unpacked_failed printable (healthCheck printable api manager).2
  constructor
  · intro hhandles
    have htoken : ∃ token, Authenticates api manager token := by
      have hcluster := hhandles.bearersReturned
        (clusterRequest printable manager (authToken api manager).2)
      rw [hsent] at hcluster
      exact (hcluster List.mem_cons_self).1
    obtain ⟨token, htoken⟩ := htoken
    refine ⟨token, htoken, ?_⟩
    rw [callFails_iff]
    rintro ⟨running, agents, hreports⟩
    have hanswered : ∃ result,
        Answered printable api manager .healthCheck result :=
      ⟨_, token, running, agents, htoken, hreports, agents.shown printable,
        rfl, List.infix_rfl⟩
    obtain ⟨_, stated, shown, _, _, agentsStatus, hresult, _⟩ :=
      hhandles.successReported hanswered
    rw [hfailed] at hresult
    cases hresult
  · rintro ⟨token, htoken, hfails⟩
    rw [callFails_iff] at hfails
    have hnone : ¬ ∃ result,
        Answered printable api manager .healthCheck result := by
      rintro ⟨result, other, running, agents, hother, hreports, -⟩
      rw [hother.unique htoken] at hreports
      exact hfails ⟨running, agents, hreports⟩
    constructor
    · rw [hsent]
      rfl
    · intro request hrequest
      refine ⟨⟨token, htoken⟩, ?_⟩
      intro shown hshown
      rw [healthCheck_bearers htoken request hrequest] at hshown
      exact bearer_returned htoken hshown
    · intro hsuccess
      exact absurd hsuccess hnone
    · intro _
      exact ⟨message, hfailed⟩

/-! ## The three actions -/

/-- When an action handles the failures of its calls. -/
def FailuresAreHandled (printable : Char → Bool) (api : Api)
    (manager : Manager) : Action → Prop
  | .listAgents =>
      ∃ token answer, Authenticates api manager token ∧
        api (getRequest printable manager agentsPath token) = .ok (.ok answer)
  | .activeResponse action agentId =>
      ∃ token answer, Authenticates api manager token ∧
        api (activeResponseRequest printable manager action agentId token) =
          .ok (.ok answer)
  | .healthCheck =>
      ∃ token, Authenticates api manager token ∧
        CallFails (api (clusterRequest printable manager token))
          (api (summaryRequest printable manager token))

/-- An API that no connection reaches. -/
def unreachableApi : Api := fun _ => .error "Connection refused".toList

end SecaasCharms.Wazuh
