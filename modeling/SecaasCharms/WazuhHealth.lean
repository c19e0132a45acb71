import SecaasCharms.WazuhCharm

/-!
# What the health check of Wazuh reports

`health_check` packs two answers into one text and the handler unpacks it
again.  The texts are followed through both modules, for every outcome of the
calls; the packing is lost on every pair of answers.
-/

namespace SecaasCharms.Wazuh

open TextLines
open Exchanges

variable (printable : Char → Bool) (api : Api)

/-! ## The answers -/

def IsString (value : Json) : Prop :=
  ∃ text, value = .str text

/-- The authentication call returns this token, a string. -/
def Authenticates (manager : Manager) (token : Json) : Prop :=
  IsString token ∧
    ∃ answer data, api (authRequest manager) = .ok (.ok answer) ∧
      answer.getItem "data".toList = .ok data ∧
      data.getItem "token".toList = .ok token

/-- An answer to the cluster status with this value in `data.running`. -/
def StatesRunning (cluster running : Json) : Prop :=
  ∃ data, cluster.getItem "data".toList = .ok data ∧
    data.getItem "running".toList = .ok running

/-- An answer to the agents summary with this value in `data`. -/
def Summarizes (summary agents : Json) : Prop :=
  summary.getItem "data".toList = .ok agents

def clusterRequest (manager : Manager) (token : Json) : HttpRequest :=
  getRequest printable manager clusterPath token

def summaryRequest (manager : Manager) (token : Json) : HttpRequest :=
  getRequest printable manager summaryPath token

/-! ## The token -/

variable {printable api}

theorem send_bind_of_ok {Result : Type} {request : HttpRequest}
    {response : Response} (hresponse : api request = .ok response)
    (next : Response → Calls Result) :
    send api request >>= next =
      ⟨request :: (next response).sent, (next response).outcome⟩ :=
  Exchange.bind_of_ok hresponse next

theorem send_bind_of_error {Result : Type} {request : HttpRequest}
    {exception : Text} (hresponse : api request = .error exception)
    (next : Response → Calls Result) :
    send api request >>= next = ⟨[request], .error exception⟩ :=
  Exchange.bind_of_error hresponse next

theorem authToken_of_authenticates {manager : Manager} {token : Json}
    (htoken : Authenticates api manager token) :
    authToken api manager = ([authRequest manager], token) := by
  obtain ⟨_, answer, data, hanswer, hdata, hfield⟩ := htoken
  unfold authToken
  rw [send_bind_of_ok hanswer]
  simp only [Exchange.silent_ok_bind, hdata, hfield]
  rfl

@[simp] theorem authToken_sent (manager : Manager) :
    (authToken api manager).1 = [authRequest manager] := by
  unfold authToken
  cases hresponse : api (authRequest manager) with
  | error exception =>
      rw [send_bind_of_error hresponse]
      rfl
  | ok response =>
      rw [send_bind_of_ok hresponse]
      cases response with
      | error exception => rfl
      | ok answer =>
          rw [Exchange.silent_ok_bind]
          cases answer.getItem "data".toList with
          | error exception => rfl
          | ok data =>
              rw [Exchange.silent_ok_bind]
              cases data.getItem "token".toList with
              | error exception => rfl
              | ok token => rfl

/-! ## One call with the token -/

def answerOrError : Except Text Response → Json
  | .ok (.ok answer) => answer
  | .ok (.error exception) => .str (errorText exception)
  | .error exception => .str (errorText exception)

theorem callWithToken_eq (request : Json → HttpRequest) (manager : Manager) :
    callWithToken api request manager =
      ([authRequest manager, request (authToken api manager).2],
        answerOrError (api (request (authToken api manager).2))) := by
  unfold callWithToken
  rw [Exchange.returned_bind, authToken_sent]
  cases hresponse : api (request (authToken api manager).2) with
  | error exception =>
      rw [send_bind_of_error hresponse]
      rfl
  | ok response =>
      rw [send_bind_of_ok hresponse]
      cases response with
      | error exception => rfl
      | ok answer => rfl

theorem reportCall_eq {osmConfig : Except Text Json} {manager : Manager}
    (hmanager : getWazuhManagerInstance printable osmConfig = .ok manager)
    (call : Manager → List HttpRequest × Json) :
    reportCall printable osmConfig call =
      ((call manager).1, .output ((call manager).2.shown printable)) := by
  unfold reportCall
  rw [hmanager, Exchange.silent_ok_bind, Exchange.returned_bind]
  change ((call manager).1 ++ [], _) = _
  rw [List.append_nil]

/-! ## The two calls of the health check -/

/-- The first exception that the two calls of `health_check` and their
decoding raise, in the order in which it looks at them. -/
inductive Raises : Except Text Response → Except Text Response → Text → Prop
  | clusterRefused {exception : Text} (summary : Except Text Response) :
      Raises (.error exception) summary exception
  | summaryRefused {exception : Text} (cluster : Response) :
      Raises (.ok cluster) (.error exception) exception
  | summaryUndecodable {exception : Text} (cluster : Response) :
      Raises (.ok cluster) (.ok (.error exception)) exception
  | summaryWithoutData {exception : Text} {summary : Json}
      (cluster : Response)
      (hdata : summary.getItem "data".toList = .error exception) :
      Raises (.ok cluster) (.ok (.ok summary)) exception
  | clusterUndecodable {exception : Text} {summary agents : Json}
      (hagents : Summarizes summary agents) :
      Raises (.ok (.error exception)) (.ok (.ok summary)) exception
  | clusterWithoutData {exception : Text} {cluster summary agents : Json}
      (hagents : Summarizes summary agents)
      (hdata : cluster.getItem "data".toList = .error exception) :
      Raises (.ok (.ok cluster)) (.ok (.ok summary)) exception
  | clusterWithoutRunning {exception : Text}
      {cluster data summary agents : Json}
      (hagents : Summarizes summary agents)
      (hdata : cluster.getItem "data".toList = .ok data)
      (hrunning : data.getItem "running".toList = .error exception) :
      Raises (.ok (.ok cluster)) (.ok (.ok summary)) exception

def Reports (cluster summary : Except Text Response) (running agents : Json) :
    Prop :=
  ∃ clusterAnswer summaryAnswer, cluster = .ok (.ok clusterAnswer) ∧
    summary = .ok (.ok summaryAnswer) ∧
    StatesRunning clusterAnswer running ∧ Summarizes summaryAnswer agents

theorem raises_or_reports (cluster summary : Except Text Response) :
    (∃ exception, Raises cluster summary exception) ∨
      ∃ running agents, Reports cluster summary running agents := by
  cases cluster with
  | error exception => exact Or.inl ⟨exception, .clusterRefused summary⟩
  | ok cluster =>
      cases summary with
      | error exception => exact Or.inl ⟨exception, .summaryRefused cluster⟩
      | ok summary =>
          cases summary with
          | error exception =>
              exact Or.inl ⟨exception, .summaryUndecodable cluster⟩
          | ok summary =>
              cases hagents : summary.getItem "data".toList with
              | error exception =>
                  exact Or.inl
                    ⟨exception, .summaryWithoutData cluster hagents⟩
              | ok agents =>
                  cases cluster with
                  | error exception =>
                      exact Or.inl ⟨exception, .clusterUndecodable hagents⟩
                  | ok cluster =>
                      cases hdata : cluster.getItem "data".toList with
                      | error exception =>
                          exact Or.inl
                            ⟨exception, .clusterWithoutData hagents hdata⟩
                      | ok data =>
                          cases hrunning :
                              data.getItem "running".toList with
                          | error exception =>
                              exact Or.inl ⟨exception,
                                .clusterWithoutRunning hagents hdata hrunning⟩
                          | ok running =>
                              exact Or.inr ⟨running, agents, cluster, summary,
                                rfl, rfl, ⟨data, hdata, hrunning⟩, hagents⟩

def packed (printable : Char → Bool) (running agents : Json) : Option Text :=
  if running.equalsText "yes".toList = true then
    some ("Health-check: Wazuh is running; ".toList ++ agents.shown printable)
  else none

theorem healthCheck_of_reports {manager : Manager} {running agents : Json}
    (hreports : Reports
      (api (clusterRequest printable manager (authToken api manager).2))
      (api (summaryRequest printable manager (authToken api manager).2))
      running agents) :
    (healthCheck printable api manager).2 =
      packed printable running agents := by
  unfold healthCheck
  rw [Exchange.returned_bind]
  generalize (authToken api manager).2 = token at hreports ⊢
  obtain ⟨clusterAnswer, summaryAnswer, hcluster, hsummary, hstates,
    hagents⟩ := hreports
  obtain ⟨data, hdata, hrunning⟩ := hstates
  unfold clusterRequest at hcluster
  unfold summaryRequest at hsummary
  unfold Summarizes at hagents
  rw [send_bind_of_ok hcluster, send_bind_of_ok hsummary]
  simp only [Exchange.silent_ok_bind, hagents, hdata, hrunning]
  unfold packed
  split
  · rfl
  · rfl

/-- The cluster status is always asked for, and nothing but the summary is
asked for after it. -/
theorem healthCheck_sent (printable : Char → Bool) (api : Api)
    (manager : Manager) :
    ∃ later, (healthCheck printable api manager).1 =
        authRequest manager ::
          clusterRequest printable manager (authToken api manager).2 ::
            later ∧
      ∀ request ∈ later, request =
        summaryRequest printable manager (authToken api manager).2 := by
  unfold healthCheck
  rw [Exchange.returned_bind, authToken_sent]
  generalize (authToken api manager).2 = token
  cases hcluster : api (clusterRequest printable manager token) with
  | error exception =>
      unfold clusterRequest at hcluster
      rw [send_bind_of_error hcluster]
      exact ⟨[], rfl, fun request hrequest => absurd hrequest
        List.not_mem_nil⟩
  | ok cluster =>
      unfold clusterRequest at hcluster
      rw [send_bind_of_ok hcluster, Exchange.catching_sent]
      refine ⟨_, rfl, ?_⟩
      apply Exchange.forall_sent_bind
      · intro request hrequest
        exact List.mem_singleton.mp hrequest
      · intro r2 hr2
        refine Exchange.forall_sent_bind (Exchange.forall_sent_silent r2) ?_
        intro summary hsummary
        refine Exchange.forall_sent_bind (Exchange.forall_sent_silent _) ?_
        intro agents hagents
        refine Exchange.forall_sent_bind (Exchange.forall_sent_silent cluster) ?_
        intro cluster hcluster
        refine Exchange.forall_sent_bind (Exchange.forall_sent_silent _) ?_
        intro data hdata
        refine Exchange.forall_sent_bind (Exchange.forall_sent_silent _) ?_
        intro running hrunning
        split
        · exact Exchange.forall_sent_silent _
        · exact Exchange.forall_sent_silent _

/-! ## Unpacking -/

variable (accepts : Text → Bool)

def settled : Except Text ActionResult → ActionResult
  | .error exception => healthCheckFailed exception
  | .ok result => result

def partsResult (printable : Char → Bool) : List Text → ActionResult
  | state :: agents :: _ =>
      settled (setResults printable accepts
        (if state = "yes".toList then healthFields clusterRunning agents
        else healthFields clusterNotRunning agents))
  | _ => healthCheckFailed "list index out of range".toList

def unpacked (printable : Char → Bool) : Option Text → ActionResult
  | none =>
      healthCheckFailed "'NoneType' object has no attribute 'split'".toList
  | some text => partsResult accepts printable (text.splitOn ';')

theorem catching_silent (requests : List HttpRequest)
    (outcome : Except Text ActionResult) :
    Exchange.catching healthCheckFailed
        (⟨requests ++ (Exchange.silent outcome : Calls ActionResult).sent,
          (Exchange.silent outcome : Calls ActionResult).outcome⟩ :
            Calls ActionResult) =
      (requests, settled outcome) := by
  have hsent : requests ++ [] = requests := List.append_nil requests
  cases outcome with
  | error exception => exact Prod.ext hsent rfl
  | ok result => exact Prod.ext hsent rfl

theorem onHealthCheckAction_eq {osmConfig : Except Text Json}
    {manager : Manager}
    (hmanager : getWazuhManagerInstance printable osmConfig = .ok manager) :
    onHealthCheckAction printable api accepts osmConfig =
      ((healthCheck printable api manager).1,
        unpacked accepts printable (healthCheck printable api manager).2) := by
  unfold onHealthCheckAction
  rw [hmanager, Exchange.silent_ok_bind, Exchange.returned_bind]
  generalize (healthCheck printable api manager).1 = requests
  have hsent : requests ++ [] = requests := List.append_nil requests
  cases (healthCheck printable api manager).2 with
  | none => exact Prod.ext hsent rfl
  | some text =>
      simp only [splitResult, unpacked, Exchange.silent_ok_bind]
      cases text.splitOn ';' with
      | nil => exact Prod.ext hsent rfl
      | cons state rest =>
          cases rest with
          | nil => exact Prod.ext hsent rfl
          | cons agents rest =>
              simp only [itemAt, partsResult, List.getElem?_cons_zero,
                List.getElem?_cons_succ, Exchange.silent_ok_bind]
              split
              · exact catching_silent requests _
              · exact catching_silent requests _

variable {accepts}

/-- No text that the producer writes starts with the word that the consumer
looks for. -/
theorem unpacked_of_mem {text : Text} (htext : ';' ∈ text)
    (hhead : text.head? ≠ some 'y') :
    ∃ agents, unpacked accepts printable (some text) =
      settled (setResults printable accepts
        (healthFields clusterNotRunning agents)) := by
  obtain ⟨state, rest, rfl, hstate⟩ := List.eq_append_cons_of_mem htext
  have hno : state ≠ "yes".toList := by
    intro heq
    rw [heq] at hhead
    exact hhead rfl
  change ∃ agents, partsResult accepts printable
    ((state ++ ';' :: rest).splitOn ';') = _
  rw [splitOn_append_cons hstate]
  cases hrest : rest.splitOn ';' with
  | nil => exact absurd hrest (List.splitOn_ne_nil ';' rest)
  | cons agents parts =>
      refine ⟨agents, ?_⟩
      rw [partsResult, if_neg hno]

theorem settled_cases (fields : List (Text × Text)) :
    settled (setResults printable accepts fields) = .results fields ∨
      ∃ message, settled (setResults printable accepts fields) =
        .failed message := by
  unfold setResults
  cases fields.find? (fun field => !accepts field.1) with
  | none => exact Or.inl rfl
  | some field => exact Or.inr ⟨_, rfl⟩

/-! ## The health check -/

/-- The results say of the cluster what the API said of it, and show the
whole summary of the agents. -/
def ReportsHealth (printable : Char → Bool) (running agents : Json)
    (result : ActionResult) : Prop :=
  ∃ agentsStatus,
    result = healthResults
      (if running.equalsText "yes".toList = true then clusterRunning
        else clusterNotRunning) agentsStatus ∧
    agents.shown printable <:+: agentsStatus

theorem not_reportsHealth_of_notRunning {running agents : Json}
    (hyes : running.equalsText "yes".toList = true) (shown : Text) :
    ¬ ReportsHealth printable running agents
      (healthResults clusterNotRunning shown) := by
  rintro ⟨agentsStatus, hresult, -⟩
  rw [if_pos hyes] at hresult
  have houtput : clusterNotRunning = clusterRunning := by
    injection hresult with hfields
    injection hfields with hfield
    injection hfield
  exact absurd houtput (by decide)

theorem not_reportsHealth_of_failed (running agents : Json) (message : Text) :
    ¬ ReportsHealth printable running agents (.failed message) := by
  rintro ⟨agentsStatus, hresult, -⟩
  cases hresult

theorem unpacked_packed_not_reportsHealth (running agents : Json) :
    ¬ ReportsHealth printable running agents
      (unpacked accepts printable (packed printable running agents)) := by
  by_cases hyes : running.equalsText "yes".toList = true
  · have hsemicolon : ';' ∈ "Health-check: Wazuh is running; ".toList ++
        agents.shown printable :=
      List.mem_append_left _ (by decide)
    have hhead : ("Health-check: Wazuh is running; ".toList ++
        agents.shown printable).head? ≠ some 'y' := by
      intro hhead
      have hfirst : some 'H' = some 'y' := hhead
      cases hfirst
    obtain ⟨shown, hunpacked⟩ := unpacked_of_mem hsemicolon hhead
    rw [packed, if_pos hyes, hunpacked]
    rcases settled_cases (healthFields clusterNotRunning shown) with
      hset | ⟨message, hfailed⟩
    · rw [hset]
      exact not_reportsHealth_of_notRunning hyes shown
    · rw [hfailed]
      exact not_reportsHealth_of_failed running agents message
  · rw [packed, if_neg hyes]
    exact not_reportsHealth_of_failed running agents _

/-- Whatever the API answers about the cluster and the agents, and whichever
keys are accepted, the health check does not report it: the consumer looks for
the word `yes` in front of the first semicolon, where the producer writes a
sentence, and the producer returns `None` for a cluster that does not run. -/
theorem not_reportsHealth_of_answers (printable : Char → Bool) (api : Api)
    (accepts : Text → Bool) (osmConfig : Except Text Json) (manager : Manager)
    (hmanager : getWazuhManagerInstance printable osmConfig = .ok manager)
    (cluster summary agents : Json) (running : Text)
    (hcluster : ∀ token,
      api (clusterRequest printable manager token) = .ok (.ok cluster))
    (hsummary : ∀ token,
      api (summaryRequest printable manager token) = .ok (.ok summary))
    (hrunning : StatesRunning cluster (.str running))
    (hagents : Summarizes summary agents) :
    ¬ ReportsHealth printable (.str running) agents
      (onHealthCheckAction printable api accepts osmConfig).2 := by
  have hreports : Reports
      (api (clusterRequest printable manager (authToken api manager).2))
      (api (summaryRequest printable manager (authToken api manager).2))
      (.str running) agents :=
    ⟨cluster, summary, hcluster _, hsummary _, hrunning, hagents⟩
  rw [onHealthCheckAction_eq accepts hmanager, healthCheck_of_reports hreports]
  exact unpacked_packed_not_reportsHealth (.str running) agents

/-! ### A manager and an API to run the actions against -/

def sampleConfig : Except Text Json :=
  .ok (.obj [("v0".toList, .obj [("k8s".toList, .obj [("services".toList,
    .obj [("wazuh".toList, .obj [
      ("ip".toList, .arr [.str "10.0.0.5".toList]),
      ("ports".toList, .obj [("api".toList,
        .obj [("port".toList, .int 55000)])])])])])])])

def sampleManager : Manager := ⟨"https://10.0.0.5:55000".toList⟩

def sampleToken : Json :=
  .obj [("data".toList, .obj [("token".toList, .str "eyJ0".toList)])]

def runningCluster : Json :=
  .obj [("data".toList, .obj [("running".toList, .str "yes".toList)])]

def activeAgents : Json :=
  .obj [("active".toList, .int 3), ("total".toList, .int 3)]

def sampleApi : Api := fun request =>
  if request.url = (authRequest sampleManager).url then
    .ok (.ok sampleToken)
  else if request.url = sampleManager.url ++ clusterPath then
    .ok (.ok runningCluster)
  else
    .ok (.ok (.obj [("data".toList, activeAgents)]))

theorem not_reportsHealth_of_sample :
    ¬ ReportsHealth (fun _ => true) (.str "yes".toList) activeAgents
      (onHealthCheckAction (fun _ => true) sampleApi (fun _ => true)
        sampleConfig).2 :=
  not_reportsHealth_of_answers (fun _ => true) sampleApi (fun _ => true)
    sampleConfig sampleManager rfl runningCluster _ activeAgents "yes".toList
    (fun _ => rfl) (fun _ => rfl) ⟨_, rfl, rfl⟩ rfl

/-- The cluster runs, and the action says that it does not. -/
theorem healthCheck_denies_running_cluster :
    (∀ token, sampleApi (clusterRequest (fun _ => true) sampleManager token) =
        .ok (.ok runningCluster)) ∧
      StatesRunning runningCluster (.str "yes".toList) ∧
      (onHealthCheckAction (fun _ => true) sampleApi (fun _ => true)
        sampleConfig).2 =
        healthResults clusterNotRunning
          " \x7b'active': 3, 'total': 3\x7d".toList ∧
      ¬ ReportsHealth (fun _ => true) (.str "yes".toList) activeAgents
        (onHealthCheckAction (fun _ => true) sampleApi (fun _ => true)
        sampleConfig).2 := by
  have hresult :
      (onHealthCheckAction (fun _ => true) sampleApi (fun _ => true)
        sampleConfig).2 =
        healthResults clusterNotRunning
          " \x7b'active': 3, 'total': 3\x7d".toList := by decide
  have hwrong := @not_reportsHealth_of_notRunning (fun _ => true)
    (.str "yes".toList) activeAgents rfl
    " \x7b'active': 3, 'total': 3\x7d".toList
  rw [hresult]
  exact ⟨fun _ => rfl, ⟨_, rfl, rfl⟩, rfl, hwrong⟩

end SecaasCharms.Wazuh
