import SecaasCharms.JsonTextSize
import SecaasCharms.WazuhHealth

/-!
# The JSON bodies that two charms put together

`active_response` of the Wazuh charm and `start-netflow` of the iptnetflow
charm build the body of a request by concatenation.  A receiver decodes it to
exactly the parameters of the action when every character of the texts stands
for itself in a JSON string, and in no other case.
-/

namespace SecaasCharms

open TextLines
open JsonText
open Exchanges

/-! ## `start-netflow` -/

namespace IptnetflowCharm

structure Post where
  url : Text
  headers : List (Text × Text)
  data : Text
  verify : Bool

def startNetflowData (ip : Text) (port : ℤ) (iface : Text) : Text :=
  "\x7b\"ip\": \"".toList ++ ip ++ "\", \"port\": ".toList ++
    (toString port).toList ++ ", \"iface\": \"".toList ++ iface ++
    "\"\x7d".toList

def startNetflowRequest (ip : Text) (port : ℤ) (iface : Text) : Post where
  url := "http://localhost:5000/start-netflow".toList
  headers := [("Content-Type".toList, "application/json".toList)]
  data := startNetflowData ip port iface
  verify := false

def startNetflowFailed (exception : Text) : ActionResult :=
  .failed ("NetFlow collector failed with the following exception: ".toList ++
    exception)

/-- `requests.post` answers or raises, and so does `json()` of the answer. -/
def onStartNetflowAction (printable : Char → Bool)
    (post : Post → Except Text (Except Text Json)) (ip : Text) (port : ℤ)
    (iface : Text) : List Post × ActionResult :=
  let request := startNetflowRequest ip port iface
  Exchange.catching startNetflowFailed (do
    let result ← (⟨[request], post request⟩ : Exchange Post Text _)
    let answer ← Exchange.silent result
    pure (.output (answer.shown printable)))

theorem onStartNetflowAction_sent (printable : Char → Bool)
    (post : Post → Except Text (Except Text Json)) (ip : Text) (port : ℤ)
    (iface : Text) :
    (onStartNetflowAction printable post ip port iface).1 =
      [startNetflowRequest ip port iface] := by
  unfold onStartNetflowAction
  simp only [Exchange.catching_sent]
  cases hresult : post (startNetflowRequest ip port iface) with
  | error exception => rw [Exchange.bind_of_error rfl]
  | ok result =>
      rw [Exchange.bind_of_ok rfl]
      cases result with
      | error exception => rfl
      | ok answer => rfl

end IptnetflowCharm

/-! ## `active-response` -/

theorem Wazuh.activeResponse_bodies (printable : Char → Bool)
    (api : Wazuh.Api) (manager : Wazuh.Manager) (action agentId : Text) :
    (Wazuh.activeResponse printable api manager action agentId).1.filterMap
        Wazuh.HttpRequest.data =
      [Wazuh.activeResponseData action] := by
  unfold Wazuh.activeResponse
  rw [Wazuh.callWithToken_eq]
  rfl

/-! ## What a body carries -/

/-- There is one body, and its text decodes to exactly the given members. -/
def SendsFields (bodies : List Text) (members : List (Text × Value)) : Prop :=
  ∃ body, bodies = [body] ∧ Carries body members

theorem sendsFields_singleton {body : Text}
    {members : List (Text × Value)} :
    SendsFields [body] members ↔ Carries body members := by
  constructor
  · intro hsends
    rcases hsends with ⟨other, hbody, hcarries⟩
    rw [(List.cons.inj hbody).1]
    exact hcarries
  · intro hcarries
    exact ⟨body, rfl, hcarries⟩

def activeResponseFields (action : Text) : List (Text × Value) :=
  [("command".toList, .str ('!' :: action)), ("custom".toList, .bool true)]

def startNetflowFields (ip : Text) (port : ℤ) (iface : Text) :
    List (Text × Value) :=
  [("ip".toList, .str ip), ("port".toList, .int port),
    ("iface".toList, .str iface)]

theorem activeResponseFields_distinct (action : Text) :
    ((activeResponseFields action).map Prod.fst).Nodup := by
  simp only [activeResponseFields, List.map_cons, List.map_nil]
  decide

theorem startNetflowFields_distinct (ip : Text) (port : ℤ) (iface : Text) :
    ((startNetflowFields ip port iface).map Prod.fst).Nodup := by
  simp only [startNetflowFields, List.map_cons, List.map_nil]
  decide

/-! ## The fixed parts of the bodies -/

theorem run_commandOpening :
    run start "\x7b\"command\": \"!".toList =
      some ⟨.string .value ['!'], [.obj [] "command".toList]⟩ :=
  rfl

theorem run_ipOpening :
    run start "\x7b\"ip\": \"".toList =
      some ⟨.string .value [], [.obj [] "ip".toList]⟩ :=
  rfl

def customClosing : Text := nextMember "custom".toList ++ " true\x7d".toList

theorem run_customClosing (members : List (Text × Value)) (key text : Text)
    (stack : List Frame) :
    run ⟨.string .value text, .obj members key :: stack⟩ customClosing =
      some ⟨.after (.obj (members ++ [(key, .str text)] ++
        [("custom".toList, .bool true)])), stack⟩ := by
  rw [customClosing, run_append, run_nextMember (by decide),
    Option.bind_some]
  rfl

def portAndIface (port : ℤ) : Text :=
  nextMember "port".toList ++ (" ".toList ++ (intText port ++
    ", \"iface\": \"".toList))

theorem run_portAndIface (port : ℤ) (members : List (Text × Value))
    (key text : Text) (stack : List Frame) :
    run ⟨.string .value text, .obj members key :: stack⟩
        (portAndIface port) =
      some ⟨.string .value [], .obj (members ++ [(key, .str text)] ++
        [("port".toList, .int port)]) "iface".toList :: stack⟩ := by
  have hspace : run ⟨.value, .obj (members ++ [(key, .str text)])
      "port".toList :: stack⟩ " ".toList = some ⟨.value,
        .obj (members ++ [(key, .str text)]) "port".toList :: stack⟩ := rfl
  have hrest : ", \"iface\": \"".toList =
      ',' :: " \"iface\": \"".toList := rfl
  rw [portAndIface, run_append, run_nextMember (by decide), Option.bind_some,
    run_append, hspace, Option.bind_some, run_append, run_intText,
    Option.bind_some, hrest, run_cons, step_number_comma]
  rfl

theorem activeResponseData_eq (action : Text) :
    Wazuh.activeResponseData action =
      "\x7b\"command\": \"!".toList ++ (action ++ customClosing) := by
  have hclosing : customClosing = "\", \"custom\": true\x7d".toList := by
    decide
  rw [hclosing]
  exact List.append_assoc _ _ _

theorem startNetflowData_eq (ip : Text) (port : ℤ) (iface : Text) :
    IptnetflowCharm.startNetflowData ip port iface =
      "\x7b\"ip\": \"".toList ++ (ip ++ (portAndIface port ++ (iface ++
        "\"\x7d".toList))) := by
  have hport : "\", \"port\": ".toList =
      nextMember "port".toList ++ " ".toList := by
    decide
  have hassoc : ∀ a b c d e f g h : Text,
      a ++ b ++ (c ++ d) ++ e ++ f ++ g ++ h =
        a ++ (b ++ (c ++ (d ++ (e ++ f)) ++ (g ++ h))) := by
    simp
  unfold IptnetflowCharm.startNetflowData
  rewrite [hport]
  exact hassoc _ _ _ _ _ _ _ _

theorem decode_append {opening : Text} {state : State}
    (hopening : run start opening = some state) (rest : Text) :
    decode (opening ++ rest) = (run state rest).bind finish := by
  rw [decode, run_append, hopening]
  rfl

/-! ## `active-response` carries its action -/

theorem carries_activeResponseData {action : Text} (haction : Plain action) :
    Carries (Wazuh.activeResponseData action)
      (activeResponseFields action) := by
  apply carries_of_decode (activeResponseFields_distinct action)
  rw [activeResponseData_eq, decode_append run_commandOpening, run_append,
    run_string_of_plain haction, Option.bind_some, run_customClosing]
  rfl

theorem plain_of_carries_activeResponseData {action : Text}
    (hcarries : Carries (Wazuh.activeResponseData action)
      (activeResponseFields action)) : Plain action := by
  rcases hcarries with ⟨decoded, hdecode, hmember⟩
  have hsize := membersSize_le_of_member
    (activeResponseFields_distinct action) hmember
  rw [activeResponseData_eq, decode_append run_commandOpening,
    run_append, Option.bind_assoc] at hdecode
  rcases Option.bind_eq_some_iff.mp hdecode with ⟨behind, haction, hclosing⟩
  rcases Option.bind_eq_some_iff.mp hclosing with ⟨last, hlast, hfinish⟩
  have hbehind : ∃ members key text stack,
      behind = ⟨.string .value text, .obj members key :: stack⟩ := by
    rw [customClosing, run_append] at hlast
    rcases Option.bind_eq_some_iff.mp hlast with ⟨next, hnext, _⟩
    exact eq_of_run_nextMember rfl (by decide) hnext
  rcases hbehind with ⟨members, key, text, stack, rfl⟩
  rw [run_customClosing] at hlast
  have hstack : stack = [] ∧ decoded = members ++ [(key, .str text)] ++
      [("custom".toList, .bool true)] := by
    rw [← Option.some.inj hlast] at hfinish
    cases stack with
    | nil => exact ⟨rfl, (Value.obj.inj (Option.some.inj hfinish)).symm⟩
    | cons frame stack => contradiction
  cases plain_or_size_lt haction with
  | inl hplain => exact hplain
  | inr hlt =>
      rw [hstack.2] at hsize
      simp [hstack.1, activeResponseFields] at hsize hlt
      omega

/-! ## `start-netflow` carries its parameters -/

theorem carries_startNetflowData {ip iface : Text} (hip : Plain ip)
    (hiface : Plain iface) (port : ℤ) :
    Carries (IptnetflowCharm.startNetflowData ip port iface)
      (startNetflowFields ip port iface) := by
  apply carries_of_decode (startNetflowFields_distinct ip port iface)
  rw [startNetflowData_eq, decode_append run_ipOpening, run_append,
    run_string_of_plain hip, Option.bind_some, run_append, run_portAndIface,
    Option.bind_some, run_append, run_string_of_plain hiface,
    Option.bind_some]
  rfl

theorem plain_of_carries_startNetflowData {ip iface : Text} {port : ℤ}
    (hcarries : Carries (IptnetflowCharm.startNetflowData ip port iface)
      (startNetflowFields ip port iface)) : Plain ip ∧ Plain iface := by
  rcases hcarries with ⟨decoded, hdecode, hmember⟩
  have hsize := membersSize_le_of_member
    (startNetflowFields_distinct ip port iface) hmember
  rw [startNetflowData_eq, decode_append run_ipOpening, run_append,
    Option.bind_assoc] at hdecode
  rcases Option.bind_eq_some_iff.mp hdecode with ⟨behindIp, hip, hrest⟩
  rw [run_append, Option.bind_assoc] at hrest
  rcases Option.bind_eq_some_iff.mp hrest with ⟨inIface, hmiddle, hrest⟩
  rw [run_append, Option.bind_assoc] at hrest
  rcases Option.bind_eq_some_iff.mp hrest with ⟨behindIface, hiface, hclosing⟩
  have hbehindIp : ∃ members key text stack,
      behindIp = ⟨.string .value text, .obj members key :: stack⟩ := by
    rw [portAndIface, run_append] at hmiddle
    rcases Option.bind_eq_some_iff.mp hmiddle with ⟨next, hnext, _⟩
    exact eq_of_run_nextMember rfl (by decide) hnext
  rcases hbehindIp with ⟨members, key, text, stack, rfl⟩
  rw [run_portAndIface] at hmiddle
  rcases eq_of_finish_closing hclosing with
    ⟨allMembers, last, value, rfl, hdecoded⟩
  have hdecoded := Value.obj.inj hdecoded
  have hmiddle := Option.some.inj hmiddle
  subst hmiddle hdecoded
  have hipSize := size_run_le hip
  have hifaceSize := size_run_le hiface
  constructor
  · cases plain_or_size_lt hip with
    | inl hplain => exact hplain
    | inr hlt =>
        simp [startNetflowFields] at hsize hlt hifaceSize
        omega
  · cases plain_or_size_lt hiface with
    | inl hplain => exact hplain
    | inr hlt =>
        simp [startNetflowFields] at hsize hlt hipSize
        omega

/-- The bodies that the two actions build, as texts, carry exactly the
parameters when the texts among these need no escape in a JSON string, and only
then. -/
theorem bodies_sendFields_iff (printable : Char → Bool) (api : Wazuh.Api)
    (manager : Wazuh.Manager) (action agentId : Text)
    (post : IptnetflowCharm.Post → Except Text (Except Text Json))
    (ip : Text) (port : ℤ) (iface : Text) :
    (SendsFields
        ((Wazuh.activeResponse printable api manager action
          agentId).1.filterMap Wazuh.HttpRequest.data)
        (activeResponseFields action) ↔
      Plain action) ∧
    (SendsFields
        ((IptnetflowCharm.onStartNetflowAction printable post ip port
          iface).1.map IptnetflowCharm.Post.data)
        (startNetflowFields ip port iface) ↔
      Plain ip ∧ Plain iface) := by
  constructor
  · rw [Wazuh.activeResponse_bodies, sendsFields_singleton]
    exact ⟨plain_of_carries_activeResponseData, carries_activeResponseData⟩
  · rw [IptnetflowCharm.onStartNetflowAction_sent, List.map_singleton,
      sendsFields_singleton]
    constructor
    · exact plain_of_carries_startNetflowData
    · intro hplain
      exact carries_startNetflowData hplain.1 hplain.2 port

/-- An action that closes its value and opens a member of its own. -/
theorem not_sendsFields_of_closing_action :
    let action := "restart\", \"alert\": \"all".toList
    let api : Wazuh.Api := fun _ => .ok (.ok .null)
    decode (Wazuh.activeResponseData action) =
        some (.obj [("command".toList, .str "!restart".toList),
          ("alert".toList, .str "all".toList),
          ("custom".toList, .bool true)]) ∧
      ¬ SendsFields
        ((Wazuh.activeResponse (fun _ => true) api
            ⟨"https://10.0.0.4:55000".toList⟩ action
            "001".toList).1.filterMap Wazuh.HttpRequest.data)
        (activeResponseFields action) := by
  intro action api
  refine ⟨rfl, ?_⟩
  rw [Wazuh.activeResponse_bodies, sendsFields_singleton]
  intro hcarries
  exact absurd (plain_of_carries_activeResponseData hcarries) (by decide)

end SecaasCharms
