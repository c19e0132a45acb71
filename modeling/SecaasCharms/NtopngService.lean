import SecaasCharms.NtopngOutput
import SecaasCharms.ServiceRequests

/-!
# Launching and stopping ntopng through its service

The charm posts the interface to a Flask service in the container, which
starts ntopng with it; a second route kills every process with `ntopng` in
its name.  Flask and `requests`, which stand between the two, are a parameter
with the behaviour they document, and the connection may fail before or after
the service has acted.
-/

namespace SecaasCharms.NtopngCharm

open JsonText (Value)
open SnortCharm (Process Launch Kill)
open StepRuns
open TextLines

/-! ## The handlers of the charm -/

def initiationFailed (exception : Text) : ActionResult :=
  .failed ("Server initiation failed due an unespected exception ".toList ++
    "named: ".toList ++ exception)

def stopFailed (exception : Text) : ActionResult :=
  .failed ("Server stop failed due an unespected exception named: ".toList ++
    exception)

def launchData (idInterface : ℤ) : Text :=
  "\x7b\"id_interface\": \"".toList ++ (toString idInterface).toList ++
    "\", \"ntopng_data_path\": \"".toList ++ ntopngDataPath ++ "\"\x7d".toList

def launchRequest (idInterface : ℤ) : ServiceRequest :=
  .post "http://localhost:5001/start-ntopng".toList
    [("Content-Type".toList, "application/json".toList)]
    (launchData idInterface) false

def stopRequest : ServiceRequest :=
  .get "http://localhost:5001/stop-ntopng".toList false

def onLaunchNtopngAction (printable : Char → Bool) (service : Service)
    (idInterface : ℤ) : List ServiceRequest × ActionResult :=
  requestAction printable service initiationFailed (launchRequest idInterface)

def onStopNtopngAction (printable : Char → Bool) (service : Service) :
    List ServiceRequest × ActionResult :=
  requestAction printable service stopFailed stopRequest

/-! ## The views of the service -/

def response (output : Text) : Json := .obj [("output".toList, .str output)]

/-- The arguments of `Popen`: both values have to be strings. -/
def popenArguments (data : Json) : Option (List Text) :=
  match data.getItem "id_interface".toList,
      data.getItem "ntopng_data_path".toList with
  | .ok (.str idInterface), .ok (.str path) =>
      some ["ntopng".toList, "-i".toList, idInterface, "-d".toList, path]
  | _, _ => none

/-- `start_ntopng`, given what `request.get_json()` gives.  A view that raised
has printed the exception and returns nothing. -/
def startNtopng (popen : List Text → Launch) (data : Option Json)
    (processes : List Process) : List Process × Option Json :=
  match data.bind popenArguments with
  | none => (processes, none)
  | some arguments =>
      match popen arguments with
      | .raises _ => (processes, none)
      | .starts added =>
          (processes ++ added, some (response "Ntopng started successfully".toList))

/-- The test of `stop_ntopng`. -/
def LiveNtopng (process : Process) : Prop := process.Live "ntopng".toList

instance : DecidablePred LiveNtopng :=
  fun process => inferInstanceAs (Decidable (process.Live "ntopng".toList))

/-- The loop of `stop_ntopng` up to the first `kill` that raises, and whether
it came to its end. -/
def killNtopng (kill : Process → Kill) : List Process → List Process × Bool
  | [] => ([], true)
  | process :: processes =>
      if LiveNtopng process then
        match kill process with
        | .raises _ => (process :: processes, false)
        | .kills reaped =>
            ((if reaped = true then [] else [process.ended]) ++
              (killNtopng kill processes).1, (killNtopng kill processes).2)
      else
        (process :: (killNtopng kill processes).1,
          (killNtopng kill processes).2)

def stopNtopng (kill : Process → Kill) (processes : List Process) :
    List Process × Option Json :=
  ((killNtopng kill processes).1,
    if (killNtopng kill processes).2 = true then
      some (response "Ntopng stopped successfully".toList)
    else none)

/-! ## Around the views -/

inductive View where
  | startNtopng
  | stopNtopng

/-- What Flask and `requests` do around the views: the routes,
`request.get_json()` for the headers and the body of a request, and `json()` of
an answer, which carries what a view gave to `jsonify` or is an error page. -/
structure Web where
  view : ServiceRequest → Option View
  getJson : List (Text × Text) → Text → Option Json
  received : Option Json → Except Text Json

/-- The behaviour of Flask and `requests` that the charm and the service rely
on.  A view that raised has returned nothing, which Flask answers with an
error page, and `json()` raises on it. -/
structure Web.Documented (web : Web) (json : JsonModule) : Prop where
  startRoute : ∀ headers data verify,
    web.view (.post "http://localhost:5001/start-ntopng".toList headers data
      verify) = some .startNtopng
  stopRoute : ∀ verify,
    web.view (.get "http://localhost:5001/stop-ntopng".toList verify) =
      some .stopNtopng
  jsonBody : ∀ headers data value,
    headers.lookup "Content-Type".toList = some "application/json".toList →
      json.loadsText data = .ok value → web.getJson headers data = some value
  jsonAnswer : ∀ output, web.received (some (response output)) =
    .ok (response output)
  errorPage : ∃ exception, web.received none = .error exception

/-- The steps outside the service. -/
structure Steps where
  popen : List Text → Launch
  kill : Process → Kill

def ntopngApp (web : Web) (steps : Steps) (request : ServiceRequest)
    (processes : List Process) : List Process × Option Json :=
  match web.view request with
  | none => (processes, none)
  | some .startNtopng =>
      startNtopng steps.popen (web.getJson request.headers request.data)
        processes
  | some .stopNtopng => stopNtopng steps.kill processes

/-! ## The charm and the service together -/

/-- The connection is refused, or it carries the request and the answer, or it
is lost after the service has acted. -/
inductive Delivery where
  | refused (exception : Text)
  | answered
  | lost (exception : Text)

/-- The request reaches the service. -/
def Delivery.Arrives : Delivery → Prop
  | .refused _ => False
  | .answered => True
  | .lost _ => True

instance : DecidablePred Delivery.Arrives
  | .refused _ => inferInstanceAs (Decidable False)
  | .answered => inferInstanceAs (Decidable True)
  | .lost _ => inferInstanceAs (Decidable True)

/-- The processes behind a request, and what the charm receives. -/
def deliver (web : Web) (steps : Steps) (delivery : Delivery)
    (request : ServiceRequest) (processes : List Process) :
    List Process × Except Text (Except Text Json) :=
  let served := ntopngApp web steps request processes
  match delivery with
  | .refused exception => (processes, .error exception)
  | .lost exception => (served.1, .error exception)
  | .answered => (served.1, .ok (web.received served.2))

inductive Event where
  | launch (idInterface : ℤ) (delivery : Delivery) (steps : Steps)
  | stop (delivery : Delivery) (steps : Steps)
  | dies (index : ℕ) (reaped : Bool)
  | appears (process : Process)

section System

variable (web : Web) (printable : Char → Bool)

/-- An action of the charm against the service: the requests that it sends
reach the service in their order. -/
def perform (delivery : Delivery) (steps : Steps)
    (action : Service → List ServiceRequest × ActionResult)
    (processes : List Process) : List Process × ActionResult :=
  let sent := action
    (fun request => (deliver web steps delivery request processes).2)
  (sent.1.foldl (fun processes request =>
    (deliver web steps delivery request processes).1) processes, sent.2)

def launchNtopng (idInterface : ℤ) (delivery : Delivery) (steps : Steps)
    (processes : List Process) : List Process × ActionResult :=
  perform web delivery steps
    (fun service => onLaunchNtopngAction printable service idInterface)
    processes

def stopNtopngService (delivery : Delivery) (steps : Steps)
    (processes : List Process) : List Process × ActionResult :=
  perform web delivery steps (onStopNtopngAction printable) processes

def serviceStep (processes : List Process) : Event → List Process
  | .launch idInterface delivery steps =>
      (launchNtopng web printable idInterface delivery steps processes).1
  | .stop delivery steps =>
      (stopNtopngService web printable delivery steps processes).1
  | .dies index reaped => SnortCharm.killAt reaped index processes
  | .appears process => processes ++ [process]

end System

/-! ## The command that a launch runs -/

def launchFields (idInterface : ℤ) : List (Text × Value) :=
  [("id_interface".toList, .str (JsonText.intText idInterface)),
    ("ntopng_data_path".toList, .str ntopngDataPath)]

theorem plain_intText (value : ℤ) :
    JsonText.Plain (JsonText.intText value) := by
  have hnumber : ∀ c, JsonText.isNumberChar c = true → JsonText.IsPlain c := by
    intro c hc
    have hprintable := isPrintable_of_isNumberChar hc
    refine ⟨?_, ?_, ?_⟩
    · intro heq
      rw [heq] at hc
      contradiction
    · intro heq
      rw [heq] at hc
      contradiction
    · rcases hprintable with heq | hbounds
      · rw [heq] at hc
        contradiction
      · exact hbounds.1
  intro c hc
  exact hnumber c (JsonText.isNumberChar_of_mem_intText hc)

theorem launchData_eq (idInterface : ℤ) :
    launchData idInterface =
      "\x7b\"id_interface\": \"".toList ++ (JsonText.intText idInterface ++
        (JsonText.nextMember "ntopng_data_path".toList ++ (" \"".toList ++
          (ntopngDataPath ++ "\"\x7d".toList)))) := by
  have hbetween : "\", \"ntopng_data_path\": \"".toList =
      JsonText.nextMember "ntopng_data_path".toList ++ " \"".toList := by
    decide
  have hassoc : ∀ a b c d e f : Text,
      a ++ b ++ (c ++ d) ++ e ++ f = a ++ (b ++ (c ++ (d ++ (e ++ f)))) := by
    simp
  unfold launchData
  rewrite [hbetween]
  exact hassoc _ _ _ _ _ _

/-- The body that the charm puts together is the JSON of its two fields. -/
theorem decode_launchData (idInterface : ℤ) :
    JsonText.decode (launchData idInterface) =
      some (.obj (launchFields idInterface)) := by
  have hopening : JsonText.run JsonText.start "\x7b\"id_interface\": \"".toList =
      some ⟨.string .value [], [.obj [] "id_interface".toList]⟩ := rfl
  have hquote : ∀ members name, JsonText.run
      ⟨.value, [.obj members name]⟩ " \"".toList =
        some ⟨.string .value [], [.obj members name]⟩ := fun _ _ => rfl
  rw [JsonText.decode, launchData_eq, JsonText.run_append, hopening,
    Option.bind_some, JsonText.run_append,
    JsonText.run_string_of_plain (plain_intText idInterface),
    Option.bind_some, JsonText.run_append,
    JsonText.run_nextMember (by decide), Option.bind_some,
    JsonText.run_append, hquote, Option.bind_some, JsonText.run_append,
    JsonText.run_string_of_plain (by decide), Option.bind_some]
  rfl

def ntopngCommand (idInterface : ℤ) : List Text :=
  ["ntopng".toList, "-i".toList, (toString idInterface).toList, "-d".toList,
    ntopngDataPath]

theorem popenArguments_launchData {web : Web} {json : JsonModule}
    (hweb : web.Documented json) (idInterface : ℤ) :
    (web.getJson [("Content-Type".toList, "application/json".toList)]
        (launchData idInterface)).bind popenArguments =
      some (ntopngCommand idInterface) := by
  have hloads : json.loadsText (launchData idInterface) =
      .ok (json.ofValue (.obj (launchFields idInterface))) := by
    rw [JsonModule.loadsText, decode_launchData]
  have htype : [("Content-Type".toList, "application/json".toList)].lookup
      "Content-Type".toList = some "application/json".toList := by decide
  rw [hweb.jsonBody _ _ _ htype hloads]
  rfl

/-! ## One action -/

section Actions

variable (web : Web) (printable : Char → Bool) (delivery : Delivery)
variable (steps : Steps) (processes : List Process)

theorem perform_requestAction (failed : Text → ActionResult)
    (request : ServiceRequest) :
    perform web delivery steps
        (fun service => requestAction printable service failed request)
        processes =
      ((deliver web steps delivery request processes).1,
        answerResult printable failed
          (deliver web steps delivery request processes).2) := by
  simp only [perform, requestAction_eq, List.foldl_cons, List.foldl_nil]

/-- The processes after a request are those before it, or those that the
service leaves. -/
theorem deliver_fst (request : ServiceRequest) :
    (deliver web steps delivery request processes).1 =
      if delivery.Arrives then (ntopngApp web steps request processes).1
      else processes := by
  cases delivery with
  | refused exception => rfl
  | lost exception => rfl
  | answered => rfl

variable {web} {json : JsonModule} (hweb : web.Documented json)

include hweb

theorem ntopngApp_launchRequest (idInterface : ℤ) :
    ntopngApp web steps (launchRequest idInterface) processes =
      match steps.popen (ntopngCommand idInterface) with
      | .raises _ => (processes, none)
      | .starts added => (processes ++ added,
          some (response "Ntopng started successfully".toList)) := by
  have hroute : web.view (launchRequest idInterface) = some .startNtopng :=
    hweb.startRoute _ _ _
  simp only [ntopngApp, hroute, startNtopng]
  rw [show web.getJson (launchRequest idInterface).headers
      (launchRequest idInterface).data = web.getJson
        [("Content-Type".toList, "application/json".toList)]
        (launchData idInterface) from rfl,
    popenArguments_launchData hweb]

theorem ntopngApp_stopRequest :
    ntopngApp web steps stopRequest processes =
      stopNtopng steps.kill processes := by
  have hroute : web.view stopRequest = some .stopNtopng := hweb.stopRoute _
  simp only [ntopngApp, hroute]

theorem launchNtopng_fst (idInterface : ℤ) :
    (launchNtopng web printable idInterface delivery steps processes).1 =
      processes ++ if delivery.Arrives then
        (steps.popen (ntopngCommand idInterface)).added else [] := by
  unfold launchNtopng onLaunchNtopngAction
  rw [perform_requestAction, deliver_fst, ntopngApp_launchRequest _ _ hweb]
  by_cases harrives : delivery.Arrives
  · rw [if_pos harrives, if_pos harrives]
    cases steps.popen (ntopngCommand idInterface) with
    | raises exception => exact (List.append_nil _).symm
    | starts added => rfl
  · rw [if_neg harrives, if_neg harrives, List.append_nil]

theorem launchNtopng_succeeded_iff (idInterface : ℤ) :
    (launchNtopng web printable idInterface delivery steps
        processes).2.Succeeded ↔ delivery = .answered ∧
      ∃ added, steps.popen (ntopngCommand idInterface) = .starts added := by
  unfold launchNtopng onLaunchNtopngAction
  rw [perform_requestAction]
  cases delivery with
  | refused exception =>
      simp [deliver, answerResult, initiationFailed, ActionResult.Succeeded]
  | lost exception =>
      simp [deliver, answerResult, initiationFailed, ActionResult.Succeeded]
  | answered =>
      simp only [deliver, ntopngApp_launchRequest _ _ hweb]
      cases steps.popen (ntopngCommand idInterface) with
      | raises other =>
          obtain ⟨exception, herror⟩ := hweb.errorPage
          simp [herror, answerResult, initiationFailed, ActionResult.Succeeded]
      | starts added =>
          simp [hweb.jsonAnswer, answerResult, ActionResult.output,
            ActionResult.Succeeded]

/-- Every launch that arrives runs ntopng on the interface it was given and
with the data directory of the charm, and success is reported exactly when it
was started and the answer came back. -/
theorem launchNtopng_spec (idInterface : ℤ) :
    ((launchNtopng web printable idInterface delivery steps
        processes).2.Succeeded ↔ delivery = .answered ∧
      ∃ added, steps.popen (ntopngCommand idInterface) = .starts added) ∧
    (launchNtopng web printable idInterface delivery steps processes).1 =
      processes ++ if delivery.Arrives then
        (steps.popen (ntopngCommand idInterface)).added else [] :=
  ⟨launchNtopng_succeeded_iff printable delivery steps processes hweb
      idInterface,
    launchNtopng_fst printable delivery steps processes hweb idInterface⟩

theorem stopNtopngService_fst :
    (stopNtopngService web printable delivery steps processes).1 =
      if delivery.Arrives then (killNtopng steps.kill processes).1
      else processes := by
  unfold stopNtopngService onStopNtopngAction
  rw [perform_requestAction, deliver_fst, ntopngApp_stopRequest _ _ hweb]
  rfl

theorem stopNtopngService_succeeded_iff :
    (stopNtopngService web printable delivery steps processes).2.Succeeded ↔
      delivery = .answered ∧ (killNtopng steps.kill processes).2 = true := by
  unfold stopNtopngService onStopNtopngAction
  rw [perform_requestAction]
  cases delivery with
  | refused exception =>
      simp [deliver, answerResult, stopFailed, ActionResult.Succeeded]
  | lost exception =>
      simp [deliver, answerResult, stopFailed, ActionResult.Succeeded]
  | answered =>
      simp only [deliver, ntopngApp_stopRequest _ _ hweb, stopNtopng]
      cases (killNtopng steps.kill processes).2 with
      | true =>
          simp [hweb.jsonAnswer, answerResult, ActionResult.output,
            ActionResult.Succeeded]
      | false =>
          obtain ⟨exception, herror⟩ := hweb.errorPage
          simp [herror, answerResult, stopFailed, ActionResult.Succeeded]

end Actions

/-! ## What a stop kills -/

/-- A process that the service never looks at. -/
def Foreign (process : Process) : Prop :=
  ¬ "ntopng".toList <:+: process.name

instance : DecidablePred Foreign :=
  fun process => inferInstanceAs
    (Decidable (¬ "ntopng".toList <:+: process.name))

theorem not_live_ended (word : Text) (process : Process) :
    ¬ process.ended.Live word := by
  intro hlive
  exact hlive.2 List.infix_rfl

theorem killNtopng_cons_of_not_live {process : Process}
    (hdead : ¬ LiveNtopng process) (kill : Process → Kill)
    (processes : List Process) :
    killNtopng kill (process :: processes) =
      (process :: (killNtopng kill processes).1,
        (killNtopng kill processes).2) := by
  rw [killNtopng, if_neg hdead]

/-- A stop that came to its end has left nothing to kill. -/
theorem not_live_of_killNtopng {kill : Process → Kill}
    {processes : List Process} (hend : (killNtopng kill processes).2 = true) :
    ∀ process ∈ (killNtopng kill processes).1, ¬ LiveNtopng process := by
  induction processes with
  | nil =>
      intro process hprocess
      exact absurd hprocess List.not_mem_nil
  | cons first processes ih =>
      by_cases hlive : LiveNtopng first
      · rw [killNtopng, if_pos hlive] at hend ⊢
        cases hkill : kill first with
        | raises exception =>
            rw [hkill] at hend
            contradiction
        | kills reaped =>
            rw [hkill] at hend
            intro process hprocess
            rcases List.mem_append.mp hprocess with hfirst | hrest
            · cases reaped with
              | true => exact absurd hfirst List.not_mem_nil
              | false =>
                  rw [List.mem_singleton.mp hfirst]
                  exact not_live_ended _ first
            · exact ih hend process hrest
      · rw [killNtopng_cons_of_not_live hlive] at hend ⊢
        intro process hprocess
        rcases List.mem_cons.mp hprocess with hfirst | hrest
        · rw [hfirst]
          exact hlive
        · exact ih hend process hrest

/-- Without a live process there is nothing to do. -/
theorem killNtopng_of_none {processes : List Process}
    (hdead : ∀ process ∈ processes, ¬ LiveNtopng process)
    (kill : Process → Kill) : killNtopng kill processes = (processes, true) := by
  induction processes with
  | nil => rfl
  | cons first processes ih =>
      rw [killNtopng_cons_of_not_live (hdead first List.mem_cons_self),
        ih (fun process hprocess =>
          hdead process (List.mem_cons_of_mem first hprocess))]

theorem filter_foreign_killNtopng (kill : Process → Kill)
    (processes : List Process) :
    (killNtopng kill processes).1.filter (fun process => Foreign process) =
      processes.filter (fun process => Foreign process) := by
  induction processes with
  | nil => rfl
  | cons first processes ih =>
      by_cases hlive : LiveNtopng first
      · have hknown : ¬ Foreign first := fun hforeign => hforeign hlive.1
        have hended : ¬ Foreign first.ended := hknown
        rw [killNtopng, if_pos hlive,
          List.filter_cons_of_neg (decide_eq_false hknown ▸ Bool.false_ne_true)]
        cases kill first with
        | raises exception =>
            exact List.filter_cons_of_neg
              (decide_eq_false hknown ▸ Bool.false_ne_true)
        | kills reaped =>
            simp only [List.filter_append, ih]
            cases reaped with
            | true => rfl
            | false =>
                simp only [Bool.false_eq_true, if_false,
                  List.filter_cons_of_neg, decide_eq_true_eq, hended,
                  not_false_eq_true, List.filter_nil, List.nil_append]
      · rw [killNtopng_cons_of_not_live hlive]
        simp only [List.filter_cons, ih]

/-! ## Runs -/

theorem mem_killAt {reaped : Bool} {index : ℕ} {processes : List Process}
    {process : Process}
    (hprocess : process ∈ SnortCharm.killAt reaped index processes) :
    process ∈ processes ∨ ∃ other : Process, process = other.ended := by
  unfold SnortCharm.killAt at hprocess
  split at hprocess
  · exact Or.inl (List.mem_of_mem_eraseIdx hprocess)
  · rcases List.mem_iff_getElem?.mp hprocess with ⟨i, hi⟩
    rw [List.getElem?_modify] at hi
    rcases Option.map_eq_some_iff.mp hi with ⟨other, hother, hsame⟩
    split at hsame
    · exact Or.inr ⟨other, hsame.symm⟩
    · exact Or.inl (hsame ▸ List.mem_of_getElem? hother)

/-- The event brings no live ntopng into the table. -/
def StartsNone : Event → Prop
  | .launch idInterface delivery steps => delivery.Arrives →
      ∀ process ∈ (steps.popen (ntopngCommand idInterface)).added,
        ¬ LiveNtopng process
  | .stop _ _ => True
  | .dies _ _ => True
  | .appears process => ¬ LiveNtopng process

section Runs

variable {web : Web} {json : JsonModule} (hweb : web.Documented json)
variable (printable : Char → Bool)

include hweb in
theorem not_live_of_stop {delivery : Delivery} {steps : Steps}
    {processes : List Process}
    (hstopped : (stopNtopngService web printable delivery steps
      processes).2.Succeeded) :
    ∀ process ∈ (stopNtopngService web printable delivery steps processes).1,
      ¬ LiveNtopng process := by
  obtain ⟨hanswered, hend⟩ := (stopNtopngService_succeeded_iff printable
    delivery steps processes hweb).mp hstopped
  have harrives : delivery.Arrives := hanswered ▸ trivial
  rw [stopNtopngService_fst printable delivery steps processes hweb,
    if_pos harrives]
  exact not_live_of_killNtopng hend

include hweb in
theorem not_live_serviceStep {processes : List Process}
    (hdead : ∀ process ∈ processes, ¬ LiveNtopng process) {event : Event}
    (hevent : StartsNone event) :
    ∀ process ∈ serviceStep web printable processes event,
      ¬ LiveNtopng process := by
  cases event with
  | launch idInterface delivery steps =>
      intro process hprocess
      rw [serviceStep, launchNtopng_fst printable delivery steps processes
        hweb] at hprocess
      rcases List.mem_append.mp hprocess with hold | hnew
      · exact hdead process hold
      · by_cases harrives : delivery.Arrives
        · rw [if_pos harrives] at hnew
          exact hevent harrives process hnew
        · rw [if_neg harrives] at hnew
          exact absurd hnew List.not_mem_nil
  | stop delivery steps =>
      intro process hprocess
      rw [serviceStep, stopNtopngService_fst printable delivery steps processes
        hweb, killNtopng_of_none hdead, ite_self] at hprocess
      exact hdead process hprocess
  | dies index reaped =>
      intro process hprocess
      rcases mem_killAt hprocess with hmem | ⟨other, hended⟩
      · exact hdead process hmem
      · rw [hended]
        exact not_live_ended _ other
  | appears added =>
      intro process hprocess
      rcases List.mem_append.mp hprocess with hmem | hmem
      · exact hdead process hmem
      · rw [List.mem_singleton.mp hmem]
        exact hevent

include hweb in
/-- After a stop that reports success no ntopng is live, and the health check
says so, until a process of that name is started again. -/
theorem notRunning_after_stop {delivery : Delivery} {steps : Steps}
    {processes : List Process} {before after : List Event}
    (hstopped : (stopNtopngService web printable delivery steps
      (run (serviceStep web printable) processes before)).2.Succeeded)
    (hquiet : ∀ event ∈ after, StartsNone event)
    (measurements : SnortCharm.Measurements) :
    let last := run (serviceStep web printable) processes
      (before ++ .stop delivery steps :: after)
    (∀ process ∈ last, ¬ LiveNtopng process) ∧
      onHealthCheckAction printable measurements last =
        .output "Health-check: Ntopng is not running".toList := by
  have hdead : ∀ process ∈ run (serviceStep web printable) processes
      (before ++ .stop delivery steps :: after), ¬ LiveNtopng process := by
    rw [run_append, run_cons]
    apply run_invariant
      (fun processes => ∀ process ∈ processes, ¬ LiveNtopng process)
      (fun state event hstate hevent =>
        not_live_serviceStep hweb printable hstate hevent)
      (not_live_of_stop hweb printable hstopped)
    exact EveryStep.of_forall_mem hquiet _
  refine ⟨hdead, ?_⟩
  apply HealthCheck.onHealthCheckAction_of_none
  intro process hprocess hlive
  have hword : "ntopng".toList <:+: "ntopng-main".toList := by decide
  exact hdead process hprocess ⟨hword.trans hlive.1, hlive.2⟩

/-- The two routes, a body read by `loads`, and an error page that is no
JSON. -/
def plainWeb : Web where
  view
    | .post url _ _ _ =>
        if url = "http://localhost:5001/start-ntopng".toList then
          some .startNtopng else none
    | .get url _ =>
        if url = "http://localhost:5001/stop-ntopng".toList then
          some .stopNtopng else none
  getJson headers data :=
    if headers.lookup "Content-Type".toList =
        some "application/json".toList then
      (plainJson.loadsText data).toOption else none
  received
    | none => .error "Expecting value: line 1 column 1 (char 0)".toList
    | some answer => .ok answer

theorem documented_plainWeb : plainWeb.Documented plainJson where
  startRoute _ _ _ := rfl
  stopRoute _ := rfl
  jsonBody headers data value htype hloads := by
    simp only [plainWeb, if_pos htype, hloads, Except.toOption]
  jsonAnswer _ := rfl
  errorPage := ⟨_, rfl⟩

theorem notRunning_after_one_stop :
    let last := run (serviceStep plainWeb (fun _ => true))
      [⟨"ntopng-main".toList, "sleeping".toList⟩]
      ([] ++ [.stop .answered ⟨fun _ => .starts [], fun _ => .kills false⟩,
        .launch 1 (.refused []) ⟨fun _ => .starts [], fun _ => .kills true⟩])
    (∀ process ∈ last, ¬ LiveNtopng process) ∧
      onHealthCheckAction (fun _ => true)
          ⟨fun _ => .error [], .error []⟩ last =
        .output "Health-check: Ntopng is not running".toList := by
  apply notRunning_after_stop documented_plainWeb (fun _ => true)
  · rw [stopNtopngService_succeeded_iff _ _ _ _ documented_plainWeb]
    exact ⟨rfl, by decide⟩
  · intro event hevent
    rw [List.mem_singleton.mp hevent]
    exact False.elim

end Runs

theorem launchNtopng_of_plainWeb :
    ((launchNtopng plainWeb (fun _ => true) 1 .answered
        ⟨fun _ => .starts [], fun _ => .kills true⟩ []).2.Succeeded ↔
      Delivery.answered = .answered ∧ ∃ added,
        (Launch.starts []) = .starts added) ∧
    (launchNtopng plainWeb (fun _ => true) 1 .answered
        ⟨fun _ => .starts [], fun _ => .kills true⟩ []).1 =
      [] ++ if Delivery.answered.Arrives then (Launch.starts []).added
        else [] :=
  launchNtopng_spec (fun _ => true) .answered
    ⟨fun _ => .starts [], fun _ => .kills true⟩ [] documented_plainWeb 1

/-! ## What no action ends -/

section Frame

variable (web : Web) (printable : Char → Bool)

theorem foreign_startNtopng (popen : List Text → Launch) (data : Option Json)
    (processes : List Process) :
    processes.filter (fun process => Foreign process) <+:
      (startNtopng popen data processes).1.filter
        (fun process => Foreign process) := by
  unfold startNtopng
  split
  · exact List.prefix_rfl
  · split
    · exact List.prefix_rfl
    · rw [List.filter_append]
      exact List.prefix_append _ _

/-- Whatever the routes are, a request ends no such process. -/
theorem foreign_ntopngApp (steps : Steps) (request : ServiceRequest)
    (processes : List Process) :
    processes.filter (fun process => Foreign process) <+:
      (ntopngApp web steps request processes).1.filter
        (fun process => Foreign process) := by
  unfold ntopngApp
  cases web.view request with
  | none => exact List.prefix_rfl
  | some view =>
      cases view with
      | startNtopng => exact foreign_startNtopng _ _ _
      | stopNtopng =>
          exact filter_foreign_killNtopng steps.kill processes ▸
            List.prefix_rfl

theorem foreign_perform (failed : Text → ActionResult) (delivery : Delivery)
    (steps : Steps) (request : ServiceRequest) (processes : List Process) :
    processes.filter (fun process => Foreign process) <+:
      (perform web delivery steps
        (fun service => requestAction printable service failed request)
        processes).1.filter (fun process => Foreign process) := by
  rw [perform_requestAction, deliver_fst]
  split
  · exact foreign_ntopngApp web steps request processes
  · exact List.prefix_rfl

theorem foreign_serviceStep (processes : List Process) {event : Event}
    (hlives : ∀ index reaped, event ≠ .dies index reaped) :
    processes.filter (fun process => Foreign process) <+:
      (serviceStep web printable processes event).filter
        (fun process => Foreign process) := by
  cases event with
  | launch idInterface delivery steps =>
      exact foreign_perform web printable _ _ _ _ _
  | stop delivery steps => exact foreign_perform web printable _ _ _ _ _
  | dies index reaped => exact absurd rfl (hlives index reaped)
  | appears added =>
      rw [serviceStep, List.filter_append]
      exact List.prefix_append _ _

end Frame

end SecaasCharms.NtopngCharm
