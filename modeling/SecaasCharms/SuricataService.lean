import SecaasCharms.SnortService

/-!
# Starting and stopping Suricata with its log shipper

The suricata charm runs one `service` command for Suricata and, if it
succeeds, one for filebeat.  It never looks at what runs already.  A success
brings both services into one state, while a failure may have moved one of
them, and from there on the two no longer act as one.
-/

namespace SecaasCharms.SuricataCharm

open SnortCharm (ServiceCommand)
open StepRuns
open TextLines

structure ServiceHost where
  suricata : Bool
  filebeat : Bool

/-! ## The handlers -/

def startingFailed (exception : Text) : ActionResult :=
  .failed ("Start: Suricata service starting failed with the following ".toList
    ++ "exception: ".toList ++ exception)

def stoppingFailed (exception : Text) : ActionResult :=
  .failed ("Start: Suricata service stopping failed with the following ".toList
    ++ "exception: ".toList ++ exception)

/-- The two commands of an action, both with `check=True`. -/
def runServices (running : Bool) (message : Text) (failed : Text → ActionResult)
    (suricata filebeat : ServiceCommand) (host : ServiceHost) :
    ServiceHost × ActionResult :=
  match suricata with
  | .fails exception left => ({ host with suricata := left }, failed exception)
  | .succeeds =>
      match filebeat with
      | .fails exception left =>
          ({ host with suricata := running, filebeat := left },
            failed exception)
      | .succeeds =>
          ({ host with suricata := running, filebeat := running },
            .output message)

def onStartServiceAction : ServiceCommand → ServiceCommand → ServiceHost →
    ServiceHost × ActionResult :=
  runServices true "Start: Suricata service started successfully".toList
    startingFailed

def onStopServiceAction : ServiceCommand → ServiceCommand → ServiceHost →
    ServiceHost × ActionResult :=
  runServices false "Start: Suricata service stopped successfully".toList
    stoppingFailed

/-! ## Runs -/

/-- A service may also end by itself, or be started by hand. -/
inductive ServiceEvent where
  | start (suricata filebeat : ServiceCommand)
  | stop (suricata filebeat : ServiceCommand)
  | becomes (host : ServiceHost)

def serviceStep (host : ServiceHost) : ServiceEvent → ServiceHost
  | .start suricata filebeat => (onStartServiceAction suricata filebeat host).1
  | .stop suricata filebeat => (onStopServiceAction suricata filebeat host).1
  | .becomes after => after

/-! ## One switch for both services -/

/-- Both services up, or both down. -/
def ServiceHost.both (up : Bool) : ServiceHost := ⟨up, up⟩

/-- What a user of the two actions thinks of: the actions that report success
turn one switch, and the others leave it. -/
def switchStep (up : Bool) : ServiceEvent → Bool
  | .start suricata filebeat =>
      if (onStartServiceAction suricata filebeat (.both up)).2.Succeeded
      then true else up
  | .stop suricata filebeat =>
      if (onStopServiceAction suricata filebeat (.both up)).2.Succeeded
      then false else up
  | .becomes after => after.suricata

/-- A Suricata command that fails leaves Suricata where the switch is, and
before a filebeat command that fails it was there already. -/
def CommandsKeep (running : Bool) (suricata filebeat : ServiceCommand)
    (up : Bool) : Prop :=
  match suricata, filebeat with
  | .fails _ left, _ => left = up
  | .succeeds, .fails _ left => running = up ∧ left = up
  | .succeeds, .succeeds => True

def FollowsSwitch (up : Bool) : ServiceEvent → Prop
  | .start suricata filebeat => CommandsKeep true suricata filebeat up
  | .stop suricata filebeat => CommandsKeep false suricata filebeat up
  | .becomes after => after.filebeat = after.suricata

theorem eq_both_iff {host : ServiceHost} {up : Bool} :
    host = .both up ↔ host.suricata = up ∧ host.filebeat = up := by
  rcases host with ⟨suricata, filebeat⟩
  simp [ServiceHost.both]

theorem runServices_eq_both_iff (running : Bool) (message : Text)
    {failed : Text → ActionResult}
    (hfailed : ∀ exception, ¬ (failed exception).Succeeded)
    (suricata filebeat : ServiceCommand) (up : Bool) :
    let performed :=
      runServices running message failed suricata filebeat (.both up)
    performed.1 = .both (if performed.2.Succeeded then running else up) ↔
      CommandsKeep running suricata filebeat up := by
  intro performed
  cases suricata with
  | fails exception left =>
      have hperformed : performed = (⟨left, up⟩, failed exception) := rfl
      rw [hperformed, if_neg (hfailed exception), eq_both_iff]
      exact and_iff_left rfl
  | succeeds =>
      cases filebeat with
      | fails exception left =>
          have hperformed : performed = (⟨running, left⟩, failed exception) :=
            rfl
          rw [hperformed, if_neg (hfailed exception), eq_both_iff]
          exact Iff.rfl
      | succeeds =>
          have hperformed : performed = (.both running, .output message) := rfl
          have hsucceeded : (ActionResult.output message).Succeeded := trivial
          rw [hperformed, if_pos hsucceeded]
          exact iff_of_true rfl trivial

theorem serviceStep_eq_both_iff (up : Bool) (event : ServiceEvent) :
    serviceStep (.both up) event = .both (switchStep up event) ↔
      FollowsSwitch up event := by
  cases event with
  | start suricata filebeat =>
      exact runServices_eq_both_iff true _ (fun _ => id) suricata filebeat up
  | stop suricata filebeat =>
      exact runServices_eq_both_iff false _ (fun _ => id) suricata filebeat up
  | becomes after =>
      rw [serviceStep, switchStep, eq_both_iff]
      exact and_iff_right rfl

end SecaasCharms.SuricataCharm
