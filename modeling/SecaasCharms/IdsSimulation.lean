import SecaasCharms.IdsEngines

/-!
# The snort charm inside the combined charm

The combined charm keeps two engines apart by the name of a service.  Seen
from the process table and from filebeat, a run of its actions with any names
is a run of the snort charm, in which the calls for Suricata do nothing.  What
the snort charm guarantees about live snorts carries over.
-/

namespace SecaasCharms.IdsCharm

open StepRuns
open TextLines

/-- A call of an action, or the end of a process. -/
inductive Event where
  | call (made : Call)
  | dies (index : ℕ) (reaped : Bool)

def idsStep (host : Host) : Event → Host
  | .call made => callStep host made
  | .dies index reaped =>
      { host with
        processes := SnortCharm.killAt reaped index host.processes }

/-! ## The interpretation -/

/-- What the snort charm sees of a host. -/
def Host.snortHost (host : Host) : SnortCharm.Host :=
  ⟨host.processes, host.filebeat⟩

/-- `os.system` leaves filebeat in a state, whatever its exit code is. -/
def filebeatCommand (running : Bool) : SnortCharm.ServiceCommand :=
  .fails [] running

/-- The launch of the snort charm that runs snort on the given interface. -/
def launchOn (launch : List Text → SnortCharm.Launch) (interface : Text) :
    List Text → SnortCharm.Launch :=
  fun _ => launch (SnortCharm.snortCommand interface)

def snortEvents (service : Text) : Action → List SnortCharm.Event
  | .startService (.error exception) launch filebeat _ =>
      if service = "snort".toList then
        [.startService (.error exception) launch (filebeatCommand filebeat)]
      else []
  | .startService (.ok stdout) launch filebeat _ =>
      if service = "snort".toList then
        [.startService (.ok [])
          (launchOn launch (lastInterface "null".toList stdout))
          (filebeatCommand filebeat)]
      else []
  | .stopService kill filebeat _ =>
      if service = "suricata".toList then []
      else [.stopService kill (filebeatCommand filebeat)]
  | .startConfiguration _ _ => []
  | .healthCheck _ _ _ => []
  | .addRule _ => []
  | .delRule => []

def Event.snortEvents : Event → List SnortCharm.Event
  | .call made => IdsCharm.snortEvents made.service made.action
  | .dies index reaped => [.dies index reaped]

/-! ## One event -/

theorem snortHost_runSuricata (host : Host) (running : Bool)
    (command : SnortCharm.ServiceCommand) (message : Text)
    (failure : Text → ActionResult) :
    (host.runSuricata running command message failure).1.snortHost =
      host.snortHost := by
  cases command with
  | succeeds => rfl
  | fails exception left => rfl

theorem snortHost_startSnort_of_error (exception : Text)
    (launch : List Text → SnortCharm.Launch) (filebeat : Bool) (host : Host) :
    (startSnort (.error exception) launch filebeat host).1.snortHost =
      (SnortCharm.onStartServiceAction (.error exception) launch
        (filebeatCommand filebeat) host.snortHost).1 := by
  unfold startSnort SnortCharm.onStartServiceAction
  by_cases hlive : ∃ process ∈ host.processes, process.LiveSnort
  · have hsnort : host.snortHost.SnortLive := hlive
    rw [if_pos hlive, if_pos hsnort]
  · have hsnort : ¬ host.snortHost.SnortLive := hlive
    rw [if_neg hlive, if_neg hsnort]

theorem snortHost_startSnort_of_ok (stdout : Text)
    (launch : List Text → SnortCharm.Launch) (filebeat : Bool) (host : Host) :
    (startSnort (.ok stdout) launch filebeat host).1.snortHost =
      (SnortCharm.onStartServiceAction (.ok [])
        (launchOn launch (lastInterface "null".toList stdout))
        (filebeatCommand filebeat) host.snortHost).1 := by
  unfold startSnort SnortCharm.onStartServiceAction
  by_cases hlive : ∃ process ∈ host.processes, process.LiveSnort
  · have hsnort : host.snortHost.SnortLive := hlive
    rw [if_pos hlive, if_pos hsnort]
  · have hsnort : ¬ host.snortHost.SnortLive := hlive
    rw [if_neg hlive, if_neg hsnort]
    simp only [launchOn]
    cases launch
        (SnortCharm.snortCommand (lastInterface "null".toList stdout)) with
    | raises exception => rfl
    | starts added => rfl

theorem snortHost_stopSnort (kill : SnortCharm.Kill) (filebeat : Bool)
    (host : Host) :
    (stopSnort kill filebeat host).1.snortHost =
      (SnortCharm.onStopServiceAction kill (filebeatCommand filebeat)
        host.snortHost).1 := by
  unfold stopSnort SnortCharm.onStopServiceAction
  by_cases hlive : ∃ process ∈ host.processes, process.LiveSnort
  · have hsnort : host.snortHost.SnortLive := hlive
    rw [if_pos hlive, if_pos hsnort]
    cases kill with
    | raises exception => rfl
    | kills reaped => rfl
  · have hsnort : ¬ host.snortHost.SnortLive := hlive
    rw [if_neg hlive, if_neg hsnort]

theorem snortHost_step (host : Host) (event : Event) :
    (idsStep host event).snortHost =
      run SnortCharm.serviceStep host.snortHost event.snortEvents := by
  cases event with
  | dies index reaped => rfl
  | call made =>
      rcases made with ⟨service, action⟩
      cases action with
      | startConfiguration hostname interfaces => rfl
      | healthCheck printable status measurements => rfl
      | addRule rule => rfl
      | delRule => rfl
      | startService interfaces launch filebeat restart =>
          have hperform : idsStep host
              (.call ⟨service, .startService interfaces launch filebeat
                restart⟩) =
              (onStartServiceAction service interfaces launch filebeat restart
                host).1 := rfl
          rw [hperform, onStartServiceAction]
          by_cases hservice : service = "snort".toList
          · cases interfaces with
            | error exception =>
                rw [if_pos hservice, snortHost_startSnort_of_error,
                  Event.snortEvents, snortEvents, if_pos hservice]
                rfl
            | ok stdout =>
                rw [if_pos hservice, snortHost_startSnort_of_ok,
                  Event.snortEvents, snortEvents, if_pos hservice]
                rfl
          · rw [if_neg hservice, startSuricata, snortHost_runSuricata]
            cases interfaces with
            | error exception =>
                rw [Event.snortEvents, snortEvents, if_neg hservice]
                rfl
            | ok stdout =>
                rw [Event.snortEvents, snortEvents, if_neg hservice]
                rfl
      | stopService kill filebeat stop =>
          have hperform : idsStep host
              (.call ⟨service, .stopService kill filebeat stop⟩) =
              (onStopServiceAction service kill filebeat stop host).1 := rfl
          rw [hperform, onStopServiceAction, Event.snortEvents, snortEvents]
          by_cases hservice : service = "suricata".toList
          · rw [if_pos hservice, if_pos hservice, stopSuricata,
              snortHost_runSuricata]
            rfl
          · rw [if_neg hservice, if_neg hservice, snortHost_stopSnort]
            rfl

/-! ## Runs -/

def Event.LaunchesSingly : Event → Prop
  | .call ⟨_, .startService _ launch _ _⟩ => ∀ command, (launch command).Single
  | _ => True

theorem launchesSingly_snortEvents {event : Event}
    (hevent : event.LaunchesSingly) :
    ∀ snortEvent ∈ event.snortEvents,
      SnortCharm.LaunchesSingly (.service snortEvent) := by
  cases event with
  | dies index reaped =>
      intro snortEvent hmem
      rw [List.mem_singleton.mp hmem]
      trivial
  | call made =>
      rcases made with ⟨service, action⟩
      cases action with
      | startConfiguration hostname interfaces =>
          exact fun _ hmem => absurd hmem List.not_mem_nil
      | healthCheck printable status measurements =>
          exact fun _ hmem => absurd hmem List.not_mem_nil
      | addRule rule => exact fun _ hmem => absurd hmem List.not_mem_nil
      | delRule => exact fun _ hmem => absurd hmem List.not_mem_nil
      | startService interfaces launch filebeat restart =>
          intro snortEvent hmem
          cases interfaces with
          | error exception =>
              rw [Event.snortEvents, snortEvents] at hmem
              split at hmem
              · rw [List.mem_singleton.mp hmem]
                exact hevent
              · exact absurd hmem List.not_mem_nil
          | ok stdout =>
              rw [Event.snortEvents, snortEvents] at hmem
              split at hmem
              · rw [List.mem_singleton.mp hmem]
                exact fun _ => hevent _
              · exact absurd hmem List.not_mem_nil
      | stopService kill filebeat stop =>
          intro snortEvent hmem
          rw [Event.snortEvents, snortEvents] at hmem
          split at hmem
          · exact absurd hmem List.not_mem_nil
          · rw [List.mem_singleton.mp hmem]
            trivial

/-- One event of the combined charm keeps at most one live snort, because the
events of the snort charm that it stands for do. -/
theorem atMostOneSnort_step {host : Host} {event : Event}
    (hone : SnortCharm.AtMostOneSnort host.snortHost)
    (hsingle : event.LaunchesSingly) :
    SnortCharm.AtMostOneSnort (idsStep host event).snortHost := by
  rw [snortHost_step]
  have hevents := launchesSingly_snortEvents hsingle
  exact run_invariant SnortCharm.AtMostOneSnort
    (fun state snortEvent hstate hpermitted =>
      SnortCharm.atMostOneSnort_step state (.service snortEvent) hstate
        hpermitted)
    hone (EveryStep.of_forall_mem hevents host.snortHost)

/-- Every name but one stops snort: a stop that reports success leaves none. -/
def StopsSnort (host : Host) : Event → Prop
  | .call ⟨service, .stopService kill filebeat stop⟩ =>
      let stopped := onStopServiceAction service kill filebeat stop host
      service ≠ "suricata".toList → stopped.2.Succeeded →
        ¬ stopped.1.snortHost.SnortLive
  | _ => True

theorem stopsSnort_of_atMostOneSnort {host : Host}
    (hone : SnortCharm.AtMostOneSnort host.snortHost) (event : Event) :
    StopsSnort host event := by
  cases event with
  | dies index reaped => trivial
  | call made =>
      rcases made with ⟨service, action⟩
      cases action with
      | startConfiguration hostname interfaces => trivial
      | startService interfaces launch filebeat restart => trivial
      | healthCheck printable status measurements => trivial
      | addRule rule => trivial
      | delRule => trivial
      | stopService kill filebeat stop =>
          have hstop : service ≠ "suricata".toList →
              onStopServiceAction service kill filebeat stop host =
                stopSnort kill filebeat host := fun hservice => if_neg hservice
          simp only [StopsSnort]
          intro hservice hsucceeded
          rw [hstop hservice] at hsucceeded ⊢
          have hnone := liveSnorts_stopSnort hone hsucceeded
          rw [SnortCharm.snortLive_iff]
          exact Nat.not_lt.mpr hnone.le

/-- For any names of services, a run of the combined charm is a run of the
snort charm as far as snort and filebeat go.  If it begins without a live
snort and a launch adds one at most, there are never two, and a reported stop
of snort leaves none. -/
theorem snortHost_of_run (host : Host) (events : List Event) :
    (run idsStep host events).snortHost =
        run SnortCharm.serviceStep host.snortHost
          (events.flatMap Event.snortEvents) ∧
      (¬ host.snortHost.SnortLive →
        (∀ event ∈ events, event.LaunchesSingly) →
        EveryState idsStep
          (fun host => SnortCharm.AtMostOneSnort host.snortHost) host events ∧
        EveryStep idsStep StopsSnort host events) := by
  refine ⟨run_interpreted Host.snortHost Event.snortEvents snortHost_step host
    events, ?_⟩
  intro hnone hsingle
  have hone : SnortCharm.AtMostOneSnort host.snortHost := by
    rw [SnortCharm.snortLive_iff] at hnone
    unfold SnortCharm.AtMostOneSnort
    omega
  have hstep : ∀ (state : Host) (event : Event),
      SnortCharm.AtMostOneSnort state.snortHost → event.LaunchesSingly →
        SnortCharm.AtMostOneSnort (idsStep state event).snortHost :=
    fun _ _ hstate hevent => atMostOneSnort_step hstate hevent
  have hstates : EveryState idsStep
      (fun host => SnortCharm.AtMostOneSnort host.snortHost) host events :=
    everyState_of_invariant hstep hone (EveryStep.of_forall_mem hsingle host)
  refine ⟨hstates, ?_⟩
  rw [everyStep_iff]
  intro before event after hsplit
  rw [everyState_iff] at hstates
  exact stopsSnort_of_atMostOneSnort
    (hstates before (event :: after) hsplit) event

/-- Snort is started by its name and stopped by a name that is none. -/
theorem snortHost_of_small_run :
    let events : List Event :=
      [.call ⟨"snort".toList, .startService (.ok "eth0\nlo\n".toList)
          (fun _ => .starts [⟨"snort".toList, "sleeping".toList⟩]) true
          .succeeds⟩,
        .call ⟨"Snort".toList, .stopService (.kills false) false .succeeds⟩]
    let host : Host := ⟨Files.none, [], false, false⟩
    EveryState idsStep
        (fun host => SnortCharm.AtMostOneSnort host.snortHost) host events ∧
      EveryStep idsStep StopsSnort host events := by
  intro events host
  apply (snortHost_of_run host events).2
  · decide
  · intro event hevent
    simp only [events, List.mem_cons, List.not_mem_nil, or_false] at hevent
    rcases hevent with rfl | rfl
    · intro command
      exact (by decide : SnortCharm.liveSnorts
        [⟨"snort".toList, "sleeping".toList⟩] ≤ 1)
    · trivial

end SecaasCharms.IdsCharm
