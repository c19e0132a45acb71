import SecaasCharms.SnortHealth

/-!
# One Snort at a time

`stop-service` kills the first live snort it finds.  That is enough because
`start-service` looks for one before it launches another: at most one is live
in every state of every run.
-/

namespace SecaasCharms.SnortCharm

open TextLines
open StepRuns

/-! ## Runs of the three service actions -/

inductive ServiceEvent where
  | service (event : Event)
  | healthCheck (printable : Char → Bool) (measurements : Measurements)

def eventStep (host : Host) : ServiceEvent → Host
  | .service event => serviceStep host event
  | .healthCheck _ _ => host

def AtMostOneSnort (host : Host) : Prop :=
  liveSnorts host.processes ≤ 1

/-- Launching snort adds one live process of that name or none. -/
def Launch.Single : Launch → Prop
  | .raises _ => True
  | .starts added => liveSnorts added ≤ 1

def LaunchesSingly : ServiceEvent → Prop
  | .service (.startService _ launch _) => ∀ command, (launch command).Single
  | _ => True

/-- What the three actions promise about snort. -/
def KeepsPromise (host : Host) : ServiceEvent → Prop
  | .service (.startService nic launch filebeat) =>
      host.SnortLive → onStartServiceAction nic launch filebeat host =
        (host, .output "Start: Snort service is already started".toList)
  | .service (.stopService kill filebeat) =>
      (onStopServiceAction kill filebeat host).2.reported =
          some "Stop: Snort service stopped successfully".toList →
        ¬ (onStopServiceAction kill filebeat host).1.SnortLive
  | .service (.dies _ _) => True
  | .healthCheck printable measurements =>
      let result := onHealthCheckAction printable measurements host.processes
      (result.Succeeded →
          (result.reported = some "Status: Snort is running".toList ↔
            host.SnortLive)) ∧
        (measurements.Answered → result.Succeeded)

/-! ## One event -/

theorem runFilebeat_processes (host : Host) (running : Bool)
    (command : ServiceCommand) (message : Text) :
    (host.runFilebeat running command message).1.processes =
      host.processes := by
  cases command with
  | succeeds => rfl
  | fails exception left => rfl

theorem liveSnorts_startService_le {nic : Except Text NicStatus}
    {launch : List Text → Launch} (hsingle : ∀ command, (launch command).Single)
    (filebeat : ServiceCommand) {host : Host} (hone : AtMostOneSnort host) :
    AtMostOneSnort (onStartServiceAction nic launch filebeat host).1 := by
  unfold onStartServiceAction
  by_cases hlive : host.SnortLive
  · rw [if_pos hlive]
    exact hone
  · rw [if_neg hlive]
    rw [snortLive_iff] at hlive
    cases nic with
    | error exception => exact hone
    | ok status =>
        simp only
        have hlaunch := hsingle (snortCommand (selectInterface status).text)
        cases hstarts : launch (snortCommand (selectInterface status).text) with
        | raises exception => exact hone
        | starts added =>
            rw [hstarts] at hlaunch
            unfold AtMostOneSnort
            simp only [runFilebeat_processes, liveSnorts_append]
            have hadded : liveSnorts added ≤ 1 := hlaunch
            omega

theorem liveSnorts_stopService_le (kill : Kill) (filebeat : ServiceCommand)
    (host : Host) :
    liveSnorts (onStopServiceAction kill filebeat host).1.processes ≤
      liveSnorts host.processes := by
  unfold onStopServiceAction
  by_cases hlive : host.SnortLive
  · rw [if_pos hlive]
    rw [snortLive_iff] at hlive
    cases kill with
    | raises exception => exact le_rfl
    | kills reaped =>
        simp only [runFilebeat_processes]
        have hkilled := liveSnorts_killFirst reaped hlive
        omega
  · rw [if_neg hlive]

theorem liveSnorts_modify_ended_le (index : ℕ) (processes : List Process) :
    liveSnorts (processes.modify index Process.ended) ≤
      liveSnorts processes := by
  induction processes generalizing index with
  | nil => simp
  | cons process processes ih =>
      cases index with
      | zero =>
          rw [List.modify_zero_cons,
            liveSnorts_cons_of_not_live process.not_liveSnort_ended]
          exact (List.sublist_cons_self process processes).countP_le
      | succ index =>
          rw [List.modify_succ_cons]
          by_cases hfirst : process.LiveSnort
          · rw [liveSnorts_cons_of_live hfirst, liveSnorts_cons_of_live hfirst]
            exact Nat.succ_le_succ (ih index)
          · rw [liveSnorts_cons_of_not_live hfirst,
              liveSnorts_cons_of_not_live hfirst]
            exact ih index

theorem liveSnorts_killAt_le (reaped : Bool) (index : ℕ)
    (processes : List Process) :
    liveSnorts (killAt reaped index processes) ≤ liveSnorts processes := by
  unfold killAt
  split
  · exact (List.eraseIdx_sublist processes index).countP_le
  · exact liveSnorts_modify_ended_le index processes

theorem atMostOneSnort_step (host : Host) (event : ServiceEvent)
    (hone : AtMostOneSnort host) (hsingle : LaunchesSingly event) :
    AtMostOneSnort (eventStep host event) := by
  cases event with
  | healthCheck printable measurements => exact hone
  | service event =>
      cases event with
      | startService nic launch filebeat =>
          exact liveSnorts_startService_le hsingle filebeat hone
      | stopService kill filebeat =>
          exact (liveSnorts_stopService_le kill filebeat host).trans hone
      | dies index reaped =>
          exact (liveSnorts_killAt_le reaped index host.processes).trans hone

/-- Killing the first match is killing all of them. -/
theorem not_snortLive_of_stopped {kill : Kill} {filebeat : ServiceCommand}
    {host : Host} (hone : AtMostOneSnort host)
    (hstopped : (onStopServiceAction kill filebeat host).2.reported =
      some "Stop: Snort service stopped successfully".toList) :
    ¬ (onStopServiceAction kill filebeat host).1.SnortLive := by
  unfold onStopServiceAction at hstopped ⊢
  by_cases hlive : host.SnortLive
  · rw [if_pos hlive] at hstopped ⊢
    rw [snortLive_iff] at hlive
    cases kill with
    | raises exception => cases hstopped
    | kills reaped =>
        have hkilled := liveSnorts_killFirst reaped hlive
        rw [snortLive_iff]
        simp only [runFilebeat_processes]
        unfold AtMostOneSnort at hone
        omega
  · rw [if_neg hlive]
    exact hlive

theorem keepsPromise_of_atMostOneSnort {host : Host}
    (hone : AtMostOneSnort host) (event : ServiceEvent) :
    KeepsPromise host event := by
  cases event with
  | healthCheck printable measurements =>
      have hother : some "Stop: Snort service is not running".toList ≠
          some "Status: Snort is running".toList := by decide
      unfold KeepsPromise
      rcases onHealthCheckAction_reported printable measurements host with
        ⟨hreported, hlive⟩ | ⟨hreported, hdead⟩ | ⟨hfailed, _, hunanswered⟩
      · have hsucceeded := ActionResult.succeeded_of_reported hreported
        exact ⟨fun _ => iff_of_true hreported hlive, fun _ => hsucceeded⟩
      · have hsucceeded := ActionResult.succeeded_of_reported hreported
        have hsilent := hreported.trans_ne hother
        exact ⟨fun _ => iff_of_false hsilent hdead, fun _ => hsucceeded⟩
      · exact ⟨fun hsucceeded => absurd hsucceeded hfailed,
          fun hanswered => absurd hanswered hunanswered⟩
  | service event =>
      cases event with
      | startService nic launch filebeat =>
          intro hlive
          exact if_pos hlive
      | stopService kill filebeat => exact not_snortLive_of_stopped hone
      | dies index reaped => trivial

/-! ## Runs -/

/-- In every run that begins without a live snort, at most one is live in
every state, and every action keeps its promise. -/
theorem atMostOneSnort_of_run {host : Host} {events : List ServiceEvent}
    (hnone : ¬ host.SnortLive)
    (hsingle : ∀ event ∈ events, LaunchesSingly event) :
    EveryState eventStep AtMostOneSnort host events ∧
      EveryStep eventStep KeepsPromise host events := by
  have hone : AtMostOneSnort host := by
    rw [snortLive_iff] at hnone
    unfold AtMostOneSnort
    omega
  have hstates : EveryState eventStep AtMostOneSnort host events :=
    everyState_of_invariant atMostOneSnort_step hone
      (EveryStep.of_forall_mem hsingle host)
  constructor
  · exact hstates
  · rw [everyStep_iff]
    intro before event after hsplit
    rw [everyState_iff] at hstates
    exact keepsPromise_of_atMostOneSnort
      (hstates before (event :: after) hsplit) event

/-- Snort is started, checked, and stopped. -/
theorem atMostOneSnort_of_small_run :
    let events : List ServiceEvent :=
      [.service (.startService (.ok [])
          (fun _ => .starts [⟨"snort".toList, "sleeping".toList⟩]) .succeeds),
        .healthCheck (fun _ => true)
          ⟨fun _ => .ok ⟨"0.3".toList, 524288, true⟩, .ok ⟨2048, 4096⟩⟩,
        .service (.stopService (.kills false) .succeeds)]
    EveryState eventStep AtMostOneSnort ⟨[], false⟩ events ∧
      EveryStep eventStep KeepsPromise ⟨[], false⟩ events := by
  intro events
  apply atMostOneSnort_of_run
  · decide
  · intro event hevent
    simp only [events, List.mem_cons, List.not_mem_nil, or_false] at hevent
    rcases hevent with rfl | rfl | rfl
    · intro command
      exact (by decide :
        liveSnorts [⟨"snort".toList, "sleeping".toList⟩] ≤ 1)
    · trivial
    · trivial

end SecaasCharms.SnortCharm
