import SecaasCharms.SnortService

/-!
# Snort and its log shipper start and stop together

An action that succeeds should leave snort and filebeat both up or both down,
and one that fails should leave both as they were.  When it does can be read
off the state before the action and the outcomes of its steps; the
characterization of one action carries over to every run.
-/

namespace SecaasCharms.SnortCharm

open TextLines
open StepRuns

/-- What one action owes that brings snort and filebeat up or down. -/
structure ActsOnBoth (host : Host) (up : Bool)
    (performed : Host × ActionResult) : Prop where
  success : performed.2.Succeeded →
    (performed.1.SnortLive ↔ up = true) ∧ performed.1.filebeat = up
  failure : ¬ performed.2.Succeeded →
    (performed.1.SnortLive ↔ host.SnortLive) ∧
      performed.1.filebeat = host.filebeat

def StepActsOnBoth (host : Host) : Event → Prop
  | .startService nic launch filebeat =>
      ActsOnBoth host true (onStartServiceAction nic launch filebeat host)
  | .stopService kill filebeat =>
      ActsOnBoth host false (onStopServiceAction kill filebeat host)
  | .dies _ _ => True

/-- A live snort has its shipper running; otherwise the launch and the
restart of filebeat both work, or both come to nothing. -/
def StartTogether (nic : Except Text NicStatus)
    (launch : List Text → Launch) (filebeat : ServiceCommand)
    (host : Host) : Prop :=
  if host.SnortLive then host.filebeat = true
  else
    match nic with
    | .error _ => True
    | .ok status =>
        match launch (snortCommand (selectInterface status).text), filebeat with
        | .raises _, _ => True
        | .starts added, .succeeds => 0 < liveSnorts added
        | .starts added, .fails _ left =>
            liveSnorts added = 0 ∧ left = host.filebeat

/-- With no live snort the shipper is stopped already; otherwise the kill
raises, or it takes the only snort and filebeat stops, or it takes one of
several and the command changes nothing. -/
def StopTogether (kill : Kill) (filebeat : ServiceCommand)
    (host : Host) : Prop :=
  if host.SnortLive then
    match kill, filebeat with
    | .raises _, _ => True
    | .kills _, .succeeds => liveSnorts host.processes = 1
    | .kills _, .fails _ left =>
        1 < liveSnorts host.processes ∧ left = host.filebeat
  else host.filebeat = false

def StepTogether (host : Host) : Event → Prop
  | .startService nic launch filebeat =>
      StartTogether nic launch filebeat host
  | .stopService kill filebeat => StopTogether kill filebeat host
  | .dies _ _ => True

/-! ## One action -/

theorem actsOnBoth_output {host after : Host} {up : Bool} (message : Text) :
    ActsOnBoth host up (after, .output message) ↔
      (after.SnortLive ↔ up = true) ∧ after.filebeat = up := by
  constructor
  · intro hacts
    exact hacts.success trivial
  · intro hboth
    constructor
    · intro _
      exact hboth
    · intro hfailed
      exact absurd trivial hfailed

theorem actsOnBoth_failed {host after : Host} {up : Bool}
    (exception : Text) :
    ActsOnBoth host up (after, serviceFailed exception) ↔
      (after.SnortLive ↔ host.SnortLive) ∧
        after.filebeat = host.filebeat := by
  constructor
  · intro hacts
    exact hacts.failure id
  · intro hsame
    constructor
    · intro hsucceeded
      exact absurd hsucceeded id
    · intro _
      exact hsame

theorem actsOnBoth_unchanged {host : Host} {up : Bool} (exception : Text) :
    ActsOnBoth host up (host, serviceFailed exception) := by
  rw [actsOnBoth_failed]
  exact ⟨Iff.rfl, rfl⟩

theorem actsOnBoth_runFilebeat_of_succeeds {host after : Host} {up : Bool}
    (message : Text) :
    ActsOnBoth host up (after.runFilebeat up .succeeds message) ↔
      (after.SnortLive ↔ up = true) := by
  unfold Host.runFilebeat
  rw [actsOnBoth_output]
  exact and_iff_left rfl

theorem actsOnBoth_runFilebeat_of_fails {host after : Host} {up : Bool}
    (exception : Text) (left : Bool) (message : Text) :
    ActsOnBoth host up
        (after.runFilebeat up (.fails exception left) message) ↔
      (after.SnortLive ↔ host.SnortLive) ∧ left = host.filebeat := by
  unfold Host.runFilebeat
  rw [actsOnBoth_failed]
  exact Iff.rfl

theorem startActsOnBoth_iff (nic : Except Text NicStatus)
    (launch : List Text → Launch) (filebeat : ServiceCommand)
    (host : Host) :
    ActsOnBoth host true (onStartServiceAction nic launch filebeat host) ↔
      StartTogether nic launch filebeat host := by
  unfold onStartServiceAction StartTogether
  by_cases hlive : host.SnortLive
  · rw [if_pos hlive, if_pos hlive, actsOnBoth_output]
    constructor
    · intro hboth
      exact hboth.2
    · intro hrunning
      exact ⟨iff_of_true hlive rfl, hrunning⟩
  · rw [if_neg hlive, if_neg hlive]
    have hnone : ¬ 0 < liveSnorts host.processes := by
      rw [← snortLive_iff]
      exact hlive
    cases nic with
    | error exception =>
        exact iff_of_true (actsOnBoth_unchanged exception) trivial
    | ok status =>
        simp only
        cases launch (snortCommand (selectInterface status).text) with
        | raises exception =>
            exact iff_of_true (actsOnBoth_unchanged exception) trivial
        | starts added =>
            have hcount := liveSnorts_append host.processes added
            cases filebeat with
            | succeeds =>
                simp only
                rw [actsOnBoth_runFilebeat_of_succeeds, snortLive_iff, hcount]
                simp only [iff_true]
                omega
            | fails exception left =>
                simp only
                rw [actsOnBoth_runFilebeat_of_fails, snortLive_iff,
                  snortLive_iff, hcount]
                have hstill : (0 < liveSnorts host.processes +
                    liveSnorts added ↔ 0 < liveSnorts host.processes) ↔
                      liveSnorts added = 0 := by omega
                rw [hstill]

theorem stopActsOnBoth_iff (kill : Kill) (filebeat : ServiceCommand)
    (host : Host) :
    ActsOnBoth host false (onStopServiceAction kill filebeat host) ↔
      StopTogether kill filebeat host := by
  unfold onStopServiceAction StopTogether
  by_cases hlive : host.SnortLive
  · rw [if_pos hlive, if_pos hlive]
    rw [snortLive_iff] at hlive
    cases kill with
    | raises exception =>
        exact iff_of_true (actsOnBoth_unchanged exception) trivial
    | kills reaped =>
        have hcount := liveSnorts_killFirst reaped hlive
        cases filebeat with
        | succeeds =>
            simp only
            rw [actsOnBoth_runFilebeat_of_succeeds, snortLive_iff]
            simp only [Bool.false_eq_true, iff_false]
            omega
        | fails exception left =>
            simp only
            rw [actsOnBoth_runFilebeat_of_fails, snortLive_iff, snortLive_iff]
            have hstill : (0 < liveSnorts (killFirst reaped host.processes) ↔
                0 < liveSnorts host.processes) ↔
                  1 < liveSnorts host.processes := by omega
            rw [hstill]
  · rw [if_neg hlive, if_neg hlive, actsOnBoth_output]
    constructor
    · intro hboth
      exact hboth.2
    · intro hstopped
      exact ⟨iff_of_false hlive Bool.false_ne_true, hstopped⟩

/-! ## Runs -/

/-- In any run of the two actions, with snort dying in between, every action
leaves snort and filebeat both up, both down, or both as they were, exactly
when every action meets a state and outcomes under which it does. -/
theorem actsOnBoth_of_run (host : Host) (events : List Event) :
    EveryStep serviceStep StepActsOnBoth host events ↔
      EveryStep serviceStep StepTogether host events := by
  apply everyStep_congr
  intro state event
  cases event with
  | startService nic launch filebeat =>
      exact startActsOnBoth_iff nic launch filebeat state
  | stopService kill filebeat => exact stopActsOnBoth_iff kill filebeat state
  | dies index reaped => exact Iff.rfl

/-- Snort is started, dies, and is stopped: filebeat keeps running. -/
theorem not_actsOnBoth_after_death :
    ¬ EveryStep serviceStep StepActsOnBoth ⟨[], false⟩
      [.startService (.ok [])
          (fun _ => .starts [⟨"snort".toList, "sleeping".toList⟩]) .succeeds,
        .dies 0 false, .stopService (.kills true) .succeeds] := by
  intro hall
  have hstop := hall.2.2.1
  have hdown := hstop.success (by decide)
  exact absurd hdown.2 (by decide)

/-! ## Pairs -/

def Host.Paired (host : Host) : Prop :=
  host.SnortLive ↔ host.filebeat = true

theorem ActsOnBoth.paired {host : Host} {up : Bool}
    {performed : Host × ActionResult} (hacts : ActsOnBoth host up performed)
    (hpaired : host.Paired) : performed.1.Paired := by
  unfold Host.Paired
  by_cases hsucceeded : performed.2.Succeeded
  · have hboth := hacts.success hsucceeded
    rw [hboth.1, hboth.2]
  · have hsame := hacts.failure hsucceeded
    rw [hsame.1, hsame.2]
    exact hpaired

/-- As long as snort does not die by itself, a pair stays one. -/
theorem paired_of_run {host : Host} {events : List Event}
    (hpaired : host.Paired)
    (htogether : EveryStep serviceStep StepTogether host events)
    (hlives : ∀ index reaped, .dies index reaped ∉ events) :
    EveryState serviceStep Host.Paired host events := by
  have hlive : ∀ event ∈ events,
      ∀ index reaped, event ≠ .dies index reaped := by
    intro event hevent index reaped heq
    exact hlives index reaped (heq ▸ hevent)
  have hpermitted := htogether.and (EveryStep.of_forall_mem hlive host)
  apply everyState_of_invariant _ hpaired hpermitted
  intro state event hstate hstep
  cases event with
  | startService nic launch filebeat =>
      have hacts := (startActsOnBoth_iff nic launch filebeat state).mpr hstep.1
      exact hacts.paired hstate
  | stopService kill filebeat =>
      have hacts := (stopActsOnBoth_iff kill filebeat state).mpr hstep.1
      exact hacts.paired hstate
  | dies index reaped => exact absurd rfl (hstep.2 index reaped)

end SecaasCharms.SnortCharm
