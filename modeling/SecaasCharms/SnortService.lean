import SecaasCharms.StartConfiguration
import SecaasCharms.StepRuns

/-!
# Starting and stopping Snort with its log shipper

`start-service` launches snort and restarts filebeat, `stop-service` kills
snort and stops filebeat; both first look for a live snort in the process
table.  Every external step may fail, and snort may die between two actions.
-/

namespace SecaasCharms.SnortCharm

open TextLines
open StepRuns

/-! ## The host -/

structure Process where
  name : Text
  status : Text

/-- The test of the three service actions on a process. -/
def Process.LiveSnort (process : Process) : Prop :=
  "snort".toList <:+: process.name ∧ ¬ "zombie".toList <:+: process.status

instance : DecidablePred Process.LiveSnort :=
  fun process => inferInstanceAs
    (Decidable ("snort".toList <:+: process.name ∧
      ¬ "zombie".toList <:+: process.status))

structure Host where
  processes : List Process
  filebeat : Bool

def liveSnorts (processes : List Process) : ℕ :=
  processes.countP (fun process => process.LiveSnort)

def Host.SnortLive (host : Host) : Prop :=
  ∃ process ∈ host.processes, process.LiveSnort

instance (host : Host) : Decidable host.SnortLive :=
  inferInstanceAs (Decidable (∃ process ∈ host.processes, process.LiveSnort))

/-! ## The external steps -/

/-- `subprocess.Popen`, which does not wait for what it starts: the processes
it adds to the table may be live, dead or none. -/
inductive Launch where
  | raises (exception : Text)
  | starts (added : List Process)

def Launch.added : Launch → List Process
  | .raises _ => []
  | .starts added => added

/-- `process.kill()`.  The killed process is gone or stays as a zombie. -/
inductive Kill where
  | raises (exception : Text)
  | kills (reaped : Bool)

/-- `service filebeat ...` with `check=True`.  A command that fails may have
done half of its work. -/
inductive ServiceCommand where
  | succeeds
  | fails (exception : Text) (running : Bool)

def snortCommand (interface : Text) : List Text :=
  ["snort".toList, "-D".toList, "-i".toList, interface, "-c".toList,
    "/etc/snort/etc/snort.conf".toList, "-l".toList, "/var/log/snort".toList]

def Process.ended (process : Process) : Process :=
  { process with status := "zombie".toList }

def killFirst (reaped : Bool) : List Process → List Process
  | [] => []
  | process :: processes =>
      if process.LiveSnort then
        if reaped = true then processes else process.ended :: processes
      else process :: killFirst reaped processes

def killAt (reaped : Bool) (index : ℕ) (processes : List Process) :
    List Process :=
  if reaped = true then processes.eraseIdx index
  else processes.modify index Process.ended

/-! ## The handlers -/

def serviceFailed (exception : Text) : ActionResult :=
  .failed ("Stop: Snort service stopped failed with the following ".toList ++
    "exception: ".toList ++ exception)

def Host.runFilebeat (host : Host) (running : Bool)
    (command : ServiceCommand) (message : Text) : Host × ActionResult :=
  match command with
  | .succeeds => ({ host with filebeat := running }, .output message)
  | .fails exception left =>
      ({ host with filebeat := left }, serviceFailed exception)

def onStartServiceAction (nic : Except Text NicStatus)
    (launch : List Text → Launch) (filebeat : ServiceCommand)
    (host : Host) : Host × ActionResult :=
  if host.SnortLive then
    (host, .output "Start: Snort service is already started".toList)
  else
    match nic with
    | .error exception => (host, serviceFailed exception)
    | .ok status =>
        match launch (snortCommand (selectInterface status).text) with
        | .raises exception => (host, serviceFailed exception)
        | .starts added =>
            Host.runFilebeat
              { host with processes := host.processes ++ added } true filebeat
              "Start: Snort service started successfully".toList

def onStopServiceAction (kill : Kill) (filebeat : ServiceCommand)
    (host : Host) : Host × ActionResult :=
  if host.SnortLive then
    match kill with
    | .raises exception => (host, serviceFailed exception)
    | .kills reaped =>
        Host.runFilebeat
          { host with processes := killFirst reaped host.processes } false
          filebeat "Stop: Snort service stopped successfully".toList
  else (host, .output "Stop: Snort service is not running".toList)

inductive Event where
  | startService (nic : Except Text NicStatus) (launch : List Text → Launch)
      (filebeat : ServiceCommand)
  | stopService (kill : Kill) (filebeat : ServiceCommand)
  | dies (index : ℕ) (reaped : Bool)

def serviceStep (host : Host) : Event → Host
  | .startService nic launch filebeat =>
      (onStartServiceAction nic launch filebeat host).1
  | .stopService kill filebeat => (onStopServiceAction kill filebeat host).1
  | .dies index reaped =>
      { host with processes := killAt reaped index host.processes }

/-! ## Counting live processes -/

theorem liveSnorts_cons_of_live {process : Process}
    (hlive : process.LiveSnort) (processes : List Process) :
    liveSnorts (process :: processes) = liveSnorts processes + 1 :=
  List.countP_cons_of_pos (decide_eq_true hlive)

theorem liveSnorts_cons_of_not_live {process : Process}
    (hdead : ¬ process.LiveSnort) (processes : List Process) :
    liveSnorts (process :: processes) = liveSnorts processes := by
  apply List.countP_cons_of_neg
  rw [decide_eq_true_eq]
  exact hdead

theorem snortLive_iff {host : Host} :
    host.SnortLive ↔ 0 < liveSnorts host.processes := by
  unfold Host.SnortLive liveSnorts
  rw [List.countP_pos_iff]
  simp only [decide_eq_true_eq]

theorem Process.not_liveSnort_ended (process : Process) :
    ¬ process.ended.LiveSnort := by
  intro hlive
  exact hlive.2 List.infix_rfl

/-- Only the first match is killed. -/
theorem liveSnorts_killFirst (reaped : Bool) {processes : List Process}
    (hlive : 0 < liveSnorts processes) :
    liveSnorts (killFirst reaped processes) + 1 = liveSnorts processes := by
  induction processes with
  | nil => exact absurd hlive (Nat.lt_irrefl 0)
  | cons process processes ih =>
      unfold killFirst
      by_cases hfirst : process.LiveSnort
      · rw [if_pos hfirst, liveSnorts_cons_of_live hfirst]
        split
        · rfl
        · rw [liveSnorts_cons_of_not_live process.not_liveSnort_ended]
      · rw [liveSnorts_cons_of_not_live hfirst] at hlive ⊢
        rw [if_neg hfirst, liveSnorts_cons_of_not_live hfirst]
        exact ih hlive

theorem liveSnorts_append (processes added : List Process) :
    liveSnorts (processes ++ added) =
      liveSnorts processes + liveSnorts added :=
  List.countP_append

end SecaasCharms.SnortCharm
