import SecaasCharms.SnortHealth

/-!
# The combined charm for Snort and Suricata

Every action but `run` takes the name of a service.  `start-service` compares
it with `snort`, the others with `suricata`, and whatever does not match
falls through to the other engine.
-/

namespace SecaasCharms.IdsCharm

open TextLines
open SnortCharm

structure Host where
  files : Files
  processes : List Process
  filebeat : Bool
  suricata : Bool

/-- The loop over what `ls /sys/class/net` prints; the last one wins. -/
def lastInterface (initial stdout : Text) : Text :=
  (stdout.splitOn '\n').foldl (fun interface value =>
    if ("ens".toList <:+: value ∨ "eth".toList <:+: value ∨
        "eno".toList <:+: value) ∧ value.length < 6 then value
    else interface) initial

/-! ## Starting and stopping -/

def startFailed (exception : Text) : ActionResult :=
  .failed ("Stop: IDS service stopped failed with the following ".toList ++
    "exception: ".toList ++ exception)

def Host.runSuricata (host : Host) (running : Bool) (command : ServiceCommand)
    (message : Text) (failure : Text → ActionResult) : Host × ActionResult :=
  match command with
  | .succeeds => ({ host with suricata := running }, .output message)
  | .fails exception left =>
      ({ host with suricata := left }, failure exception)

/-- `os.system("service filebeat start")` leaves filebeat running or not;
its exit code is not read. -/
def startSnort (interfaces : Except Text Text) (launch : List Text → Launch)
    (filebeat : Bool) (host : Host) : Host × ActionResult :=
  if ∃ process ∈ host.processes, process.LiveSnort then
    (host, .output "Start: Snort service is already started".toList)
  else
    match interfaces with
    | .error exception => (host, startFailed exception)
    | .ok stdout =>
        match launch (snortCommand (lastInterface "null".toList stdout)) with
        | .raises exception => (host, startFailed exception)
        | .starts added =>
            ({ host with
                processes := host.processes ++ added, filebeat := filebeat },
              .output "Start: Snort service started successfully".toList)

def startSuricata (restart : ServiceCommand) (host : Host) :
    Host × ActionResult :=
  host.runSuricata true restart
    "Start: Suricata service started successfully".toList startFailed

def stopSnort (kill : Kill) (filebeat : Bool) (host : Host) :
    Host × ActionResult :=
  if ∃ process ∈ host.processes, process.LiveSnort then
    match kill with
    | .raises exception => (host, serviceFailed exception)
    | .kills reaped =>
        ({ host with
            processes := killFirst reaped host.processes,
            filebeat := filebeat },
          .output "Stop: Snort service stopped successfully".toList)
  else (host, .output "Stop: Snort service is not running".toList)

def stopSuricata (stop : ServiceCommand) (host : Host) :
    Host × ActionResult :=
  host.runSuricata false stop
    "Start: Suricata service stopped successfully".toList serviceFailed

def onStartServiceAction (service : Text) (interfaces : Except Text Text)
    (launch : List Text → Launch) (filebeat : Bool) (restart : ServiceCommand)
    (host : Host) : Host × ActionResult :=
  if service = "snort".toList then startSnort interfaces launch filebeat host
  else startSuricata restart host

def onStopServiceAction (service : Text) (kill : Kill) (filebeat : Bool)
    (stop : ServiceCommand) (host : Host) : Host × ActionResult :=
  if service = "suricata".toList then stopSuricata stop host
  else stopSnort kill filebeat host

/-! ## The health check -/

/-- The loop over all processes, with the list it collects and the traffic of
its last pass. -/
def measureProcesses (measurements : Measurements) :
    List Process → List Json → Option Traffic →
      Except Text (List Json × Option Traffic)
  | [], infos, netUsage => .ok (infos, netUsage)
  | process :: processes, infos, _ =>
      match measurements.usage process with
      | .error exception => .error exception
      | .ok usage =>
          match measurements.traffic with
          | .error exception => .error exception
          | .ok traffic =>
              measureProcesses measurements processes
                (if process.name = "Suricata-Main".toList ∧
                    getSize usage.vms ≠ some "0.00B".toList then
                  infos ++ [processInfo process.name usage]
                else infos)
                (some traffic)

/-- `service suricata status` answers for a service that runs or does not. -/
def checkSuricata (printable : Char → Bool)
    (status : Bool → Except Text Text) (measurements : Measurements)
    (host : Host) : ActionResult :=
  match status host.suricata with
  | .error exception => healthCheckFailed exception
  | .ok stdout =>
      if "not".toList ∈ stdout.splitOn ' ' then
        .output "Status: Suricata is not running".toList
      else
        match measureProcesses measurements host.processes [] none with
        | .error exception => healthCheckFailed exception
        | .ok (_, none) =>
            healthCheckFailed
              ("local variable 'net_usage' referenced before ".toList ++
                "assignment".toList)
        | .ok (infos, some traffic) =>
            statusReport printable "Status: Suricata is running".toList infos
              traffic

def onHealthCheckAction (service : Text) (printable : Char → Bool)
    (status : Bool → Except Text Text) (measurements : Measurements)
    (host : Host) : ActionResult :=
  if service = "suricata".toList then
    checkSuricata printable status measurements host
  else SnortCharm.onHealthCheckAction printable measurements host.processes

/-! ## The configuration -/

def configurationFailed (exception : Text) : ActionResult :=
  .failed ("Start-configuration: IDS service configuration failed ".toList ++
    "with the following exception: ".toList ++ exception)

def configureSnort (hostname : Except Text Text) (files : Files) :
    Files × ActionResult :=
  match hostname.bind homeNetwork with
  | .error exception => (files, configurationFailed exception)
  | .ok output =>
      let line := SnortCharm.homeNetLine output
      match files.read (confPath .snort) with
      | none => (files, configurationFailed (noSuchFile (confPath .snort)))
      | some content =>
          (files.write (confPath .snort) (line ++ '\n' :: content),
            .output ("Start-configuration: Snort service configured ".toList ++
              "correctly".toList))

def configureSuricata (hostname interfaces : Except Text Text)
    (files : Files) : Files × ActionResult :=
  match hostname.bind homeNetwork with
  | .error exception => (files, configurationFailed exception)
  | .ok output =>
      let line := SuricataCharm.homeNetLine output
      match files.read (confPath .suricata) with
      | none => (files, configurationFailed (noSuchFile (confPath .suricata)))
      | some content =>
          let written := line ++ '\n' :: content
          let files := files.write (confPath .suricata) written
          match interfaces with
          | .error exception => (files, configurationFailed exception)
          | .ok stdout =>
              let interface := lastInterface "".toList stdout
              let files := files.write
                (confPath .suricata ++ ".bak".toList) written
              (files.write (confPath .suricata)
                  (afPacketPass interface (universalNewlines written)),
                .output ("Start-configuration: Suricata service ".toList ++
                  "configured correctly".toList))

def onStartConfigurationAction (service : Text)
    (hostname interfaces : Except Text Text) (files : Files) :
    Files × ActionResult :=
  if service = "suricata".toList then
    configureSuricata hostname interfaces files
  else configureSnort hostname files

/-! ## Calls of the actions -/

inductive Action where
  | startConfiguration (hostname interfaces : Except Text Text)
  | startService (interfaces : Except Text Text) (launch : List Text → Launch)
      (filebeat : Bool) (restart : ServiceCommand)
  | stopService (kill : Kill) (filebeat : Bool) (stop : ServiceCommand)
  | healthCheck (printable : Char → Bool) (status : Bool → Except Text Text)
      (measurements : Measurements)
  | addRule (rule : Text)
  | delRule

def Host.withFiles (host : Host) (performed : Files × ActionResult) :
    Host × ActionResult :=
  ({ host with files := performed.1 }, performed.2)

def Action.perform (service : Text) (host : Host) :
    Action → Host × ActionResult
  | .startConfiguration hostname interfaces =>
      host.withFiles
        (onStartConfigurationAction service hostname interfaces host.files)
  | .startService interfaces launch filebeat restart =>
      onStartServiceAction service interfaces launch filebeat restart host
  | .stopService kill filebeat stop =>
      onStopServiceAction service kill filebeat stop host
  | .healthCheck printable status measurements =>
      (host,
        onHealthCheckAction service printable status measurements host)
  | .addRule rule => host.withFiles (onAddRuleAction rule service host.files)
  | .delRule => host.withFiles (onDelRuleAction service host.files)

structure Call where
  service : Text
  action : Action

def callStep (host : Host) (call : Call) : Host :=
  (call.action.perform call.service host).1

end SecaasCharms.IdsCharm
