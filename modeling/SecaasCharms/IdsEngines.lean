import SecaasCharms.ConfigurationRuns
import SecaasCharms.IdsService
import SecaasCharms.SnortUniqueness

/-!
# The engine that a service name selects

A name serves an engine when every action called with it works on that engine
alone, so that what one action starts another one stops, checks, configures
and writes rules for.  Two names do.
-/

namespace SecaasCharms.IdsCharm

open TextLines
open StepRuns
open SnortCharm

/-! ## What serving an engine means -/

def engineFiles : Engine → List Text
  | .snort => [confPath .snort, rulesPath .snort]
  | .suricata =>
      [confPath .suricata, confPath .suricata ++ ".bak".toList,
        rulesPath .suricata]

/-- The services of the other engine. -/
def OtherServicesKept : Engine → Host → Host → Prop
  | .snort, before, after => after.suricata = before.suricata
  | .suricata, before, after =>
      after.processes = before.processes ∧ after.filebeat = before.filebeat

structure ChangesOnly (engine : Engine) (before after : Host) : Prop where
  files : ∀ path, path ∉ engineFiles engine →
    after.files path = before.files path
  services : OtherServicesKept engine before after

def Stopped (host : Host) : Prop :=
  liveSnorts host.processes = 0 ∧ host.suricata = false

def Started (engine : Engine) (host : Host) : Prop :=
  match engine with
  | .snort => 0 < liveSnorts host.processes
  | .suricata => host.suricata = true

def runningMessage : Engine → Text
  | .snort => "Status: Snort is running".toList
  | .suricata => "Status: Suricata is running".toList

def notRunningMessage : Engine → Text
  | .snort => "Stop: Snort service is not running".toList
  | .suricata => "Status: Suricata is not running".toList

/-- The report says that the engine runs if it does, and else that it does
not. -/
def Reports (engine : Engine) (host : Host) (result : ActionResult) : Prop :=
  (Started engine host ∧ result.reported = some (runningMessage engine)) ∨
    (¬ Started engine host ∧
      result.reported = some (notRunningMessage engine))

/-- `service suricata status` prints the word `not` for a service that does
not run, and only then. -/
def TellsStatus (status : Bool → Except Text Text) : Prop :=
  ∀ running stdout, status running = .ok stdout →
    ("not".toList ∈ stdout.splitOn ' ' ↔ running = false)

/-- The configuration file under a header with this home network. -/
def Configured : Engine → List Text → Text → Text → Prop
  | .snort, output, content, text =>
      text = SnortCharm.homeNetLine output ++ '\n' :: content
  | .suricata, output, content, text =>
      ∃ interface, text = SuricataCharm.homeNetLine output ++
        '\n' :: afPacketPass interface content

def Action.Quiet : Action → Prop
  | .healthCheck _ _ _ => True
  | .addRule _ => True
  | .delRule => True
  | _ => False

def Launches (count : ℕ) (launch : List Text → Launch) : Prop :=
  ∀ command, ∃ added, launch command = .starts added ∧
    liveSnorts added = count

structure Serves (service : Text) (engine : Engine) : Prop where
  acts : ∀ (action : Action) (host : Host),
    ChangesOnly engine host (action.perform service host).1
  configures : ∀ (addresses : List Address) interfaces files,
    let configured := onStartConfigurationAction service
      (.ok (hostnameOutput addresses)) interfaces files
    configured.2.Succeeded →
      ∃ output content text,
        homeNetwork (hostnameOutput addresses) = .ok output ∧
          files.read (confPath engine) = some content ∧
          configured.1 (confPath engine) = some text ∧
          Configured engine output content text
  starts : ∀ interfaces launch filebeat restart host, Launches 1 launch →
    let started :=
      onStartServiceAction service interfaces launch filebeat restart host
    started.2.Succeeded → Started engine started.1
  stops : ∀ interfaces launch filebeat restart host,
    (∀ command, (launch command).Single) → Stopped host →
    let started :=
      onStartServiceAction service interfaces launch filebeat restart host
    started.2.Succeeded →
    ∀ calls : List Call, (∀ call ∈ calls, call.action.Quiet) →
    ∀ kill filebeat stop,
      let stopped := onStopServiceAction service kill filebeat stop
        (run callStep started.1 calls)
      stopped.2.Succeeded → Stopped stopped.1
  reports : ∀ printable status measurements host, TellsStatus status →
    let result :=
      onHealthCheckAction service printable status measurements host
    result.Succeeded → Reports engine host result
  checks : ∀ interfaces launch filebeat restart host, Launches 1 launch →
    let started :=
      onStartServiceAction service interfaces launch filebeat restart host
    started.2.Succeeded →
    ∀ calls : List Call, (∀ call ∈ calls, call.action.Quiet) →
    ∀ printable status measurements, TellsStatus status →
      let result := onHealthCheckAction service printable status measurements
        (run callStep started.1 calls)
      result.Succeeded → result.reported = some (runningMessage engine)
  adds : ∀ rule files,
    let added := onAddRuleAction rule service files
    added.2.Succeeded →
      ∃ content, files.read (rulesPath engine) = some content ∧
        added.1 (rulesPath engine) = some (rule ++ '\n' :: content)
  deletes : ∀ files,
    let deleted := onDelRuleAction service files
    deleted.2.Succeeded →
      ∃ content, files.read (rulesPath engine) = some content ∧
        deleted.1 (rulesPath engine) =
          some ((splitlinesKeep content).drop 1).flatten

/-! ## One branch -/

theorem changesOnly_self (engine : Engine) (host : Host) :
    ChangesOnly engine host host := by
  constructor
  · intro path _
    rfl
  · cases engine with
    | snort => rfl
    | suricata => exact ⟨rfl, rfl⟩

theorem changesOnly_withFiles {engine : Engine} {host : Host}
    {performed : Files × ActionResult}
    (hfiles : ∀ path, path ∉ engineFiles engine →
      performed.1 path = host.files path) :
    ChangesOnly engine host (host.withFiles performed).1 := by
  constructor
  · exact hfiles
  · cases engine with
    | snort => rfl
    | suricata => exact ⟨rfl, rfl⟩

theorem changesOnly_runSuricata (host : Host) (running : Bool)
    (command : ServiceCommand) (message : Text)
    (failure : Text → ActionResult) :
    ChangesOnly .suricata host
      (host.runSuricata running command message failure).1 := by
  cases command with
  | succeeds => exact ⟨fun _ _ => rfl, rfl, rfl⟩
  | fails exception left => exact ⟨fun _ _ => rfl, rfl, rfl⟩

theorem suricata_runSuricata {host : Host} {running : Bool}
    {command : ServiceCommand} {message : Text}
    {failure : Text → ActionResult}
    (hfailure : ∀ exception, ¬ (failure exception).Succeeded)
    (hsucceeded :
      (host.runSuricata running command message failure).2.Succeeded) :
    (host.runSuricata running command message failure).1.suricata =
      running := by
  cases command with
  | succeeds => rfl
  | fails exception left => exact absurd hsucceeded (hfailure exception)

theorem exists_liveSnort_iff (processes : List Process) :
    (∃ process ∈ processes, process.LiveSnort) ↔ 0 < liveSnorts processes :=
  @snortLive_iff ⟨processes, false⟩

/-- Nothing, a failure, or the processes of one launch. -/
theorem startSnort_cases (interfaces : Except Text Text)
    (launch : List Text → Launch) (filebeat : Bool) (host : Host) :
    let started := startSnort interfaces launch filebeat host
    (started.1 = host ∧ 0 < liveSnorts host.processes) ∨
      (started.1 = host ∧ ¬ started.2.Succeeded) ∨
      ∃ command added, launch command = .starts added ∧
        liveSnorts host.processes = 0 ∧
        started.1 = { host with
          processes := host.processes ++ added, filebeat := filebeat } := by
  have hcount := exists_liveSnort_iff host.processes
  unfold startSnort
  by_cases hlive : ∃ process ∈ host.processes, process.LiveSnort
  · rw [if_pos hlive]
    exact Or.inl ⟨rfl, hcount.mp hlive⟩
  · rw [if_neg hlive]
    rw [hcount] at hlive
    cases interfaces with
    | error exception => exact Or.inr (Or.inl ⟨rfl, id⟩)
    | ok stdout =>
        simp only
        cases hlaunch : launch
            (snortCommand (lastInterface "null".toList stdout)) with
        | raises exception => exact Or.inr (Or.inl ⟨rfl, id⟩)
        | starts added =>
            right
            right
            exact ⟨_, added, hlaunch, by omega, rfl⟩

/-- Nothing with no live snort, a failure, or one kill. -/
theorem stopSnort_cases (kill : Kill) (filebeat : Bool) (host : Host) :
    let stopped := stopSnort kill filebeat host
    (stopped.1 = host ∧ liveSnorts host.processes = 0) ∨
      (stopped.1 = host ∧ ¬ stopped.2.Succeeded) ∨
      ∃ reaped, 0 < liveSnorts host.processes ∧
        stopped.1 = { host with
          processes := killFirst reaped host.processes,
          filebeat := filebeat } := by
  have hcount := exists_liveSnort_iff host.processes
  unfold stopSnort
  by_cases hlive : ∃ process ∈ host.processes, process.LiveSnort
  · rw [if_pos hlive]
    rw [hcount] at hlive
    cases kill with
    | raises exception => exact Or.inr (Or.inl ⟨rfl, id⟩)
    | kills reaped => exact Or.inr (Or.inr ⟨reaped, hlive, rfl⟩)
  · rw [if_neg hlive]
    rw [hcount] at hlive
    exact Or.inl ⟨rfl, by omega⟩

theorem startSnort_changes (interfaces : Except Text Text)
    (launch : List Text → Launch) (filebeat : Bool) (host : Host) :
    ChangesOnly .snort host
      (startSnort interfaces launch filebeat host).1 := by
  rcases startSnort_cases interfaces launch filebeat host with
    ⟨hsame, _⟩ | ⟨hsame, _⟩ | ⟨command, added, _, _, hstarted⟩
  · rw [hsame]
    exact changesOnly_self .snort host
  · rw [hsame]
    exact changesOnly_self .snort host
  · rw [hstarted]
    exact ⟨fun _ _ => rfl, rfl⟩

theorem stopSnort_changes (kill : Kill) (filebeat : Bool) (host : Host) :
    ChangesOnly .snort host (stopSnort kill filebeat host).1 := by
  rcases stopSnort_cases kill filebeat host with
    ⟨hsame, _⟩ | ⟨hsame, _⟩ | ⟨reaped, _, hstopped⟩
  · rw [hsame]
    exact changesOnly_self .snort host
  · rw [hsame]
    exact changesOnly_self .snort host
  · rw [hstopped]
    exact ⟨fun _ _ => rfl, rfl⟩

theorem liveSnorts_startSnort_le {launch : List Text → Launch}
    (hsingle : ∀ command, (launch command).Single)
    (interfaces : Except Text Text) (filebeat : Bool) {host : Host}
    (hnone : liveSnorts host.processes = 0) :
    liveSnorts (startSnort interfaces launch filebeat host).1.processes ≤
      1 := by
  rcases startSnort_cases interfaces launch filebeat host with
    ⟨hsame, _⟩ | ⟨hsame, _⟩ | ⟨command, added, hlaunch, _, hstarted⟩
  · rw [hsame]
    omega
  · rw [hsame]
    omega
  · have hadded := hsingle command
    rw [hlaunch] at hadded
    have hone : liveSnorts added ≤ 1 := hadded
    rw [hstarted]
    simp only [liveSnorts_append]
    omega

theorem liveSnorts_startSnort_pos {launch : List Text → Launch}
    (hone : Launches 1 launch) {interfaces : Except Text Text}
    {filebeat : Bool} {host : Host}
    (hsucceeded :
      (startSnort interfaces launch filebeat host).2.Succeeded) :
    0 < liveSnorts
      (startSnort interfaces launch filebeat host).1.processes := by
  rcases startSnort_cases interfaces launch filebeat host with
    ⟨hsame, hlive⟩ | ⟨_, hfailed⟩ | ⟨command, added, hlaunch, _, hstarted⟩
  · rw [hsame]
    exact hlive
  · exact absurd hsucceeded hfailed
  · rcases hone command with ⟨launched, hlaunched, hcount⟩
    rw [hlaunch, Launch.starts.injEq] at hlaunched
    rw [hstarted]
    simp only [liveSnorts_append, hlaunched]
    omega

theorem liveSnorts_stopSnort {kill : Kill} {filebeat : Bool} {host : Host}
    (hone : liveSnorts host.processes ≤ 1)
    (hsucceeded : (stopSnort kill filebeat host).2.Succeeded) :
    liveSnorts (stopSnort kill filebeat host).1.processes = 0 := by
  rcases stopSnort_cases kill filebeat host with
    ⟨hsame, hnone⟩ | ⟨_, hfailed⟩ | ⟨reaped, hlive, hstopped⟩
  · rw [hsame]
    exact hnone
  · exact absurd hsucceeded hfailed
  · have hkilled := liveSnorts_killFirst reaped hlive
    rw [hstopped]
    simp only
    omega

theorem configureSnort_files (hostname : Except Text Text) (files : Files)
    {path : Text} (hpath : path ∉ engineFiles .snort) :
    (configureSnort hostname files).1 path = files path := by
  have hother : path ≠ confPath .snort := by
    intro heq
    exact hpath (by simp [engineFiles, heq])
  unfold configureSnort
  cases hostname.bind homeNetwork with
  | error exception => rfl
  | ok output =>
      simp only
      cases files.read (confPath .snort) with
      | none => rfl
      | some content => exact Files.write_of_ne files hother _

theorem configureSuricata_files (hostname interfaces : Except Text Text)
    (files : Files) {path : Text} (hpath : path ∉ engineFiles .suricata) :
    (configureSuricata hostname interfaces files).1 path = files path := by
  have hconf : path ≠ confPath .suricata := by
    intro heq
    exact hpath (by simp [engineFiles, heq])
  have hbackup : path ≠ confPath .suricata ++ ".bak".toList := by
    intro heq
    exact hpath (by simp [engineFiles, heq])
  unfold configureSuricata
  cases hostname.bind homeNetwork with
  | error exception => rfl
  | ok output =>
      simp only
      cases files.read (confPath .suricata) with
      | none => rfl
      | some content =>
          simp only
          cases interfaces with
          | error exception => exact Files.write_of_ne files hconf _
          | ok stdout =>
              simp only
              rw [Files.write_of_ne _ hconf, Files.write_of_ne _ hbackup,
                Files.write_of_ne _ hconf]

theorem rules_files {engine : Engine} {path : Text} (action : RuleAction)
    (files : Files) (hpath : path ∉ engineFiles engine) :
    (action.edit (rulesPath engine) files).1 path = files path := by
  apply edit_of_ne action
  intro heq
  apply hpath
  rw [heq]
  cases engine with
  | snort => simp [engineFiles]
  | suricata => simp [engineFiles]

theorem configureSnort_configures {hostname : Except Text Text}
    {files : Files} (hsucceeded : (configureSnort hostname files).2.Succeeded) :
    ∃ output content text, hostname.bind homeNetwork = .ok output ∧
      files.read (confPath .snort) = some content ∧
      (configureSnort hostname files).1 (confPath .snort) = some text ∧
      Configured .snort output content text := by
  unfold configureSnort at hsucceeded ⊢
  cases hcomputed : hostname.bind homeNetwork with
  | error exception =>
      rw [hcomputed] at hsucceeded
      exact absurd hsucceeded id
  | ok output =>
      simp only [hcomputed] at hsucceeded ⊢
      cases hread : files.read (confPath .snort) with
      | none =>
          rw [hread] at hsucceeded
          exact absurd hsucceeded id
      | some content =>
          simp only
          exact ⟨output, content, _, rfl, rfl, Files.write_self _ _ _, rfl⟩

/-- The second pass goes over the header without changing it. -/
theorem configureSuricata_configures {addresses : List Address}
    {interfaces : Except Text Text} {files : Files}
    (hsucceeded : (configureSuricata (.ok (hostnameOutput addresses))
      interfaces files).2.Succeeded) :
    ∃ output content text,
      homeNetwork (hostnameOutput addresses) = .ok output ∧
        files.read (confPath .suricata) = some content ∧
        (configureSuricata (.ok (hostnameOutput addresses)) interfaces
          files).1 (confPath .suricata) = some text ∧
        Configured .suricata output content text := by
  unfold configureSuricata at hsucceeded ⊢
  cases hcomputed : homeNetwork (hostnameOutput addresses) with
  | error exception =>
      simp only [Except.bind, hcomputed] at hsucceeded
      exact absurd hsucceeded id
  | ok output =>
      have houtput := homeNetwork_unbroken hcomputed
      simp only [Except.bind, hcomputed] at hsucceeded ⊢
      cases hread : files.read (confPath .suricata) with
      | none =>
          rw [hread] at hsucceeded
          exact absurd hsucceeded id
      | some content =>
          simp only [hread] at hsucceeded ⊢
          cases interfaces with
          | error exception => exact absurd hsucceeded id
          | ok stdout =>
              simp only
              refine ⟨output, content, _, rfl, rfl, Files.write_self _ _ _,
                lastInterface "".toList stdout, ?_⟩
              have hcontent : universalNewlines content = content :=
                Files.universalNewlines_of_read hread
              rw [suricata_headerLines, suricata_headerLines,
                universalNewlines_append
                  (return_not_mem_header .suricata houtput), hcontent,
                afPacketPass_append_header _ houtput]

theorem addRule_adds {path rule : Text} {files : Files}
    (hsucceeded : (addRule path rule files).2.Succeeded) :
    ∃ content, files.read path = some content ∧
      (addRule path rule files).1 path = some (rule ++ '\n' :: content) := by
  unfold addRule at hsucceeded ⊢
  cases hread : files.read path with
  | none =>
      rw [hread] at hsucceeded
      exact absurd hsucceeded id
  | some content => exact ⟨content, rfl, Files.write_self _ _ _⟩

theorem delRule_deletes {path : Text} {files : Files}
    (hsucceeded : (delRule path files).2.Succeeded) :
    ∃ content, files.read path = some content ∧
      (delRule path files).1 path =
        some ((splitlinesKeep content).drop 1).flatten := by
  unfold delRule at hsucceeded ⊢
  cases hread : files.read path with
  | none =>
      rw [hread] at hsucceeded
      exact absurd hsucceeded id
  | some content => exact ⟨content, rfl, Files.write_self _ _ _⟩

theorem checkSuricata_reports {printable : Char → Bool}
    {status : Bool → Except Text Text} {measurements : Measurements}
    {host : Host} (htells : TellsStatus status) :
    (checkSuricata printable status measurements host).Succeeded →
      Reports .suricata host
        (checkSuricata printable status measurements host) := by
  unfold checkSuricata
  cases hstatus : status host.suricata with
  | error exception =>
      intro hsucceeded
      exact absurd hsucceeded id
  | ok stdout =>
      have htold := htells _ _ hstatus
      simp only
      split
      next hnot =>
        intro _
        have hdown : ¬ Started .suricata host := by
          simp [Started, htold.mp hnot]
        exact Or.inr ⟨hdown, rfl⟩
      next hup =>
        have hrunning : Started .suricata host := by
          cases hsuricata : host.suricata with
          | true => exact hsuricata
          | false => exact absurd (htold.mpr hsuricata) hup
        cases measureProcesses measurements host.processes [] none with
        | error exception =>
            intro hsucceeded
            exact absurd hsucceeded id
        | ok measured =>
            cases measured with
            | mk infos netUsage =>
                cases netUsage with
                | none =>
                    intro hsucceeded
                    exact absurd hsucceeded id
                | some traffic =>
                    intro _
                    exact Or.inl ⟨hrunning, rfl⟩

theorem checkSnort_reports {printable : Char → Bool}
    {measurements : Measurements} {host : Host}
    (hsucceeded : (SnortCharm.onHealthCheckAction printable measurements
      host.processes).Succeeded) :
    Reports .snort host (SnortCharm.onHealthCheckAction printable measurements
      host.processes) := by
  have hlive := @snortLive_iff ⟨host.processes, host.filebeat⟩
  rcases onHealthCheckAction_reported printable measurements
      ⟨host.processes, host.filebeat⟩ with
    ⟨hreported, hrunning⟩ | ⟨hreported, hdown⟩ | ⟨hfailed, _⟩
  · exact Or.inl ⟨hlive.mp hrunning, hreported⟩
  · exact Or.inr ⟨mt hlive.mpr hdown, hreported⟩
  · exact absurd hsucceeded hfailed

/-! ## Health checks and rule edits in between -/

theorem callStep_quiet {call : Call} (hquiet : call.action.Quiet)
    (host : Host) :
    (callStep host call).processes = host.processes ∧
      (callStep host call).suricata = host.suricata := by
  rcases call with ⟨service, action⟩
  cases action with
  | startConfiguration hostname interfaces => exact absurd hquiet id
  | startService interfaces launch filebeat restart => exact absurd hquiet id
  | stopService kill filebeat stop => exact absurd hquiet id
  | healthCheck printable status measurements => exact ⟨rfl, rfl⟩
  | addRule rule => exact ⟨rfl, rfl⟩
  | delRule => exact ⟨rfl, rfl⟩

theorem run_quiet (host : Host) {calls : List Call}
    (hquiet : ∀ call ∈ calls, call.action.Quiet) :
    (run callStep host calls).processes = host.processes ∧
      (run callStep host calls).suricata = host.suricata := by
  apply run_invariant
    (fun state => state.processes = host.processes ∧
      state.suricata = host.suricata) _ ⟨rfl, rfl⟩
    (EveryStep.of_forall_mem hquiet host)
  intro state call hstate hcall
  have hstep := callStep_quiet hcall state
  exact ⟨hstep.1.trans hstate.1, hstep.2.trans hstate.2⟩

theorem started_run_quiet {engine : Engine} {host : Host}
    (hstarted : Started engine host) {calls : List Call}
    (hquiet : ∀ call ∈ calls, call.action.Quiet) :
    Started engine (run callStep host calls) := by
  have hkept := run_quiet host hquiet
  cases engine with
  | snort =>
      unfold Started at hstarted ⊢
      rw [hkept.1]
      exact hstarted
  | suricata =>
      unfold Started at hstarted ⊢
      rw [hkept.2]
      exact hstarted

theorem Reports.running {engine : Engine} {host : Host}
    {result : ActionResult} (hreports : Reports engine host result)
    (hstarted : Started engine host) :
    result.reported = some (runningMessage engine) := by
  rcases hreports with ⟨_, hreported⟩ | ⟨hdown, _⟩
  · exact hreported
  · exact absurd hstarted hdown

theorem changesOnly_quiet {service : Text} {engine : Engine}
    (hengine : rulesEngine service = engine) (action : Action)
    (hquiet : action.Quiet) (host : Host) :
    ChangesOnly engine host (action.perform service host).1 := by
  cases action with
  | startConfiguration hostname interfaces => exact absurd hquiet id
  | startService interfaces launch filebeat restart => exact absurd hquiet id
  | stopService kill filebeat stop => exact absurd hquiet id
  | healthCheck printable status measurements =>
      exact changesOnly_self engine host
  | addRule rule =>
      apply changesOnly_withFiles
      intro path hpath
      rw [onAddRuleAction_eq, hengine]
      exact rules_files (.add rule) host.files hpath
  | delRule =>
      apply changesOnly_withFiles
      intro path hpath
      rw [onDelRuleAction_eq, hengine]
      exact rules_files .del host.files hpath

/-! ## The two names -/

theorem serves_snort : Serves "snort".toList .snort := by
  have hother : "snort".toList ≠ "suricata".toList := by decide
  have hengine : rulesEngine "snort".toList = .snort := by decide
  constructor
  · intro action host
    cases action with
    | startConfiguration hostname interfaces =>
        apply changesOnly_withFiles
        intro path hpath
        unfold onStartConfigurationAction
        rw [if_neg hother]
        exact configureSnort_files hostname host.files hpath
    | startService interfaces launch filebeat restart =>
        unfold Action.perform onStartServiceAction
        simp only [if_true]
        exact startSnort_changes interfaces launch filebeat host
    | stopService kill filebeat stop =>
        unfold Action.perform onStopServiceAction
        simp only [if_neg hother]
        exact stopSnort_changes kill filebeat host
    | healthCheck printable status measurements =>
        exact changesOnly_quiet hengine (.healthCheck _ _ _) trivial host
    | addRule rule =>
        exact changesOnly_quiet hengine (.addRule rule) trivial host
    | delRule => exact changesOnly_quiet hengine .delRule trivial host
  · intro addresses interfaces files
    unfold onStartConfigurationAction
    rw [if_neg hother]
    exact configureSnort_configures
  · intro interfaces launch filebeat restart host hone
    unfold onStartServiceAction
    simp only [if_true]
    exact liveSnorts_startSnort_pos hone
  · intro interfaces launch filebeat restart host hsingle hstopped
    unfold onStartServiceAction onStopServiceAction
    simp only [if_true, if_neg hother]
    intro _ calls hquiet kill filebeatAfter stop hsucceeded
    have hkept := run_quiet
      (startSnort interfaces launch filebeat host).1 hquiet
    have hone := liveSnorts_startSnort_le hsingle interfaces filebeat
      hstopped.1
    rw [← hkept.1] at hone
    constructor
    · exact liveSnorts_stopSnort hone hsucceeded
    · have hstarted :=
        (startSnort_changes interfaces launch filebeat host).services
      have hended := (stopSnort_changes kill filebeatAfter (run callStep
        (startSnort interfaces launch filebeat host).1 calls)).services
      exact ((hended.trans hkept.2).trans hstarted).trans hstopped.2
  · intro printable status measurements host _
    unfold onHealthCheckAction
    simp only [if_neg hother]
    exact checkSnort_reports
  · intro interfaces launch filebeat restart host hone
    unfold onStartServiceAction onHealthCheckAction
    simp only [if_true, if_neg hother]
    intro hsucceeded calls hquiet printable status measurements _ hchecked
    have hstarted : Started .snort
        (startSnort interfaces launch filebeat host).1 :=
      liveSnorts_startSnort_pos hone hsucceeded
    exact (checkSnort_reports hchecked).running
      (started_run_quiet hstarted hquiet)
  · intro rule files
    unfold onAddRuleAction
    simp only [if_neg hother]
    exact addRule_adds
  · intro files
    unfold onDelRuleAction
    simp only [if_neg hother]
    exact delRule_deletes

theorem serves_suricata : Serves "suricata".toList .suricata := by
  have hother : "suricata".toList ≠ "snort".toList := by decide
  have hengine : rulesEngine "suricata".toList = .suricata := by decide
  constructor
  · intro action host
    cases action with
    | startConfiguration hostname interfaces =>
        apply changesOnly_withFiles
        intro path hpath
        exact configureSuricata_files hostname interfaces host.files hpath
    | startService interfaces launch filebeat restart =>
        unfold Action.perform onStartServiceAction
        simp only [if_neg hother]
        exact changesOnly_runSuricata host true restart _ _
    | stopService kill filebeat stop =>
        exact changesOnly_runSuricata host false stop _ _
    | healthCheck printable status measurements =>
        exact changesOnly_quiet hengine (.healthCheck _ _ _) trivial host
    | addRule rule =>
        exact changesOnly_quiet hengine (.addRule rule) trivial host
    | delRule => exact changesOnly_quiet hengine .delRule trivial host
  · intro addresses interfaces files
    exact configureSuricata_configures
  · intro interfaces launch filebeat restart host _
    unfold onStartServiceAction
    simp only [if_neg hother]
    exact suricata_runSuricata (fun _ => id)
  · intro interfaces launch filebeat restart host _ hstopped
    unfold onStartServiceAction onStopServiceAction
    simp only [if_true, if_neg hother]
    intro _ calls hquiet kill filebeatAfter stop hsucceeded
    have hkept := run_quiet (startSuricata restart host).1 hquiet
    have hstarted := (changesOnly_runSuricata host true restart
      "Start: Suricata service started successfully".toList
      startFailed).services
    have hended := (changesOnly_runSuricata
      (run callStep (startSuricata restart host).1 calls) false stop
      "Start: Suricata service stopped successfully".toList
      serviceFailed).services
    constructor
    · have hprocesses := (hended.1.trans hkept.1).trans hstarted.1
      unfold stopSuricata
      rw [hprocesses]
      exact hstopped.1
    · exact suricata_runSuricata (fun _ => id) hsucceeded
  · intro printable status measurements host htells
    unfold onHealthCheckAction
    simp only [if_true]
    exact checkSuricata_reports htells
  · intro interfaces launch filebeat restart host _
    unfold onStartServiceAction onHealthCheckAction
    simp only [if_true, if_neg hother]
    intro hsucceeded calls hquiet printable status measurements htells
      hchecked
    have hstarted : Started .suricata (startSuricata restart host).1 :=
      suricata_runSuricata (fun _ => id) hsucceeded
    exact (checkSuricata_reports htells hchecked).running
      (started_run_quiet hstarted hquiet)
  · intro rule files
    unfold onAddRuleAction
    simp only [if_true]
    exact addRule_adds
  · intro files
    unfold onDelRuleAction
    simp only [if_true]
    exact delRule_deletes

/-- A name that is neither starts suricata and stops snort. -/
theorem not_serves_of_ne {service : Text}
    (hsnort : service ≠ "snort".toList)
    (hsuricata : service ≠ "suricata".toList) (engine : Engine) :
    ¬ Serves service engine := by
  intro hserves
  cases engine with
  | snort =>
      have hacts := hserves.acts
        (.startService (.ok []) (fun _ => .starts []) false .succeeds)
        ⟨Files.none, [], false, false⟩
      unfold Action.perform onStartServiceAction at hacts
      simp only [if_neg hsnort] at hacts
      exact absurd hacts.services Bool.noConfusion
  | suricata =>
      have hacts := hserves.acts (.stopService (.kills true) false .succeeds)
        ⟨Files.none, [⟨"snort".toList, "sleeping".toList⟩], true, false⟩
      unfold Action.perform onStopServiceAction at hacts
      simp only [if_neg hsuricata] at hacts
      exact absurd hacts.services.2 (by decide)

/-- The actions of the charm agree on an engine for `snort` and `suricata`,
and for no other name. -/
theorem serves_iff (service : Text) :
    (∃ engine, Serves service engine) ↔
      service = "snort".toList ∨ service = "suricata".toList := by
  constructor
  · rintro ⟨engine, hserves⟩
    by_contra hneither
    rw [not_or] at hneither
    exact not_serves_of_ne hneither.1 hneither.2 engine hserves
  · intro hname
    rcases hname with rfl | rfl
    · exact ⟨.snort, serves_snort⟩
    · exact ⟨.suricata, serves_suricata⟩

/-- The default of the parameter. -/
theorem not_serves_default : ¬ ∃ engine, Serves "".toList engine := by
  rintro ⟨engine, hserves⟩
  exact not_serves_of_ne (by decide) (by decide) engine hserves

end SecaasCharms.IdsCharm
