import SecaasCharms.FileVersions
import SecaasCharms.VpnRoutes
import SecaasCharms.VpnSettings

/-!
# Writing the OpenVPN configuration

`ovpn_genconfig` saves the settings and writes the server's configuration from
them, each over a backup of what was there.  It collects routes, pushed options
and extra lines one by one, and an empty one ends the script halfway, with the
settings already saved.  So what is written always comes from what is saved,
nothing that was written is lost, and settings with an empty entry stay in the
way of every later call.
-/

namespace SecaasCharms.OpenVpn

open FileVersions
open ShellOptions
open StepRuns
open TextLines

def openvpn : Text := "/etc/openvpn".toList

def easyrsaPki : Text := openvpn ++ "/pki".toList

def envPath : Text := openvpn ++ "/ovpn_env.sh".toList

def serverConfPath : Text := openvpn ++ "/openvpn.conf".toList

/-! ## The text of the configuration -/

def keyPath (cn : Text) : Text :=
  easyrsaPki ++ "/private/".toList ++ cn ++ ".key".toList

def Settings.header (settings : Settings) : List Text :=
  ["server ".toList ++ getroute settings.server,
    "verb 3".toList,
    "key ".toList ++ keyPath settings.cn,
    "ca ".toList ++ easyrsaPki ++ "/ca.crt".toList,
    "cert ".toList ++ easyrsaPki ++ "/issued/".toList ++ settings.cn ++
      ".crt".toList,
    "dh ".toList ++ easyrsaPki ++ "/dh.pem".toList,
    "tls-auth ".toList ++ easyrsaPki ++ "/ta.key".toList,
    "key-direction 0".toList,
    "keepalive ".toList ++ settings.keepalive,
    "persist-key".toList,
    "persist-tun".toList,
    [],
    "proto ".toList ++ settings.proto,
    "# Rely on Docker to do port mapping, internally always 1194".toList,
    "port 1194".toList,
    "dev ".toList ++ settings.device ++ "0".toList,
    "status /tmp/openvpn-status.log".toList,
    [],
    "user nobody".toList,
    "group nogroup".toList]

/-- A line for a variable that is set. -/
def directive (name value : Text) : List Text :=
  if value = [] then [] else [name ++ ' ' :: value]

def Settings.directives (settings : Settings) : List Text :=
  settings.header ++
    directive "tls-cipher".toList settings.tlsCipher ++
    directive "cipher".toList settings.cipher ++
    directive "auth".toList settings.auth ++
    (if settings.clientToClient then ["client-to-client".toList] else []) ++
    [if settings.compLzo then "comp-lzo".toList else "comp-lzo no".toList] ++
    directive "fragment".toList settings.fragment

/-- The `process_` functions fail on an empty value, which ends the
script. -/
def process (line : Text → Text) (value : Text) : Option (List Text) :=
  if value = [] then none else some (echoLines (line value))

def routeLine (route : Text) : Text := "route ".toList ++ getroute route

def pushLine (option : Text) : Text :=
  "push \"".toList ++ option ++ "\"".toList

def dnsOption (server : Text) : Text := "dhcp-option DNS ".toList ++ server

def Settings.pushed (settings : Settings) : List Text :=
  (if settings.disablePushBlockDns then [] else ["block-outside-dns".toList]) ++
    (if settings.dns then settings.dnsServers.map dnsOption else []) ++
    (if settings.compLzo then [] else ["comp-lzo no".toList]) ++
    settings.push

def titled (title : Text) (lines : List Text) : List Text :=
  [] :: ("### ".toList ++ title ++ " Configurations Below".toList) :: lines

/-- A part of the file that is left out if there are no entries for it. -/
def optionalPart (title : Text) (entries lines : List Text) : List Text :=
  if entries = [] then [] else titled title lines

def Settings.otpLines (settings : Settings) : List Text :=
  if settings.otpAuth then
    [[], [], "# Enable OTP+PAM for user authentication".toList,
      "plugin /usr/lib/openvpn/plugins/openvpn-plugin-auth-pam.so openvpn".toList,
      "reneg-sec 0".toList]
  else []

/-- The lines that are written, and whether the script gets to its end. -/
def Settings.confLines (settings : Settings) : List Text × Bool :=
  match settings.routes.mapM (process routeLine) with
  | none => (settings.directives, false)
  | some routes =>
      let routed := settings.directives ++
        optionalPart "Route".toList settings.routes routes.flatten
      match settings.pushed.mapM (process pushLine) with
      | none => (routed, false)
      | some pushes =>
          let pushed := routed ++ titled "Push".toList pushes.flatten ++
            settings.otpLines
          match settings.extraServerConfig.mapM (process id) with
          | none => (pushed, false)
          | some extra => (pushed ++ optionalPart "Extra".toList
              settings.extraServerConfig extra.flatten, true)

def Settings.conf (settings : Settings) : Text :=
  unlines settings.confLines.1

/-! ## What the script says -/

def backupPath (path time : Text) : Text :=
  path ++ '.' :: (time ++ ".bak".toList)

def processing (kind value : Text) : Text :=
  "Processing ".toList ++ kind ++ " Config: '".toList ++ value ++ "'".toList

def Settings.progress (settings : Settings) : List Text :=
  settings.extraClientConfig.map
      (fun line => "Processing Extra Client Config: ".toList ++ line) ++
    (if settings.disablePushBlockDns then
      ["Disable default push of 'block-outside-dns'".toList]
    else [processing "PUSH".toList "block-outside-dns".toList]) ++
    settings.routes.map (processing "Route".toList) ++
    (if settings.dns then
      settings.dnsServers.map
        (fun server => processing "PUSH".toList (dnsOption server))
    else []) ++
    (if settings.compLzo then []
    else [processing "PUSH".toList "comp-lzo no".toList]) ++
    settings.push.map (processing "PUSH".toList) ++
    settings.extraServerConfig.map (processing "Extra".toList)

section Backups

variable {α : Type} [DecidableEq α]

def backingUp (path time : Text) (old : Option α) : List Text :=
  if old.isSome then
    ["Backing up ".toList ++ path ++ " -> ".toList ++ backupPath path time]
  else []

/-- `diff -q` and, if it finds no difference, the removal. -/
def cleaningUp (path time : Text) (old : Option α) (version : α) : List Text :=
  match old with
  | none => []
  | some old =>
      if old = version then
        ["Removing duplicate back-up: ".toList ++ backupPath path time,
          "removed '".toList ++ backupPath path time ++ "'".toList]
      else
        ["Files ".toList ++ backupPath path time ++ " and ".toList ++ path ++
          " differ".toList]

end Backups

/-! ## The script -/

structure ConfigHost where
  ccd : Bool
  env : VersionedFile Settings Text
  conf : VersionedFile Text Text

/-- A call, with the times that `date` gives for the two backups. -/
structure Call where
  arguments : List Text
  envTime : Text
  confTime : Text

def Settings.envReplacement (settings : Settings) (call : Call) :
    Replacement Settings Text :=
  ⟨call.envTime, settings, settings.confLines.2⟩

def Settings.confReplacement (settings : Settings) (call : Call) :
    Replacement Text Text :=
  ⟨call.confTime, settings.conf, settings.confLines.2⟩

/-- What is printed, on the way to the end. -/
def genconfigStdout (call : Call) (host : ConfigHost) (settings : Settings) :
    Text :=
  unlines
    (backingUp envPath call.envTime host.env.current ++
      backingUp serverConfPath call.confTime host.conf.current ++
      settings.progress ++
      cleaningUp envPath call.envTime host.env.current settings ++
      cleaningUp serverConfPath call.confTime host.conf.current settings.conf ++
      ["Successfully generated config".toList,
        "Cleaning up before Exit ...".toList])

/-- The host after the call, and the output of one that ends with status
zero. -/
def genconfig (call : Call) (host : ConfigHost) : ConfigHost × Option Text :=
  match (getopts optionKind call.arguments).1.foldlM Settings.readOption
      (host.env.current.getD {}) with
  | none => (host, none)
  | some read =>
      match read.finish with
      | none => ({ host with ccd := true }, none)
      | some settings =>
          ({ ccd := true
             env := host.env.replace (settings.envReplacement call)
             conf := host.conf.replace (settings.confReplacement call) },
            if settings.confLines.2 then
              some (genconfigStdout call host settings)
            else none)

/-- A host on which no call was made yet. -/
def newConfig : ConfigHost :=
  ⟨false, ⟨none, fun _ => none⟩, ⟨none, fun _ => none⟩⟩

def plainCall : Call := ⟨["-u".toList, "a".toList], "1".toList, "1".toList⟩

/-! ## When a call gets to its end -/

/-- What is processed one by one. -/
def Settings.entries (settings : Settings) : List Text :=
  settings.routes ++ settings.push ++ settings.extraServerConfig

def Settings.Complete (settings : Settings) : Prop :=
  [] ∉ settings.entries

theorem mapM_process (line : Text → Text) (values : List Text) :
    values.mapM (process line) =
      if [] ∈ values then none
      else some (values.map (fun value => echoLines (line value))) := by
  induction values with
  | nil => rfl
  | cons value values ih =>
      rw [List.mapM_cons, ih]
      by_cases hvalue : value = []
      · have hfirst : process line value = none := if_pos hvalue
        have hmem : [] ∈ value :: values :=
          List.mem_cons.mpr (Or.inl hvalue.symm)
        rw [hfirst, if_pos hmem]
        rfl
      · have hfirst : process line value = some (echoLines (line value)) :=
          if_neg hvalue
        rw [hfirst]
        by_cases hrest : [] ∈ values
        · rw [if_pos hrest, if_pos (List.mem_cons_of_mem value hrest)]
          rfl
        · have hmem : [] ∉ value :: values := by
            simp [hrest, Ne.symm hvalue]
          rw [if_neg hrest, if_neg hmem]
          rfl

theorem Settings.nil_mem_pushed_iff (settings : Settings) :
    [] ∈ settings.pushed ↔ [] ∈ settings.push := by
  have hdns : ∀ server, dnsOption server ≠ [] :=
    fun server => List.append_ne_nil_of_left_ne_nil (by decide) server
  unfold Settings.pushed
  cases settings.disablePushBlockDns <;> cases settings.dns <;>
    cases settings.compLzo <;> simp [hdns]

theorem Settings.complete_iff (settings : Settings) :
    settings.Complete ↔ settings.confLines.2 = true := by
  constructor
  · intro hcomplete
    simp only [Settings.Complete, Settings.entries, List.mem_append, not_or]
      at hcomplete
    have hpushed : [] ∉ settings.pushed :=
      mt settings.nil_mem_pushed_iff.mp hcomplete.1.2
    simp only [Settings.confLines, mapM_process, if_neg hcomplete.1.1,
      if_neg hpushed, if_neg hcomplete.2]
  · intro hend hmem
    simp only [Settings.entries, List.mem_append] at hmem
    unfold Settings.confLines at hend
    simp only [mapM_process, settings.nil_mem_pushed_iff] at hend
    split_ifs at hend with hroutes hpush hextra
    all_goals simp_all

/-- The server's own part is written in any case. -/
theorem Settings.mem_confLines_of_mem_header (settings : Settings)
    {line : Text} (hline : line ∈ settings.header) :
    line ∈ settings.confLines.1 := by
  have hdirectives : line ∈ settings.directives := by
    simp only [Settings.directives, List.append_assoc]
    exact List.mem_append_left _ hline
  unfold Settings.confLines
  split
  · exact hdirectives
  · split
    · exact List.mem_append_left _ hdirectives
    · split
      all_goals
        simp only [List.append_assoc]
        exact List.mem_append_left _ hdirectives

theorem genconfig_of_refused {call : Call} {host : ConfigHost}
    (hrefused : nextSettings host.env.current call.arguments = none) :
    (genconfig call host).1.env = host.env ∧
      (genconfig call host).1.conf = host.conf ∧
      (genconfig call host).2 = none := by
  unfold nextSettings Settings.configure at hrefused
  unfold genconfig
  cases hread : (getopts optionKind call.arguments).1.foldlM
      Settings.readOption (host.env.current.getD {}) with
  | none => exact ⟨rfl, rfl, rfl⟩
  | some read =>
      rw [hread, Option.bind_some] at hrefused
      simp only [hrefused, and_self]

theorem genconfig_of_accepted {call : Call} {host : ConfigHost}
    {settings : Settings}
    (haccepted : nextSettings host.env.current call.arguments = some settings) :
    genconfig call host =
      ({ ccd := true
         env := host.env.replace (settings.envReplacement call)
         conf := host.conf.replace (settings.confReplacement call) },
        if settings.confLines.2 then
          some (genconfigStdout call host settings)
        else none) := by
  unfold nextSettings Settings.configure at haccepted
  rw [Option.bind_eq_some_iff] at haccepted
  rcases haccepted with ⟨read, hread, hfinish⟩
  unfold genconfig
  simp only [hread, hfinish]

/-- A call gets to its end exactly if it is accepted and leaves no empty
entry. -/
theorem genconfig_succeeds_iff (call : Call) (host : ConfigHost) :
    (genconfig call host).2 ≠ none ↔
      ∃ settings, nextSettings host.env.current call.arguments = some settings ∧
        settings.Complete := by
  cases hconfigured : nextSettings host.env.current call.arguments with
  | none => simp [(genconfig_of_refused hconfigured).2.2]
  | some settings =>
      rw [genconfig_of_accepted hconfigured]
      simp [settings.complete_iff]

/-- After a call that got to its end, one without options changes nothing at
all. -/
theorem genconfig_repeatable {call again : Call} {host : ConfigHost}
    (hend : (genconfig call host).2 ≠ none) (hoptions : again.arguments = [])
    (henv : (genconfig call host).1.env.FreeAt again.envTime)
    (hconf : (genconfig call host).1.conf.FreeAt again.confTime) :
    (genconfig again (genconfig call host).1).1 = (genconfig call host).1 ∧
      (genconfig again (genconfig call host).1).2 ≠ none := by
  rcases (genconfig_succeeds_iff call host).mp hend with
    ⟨settings, hsettings, hcomplete⟩
  have htidy : settings.confLines.2 = true := settings.complete_iff.mp hcomplete
  have hafter := genconfig_of_accepted hsettings
  have hagain : nextSettings (genconfig call host).1.env.current again.arguments =
      some settings := by
    rw [hafter, hoptions]
    exact nextSettings_nil hsettings
  refine ⟨?_, (genconfig_succeeds_iff _ _).mpr ⟨settings, hagain, hcomplete⟩⟩
  have henvSame : (genconfig call host).1.env.current = some settings := by
    rw [hafter]
    rfl
  have hconfSame : (genconfig call host).1.conf.current =
      some settings.conf := by
    rw [hafter]
    rfl
  have henvStays : (genconfig call host).1.env.replace
      (settings.envReplacement again) = (genconfig call host).1.env :=
    VersionedFile.replace_self henv htidy henvSame
  have hconfStays : (genconfig call host).1.conf.replace
      (settings.confReplacement again) = (genconfig call host).1.conf :=
    VersionedFile.replace_self hconf htidy hconfSame
  have hccd : (genconfig call host).1.ccd = true := by
    rw [hafter]
  rw [genconfig_of_accepted hagain, henvStays, hconfStays, ← hccd]

theorem genconfig_repeatable_plain :
    (genconfig ⟨[], "2".toList, "2".toList⟩
        (genconfig plainCall newConfig).1).1 =
          (genconfig plainCall newConfig).1 ∧
      (genconfig ⟨[], "2".toList, "2".toList⟩
        (genconfig plainCall newConfig).1).2 ≠ none :=
  @genconfig_repeatable plainCall ⟨[], "2".toList, "2".toList⟩ newConfig
    (Option.isSome_iff_ne_none.mp rfl) rfl rfl rfl

/-! ## Empty entries stay -/

theorem Settings.entries_readOption {settings read : Settings}
    {reading : Reading} (hread : settings.readOption reading = some read) :
    settings.entries ⊆ read.entries := by
  unfold Settings.readOption at hread
  split at hread
  all_goals cases hread
  all_goals
    intro entry hentry
    simp_all [Settings.entries]
  all_goals tauto

theorem Settings.entries_foldlM {settings read : Settings}
    {readings : List Reading}
    (hread : readings.foldlM Settings.readOption settings = some read) :
    settings.entries ⊆ read.entries := by
  induction readings generalizing settings with
  | nil =>
      cases hread
      exact List.Subset.refl _
  | cons reading readings ih =>
      rw [List.foldlM_cons, Option.bind_eq_bind, Option.bind_eq_some_iff]
        at hread
      rcases hread with ⟨next, hnext, hrest⟩
      exact List.Subset.trans (Settings.entries_readOption hnext) (ih hrest)

theorem Settings.entries_finish {settings saved : Settings}
    (hsaved : settings.finish = some saved) :
    settings.entries ⊆ saved.entries := by
  rcases Settings.finish_eq_some_iff.mp hsaved with ⟨url, -, rfl⟩
  have hroutes : settings.routes ⊆
      defaultRoutes settings.defroute settings.routes := by
    unfold defaultRoutes
    split_ifs with hdefault
    · rw [hdefault.1]
      exact List.nil_subset _
    · exact List.Subset.refl _
  intro entry hentry
  simp only [Settings.entries, List.mem_append] at hentry ⊢
  exact Or.imp_left (Or.imp_left (fun hroute => hroutes hroute)) hentry

theorem Settings.entries_configure {settings saved : Settings}
    {readings : List Reading}
    (hsaved : settings.configure readings = some saved) :
    settings.entries ⊆ saved.entries := by
  rcases Option.bind_eq_some_iff.mp hsaved with ⟨read, hread, hfinish⟩
  exact List.Subset.trans (Settings.entries_foldlM hread)
    (Settings.entries_finish hfinish)

def genconfigStep (host : ConfigHost) (call : Call) : ConfigHost :=
  (genconfig call host).1

def Fails (host : ConfigHost) (call : Call) : Prop :=
  (genconfig call host).2 = none

/-- The saved settings have an empty entry. -/
def ConfigHost.Broken (host : ConfigHost) : Prop :=
  ∃ saved, host.env.current = some saved ∧ ¬ saved.Complete

theorem ConfigHost.Broken.configured {host : ConfigHost} (hbroken : host.Broken)
    {arguments : List Text} {settings : Settings}
    (hsettings : nextSettings host.env.current arguments = some settings) :
    ¬ settings.Complete := by
  rcases hbroken with ⟨saved, hsaved, hincomplete⟩
  rw [hsaved] at hsettings
  exact fun hcomplete => hincomplete
    (fun hempty => hcomplete (Settings.entries_configure hsettings hempty))

theorem ConfigHost.Broken.fails {host : ConfigHost} (hbroken : host.Broken)
    (call : Call) : Fails host call := by
  by_contra hsucceeds
  rcases (genconfig_succeeds_iff call host).mp hsucceeds with
    ⟨settings, hsettings, hcomplete⟩
  exact hbroken.configured hsettings hcomplete

theorem ConfigHost.Broken.step {host : ConfigHost} (hbroken : host.Broken)
    (call : Call) : (genconfigStep host call).Broken := by
  unfold genconfigStep
  cases hconfigured : nextSettings host.env.current call.arguments with
  | none =>
      rcases hbroken with ⟨saved, hsaved, hincomplete⟩
      refine ⟨saved, ?_, hincomplete⟩
      rw [(genconfig_of_refused hconfigured).1, hsaved]
  | some settings =>
      refine ⟨settings, ?_, hbroken.configured hconfigured⟩
      rw [genconfig_of_accepted hconfigured]
      rfl

/-- After one accepted call has ended halfway no later call gets to its end,
whatever its options are. -/
theorem fails_after_break {call : Call} {host : ConfigHost}
    {settings : Settings}
    (haccepted : nextSettings host.env.current call.arguments = some settings)
    (hbreak : Fails host call) (calls : List Call) :
    EveryStep genconfigStep Fails (genconfigStep host call) calls := by
  have hbroken : (genconfigStep host call).Broken := by
    refine ⟨settings, ?_, ?_⟩
    · rw [genconfigStep, genconfig_of_accepted haccepted]
      rfl
    · intro hcomplete
      have hsucceeds := (genconfig_succeeds_iff call host).mpr
        ⟨settings, haccepted, hcomplete⟩
      exact hsucceeds hbreak
  have hall : EveryStep genconfigStep (fun _ _ => True)
      (genconfigStep host call) calls :=
    EveryStep.of_forall (fun _ _ => trivial) _ _
  have hstates : EveryState genconfigStep ConfigHost.Broken
      (genconfigStep host call) calls :=
    everyState_of_invariant (fun _ event hstate _ => hstate.step event) hbroken
      hall
  exact everyStep_of_everyState (fun _ event hstate _ _ => hstate.fails event)
    hall hstates

def emptyPushCall : Call :=
  ⟨["-u".toList, "a".toList, "-p".toList, []], "2".toList, "2".toList⟩

theorem fails_after_break_emptyPush :
    EveryStep genconfigStep Fails (genconfigStep newConfig emptyPushCall)
      [plainCall] :=
  @fails_after_break emptyPushCall newConfig _ rfl rfl [plainCall]

/-! ## Nothing is lost -/

/-- Neither backup of a call goes where another one is. -/
def Spared (host : ConfigHost) (call : Call) : Prop :=
  host.env.FreeAt call.envTime ∧ host.conf.FreeAt call.confTime

theorem replaces_env :
    Replaces genconfigStep ConfigHost.env (fun host call =>
      (nextSettings host.env.current call.arguments).map
        (fun settings => settings.envReplacement call)) := by
  intro host call
  unfold genconfigStep
  cases hconfigured : nextSettings host.env.current call.arguments with
  | none =>
      simp only [hconfigured]
      exact (genconfig_of_refused hconfigured).1
  | some settings =>
      simp only [hconfigured, genconfig_of_accepted hconfigured]
      rfl

theorem replaces_conf :
    Replaces genconfigStep ConfigHost.conf (fun host call =>
      (nextSettings host.env.current call.arguments).map
        (fun settings => settings.confReplacement call)) := by
  intro host call
  unfold genconfigStep
  cases hconfigured : nextSettings host.env.current call.arguments with
  | none =>
      simp only [hconfigured]
      exact (genconfig_of_refused hconfigured).2.1
  | some settings =>
      simp only [hconfigured, genconfig_of_accepted hconfigured]
      rfl

/-- The settings that one of the calls saved. -/
def SavedBy (host : ConfigHost) (calls : List Call) (settings : Settings) :
    Prop :=
  ∃ before call after, calls = before ++ call :: after ∧
    nextSettings (run genconfigStep host before).env.current call.arguments =
      some settings

/-- In place or in a backup there is, after any calls, what was there before
and what every accepted call wrote, whether it got to its end or not. -/
theorem versions_of_run {host : ConfigHost} {calls : List Call}
    (hspared : EveryStep genconfigStep Spared host calls) :
    (∀ settings, (run genconfigStep host calls).env.Holds settings ↔
      host.env.Holds settings ∨ SavedBy host calls settings) ∧
    ∀ text, (run genconfigStep host calls).conf.Holds text ↔
      host.conf.Holds text ∨
        ∃ settings, SavedBy host calls settings ∧ settings.conf = text := by
  have henv : EveryStep genconfigStep (Spares ConfigHost.env (fun host call =>
      (nextSettings host.env.current call.arguments).map
        (fun settings => settings.envReplacement call))) host calls := by
    rw [everyStep_iff] at hspared ⊢
    intro before call after hsplit replacement hreplacement
    rcases Option.map_eq_some_iff.mp hreplacement with ⟨settings, -, rfl⟩
    exact (hspared before call after hsplit).1
  have hconf : EveryStep genconfigStep (Spares ConfigHost.conf
      (fun host call => (nextSettings host.env.current call.arguments).map
        (fun settings => settings.confReplacement call))) host calls := by
    rw [everyStep_iff] at hspared ⊢
    intro before call after hsplit replacement hreplacement
    rcases Option.map_eq_some_iff.mp hreplacement with ⟨settings, -, rfl⟩
    exact (hspared before call after hsplit).2
  constructor
  · intro settings
    rw [holds_run_iff replaces_env henv]
    simp [SavedBy, Settings.envReplacement]
  · intro text
    rw [holds_run_iff replaces_conf hconf]
    refine or_congr_right ?_
    constructor
    · rintro ⟨before, call, after, hsplit, replacement, hwritten, htext⟩
      rcases Option.map_eq_some_iff.mp hwritten with ⟨settings, hsettings, rfl⟩
      exact ⟨settings, ⟨before, call, after, hsplit, hsettings⟩, htext⟩
    · rintro ⟨settings, ⟨before, call, after, hsplit, hsettings⟩, htext⟩
      exact ⟨before, call, after, hsplit, settings.confReplacement call,
        Option.map_eq_some_iff.mpr ⟨settings, hsettings, rfl⟩, htext⟩

theorem versions_of_run_two :
    (∀ settings,
      (run genconfigStep newConfig [plainCall, emptyPushCall]).env.Holds
          settings ↔
        newConfig.env.Holds settings ∨
          SavedBy newConfig [plainCall, emptyPushCall] settings) ∧
    ∀ text,
      (run genconfigStep newConfig [plainCall, emptyPushCall]).conf.Holds
          text ↔
        newConfig.conf.Holds text ∨
          ∃ settings, SavedBy newConfig [plainCall, emptyPushCall] settings ∧
            settings.conf = text :=
  versions_of_run ⟨⟨rfl, rfl⟩, ⟨rfl, rfl⟩, trivial⟩

end SecaasCharms.OpenVpn
