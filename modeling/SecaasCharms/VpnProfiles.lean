import Mathlib.Data.List.DropRight
import SecaasCharms.JsonValues
import SecaasCharms.VpnConfiguration

/-!
# The VPN charm: configurations and client profiles

`init-vpnconfig` writes a configuration for a domain and makes new keys,
`create-clientcert` makes the keys of a client and prints its profile.  Both
call scripts that meet only through the saved settings.  The theorems on runs
say what they make of that: a profile always names the server that the
configuration in place is for, and the configuration names a key that exists.
-/

namespace SecaasCharms.OpenVpn

open TextLines

/-! ## Keys -/

/-- The key directory, as the scripts look into it. -/
structure Pki where
  privateKey : Text → Option Text
  certificate : Text → Option Text
  ca : Option Text
  ta : Option Text

/-- What a command does to the key directory, and its exit status. -/
abbrev Commands := List Text → Pki → Pki × ℕ

/-- Commands under `set -e`. -/
def Commands.sequence (commands : Commands) : List (List Text) → Pki → Pki × ℕ
  | [], pki => (pki, 0)
  | command :: rest, pki =>
      if (commands command pki).2 = 0 then
        commands.sequence rest (commands command pki).1
      else commands command pki

def buildServer (cn : Text) : List Text :=
  ["easyrsa".toList, "build-server-full".toList, cn, "nopass".toList]

def genCrl : List Text := ["easyrsa".toList, "gen-crl".toList]

def initpkiCommands (nopass cn : Text) : List (List Text) :=
  [["easyrsa".toList, "init-pki".toList],
    ["easyrsa".toList, "build-ca".toList, nopass],
    ["easyrsa".toList, "gen-dh".toList],
    ["openvpn".toList, "--genkey".toList, "--secret".toList,
      easyrsaPki ++ "/ta.key".toList],
    buildServer cn,
    genCrl]

def initpki (nopass : Text) (commands : Commands) (saved : Option Settings)
    (pki : Pki) : Pki × ℕ :=
  match saved with
  | none => (pki, 1)
  | some settings => commands.sequence (initpkiCommands nopass settings.cn) pki

/-! ## Profiles -/

/-- `$(cat ...)`, which drops the newlines at the end. -/
def substituted (file : Option Text) : Text :=
  (file.getD []).rdropWhile (fun c => c = '\n')

def remoteLine (settings : Settings) (proto : Text) : Text :=
  "remote ".toList ++ settings.cn ++ ' ' :: (settings.port ++ ' ' :: proto)

/-- `get_client_config` for one file with everything in it. -/
def clientConfig (settings : Settings) (pki : Pki) (cn : Text) : List Text :=
  [[], "client".toList, "nobind".toList, "dev ".toList ++ settings.device,
    "remote-cert-tls server".toList, [], remoteLine settings settings.proto] ++
    (if settings.proto = "udp6".toList then [remoteLine settings "udp".toList]
    else []) ++
    (if settings.proto = "tcp6".toList then [remoteLine settings "tcp".toList]
    else []) ++
    settings.extraClientConfig ++
    [[], "<key>".toList, substituted (pki.privateKey cn), "</key>".toList,
      "<cert>".toList, substituted (pki.certificate cn), "</cert>".toList,
      "<ca>".toList, substituted pki.ca, "</ca>".toList,
      "key-direction 1".toList,
      "<tls-auth>".toList, substituted pki.ta, "</tls-auth>".toList, []] ++
    (if settings.defroute then ["redirect-gateway def1".toList] else []) ++
    directive "tun-mtu".toList settings.mtu ++
    directive "tls-cipher".toList settings.tlsCipher ++
    directive "cipher".toList settings.cipher ++
    directive "auth".toList settings.auth ++
    (if settings.otpAuth then ["auth-user-pass".toList, "auth-nocache".toList]
    else []) ++
    (if settings.compLzo then ["comp-lzo".toList] else []) ++
    (if settings.otpAuth then ["reneg-sec 0".toList] else [])

/-- The output of `ovpn_getclient`, unless it ends with status one. -/
def getclient (saved : Option Settings) (pki : Pki) (cn : Text) :
    Option Text :=
  match saved with
  | none => none
  | some settings =>
      if (pki.privateKey cn).isSome then
        some (unlines (clientConfig settings pki cn))
      else none

end SecaasCharms.OpenVpn

namespace SecaasCharms.VpnCharm

open OpenVpn
open StepRuns
open TextLines

/-! ## The handlers -/

structure VpnHost where
  config : ConfigHost
  pki : Pki

/-- What `CalledProcessError` says. -/
def calledProcessError (printable : Char → Bool) (command : List Text)
    (status : ℕ) : Text :=
  "Command '".toList ++ Json.repr printable (.arr (command.map Json.str)) ++
    "' returned non-zero exit status ".toList ++ digits status ++ ".".toList

def configurationFailed (exception : Text) : ActionResult :=
  .failed ("ERROR: VPN Configuration failed with the following exception: ".toList
    ++ exception)

def clientFailed (exception : Text) : ActionResult :=
  .failed ("ERROR: Create client certificate process failed with the ".toList ++
    "following exception: ".toList ++ exception)

/-- The server's address, as the charm hands it on. -/
def serverUrl (domain : Text) : Text := "udp://".toList ++ domain

def genconfigCall (domain envTime confTime : Text) : Call :=
  ⟨["-u".toList, serverUrl domain], envTime, confTime⟩

def onInitVpnconfigAction (printable : Char → Bool) (commands : Commands)
    (domain envTime confTime : Text) (host : VpnHost) :
    VpnHost × ActionResult :=
  let call := genconfigCall domain envTime confTime
  match genconfig call host.config with
  | (config, none) =>
      ({ host with config := config },
        configurationFailed (calledProcessError printable
          ("ovpn_genconfig".toList :: call.arguments) 1))
  | (config, some stdout) =>
      match initpki "nopass".toList commands config.env.current host.pki with
      | (pki, 0) =>
          (⟨config, pki⟩, .results
            [("info".toList, "VPN configuration generated correctly".toList),
              ("output".toList, universalNewlines stdout)])
      | (pki, status) =>
          (⟨config, pki⟩, configurationFailed (calledProcessError printable
            ["ovpn_initpki".toList, "nopass".toList] status))

def buildClient (clientname : Text) : List Text :=
  ["easyrsa".toList, "build-client-full".toList, clientname, "nopass".toList]

def clientFields (clientname profile : Text) : List (Text × Text) :=
  [("info".toList, "Client cert created and retrieved successfully".toList),
    (clientname ++ ".ovpn".toList, profile)]

def clientResult : Except Text ActionResult → ActionResult
  | .error exception => clientFailed exception
  | .ok result => result

def onCreateClientcertAction (printable : Char → Bool) (commands : Commands)
    (clientname : Text) (host : VpnHost) : VpnHost × ActionResult :=
  match commands (buildClient clientname) host.pki with
  | (pki, 0) =>
      match getclient host.config.env.current pki clientname with
      | none =>
          ({ host with pki := pki }, clientFailed (calledProcessError printable
            ["ovpn_getclient".toList, clientname] 1))
      | some stdout =>
          ({ host with pki := pki },
            clientResult (setResults printable isResultKey
              (clientFields clientname (universalNewlines stdout))))
  | (pki, status) =>
      ({ host with pki := pki }, clientFailed (calledProcessError printable
        (buildClient clientname) status))

inductive VpnAction where
  | initVpnconfig (domain envTime confTime : Text)
  | createClientcert (clientname : Text)

/-- An action, and what the commands it runs do. -/
structure VpnEvent where
  action : VpnAction
  commands : Commands

def perform (printable : Char → Bool) (host : VpnHost) (event : VpnEvent) :
    VpnHost × ActionResult :=
  match event.action with
  | .initVpnconfig domain envTime confTime =>
      onInitVpnconfigAction printable event.commands domain envTime confTime
        host
  | .createClientcert clientname =>
      onCreateClientcertAction printable event.commands clientname host

def vpnStep (printable : Char → Bool) (host : VpnHost) (event : VpnEvent) :
    VpnHost :=
  (perform printable host event).1

/-! ## A small key directory -/

def noKeys : Pki := ⟨fun _ => none, fun _ => none, none, none⟩

/-- Commands that all succeed, of which some make a key. -/
def makeKey : Commands := fun command pki =>
  match command with
  | [_, verb, name, _] =>
      if verb = "build-server-full".toList ∨ verb = "build-client-full".toList
      then ({ pki with
        privateKey := Function.update pki.privateKey name (some []) }, 0)
      else (pki, 0)
  | _ => (pki, 0)

/-! ## What an action does to the configuration -/

def VpnAction.domain? : VpnAction → Option Text
  | .initVpnconfig domain _ _ => some domain
  | .createClientcert _ => none

/-- The server's address that an action moves the configuration to. -/
def VpnAction.moves (action : VpnAction) : Option (Text × ServerUrl) :=
  action.domain?.bind (fun domain =>
    (matchUrl (serverUrl domain)).map (fun url => (serverUrl domain, url)))

theorem config_onInitVpnconfigAction (printable : Char → Bool)
    (commands : Commands) (domain envTime confTime : Text) (host : VpnHost) :
    (onInitVpnconfigAction printable commands domain envTime confTime
        host).1.config =
      genconfigStep host.config (genconfigCall domain envTime confTime) := by
  unfold onInitVpnconfigAction genconfigStep
  rcases hgenerated : genconfig (genconfigCall domain envTime confTime)
    host.config with ⟨config, stdout⟩
  cases stdout with
  | none => simp only [hgenerated]
  | some stdout =>
      rcases hkeys : initpki "nopass".toList commands config.env.current
        host.pki with ⟨pki, status⟩
      cases status <;> simp only [hgenerated, hkeys]

theorem config_onCreateClientcertAction (printable : Char → Bool)
    (commands : Commands) (clientname : Text) (host : VpnHost) :
    (onCreateClientcertAction printable commands clientname host).1.config =
      host.config := by
  unfold onCreateClientcertAction
  rcases commands (buildClient clientname) host.pki with ⟨pki, status⟩
  cases status with
  | zero =>
      cases hstdout : getclient host.config.env.current pki clientname <;>
        simp [hstdout]
  | succ status => rfl

/-- The settings and the configuration agree. -/
def Agree (config : ConfigHost) (settings : Option Settings) : Prop :=
  config.env.current = settings ∧
    config.conf.current = settings.map Settings.conf

/-- The two files that are in place. -/
structure Written where
  settings : Option Settings
  conf : Option Text

def written (config : ConfigHost) : Written :=
  ⟨config.env.current, config.conf.current⟩

/-- The settings for another address, and the configuration written from
them. -/
def Written.move (written : Written) (text : Text) (url : ServerUrl) :
    Written :=
  ⟨some ((written.settings.getD {}).moved text url),
    some ((written.settings.getD {}).moved text url).conf⟩

/-- What an action makes of the two files. -/
def Written.follow (written : Written) (action : VpnAction) : Written :=
  match action.moves with
  | none => written
  | some (text, url) => written.move text url

theorem agree_iff {config : ConfigHost} {settings : Option Settings} :
    Agree config settings ↔
      written config = ⟨settings, settings.map Settings.conf⟩ :=
  (Written.mk.injEq _ _ _ _ ▸ Iff.rfl)

theorem written_genconfigStep (config : ConfigHost) (call : Call) :
    written (genconfigStep config call) =
      match nextSettings config.env.current call.arguments with
      | none => written config
      | some settings => ⟨some settings, some settings.conf⟩ := by
  unfold genconfigStep
  cases hconfigured : nextSettings config.env.current call.arguments with
  | none =>
      have hrefused := genconfig_of_refused hconfigured
      rw [written, hrefused.1, hrefused.2.1]
      rfl
  | some next =>
      rw [genconfig_of_accepted hconfigured]
      rfl

theorem written_vpnStep (printable : Char → Bool) (host : VpnHost)
    (event : VpnEvent) :
    written (vpnStep printable host event).config =
      (written host.config).follow event.action := by
  unfold vpnStep perform
  cases haction : event.action with
  | initVpnconfig domain envTime confTime =>
      have hconfigured : nextSettings host.config.env.current
          (genconfigCall domain envTime confTime).arguments =
            (matchUrl (serverUrl domain)).map
              ((host.config.env.current.getD {}).moved (serverUrl domain)) :=
        nextSettings_url host.config.env.current (serverUrl domain)
      rw [config_onInitVpnconfigAction, written_genconfigStep, hconfigured]
      cases hurl : matchUrl (serverUrl domain) with
      | none =>
          simp [Written.follow, VpnAction.moves, VpnAction.domain?, hurl]
      | some url =>
          simp [Written.follow, Written.move, written, VpnAction.moves,
            VpnAction.domain?, hurl]
  | createClientcert clientname =>
      rw [config_onCreateClientcertAction]
      rfl

/-! ## Runs -/

/-- The latest address among the actions that could be read. -/
def latestMove (actions : List VpnAction) : Option (Text × ServerUrl) :=
  (actions.filterMap VpnAction.moves).getLast?

/-- The files for the latest address, over those there were at first. -/
def Written.latest (written : Written) (actions : List VpnAction) : Written :=
  match latestMove actions with
  | none => written
  | some (text, url) => written.move text url

theorem Written.move_move (written : Written) (first second : Text)
    (url next : ServerUrl) :
    (written.move first url).move second next = written.move second next := by
  simp only [Written.move, Option.getD_some, Settings.moved_moved]

theorem Written.latest_concat (written : Written) (actions : List VpnAction)
    (action : VpnAction) :
    written.latest (actions ++ [action]) =
      (written.latest actions).follow action := by
  cases hmoves : action.moves with
  | none => simp [Written.latest, Written.follow, latestMove, hmoves]
  | some move =>
      have hlatest : latestMove (actions ++ [action]) = some move := by
        simp [latestMove, hmoves]
      simp only [Written.latest, Written.follow, hlatest, hmoves]
      cases latestMove actions with
      | none => rfl
      | some before => rw [Written.move_move]

theorem Written.run_follow (written : Written) (actions : List VpnAction) :
    run Written.follow written actions = written.latest actions := by
  induction actions using List.reverseRecOn with
  | nil => rfl
  | append_singleton actions action ih =>
      rw [run_append, ih, Written.latest_concat]
      rfl

theorem written_run (printable : Char → Bool) (host : VpnHost)
    (events : List VpnEvent) :
    written (run (vpnStep printable) host events).config =
      (written host.config).latest (events.map VpnEvent.action) := by
  have hstep : ∀ host event, written (vpnStep printable host event).config =
      run Written.follow (written host.config) [event.action] :=
    written_vpnStep printable
  have hrun := run_interpreted (fun host : VpnHost => written host.config)
    (fun event : VpnEvent => [event.action]) hstep host events
  rw [hrun, Written.run_follow, List.map_eq_flatMap]

/-- Where both files agreed at first, they do after a run. -/
theorem agree_run (printable : Char → Bool) {host : VpnHost}
    {saved : Option Settings} (hagree : Agree host.config saved)
    (events : List VpnEvent) :
    Agree (run (vpnStep printable) host events).config
      ((Written.latest ⟨saved, saved.map Settings.conf⟩
        (events.map VpnEvent.action)).settings) := by
  rw [agree_iff, written_run, agree_iff.mp hagree, Written.latest]
  cases latestMove (events.map VpnEvent.action) with
  | none => rfl
  | some move => rfl

theorem VpnAction.moves_eq_some_iff {action : VpnAction} {text : Text}
    {url : ServerUrl} :
    action.moves = some (text, url) ↔
      ∃ domain, action.domain? = some domain ∧ text = serverUrl domain ∧
        url.WellFormed ∧ url.proto = "udp".toList ∧ domain = url.address := by
  have hread : ∀ domain, matchUrl (serverUrl domain) = some url ↔
      url.WellFormed ∧ url.proto = "udp".toList ∧ domain = url.address := by
    intro domain
    rw [matchUrl_eq_some_iff]
    constructor
    · rintro ⟨hurl, htext⟩
      have hscheme := congrArg splitScheme htext
      have hudp : "udp".toList ∈ schemes := by decide
      have hleft : splitScheme (serverUrl domain) = ("udp".toList, domain) :=
        splitScheme_of_mem hudp domain
      rw [hleft, hurl.splitScheme_text] at hscheme
      have hparts := Prod.mk.inj hscheme
      exact ⟨hurl, hparts.1.symm, hparts.2⟩
    · rintro ⟨hurl, hproto, hdomain⟩
      refine ⟨hurl, ?_⟩
      rw [ServerUrl.text, hproto, hdomain]
      rfl
  unfold VpnAction.moves
  simp only [Option.bind_eq_some_iff, Option.map_eq_some_iff, Prod.mk.injEq]
  constructor
  · rintro ⟨domain, hdomain, other, hother, rfl, rfl⟩
    exact ⟨domain, hdomain, rfl, (hread domain).mp hother⟩
  · rintro ⟨domain, hdomain, rfl, hrest⟩
    exact ⟨domain, hdomain, url, (hread domain).mpr hrest, rfl, rfl⟩

theorem results_of_onCreateClientcertAction {printable : Char → Bool}
    {commands : Commands} {clientname : Text} {host : VpnHost}
    {fields : List (Text × Text)}
    (hresult : (onCreateClientcertAction printable commands clientname host).2 =
      .results fields) :
    ∃ settings, host.config.env.current = some settings ∧
      ∃ pki, fields =
        [("info".toList, "Client cert created and retrieved successfully".toList),
          (clientname ++ ".ovpn".toList, universalNewlines
            (unlines (clientConfig settings pki clientname)))] := by
  unfold onCreateClientcertAction at hresult
  rcases hkeys : commands (buildClient clientname) host.pki with ⟨pki, status⟩
  cases status with
  | succ status =>
      simp only [hkeys] at hresult
      cases hresult
  | zero =>
      cases hsaved : host.config.env.current with
      | none =>
          simp only [hkeys, hsaved, getclient] at hresult
          cases hresult
      | some settings =>
          by_cases hkey : (pki.privateKey clientname).isSome = true
          · simp only [hkeys, hsaved, getclient, if_pos hkey] at hresult
            cases hset : setResults printable isResultKey
              (clientFields clientname (universalNewlines
                (unlines (clientConfig settings pki clientname)))) with
            | error exception =>
                rw [hset] at hresult
                cases hresult
            | ok result =>
                have hfields := (setResults_eq_ok_iff.mp hset).2
                rw [hset] at hresult
                cases hresult
                cases hfields
                exact ⟨settings, rfl, pki, rfl⟩
          · simp only [hkeys, hsaved, getclient, if_neg hkey] at hresult
            cases hresult

theorem remoteLine_moved (settings : Settings) (text : Text) {url : ServerUrl}
    (hproto : url.proto = "udp".toList) :
    remoteLine (settings.moved text url) (settings.moved text url).proto =
      "remote ".toList ++ url.cn ++ ' ' ::
        ((if url.port = [] then "1194".toList else url.port) ++
          " udp".toList) := by
  have hkept : (settings.moved text url).proto = "udp".toList := by
    have hdefault : (settings.moved text url).proto =
        if url.proto = [] then "udp".toList else url.proto := rfl
    rw [hdefault, hproto]
    rfl
  rw [hkept]
  rfl

/-- What the charm relies on in `easyrsa`: the server's key is there after it
was made, and no other command it runs later removes a key. -/
structure KeepsKeys (commands : Commands) : Prop where
  serverKey : ∀ cn pki, (commands (buildServer cn) pki).2 = 0 →
    ((commands (buildServer cn) pki).1.privateKey cn).isSome = true
  keepsCrl : ∀ name pki, (pki.privateKey name).isSome = true →
    ((commands genCrl pki).1.privateKey name).isSome = true
  keepsClient : ∀ client name pki, (pki.privateKey name).isSome = true →
    ((commands (buildClient client) pki).1.privateKey name).isSome = true

/-- An initialisation is refused for its domain, or gets to its end. -/
def EndsWell (printable : Char → Bool) (host : VpnHost) (event : VpnEvent) :
    Prop :=
  KeepsKeys event.commands ∧
    (event.action.moves ≠ none → (perform printable host event).2.Succeeded)

def VpnHost.Keyed (host : VpnHost) : Prop :=
  ∀ settings, host.config.env.current = some settings →
    (host.pki.privateKey settings.cn).isSome = true

theorem Commands.sequence_append (commands : Commands)
    (first later : List (List Text)) (pki : Pki)
    (hend : (commands.sequence (first ++ later) pki).2 = 0) :
    ∃ between, commands.sequence (first ++ later) pki =
      commands.sequence later between := by
  induction first generalizing pki with
  | nil => exact ⟨pki, rfl⟩
  | cons command first ih =>
      rw [List.cons_append, Commands.sequence] at hend ⊢
      by_cases hcommand : (commands command pki).2 = 0
      · rw [if_pos hcommand] at hend ⊢
        exact ih _ hend
      · rw [if_neg hcommand] at hend
        exact absurd hend hcommand

theorem KeepsKeys.afterInitpki {commands : Commands} (hkeeps : KeepsKeys commands)
    {nopass cn : Text} {pki : Pki}
    (hend : (commands.sequence (initpkiCommands nopass cn) pki).2 = 0) :
    ((commands.sequence (initpkiCommands nopass cn) pki).1.privateKey
      cn).isSome = true := by
  have hsplit : initpkiCommands nopass cn =
      (initpkiCommands nopass cn).take 4 ++ [buildServer cn, genCrl] := rfl
  rw [hsplit] at hend ⊢
  rcases Commands.sequence_append commands _ _ pki hend with ⟨between, hlast⟩
  rw [hlast] at hend ⊢
  unfold Commands.sequence at hend ⊢
  by_cases hserver : (commands (buildServer cn) between).2 = 0
  · have hkey := hkeeps.serverKey cn between hserver
    have hcrl := hkeeps.keepsCrl cn _ hkey
    rw [if_pos hserver] at hend ⊢
    unfold Commands.sequence
    split_ifs
    · exact hcrl
    · exact hcrl
  · rw [if_neg hserver] at hend
    exact absurd hend hserver

theorem keyed_onInitVpnconfigAction {printable : Char → Bool}
    {commands : Commands} (hkeeps : KeepsKeys commands)
    {domain envTime confTime : Text} {host : VpnHost}
    (hsucceeded : (onInitVpnconfigAction printable commands domain envTime
      confTime host).2.Succeeded) :
    (onInitVpnconfigAction printable commands domain envTime confTime
      host).1.Keyed := by
  unfold onInitVpnconfigAction at hsucceeded ⊢
  rcases hgenerated : genconfig (genconfigCall domain envTime confTime)
    host.config with ⟨config, stdout⟩
  cases stdout with
  | none =>
      simp only [hgenerated] at hsucceeded
      exact absurd hsucceeded id
  | some stdout =>
      rcases hkeys : initpki "nopass".toList commands config.env.current
        host.pki with ⟨pki, status⟩
      cases status with
      | succ status =>
          simp only [hgenerated, hkeys] at hsucceeded
          exact absurd hsucceeded id
      | zero =>
          simp only [hgenerated, hkeys]
          intro settings hsettings
          rw [hsettings] at hkeys
          have hsequence : commands.sequence (initpkiCommands "nopass".toList
              settings.cn) host.pki = (pki, 0) := hkeys
          have hkey := hkeeps.afterInitpki (congrArg Prod.snd hsequence)
          rw [hsequence] at hkey
          exact hkey

theorem pki_onCreateClientcertAction (printable : Char → Bool)
    (commands : Commands) (clientname : Text) (host : VpnHost) :
    (onCreateClientcertAction printable commands clientname host).1.pki =
      (commands (buildClient clientname) host.pki).1 := by
  unfold onCreateClientcertAction
  rcases hkeys : commands (buildClient clientname) host.pki with ⟨pki, status⟩
  cases status with
  | zero =>
      cases hstdout : getclient host.config.env.current pki clientname <;>
        simp only [hstdout]
  | succ status => rfl

theorem pki_onInitVpnconfigAction_of_refused (printable : Char → Bool)
    (commands : Commands) (domain envTime confTime : Text) (host : VpnHost)
    (hrefused : matchUrl (serverUrl domain) = none) :
    (onInitVpnconfigAction printable commands domain envTime confTime
        host).1.pki = host.pki ∧
      (onInitVpnconfigAction printable commands domain envTime confTime
        host).1.config.env = host.config.env := by
  have hconfigured : nextSettings host.config.env.current
      (genconfigCall domain envTime confTime).arguments = none := by
    have hurl := nextSettings_url host.config.env.current (serverUrl domain)
    rw [hrefused] at hurl
    exact hurl
  have hspec := genconfig_of_refused hconfigured
  unfold onInitVpnconfigAction
  rcases hgenerated : genconfig (genconfigCall domain envTime confTime)
    host.config with ⟨config, stdout⟩
  rw [hgenerated] at hspec
  have hnone : stdout = none := hspec.2.2
  rw [hnone] at hgenerated
  simp only [hgenerated]
  exact ⟨trivial, hspec.1⟩

/-- One action keeps the server's key in place. -/
theorem keyed_vpnStep {printable : Char → Bool} {host : VpnHost}
    {event : VpnEvent} (hkeyed : host.Keyed)
    (hends : EndsWell printable host event) :
    (vpnStep printable host event).Keyed := by
  rcases hends with ⟨hkeeps, hsucceeds⟩
  unfold perform at hsucceeds
  unfold vpnStep perform
  cases haction : event.action with
  | initVpnconfig domain envTime confTime =>
      rw [haction] at hsucceeds
      cases hurl : matchUrl (serverUrl domain) with
      | none =>
          have hspec := pki_onInitVpnconfigAction_of_refused printable
            event.commands domain envTime confTime host hurl
          simp only [VpnHost.Keyed, hspec.1, hspec.2]
          exact hkeyed
      | some url =>
          have hmoves : VpnAction.moves (.initVpnconfig domain envTime
              confTime) ≠ none := by
            simp [VpnAction.moves, VpnAction.domain?, hurl]
          exact keyed_onInitVpnconfigAction hkeeps (hsucceeds hmoves)
  | createClientcert clientname =>
      intro settings hsettings
      rw [config_onCreateClientcertAction] at hsettings
      rw [pki_onCreateClientcertAction]
      exact hkeeps.keepsClient clientname settings.cn host.pki
        (hkeyed settings hsettings)

/-- As long as no initialisation with a readable domain ends halfway, the key
that the configuration names exists in every state. -/
theorem keyed_of_run {printable : Char → Bool} {host : VpnHost}
    (hnew : Agree host.config none) {events : List VpnEvent}
    (hends : EveryStep (vpnStep printable) (EndsWell printable) host events)
    {conf : Text}
    (hconf : (run (vpnStep printable) host events).config.conf.current =
      some conf) :
    ∃ settings : Settings, conf = settings.conf ∧
      "key ".toList ++ keyPath settings.cn ∈ settings.confLines.1 ∧
      ((run (vpnStep printable) host events).pki.privateKey
        settings.cn).isSome = true := by
  have hinit : host.Keyed := by
    intro settings hsettings
    rw [hnew.1] at hsettings
    cases hsettings
  have hkeyed : (run (vpnStep printable) host events).Keyed :=
    run_invariant VpnHost.Keyed
      (fun _ _ hstate hpermitted => keyed_vpnStep hstate hpermitted) hinit hends
  have hagree := agree_run printable hnew events
  rw [hagree.2, Option.map_eq_some_iff] at hconf
  rcases hconf with ⟨settings, hsettings, rfl⟩
  refine ⟨settings, rfl, ?_, hkeyed settings (hagree.1.trans hsettings)⟩
  exact settings.mem_confLines_of_mem_header
    (List.mem_cons_of_mem _ (List.mem_cons_of_mem _ List.mem_cons_self))

theorem keepsKeys_makeKey : KeepsKeys makeKey where
  serverKey cn pki _ := by
    have hmade : makeKey (buildServer cn) pki = ({ pki with
        privateKey := Function.update pki.privateKey cn (some []) }, 0) := by
      simp [makeKey, buildServer]
    rw [hmade]
    simp
  keepsCrl _ _ hkey := hkey
  keepsClient client name pki hkey := by
    have hmade : makeKey (buildClient client) pki = ({ pki with
        privateKey := Function.update pki.privateKey client (some []) }, 0) := by
      simp [makeKey, buildClient]
    rw [hmade]
    simp only [Function.update_apply]
    split_ifs
    · rfl
    · exact hkey

theorem keyed_of_run_one :
    ∃ (settings : Settings) (conf : Text), conf = settings.conf ∧
      "key ".toList ++ keyPath settings.cn ∈ settings.confLines.1 ∧
      ((run (vpnStep (fun _ => false)) ⟨newConfig, noKeys⟩
        [⟨.initVpnconfig "a".toList [] [], makeKey⟩]).pki.privateKey
          settings.cn).isSome = true := by
  rcases @keyed_of_run (fun _ => false) ⟨newConfig, noKeys⟩ ⟨rfl, rfl⟩
      [⟨.initVpnconfig "a".toList [] [], makeKey⟩]
      ⟨⟨keepsKeys_makeKey, fun _ => trivial⟩, trivial⟩ _ rfl with
    ⟨settings, hconf, hline, hkey⟩
  exact ⟨settings, _, hconf, hline, hkey⟩

end SecaasCharms.VpnCharm
