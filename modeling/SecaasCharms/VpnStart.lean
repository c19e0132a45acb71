import SecaasCharms.AppendOnce
import SecaasCharms.VpnProfiles

/-!
# Starting the OpenVPN server

`ovpn_run` masquerades the networks of the saved settings, each unless
`iptables -C` finds its rule, and then becomes OpenVPN, with the options it
found and those it was given.  However often the charm configures and starts
the server, the rules it adds are for the same two networks.
-/

namespace SecaasCharms.VpnCharm

open AppendOnce
open OpenVpn
open StepRuns
open TextLines

variable {ρ : Type} [DecidableEq ρ]

/-! ## The script -/

/-- A rule of the chain `POSTROUTING`. -/
inductive NatRule (ρ : Type) where
  | masquerade (source : ρ) (device : Text)
  | other (text : Text)
  deriving DecidableEq

/-- How `iptables` reads a source, and the device in `OVPN_NATDEVICE`. -/
structure Network (ρ : Type) where
  source : Text → ρ
  natDevice : Text

def Network.device (network : Network ρ) : Text :=
  if network.natDevice = [] then "eth0".toList else network.natDevice

def Network.rule (network : Network ρ) (address : Text) : NatRule ρ :=
  .masquerade (network.source address) network.device

/-- What the two commands for one network meet: whether `iptables -C` answers
for the rule, instead of failing by itself, and the status of `iptables -A`,
which adds nothing if it fails. -/
structure Pass where
  checks : Bool
  append : ℕ

/-- `iptables -C`, and `iptables -A` if that fails. -/
def masquerade (network : Network ρ) (pass : Pass) (address : Text)
    (rules : List (NatRule ρ)) : List (NatRule ρ) × ℕ :=
  if pass.checks = true ∧ network.rule address ∈ rules then (rules, 0)
  else if pass.append = 0 then (rules ++ [network.rule address], 0)
  else (rules, pass.append)

/-- One network after another, under `set -e`. -/
def masqueradeAll (network : Network ρ) :
    (ℕ → Pass) → List Text → List (NatRule ρ) → List (NatRule ρ) × ℕ
  | _, [], rules => (rules, 0)
  | passes, address :: addresses, rules =>
      let masked := masquerade network (passes 0) address rules
      if masked.2 = 0 then
        masqueradeAll network (fun pass => passes (pass + 1)) addresses masked.1
      else masked

def setupIptablesAndRouting (network : Network ρ) (passes : ℕ → Pass)
    (settings : Settings) (rules : List (NatRule ρ)) :
    List (NatRule ρ) × ℕ :=
  if settings.defroute = true ∨ settings.nat = true then
    masqueradeAll network passes (settings.server :: settings.routes) rules
  else (rules, 0)

/-- An option with its value, unless the caller gives the option. -/
def addArg (userArgs : List Text) (arg value : Text) (args : List Text) :
    List Text :=
  if userArgs.contains arg then args else args ++ [arg, value]

def runArguments (ccd crl : Bool) (userArgs : List Text) : List Text :=
  let config := addArg userArgs "--config".toList serverConfPath []
  let clients :=
    if ccd then
      addArg userArgs "--client-config-dir".toList
        (openvpn ++ "/ccd".toList) config
    else config
  let revoked :=
    if crl then
      addArg userArgs "--crl-verify".toList (openvpn ++ "/crl.pem".toList)
        clients
    else clients
  revoked ++ userArgs

/-- What one run of the script meets: the statuses of `cd`, `mkdir` and
`mknod`, whether the device is there already and whether there is a revocation
list, the passes of `iptables`, and the status and the output of the rest. -/
structure Launch where
  cd : ℕ
  mkdir : ℕ
  tun : Bool
  mknod : ℕ
  passes : ℕ → Pass
  crl : Bool
  openvpn : List Text → ℕ × Text

/-- The status with which the device is made. -/
def Launch.deviceStatus (launch : Launch) : ℕ :=
  if launch.mkdir ≠ 0 then launch.mkdir
  else if launch.tun then 0
  else launch.mknod

/-- The rules after the run, and its exit status and output. -/
def ovpnRun (network : Network ρ) (launch : Launch) (userArgs : List Text)
    (config : ConfigHost) (rules : List (NatRule ρ)) :
    List (NatRule ρ) × ℕ × Text :=
  if launch.cd ≠ 0 then (rules, launch.cd, [])
  else
    match config.env.current with
    | none => (rules, 1, [])
    | some settings =>
        if launch.deviceStatus ≠ 0 then (rules, launch.deviceStatus, [])
        else
          let routed :=
            setupIptablesAndRouting network launch.passes settings rules
          if routed.2 ≠ 0 then (routed.1, routed.2, [])
          else
            (routed.1,
              launch.openvpn (runArguments config.ccd launch.crl userArgs))

/-! ## The handler -/

structure StartHost (ρ : Type) where
  vpn : VpnHost
  rules : List (NatRule ρ)

def startFailed (exception : Text) : ActionResult :=
  .failed ("ERROR: VPN Start failed with the following exception: ".toList ++
    exception)

def onStartVpnAction (printable : Char → Bool) (network : Network ρ)
    (launch : Launch) (host : StartHost ρ) : StartHost ρ × ActionResult :=
  match ovpnRun network launch ["--daemon".toList] host.vpn.config host.rules
    with
  | (rules, 0, stdout) =>
      ({ host with rules := rules }, .results
        [("info".toList, "VPN started successfully".toList),
          ("output".toList, universalNewlines stdout)])
  | (rules, status, _) =>
      ({ host with rules := rules }, startFailed (calledProcessError printable
        ["ovpn_run".toList, "--daemon".toList] status))

inductive StartEvent where
  | configure (event : VpnEvent)
  | start (launch : Launch)

def startStep (printable : Char → Bool) (network : Network ρ)
    (host : StartHost ρ) : StartEvent → StartHost ρ
  | .configure event => { host with vpn := vpnStep printable host.vpn event }
  | .start launch => (onStartVpnAction printable network launch host).1

/-! ## Rules over runs -/

/-- The rules for some networks. -/
def rulesFor (network : Network ρ) (addresses : List Text) :
    Set (NatRule ρ) :=
  {rule | ∃ address ∈ addresses, rule = network.rule address}

/-- Every `iptables -C` answers. -/
def Checks (passes : ℕ → Pass) : Prop := ∀ pass, (passes pass).checks = true

theorem adds_masquerade (network : Network ρ) (pass : Pass)
    {allowed : List Text} {address : Text} (haddress : address ∈ allowed)
    (rules : List (NatRule ρ)) :
    Adds (rulesFor network allowed) rules
      (masquerade network pass address rules).1 := by
  have hallowed : network.rule address ∈ rulesFor network allowed :=
    ⟨address, haddress, rfl⟩
  unfold masquerade
  split_ifs
  · exact Adds.refl rules
  · exact adds_concat hallowed rules
  · exact Adds.refl rules

theorem addsOnce_masquerade (network : Network ρ) {pass : Pass}
    (hchecks : pass.checks = true) {allowed : List Text} {address : Text}
    (haddress : address ∈ allowed) (rules : List (NatRule ρ)) :
    AddsOnce (rulesFor network allowed) rules
      (masquerade network pass address rules).1 := by
  have hallowed : network.rule address ∈ rulesFor network allowed :=
    ⟨address, haddress, rfl⟩
  unfold masquerade
  split_ifs with hthere
  · exact AddsOnce.refl rules
  · exact addsOnce_concat hallowed (fun hmem => hthere ⟨hchecks, hmem⟩)
  · exact AddsOnce.refl rules

theorem mem_masquerade {network : Network ρ} {pass : Pass} {address : Text}
    {rules : List (NatRule ρ)}
    (hok : (masquerade network pass address rules).2 = 0) :
    network.rule address ∈ (masquerade network pass address rules).1 := by
  unfold masquerade at hok ⊢
  split_ifs at hok ⊢ with hthere
  · exact hthere.2
  · exact List.mem_append_right rules List.mem_cons_self
  · contradiction

theorem adds_masqueradeAll (network : Network ρ) (passes : ℕ → Pass)
    {allowed addresses : List Text} (haddresses : addresses ⊆ allowed)
    (rules : List (NatRule ρ)) :
    Adds (rulesFor network allowed) rules
      (masqueradeAll network passes addresses rules).1 := by
  induction addresses generalizing passes rules with
  | nil => exact Adds.refl rules
  | cons address addresses ih =>
      have hfirst := adds_masquerade network (passes 0)
        (haddresses List.mem_cons_self) rules
      simp only [masqueradeAll]
      split_ifs
      · exact hfirst.trans (ih _ (List.subset_of_cons_subset haddresses) _)
      · exact hfirst

theorem addsOnce_masqueradeAll (network : Network ρ) {passes : ℕ → Pass}
    (hchecks : Checks passes) {allowed addresses : List Text}
    (haddresses : addresses ⊆ allowed) (rules : List (NatRule ρ)) :
    AddsOnce (rulesFor network allowed) rules
      (masqueradeAll network passes addresses rules).1 := by
  induction addresses generalizing passes rules with
  | nil => exact AddsOnce.refl rules
  | cons address addresses ih =>
      have hfirst := addsOnce_masquerade network (hchecks 0)
        (haddresses List.mem_cons_self) rules
      have hlater : Checks (fun pass => passes (pass + 1)) :=
        fun pass => hchecks (pass + 1)
      simp only [masqueradeAll]
      split_ifs
      · exact hfirst.trans (ih hlater
          (List.subset_of_cons_subset haddresses) _)
      · exact hfirst

theorem mem_masqueradeAll {network : Network ρ} {passes : ℕ → Pass}
    {addresses : List Text} {rules : List (NatRule ρ)}
    (hok : (masqueradeAll network passes addresses rules).2 = 0) :
    ∀ address ∈ addresses, network.rule address ∈
      (masqueradeAll network passes addresses rules).1 := by
  induction addresses generalizing passes rules with
  | nil => simp
  | cons address addresses ih =>
      simp only [masqueradeAll] at hok ⊢
      have hfirst : (masquerade network (passes 0) address rules).2 = 0 := by
        by_contra hfailed
        rw [if_neg hfailed] at hok
        exact hfailed hok
      rw [if_pos hfirst] at hok ⊢
      have hkept := (adds_masqueradeAll network (fun pass => passes (pass + 1))
        (List.Subset.refl addresses)
        (masquerade network (passes 0) address rules).1).subset
      rw [List.forall_mem_cons]
      exact ⟨hkept (mem_masquerade hfirst), ih hok⟩

theorem rules_onStartVpnAction (printable : Char → Bool)
    (network : Network ρ) (launch : Launch) (host : StartHost ρ) :
    (onStartVpnAction printable network launch host).1 =
      { host with rules := (ovpnRun network launch ["--daemon".toList]
          host.vpn.config host.rules).1 } := by
  unfold onStartVpnAction
  rcases ovpnRun network launch ["--daemon".toList] host.vpn.config host.rules
    with ⟨rules, status, stdout⟩
  cases status <;> rfl

/-- The networks of a server that the charm configured. -/
def charmNetworks : List Text := ["192.168.255.0/24".toList, defaultRoute]

structure ByCharm (settings : Settings) : Prop where
  server : settings.server = "192.168.255.0/24".toList
  routes : settings.routes = [] ∨ settings.routes = [defaultRoute]
  defroute : settings.defroute = true

theorem byCharm_moved {settings : Settings} (hsettings : ByCharm settings)
    (text : Text) (url : ServerUrl) :
    ByCharm (settings.moved text url) ∧
      (settings.moved text url).routes = [defaultRoute] := by
  have hroutes : (settings.moved text url).routes = [defaultRoute] := by
    have hfilled : (settings.moved text url).routes =
        defaultRoutes settings.defroute settings.routes := rfl
    rw [hfilled, hsettings.defroute]
    cases hsettings.routes with
    | inl hempty => rw [hempty]; rfl
    | inr hfull => rw [hfull]; rfl
  exact ⟨⟨hsettings.server, Or.inr hroutes, hsettings.defroute⟩, hroutes⟩

/-- What the charm saved is for its two networks. -/
def SavedByCharm (saved : Option Settings) : Prop :=
  ∀ settings ∈ saved, ByCharm settings ∧ settings.routes = [defaultRoute]

theorem savedByCharm_follow {before : Written}
    (hsaved : SavedByCharm before.settings) (action : VpnAction) :
    SavedByCharm (before.follow action).settings := by
  unfold Written.follow
  cases action.moves with
  | none => exact hsaved
  | some move =>
      have hbefore : ByCharm (before.settings.getD {}) := by
        cases hsettings : before.settings with
        | none => exact ⟨rfl, Or.inl rfl, rfl⟩
        | some settings => exact (hsaved settings hsettings).1
      intro settings hsettings
      cases hsettings
      exact byCharm_moved hbefore move.1 move.2

section Run

variable {network : Network ρ} {launch : Launch} {userArgs : List Text}
variable {config : ConfigHost} {rules : List (NatRule ρ)}

/-- On the settings of the charm, a run that gets as far masquerades the two
networks, and else leaves the rules. -/
theorem ovpnRun_of_savedByCharm (hsaved : SavedByCharm config.env.current) :
    (ovpnRun network launch userArgs config rules).1 = rules ∧
        (ovpnRun network launch userArgs config rules).2.1 ≠ 0 ∨
      (ovpnRun network launch userArgs config rules).1 =
          (masqueradeAll network launch.passes charmNetworks rules).1 ∧
        ((ovpnRun network launch userArgs config rules).2.1 = 0 →
          (masqueradeAll network launch.passes charmNetworks rules).2 = 0) := by
  unfold ovpnRun
  by_cases hcd : launch.cd ≠ 0
  · rw [if_pos hcd]
    exact Or.inl ⟨rfl, hcd⟩
  · rw [if_neg hcd]
    cases hcurrent : config.env.current with
    | none => exact Or.inl ⟨rfl, Nat.one_ne_zero⟩
    | some settings =>
        have hsettings := hsaved settings hcurrent
        have hsetup : setupIptablesAndRouting network launch.passes settings
            rules = masqueradeAll network launch.passes charmNetworks rules := by
          unfold setupIptablesAndRouting
          rw [if_pos (Or.inl hsettings.1.defroute), hsettings.1.server,
            hsettings.2]
          rfl
        simp only [hsetup]
        by_cases hdevice : launch.deviceStatus ≠ 0
        · rw [if_pos hdevice]
          exact Or.inl ⟨rfl, hdevice⟩
        · rw [if_neg hdevice]
          by_cases hmasked :
              (masqueradeAll network launch.passes charmNetworks rules).2 ≠ 0
          · rw [if_pos hmasked]
            exact Or.inr ⟨rfl, fun hzero => absurd hzero hmasked⟩
          · rw [if_neg hmasked]
            exact Or.inr ⟨rfl, fun _ => not_not.mp hmasked⟩

variable (hsaved : SavedByCharm config.env.current)

include hsaved

theorem adds_ovpnRun :
    Adds (rulesFor network charmNetworks) rules
      (ovpnRun network launch userArgs config rules).1 := by
  rcases @ovpnRun_of_savedByCharm _ _ network launch userArgs config rules
    hsaved with ⟨hsame, -⟩ | ⟨hmasked, -⟩
  · rw [hsame]
    exact Adds.refl rules
  · rw [hmasked]
    exact adds_masqueradeAll network _ (List.Subset.refl _) rules

theorem addsOnce_ovpnRun (hchecks : Checks launch.passes) :
    AddsOnce (rulesFor network charmNetworks) rules
      (ovpnRun network launch userArgs config rules).1 := by
  rcases @ovpnRun_of_savedByCharm _ _ network launch userArgs config rules
    hsaved with ⟨hsame, -⟩ | ⟨hmasked, -⟩
  · rw [hsame]
    exact AddsOnce.refl rules
  · rw [hmasked]
    exact addsOnce_masqueradeAll network hchecks (List.Subset.refl _) rules

theorem mem_ovpnRun
    (hzero : (ovpnRun network launch userArgs config rules).2.1 = 0) :
    ∀ address ∈ charmNetworks, network.rule address ∈
      (ovpnRun network launch userArgs config rules).1 := by
  rcases @ovpnRun_of_savedByCharm _ _ network launch userArgs config rules
    hsaved with ⟨-, hstatus⟩ | ⟨hmasked, hok⟩
  · exact absurd hzero hstatus
  · rw [hmasked]
    exact mem_masqueradeAll (hok hzero)

end Run

theorem savedByCharm_startStep {printable : Char → Bool}
    {network : Network ρ} {host : StartHost ρ}
    (hsaved : SavedByCharm host.vpn.config.env.current) (event : StartEvent) :
    SavedByCharm
      (startStep printable network host event).vpn.config.env.current := by
  cases event with
  | configure event =>
      have hwritten := congrArg Written.settings
        (written_vpnStep printable host.vpn event)
      have hcurrent : (vpnStep printable host.vpn event).config.env.current =
          ((written host.vpn.config).follow event.action).settings := hwritten
      rw [startStep, hcurrent]
      exact savedByCharm_follow hsaved event.action
  | start launch =>
      rw [startStep, rules_onStartVpnAction]
      exact hsaved

/-- The settings are the charm's, and so is every rule that was added. -/
structure CharmRules
    (Grows : List (NatRule ρ) → List (NatRule ρ) → Prop)
    (initial : List (NatRule ρ)) (host : StartHost ρ) : Prop where
  saved : SavedByCharm host.vpn.config.env.current
  rules : Grows initial host.rules

def StartEvent.Checks : StartEvent → Prop
  | .configure _ => True
  | .start launch => VpnCharm.Checks launch.passes

theorem status_of_succeeded {printable : Char → Bool} {network : Network ρ}
    {launch : Launch} {host : StartHost ρ}
    (hsucceeded : (onStartVpnAction printable network launch host).2.Succeeded) :
    (ovpnRun network launch ["--daemon".toList] host.vpn.config
      host.rules).2.1 = 0 := by
  unfold onStartVpnAction at hsucceeded
  rcases hrun : ovpnRun network launch ["--daemon".toList] host.vpn.config
    host.rules with ⟨rules, status, stdout⟩
  cases status with
  | zero => rfl
  | succ status =>
      simp only [hrun] at hsucceeded
      exact absurd hsucceeded id

section Growth

variable {printable : Char → Bool} {network : Network ρ}
variable {initial : List (NatRule ρ)} {host : StartHost ρ}

theorem adds_startStep
    (hhost : CharmRules (Adds (rulesFor network charmNetworks)) initial host)
    (event : StartEvent) :
    CharmRules (Adds (rulesFor network charmNetworks)) initial
      (startStep printable network host event) := by
  refine ⟨savedByCharm_startStep hhost.saved event, ?_⟩
  cases event with
  | configure event => exact hhost.rules
  | start launch =>
      rw [startStep, rules_onStartVpnAction]
      exact hhost.rules.trans (adds_ovpnRun hhost.saved)

theorem addsOnce_startStep
    (hhost : CharmRules (AddsOnce (rulesFor network charmNetworks)) initial
      host) {event : StartEvent} (hchecks : event.Checks) :
    CharmRules (AddsOnce (rulesFor network charmNetworks)) initial
      (startStep printable network host event) := by
  refine ⟨savedByCharm_startStep hhost.saved event, ?_⟩
  cases event with
  | configure event => exact hhost.rules
  | start launch =>
      rw [startStep, rules_onStartVpnAction]
      exact hhost.rules.trans (addsOnce_ovpnRun hhost.saved hchecks)

end Growth

/-- However often the server is configured and started on a new pod, the rules
that were there stay as they are and only those for two networks come behind
them, each of them once if every check answers.  After a start that succeeds
both are there. -/
theorem rules_of_run (printable : Char → Bool) (network : Network ρ)
    {host : StartHost ρ} (hnew : Agree host.vpn.config none)
    (events : List StartEvent) :
    Adds (rulesFor network charmNetworks) host.rules
        (run (startStep printable network) host events).rules ∧
      ((∀ event ∈ events, event.Checks) →
        AddsOnce (rulesFor network charmNetworks) host.rules
          (run (startStep printable network) host events).rules) ∧
      ∀ launch, (onStartVpnAction printable network launch
          (run (startStep printable network) host events)).2.Succeeded →
        ∀ address ∈ charmNetworks, network.rule address ∈
          (onStartVpnAction printable network launch
            (run (startStep printable network) host events)).1.rules := by
  have hsaved : SavedByCharm host.vpn.config.env.current := by
    rw [hnew.1]
    exact fun _ hnone => by cases hnone
  have hall : EveryStep (startStep printable network) (fun _ _ => True) host
      events := EveryStep.of_forall (fun _ _ => trivial) _ _
  have hrun : CharmRules (Adds (rulesFor network charmNetworks)) host.rules
      (run (startStep printable network) host events) :=
    run_invariant (CharmRules _ host.rules)
      (fun _ event hstate _ => adds_startStep hstate event)
      ⟨hsaved, Adds.refl _⟩ hall
  refine ⟨hrun.rules, ?_, ?_⟩
  · intro hchecks
    have honce : CharmRules (AddsOnce (rulesFor network charmNetworks))
        host.rules (run (startStep printable network) host events) :=
      run_invariant (CharmRules _ host.rules)
        (fun _ _ hstate hevent => addsOnce_startStep hstate hevent)
        ⟨hsaved, AddsOnce.refl _⟩ (EveryStep.of_forall_mem hchecks _)
    exact honce.rules
  · intro launch hsucceeded
    rw [rules_onStartVpnAction]
    exact mem_ovpnRun hrun.saved (status_of_succeeded hsucceeded)

def plainNetwork : Network Text := ⟨id, []⟩

/-- A run of the script in which every command succeeds. -/
def plainLaunch : Launch :=
  ⟨0, 0, true, 0, fun _ => ⟨true, 0⟩, false, fun _ => (0, [])⟩

theorem rules_of_run_started :
    let last := run (startStep (fun _ => false) plainNetwork)
      ⟨⟨newConfig, noKeys⟩, []⟩
      [.configure ⟨.initVpnconfig "a".toList [] [], makeKey⟩,
        .start plainLaunch]
    Adds (rulesFor plainNetwork charmNetworks) [] last.rules ∧
      ((∀ event ∈ [StartEvent.configure
          ⟨.initVpnconfig "a".toList [] [], makeKey⟩, .start plainLaunch],
          event.Checks) →
        AddsOnce (rulesFor plainNetwork charmNetworks) [] last.rules) ∧
      ∀ launch, (onStartVpnAction (fun _ => false) plainNetwork launch
          last).2.Succeeded →
        ∀ address ∈ charmNetworks, plainNetwork.rule address ∈
          (onStartVpnAction (fun _ => false) plainNetwork launch
            last).1.rules :=
  @rules_of_run Text _ (fun _ => false) plainNetwork
    ⟨⟨newConfig, noKeys⟩, []⟩ ⟨rfl, rfl⟩
    [.configure ⟨.initVpnconfig "a".toList [] [], makeKey⟩,
      .start plainLaunch]

end SecaasCharms.VpnCharm
