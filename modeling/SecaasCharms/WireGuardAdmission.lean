import SecaasCharms.WireGuardAllocation

/-!
# When a reported admission is real

`add-client` runs four commands and ignores their exit codes, so its report
does not depend on them.  From a fresh container the report is true exactly
on a running server whose configuration file is saved, for a well-formed key,
unless no address is left or `wg` cannot even be started with the key.
-/

namespace SecaasCharms.WireGuard

open TextLines
open StepRuns

/-- `wg0` is up and has the peer with exactly this address. -/
def Container.HasPeer (container : Container) (publicKey ip : Text) : Prop :=
  ∃ interface, container.wg0 = some interface ∧
    ∃ peer ∈ interface.peers, peer.key.text = publicKey ∧
      peer.allowedIps.map Token.text = [ip]

/-- If `add-client` reports an address, the client ends with exactly that
address on a running server. -/
def AdmissionIsReal (host : Host) (container : Container)
    (publicKey : Text) : Prop :=
  ∀ ip, (onAddClientAction host publicKey container).2 = clientAdded ip →
    (onAddClientAction host publicKey container).1.HasPeer publicKey ip

/-- The server is up, its file is saved and the key is well-formed; or every
address of the pool occurs in the listing, or `wg` cannot be started with the
key, and nothing is reported. -/
def CanAdmit (host : Host) (container : Container) (publicKey : Text) : Prop :=
  ((∃ interface, container.Saving interface) ∧ isKeyText publicKey = true) ∨
    (∀ ip ∈ freeIpList, ip <:+: addressLines host container) ∨
      ¬ CanBeArgument publicKey

/-- The event takes `ip` from the client that held it: the server or this
client is disconnected, or this client gets another address. -/
def Releases (host : Host) (container : Container) (event : Event)
    (publicKey ip : Text) : Prop :=
  event.IsDisconnectServer ∨
    container.HasPeer publicKey ip ∧
      ((∃ address, event = .action (.disconnectClient publicKey address) ∧
          (perform host container (.disconnectClient publicKey address)).2 =
            clientRemoved ∧
          ∀ other, ¬ (step host container event).HasPeer publicKey other) ∨
        ∃ other, other ≠ ip ∧ event = .action (.addClient publicKey) ∧
          (perform host container (.addClient publicKey)).2 =
            clientAdded other ∧
          (step host container event).HasPeer publicKey other)

/-! ## The two kinds of reachable state -/

/-- The configuration file is the one the image ships or
`disconnect-server` leaves, and no peer is configured anywhere. -/
structure Container.Blank (container : Container) : Prop where
  conf_eq : container.conf = Conf.empty
  no_peers : ∀ interface, container.wg0 = some interface →
    interface.peers = []

theorem restart_blank (host : Host) {container : Container}
    (hconf : container.conf = Conf.empty) :
    (restart host container).Blank := by
  cases hwg0 : container.wg0 with
  | none =>
      rw [restart_eq_of_down host hwg0]
      constructor
      · exact hconf
      · rintro interface hup
        rw [Option.some.injEq] at hup
        rw [← hup, hconf]
        rfl
  | some interface =>
      rw [restart_eq_of_up host hwg0, hconf]
      constructor
      · rfl
      · rintro next hup
        rw [Option.some.injEq] at hup
        rw [← hup]
        rfl

theorem wgSetAllowedIps_conf (keyText ipText : Text) (seconds : ℕ)
    (container : Container) :
    (wgSetAllowedIps keyText ipText seconds container).conf =
      container.conf := by
  unfold wgSetAllowedIps
  split <;> rfl

theorem wgSetRemove_conf (keyText : Text) (container : Container) :
    (wgSetRemove keyText container).conf = container.conf := by
  unfold wgSetRemove
  split <;> rfl

theorem onDisconnectServerAction_down (container : Container) :
    (onDisconnectServerAction container).1.wg0 = none := by
  unfold onDisconnectServerAction wgQuickDown
  cases hwg0 : container.wg0 <;> simp [hwg0]

theorem onDisconnectServerAction_blank (container : Container) :
    (onDisconnectServerAction container).1.Blank := by
  refine ⟨rfl, ?_⟩
  intro interface hup
  rw [onDisconnectServerAction_down] at hup
  contradiction

theorem Container.Blank.step (host : Host) {container : Container}
    (hblank : container.Blank) (event : Event) :
    (step host container event).Blank ∨
      ∃ interface, (step host container event).Saving interface := by
  cases event with
  | clients peers =>
      left
      simp only [WireGuard.step, observe]
      split
      · exact hblank
      next interface hup =>
        split
        next hperm =>
          refine ⟨hblank.conf_eq, ?_⟩
          rintro next hnext
          rw [Option.some.injEq] at hnext
          rw [hblank.no_peers interface hup, List.map_nil,
            List.nil_perm, List.map_eq_nil_iff] at hperm
          rw [← hnext]
          exact hperm
        next => exact hblank
  | action action =>
      cases action with
      | initConfig answers =>
          rcases onInitConfigAction_cases host answers container with
            ⟨hsame, _⟩ | ⟨_, _, hstarted⟩
          · left
            simp only [WireGuard.step, perform, hsame]
            exact ⟨hblank.conf_eq, hblank.no_peers⟩
          · right
            obtain ⟨_, hsaving⟩ := onInitConfigAction_started host hstarted
            exact ⟨_, hsaving⟩
      | addClient publicKey =>
          left
          simp only [WireGuard.step, perform]
          rcases onAddClientAction_cases host publicKey container with
            ⟨_, heq⟩ | ⟨_, _, heq⟩ | ⟨_, _, _, heq⟩ <;> rw [heq]
          · exact hblank
          · exact hblank
          · apply restart_blank
            rw [wgSetAllowedIps_conf]
            exact hblank.conf_eq
      | disconnectClient publicKey ip =>
          left
          simp only [WireGuard.step, perform]
          rcases onDisconnectClientAction_cases host publicKey ip container with
            ⟨_, hsame, _⟩ | ⟨_, _, heq⟩ | ⟨_, _, heq⟩
          · rw [hsame]
            exact hblank
          · rw [heq]
            exact hblank
          · rw [heq]
            apply restart_blank
            rw [wgSetRemove_conf]
            exact hblank.conf_eq
      | disconnectServer =>
          left
          exact onDisconnectServerAction_blank container

theorem blank_or_saving_of_run (host : Host) (events : List Event) :
    (run (step host) Container.fresh events).Blank ∨
      ∃ interface,
        (run (step host) Container.fresh events).Saving interface := by
  have hany : EveryStep (step host) (fun _ _ => True) Container.fresh events :=
    EveryStep.of_forall (fun _ _ => trivial) _ _
  refine run_invariant
    (fun container : Container =>
      container.Blank ∨ ∃ interface, container.Saving interface)
    ?_ ?_ hany
  · rintro container event (hblank | ⟨interface, hsaving⟩) _
    · exact hblank.step host event
    · by_cases hstay : event.IsDisconnectServer
      · left
        cases event with
        | clients peers => exact absurd hstay not_false
        | action action =>
            cases action with
            | disconnectServer => exact onDisconnectServerAction_blank container
            | initConfig answers => exact absurd hstay not_false
            | addClient publicKey => exact absurd hstay not_false
            | disconnectClient publicKey ip => exact absurd hstay not_false
      · right
        obtain ⟨next, hnext, _⟩ := step_of_saving host hsaving event hstay
        exact ⟨next, hnext⟩
  · exact Or.inl ⟨rfl, by simp [Container.fresh]⟩

/-! ## Admissions -/

theorem clientAdded_ne_serverFailed (ip exception : Text) :
    clientAdded ip ≠ serverFailed exception :=
  ActionResult.output_ne_failed _ _

/-- A reported address is the first free one, and the commands were run. -/
theorem addClient_of_reported {host : Host} {container : Container}
    {publicKey ip : Text}
    (hreport : (onAddClientAction host publicKey container).2 =
      clientAdded ip) :
    popFreeIp (addressLines host container) freeIpList = some ip ∧
      CanBeArgument publicKey ∧
        (onAddClientAction host publicKey container).1 =
          restart host (wgSetAllowedIps publicKey ip 25 container) := by
  rcases onAddClientAction_cases host publicKey container with
    ⟨_, heq⟩ | ⟨exception, _, heq⟩ | ⟨clientIp, hpop, hargument, heq⟩
  · rw [heq] at hreport
    exact absurd hreport.symm (clientAdded_ne_noIpsAvailable ip)
  · rw [heq] at hreport
    exact absurd hreport.symm (clientAdded_ne_serverFailed ip exception)
  · have hip : clientIp = ip := by
      rw [heq] at hreport
      simpa [clientAdded] using hreport
    subst clientIp
    exact ⟨hpop, hargument, by rw [heq]⟩

theorem addClient_of_saving (host : Host) {container : Container}
    {interface : Interface} (hsaving : container.Saving interface)
    {publicKey ip : Text} (hkey : isKeyText publicKey = true)
    (hreport : (onAddClientAction host publicKey container).2 =
      clientAdded ip) :
    ∃ (key : Key) (token : Cidr) (next : Interface),
      key.text = publicKey ∧ token.text = ip ∧ ip ∈ freeIpList ∧
        (onAddClientAction host publicKey container).1.Saving next ∧
        ∃ presharedKey, (key, [token], some 25, presharedKey) ∈
          next.peers.map Peer.client := by
  have hpop := (addClient_of_reported hreport).1
  have hip := popFreeIp_mem hpop
  have hcidr := (mem_freeIpList hip).2.2.2.2.2.1
  have hcommand :
      commandOf host container (.action (.addClient publicKey)) =
        some (.set ⟨publicKey, hkey⟩ ⟨ip, hcidr⟩) := by
    simp [commandOf, hpop, Key.ofText?, hkey, Token.ofText?, hcidr]
  obtain ⟨next, hnext, hperm⟩ := step_of_saving host hsaving
    (.action (.addClient publicKey)) not_false
  rw [hcommand] at hperm
  obtain ⟨presharedKey, hself⟩ :=
    setPeer_mem_self interface ⟨publicKey, hkey⟩ ⟨ip, hcidr⟩ 25
  exact ⟨⟨publicKey, hkey⟩, ⟨ip, hcidr⟩, next, rfl, rfl, hip, hnext,
    presharedKey, hperm.mem_iff.mp hself⟩

theorem hasPeer_of_client_mem {container : Container} {interface : Interface}
    (hup : container.wg0 = some interface) {key : Key} {ip : Cidr}
    {keepalive : Option ℕ} {presharedKey : Option Key}
    (hmem : (key, [ip], keepalive, presharedKey) ∈
      interface.peers.map Peer.client) :
    container.HasPeer key.text ip.text := by
  obtain ⟨peer, hpeer, hclient⟩ := List.mem_map.mp hmem
  have hsame : peer.key = key := congrArg Prod.fst hclient
  have hips : peer.allowedIps = [ip] :=
    congrArg (fun client => client.2.1) hclient
  exact ⟨interface, hup, peer, hpeer, by rw [hsame], by rw [hips]; rfl⟩

theorem onAddClientAction_not_clientAdded {host : Host}
    {container : Container} {publicKey : Text}
    (hnone : (∀ ip ∈ freeIpList, ip <:+: addressLines host container) ∨
      ¬ CanBeArgument publicKey) (ip : Text) :
    (onAddClientAction host publicKey container).2 ≠ clientAdded ip := by
  intro hreport
  obtain ⟨hpop, hargument, _⟩ := addClient_of_reported hreport
  rcases hnone with hheld | hnot
  · exact popFreeIp_not_held hpop (hheld ip (popFreeIp_mem hpop))
  · exact hnot hargument

theorem admissionIsReal_of_canAdmit {host : Host} {container : Container}
    {publicKey : Text} (hcan : CanAdmit host container publicKey) :
    AdmissionIsReal host container publicKey := by
  intro ip hreport
  rcases hcan with ⟨⟨interface, hsaving⟩, hkey⟩ | hnone
  · obtain ⟨key, token, next, rfl, rfl, _, hnext, _, hmem⟩ :=
      addClient_of_saving host hsaving hkey hreport
    exact hasPeer_of_client_mem hnext.up hmem
  · exact absurd hreport (onAddClientAction_not_clientAdded hnone ip)

theorem canAdmit_of_admissionIsReal {host : Host} {container : Container}
    (hkind : container.Blank ∨ ∃ interface, container.Saving interface)
    {publicKey : Text} (hreal : AdmissionIsReal host container publicKey) :
    CanAdmit host container publicKey := by
  rcases onAddClientAction_cases host publicKey container with
    ⟨hpop, _⟩ | ⟨exception, hstart, _⟩ | ⟨ip, _, _, heq⟩
  · exact Or.inr (Or.inl (held_of_popFreeIp_eq_none hpop))
  · exact Or.inr (Or.inr (not_canBeArgument_of_startError hstart))
  · left
    have hreport : (onAddClientAction host publicKey container).2 =
        clientAdded ip := by rw [heq]
    obtain ⟨interface, hup, peer, hpeer, hkey, _⟩ := hreal ip hreport
    refine ⟨?_, by rw [← hkey]; exact peer.key.wellFormed⟩
    rcases hkind with hblank | hsaving
    · have hnext :
          (onAddClientAction host publicKey container).1.Blank := by
        rw [heq]
        apply restart_blank
        rw [wgSetAllowedIps_conf]
        exact hblank.conf_eq
      rw [hnext.no_peers interface hup] at hpeer
      exact absurd hpeer (List.not_mem_nil)
    · exact hsaving

/-! ## No address is reported twice -/

theorem client_mem_of_run (host : Host) {container : Container}
    {interface : Interface} (hsaving : container.Saving interface)
    {key : Key} {ip : Cidr} {keepalive : Option ℕ}
    {presharedKey : Option Key} (hip : ip.text ∈ freeIpList)
    (hmem : (key, [ip], keepalive, presharedKey) ∈
      interface.peers.map Peer.client)
    {events : List Event}
    (hquiet : ∀ event ∈ events,
      ¬ event.IsDisconnectServer ∧ ¬ event.Names key.text) :
    ∃ next, (run (step host) container events).Saving next ∧
      (key, [ip], keepalive, presharedKey) ∈
        next.peers.map Peer.client := by
  refine run_invariant
    (fun container : Container =>
      ∃ interface, container.Saving interface ∧
      (key, [ip], keepalive, presharedKey) ∈
        interface.peers.map Peer.client)
    ?_ ⟨interface, hsaving, hmem⟩ (EveryStep.of_forall_mem hquiet container)
  rintro container event ⟨interface, hsaving, hmem⟩ ⟨hstay, hnamed⟩
  obtain ⟨next, hnext, hperm⟩ := step_of_saving host hsaving event hstay
  refine ⟨next, hnext, hperm.mem_iff.mp ?_⟩
  exact mem_execute_of_not_named hsaving.up hnamed hip hmem

/-- The client with its address, on a server that saves its table. -/
def Container.Serving (container : Container) (key : Key) (ip : Cidr) : Prop :=
  ∃ interface, container.Saving interface ∧
    ∃ keepalive presharedKey, (key, [ip], keepalive, presharedKey) ∈
      interface.peers.map Peer.client

theorem Container.Serving.hasPeer {container : Container} {key : Key}
    {ip : Cidr} (hserving : container.Serving key ip) :
    container.HasPeer key.text ip.text := by
  obtain ⟨interface, hsaving, _, _, hmem⟩ := hserving
  exact hasPeer_of_client_mem hsaving.up hmem

theorem Container.HasPeer.infix_addressLines (host : Host)
    {container : Container} {publicKey ip : Text}
    (hholds : container.HasPeer publicKey ip) (hip : ip ∈ freeIpList) :
    ip <:+: addressLines host container := by
  obtain ⟨interface, hup, peer, hpeer, _, hips⟩ := hholds
  exact infix_addressLines_of_holder host hup hpeer hip hips

/-- `add-client` for a client that already has an address moves it to another
one, or changes nothing. -/
theorem addClient_serving (host : Host) {container : Container} {key : Key}
    {ip : Cidr} (hip : ip.text ∈ freeIpList)
    (hserving : container.Serving key ip) :
    (step host container (.action (.addClient key.text))).Serving key ip ∨
      Releases host container (.action (.addClient key.text)) key.text
        ip.text := by
  rcases onAddClientAction_cases host key.text container with
    ⟨_, heq⟩ | ⟨exception, hstart, _⟩ | ⟨other, hpop, _, heq⟩
  · left
    simp only [step, perform, heq]
    exact hserving
  · rw [key.startError_text] at hstart
    contradiction
  · right
    have hholds := hserving.hasPeer
    obtain ⟨interface, hsaving, _⟩ := hserving
    have hreport : (onAddClientAction host key.text container).2 =
        clientAdded other := by rw [heq]
    have hother : other ≠ ip.text := by
      rintro rfl
      exact popFreeIp_not_held hpop (hholds.infix_addressLines host hip)
    obtain ⟨found, token, next, hkey, htoken, _, hnext, _, hmem⟩ :=
      addClient_of_saving host hsaving key.wellFormed hreport
    have hnow := hasPeer_of_client_mem hnext.up hmem
    rw [hkey, htoken] at hnow
    exact Or.inr ⟨hholds, Or.inr ⟨other, hother, rfl, hreport, hnow⟩⟩

/-- `disconnect-client` with the key of a client removes it, or changes
nothing. -/
theorem disconnectClient_serving (host : Host) {container : Container}
    {key : Key} {ip : Cidr} (address : Text)
    (hserving : container.Serving key ip) :
    (step host container
        (.action (.disconnectClient key.text address))).Serving key ip ∨
      Releases host container (.action (.disconnectClient key.text address))
        key.text ip.text := by
  rcases onDisconnectClientAction_cases host key.text address container with
    ⟨_, hsame, _⟩ | ⟨exception, hstart, _⟩ | ⟨hcheck, _, heq⟩
  · left
    simp only [step, perform, hsame]
    exact hserving
  · rw [key.startError_text] at hstart
    contradiction
  · right
    have hholds := hserving.hasPeer
    obtain ⟨interface, hsaving, _⟩ := hserving
    have hreport : (onDisconnectClientAction host key.text address
        container).2 = clientRemoved := by rw [heq]
    refine Or.inr ⟨hholds, Or.inl ⟨address, rfl, hreport, ?_⟩⟩
    rintro other ⟨last, hlast, peer, hpeer, hkey, _⟩
    obtain ⟨next, hnext, hperm⟩ := step_of_saving host hsaving
      (.action (.disconnectClient key.text address)) not_false
    have hcommand : commandOf host container
        (.action (.disconnectClient key.text address)) =
          some (.remove key) := by
      simp [commandOf, hcheck]
    rw [hcommand] at hperm
    rw [hnext.up, Option.some.injEq] at hlast
    subst last
    have hclient := hperm.mem_iff.mpr (List.mem_map_of_mem hpeer)
    obtain ⟨old, hold, hsame⟩ := List.mem_map.mp hclient
    have hkeys : old.key = peer.key := congrArg Prod.fst hsame
    have hne := (mem_removePeer.mp hold).2
    exact hne (hkeys.trans (Key.ext_text hkey))

/-- An event takes the address from the client, or leaves it there. -/
theorem step_serving (host : Host) {container : Container} {key : Key}
    {ip : Cidr} (hip : ip.text ∈ freeIpList)
    (hserving : container.Serving key ip) {event : Event}
    (hkept : ¬ Releases host container event key.text ip.text) :
    (step host container event).Serving key ip := by
  have hstay : ¬ event.IsDisconnectServer := fun h => hkept (Or.inl h)
  by_cases hnamed : event.Names key.text
  · cases event with
    | clients peers => exact absurd hnamed not_false
    | action action =>
        cases action with
        | initConfig answers => exact absurd hnamed not_false
        | disconnectServer => exact absurd hnamed not_false
        | addClient publicKey =>
            have hsame : publicKey = key.text := hnamed
            subst publicKey
            exact (addClient_serving host hip hserving).resolve_right hkept
        | disconnectClient publicKey address =>
            have hsame : publicKey = key.text := hnamed
            subst publicKey
            exact (disconnectClient_serving host address
              hserving).resolve_right hkept
  · obtain ⟨interface, hsaving, keepalive, presharedKey, hmem⟩ := hserving
    obtain ⟨next, hnext, hperm⟩ := step_of_saving host hsaving event hstay
    refine ⟨next, hnext, keepalive, presharedKey, hperm.mem_iff.mp ?_⟩
    exact mem_execute_of_not_named hsaving.up hnamed hip hmem

/-- Once `first` was admitted to `ip`, a later `add-client` reports `ip` only
if a step of the run in between took it from `first`. -/
theorem released_of_reported_again (host : Host) {container : Container}
    {first second ip : Text} {between : List Event}
    (hcan : CanAdmit host container first)
    (hfirst : (onAddClientAction host first container).2 = clientAdded ip)
    (hsecond : (onAddClientAction host second
      (run (step host) (onAddClientAction host first container).1
        between)).2 = clientAdded ip) :
    ∃ before event after, between = before ++ event :: after ∧
      Releases host
        (run (step host) (onAddClientAction host first container).1 before)
        event first ip := by
  rcases hcan with ⟨⟨interface, hsaving⟩, hkey⟩ | hnone
  · by_contra hnever
    obtain ⟨key, token, next, rfl, rfl, hip, hnext, presharedKey, hmem⟩ :=
      addClient_of_saving host hsaving hkey hfirst
    have hkept : EveryStep (step host)
        (fun state event => ¬ Releases host state event key.text token.text)
        (onAddClientAction host key.text container).1 between := by
      rw [everyStep_iff]
      intro before event after hsplit hreleases
      exact hnever ⟨before, event, after, hsplit, hreleases⟩
    have hlast := run_invariant
      (fun state : Container => state.Serving key token)
      (fun _ _ hserving hevent => step_serving host hip hserving hevent)
      ⟨next, hnext, some 25, presharedKey, hmem⟩ hkept
    have hpop := (addClient_of_reported hsecond).1
    exact popFreeIp_not_held hpop
      (hlast.hasPeer.infix_addressLines host hip)
  · exact absurd hfirst (onAddClientAction_not_clientAdded hnone ip)

/-- In every state reached from a fresh container a reported admission is
real exactly when the server can admit, and from such an admission on the
address is reported again only after its client was disconnected or moved to
another address, or the server was disconnected. -/
theorem admission_of_run (host : Host) (events : List Event) :
    let reached := run (step host) Container.fresh events
    (∀ publicKey, AdmissionIsReal host reached publicKey ↔
      CanAdmit host reached publicKey) ∧
    ∀ first second ip between, CanAdmit host reached first →
      (onAddClientAction host first reached).2 = clientAdded ip →
      (onAddClientAction host second
        (run (step host) (onAddClientAction host first reached).1
          between)).2 = clientAdded ip →
      ∃ before event after, between = before ++ event :: after ∧
        Releases host
          (run (step host) (onAddClientAction host first reached).1 before)
          event first ip := by
  intro reached
  refine ⟨fun publicKey => ⟨?_, admissionIsReal_of_canAdmit⟩, ?_⟩
  · exact canAdmit_of_admissionIsReal (blank_or_saving_of_run host events)
  · intro first second ip between hcan hfirst hsecond
    exact released_of_reported_again host hcan hfirst hsecond

theorem admission_after_disconnectServer :
    ¬ AdmissionIsReal smallHost
      (run (step smallHost) Container.fresh
        [.action (.initConfig initAnswers), .action .disconnectServer])
      phoneKey.text := by
  intro hreal
  obtain ⟨interface, hup, peer, hpeer, _⟩ :=
    hreal "192.168.1.201/32".toList (by decide)
  have hempty :
      ((onAddClientAction smallHost phoneKey.text
        (run (step smallHost) Container.fresh
          [.action (.initConfig initAnswers), .action .disconnectServer])).1.wg0.map
        (fun interface => interface.peers)) = some [] := by decide
  rw [hup, Option.map_some, Option.some.injEq] at hempty
  rw [hempty] at hpeer
  exact List.not_mem_nil hpeer

end SecaasCharms.WireGuard
