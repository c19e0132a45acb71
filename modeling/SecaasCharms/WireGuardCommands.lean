import SecaasCharms.WireGuardListing

/-!
# What an event does to the peer table

While `wg0` is up and `wg0.conf` says `SaveConfig = true`, the down/up cycle
of the client actions gives the saved table back, so an event changes the
table by at most one `wg set` command.  `step_of_saving` says which; every
invariant over runs is derived from it.
-/

namespace SecaasCharms.WireGuard

open TextLines

/-! ## One command -/

theorem mem_setPeer {interface : Interface} {key : Key} {ip : Cidr}
    {seconds : ℕ} {peer : Peer}
    (hpeer : peer ∈ (interface.setPeer key ip seconds).peers) :
    (peer.key = key ∧ peer.allowedIps = [ip] ∧
        peer.keepalive = some seconds) ∨
      ∃ old ∈ interface.peers, old.key ≠ key ∧ peer = old.withoutIp ip := by
  simp only [Interface.setPeer, List.mem_append, List.mem_map] at hpeer
  rcases hpeer with ⟨old, hold, rfl⟩ | hnew
  · by_cases hkey : old.key = key
    · rw [if_pos hkey]
      exact Or.inl ⟨hkey, rfl, rfl⟩
    · rw [if_neg hkey]
      exact Or.inr ⟨old, hold, hkey, rfl⟩
  · split at hnew
    · simp at hnew
    · rw [List.mem_singleton] at hnew
      subst peer
      exact Or.inl ⟨rfl, rfl, rfl⟩

theorem presharedKey_of_mem_setPeer {interface : Interface} {key : Key}
    {ip : Cidr} {seconds : ℕ} {peer : Peer}
    (hpeer : peer ∈ (interface.setPeer key ip seconds).peers) :
    peer.presharedKey = none ∨
      ∃ old ∈ interface.peers, peer.presharedKey = old.presharedKey := by
  simp only [Interface.setPeer, List.mem_append, List.mem_map] at hpeer
  rcases hpeer with ⟨old, hold, rfl⟩ | hnew
  · right
    refine ⟨old, hold, ?_⟩
    split <;> rfl
  · left
    split at hnew
    · exact absurd hnew List.not_mem_nil
    · rw [List.mem_singleton.mp hnew]

theorem setPeer_mem_self (interface : Interface) (key : Key) (ip : Cidr)
    (seconds : ℕ) :
    ∃ presharedKey, (key, [ip], some seconds, presharedKey) ∈
      (interface.setPeer key ip seconds).peers.map Peer.client := by
  simp only [List.mem_map]
  by_cases hany : interface.peers.any (fun peer => peer.key = key) = true
  · obtain ⟨old, hold, hkey⟩ := List.any_eq_true.mp hany
    have hkey : old.key = key := of_decide_eq_true hkey
    refine ⟨old.presharedKey,
      { old with allowedIps := [ip], keepalive := some seconds }, ?_, ?_⟩
    · simp only [Interface.setPeer, List.mem_append, List.mem_map]
      exact Or.inl ⟨old, hold, by rw [if_pos hkey]⟩
    · simp only [Peer.client, hkey]
  · refine ⟨none, ⟨⟨key, none, [ip], none, some seconds⟩, none, none⟩, ?_, rfl⟩
    simp only [Interface.setPeer, List.mem_append, if_neg hany,
      List.mem_singleton, or_true]

theorem setPeer_mem_of_ne {interface : Interface} {key : Key} {ip : Cidr}
    {seconds : ℕ} {peer : Peer} (hpeer : peer ∈ interface.peers)
    (hkey : peer.key ≠ key) :
    peer.withoutIp ip ∈ (interface.setPeer key ip seconds).peers := by
  simp only [Interface.setPeer, List.mem_append, List.mem_map]
  exact Or.inl ⟨peer, hpeer, by rw [if_neg hkey]⟩

theorem setPeer_keys (interface : Interface) (key : Key) (ip : Cidr)
    (seconds : ℕ) :
    (interface.setPeer key ip seconds).peers.map (fun peer => peer.key) =
      interface.peers.map (fun peer => peer.key) ++
        if key ∈ interface.peers.map (fun peer => peer.key) then []
        else [key] := by
  have hany :
      interface.peers.any (fun peer => peer.key = key) = true ↔
        key ∈ interface.peers.map (fun peer => peer.key) := by
    simp [List.any_eq_true, List.mem_map]
  have hmap :
      (interface.peers.map (fun peer =>
        if peer.key = key then
          { peer with allowedIps := [ip], keepalive := some seconds }
        else peer.withoutIp ip)).map (fun peer => peer.key) =
        interface.peers.map (fun peer => peer.key) := by
    rw [List.map_map]
    apply List.map_congr_left
    intro peer _
    simp only [Function.comp_apply]
    split <;> rfl
  unfold Interface.setPeer
  rw [List.map_append, hmap]
  by_cases hmem : key ∈ interface.peers.map (fun peer => peer.key)
  · rw [if_pos (hany.mpr hmem), if_pos hmem, List.map_nil]
  · rw [if_neg (fun h => hmem (hany.mp h)), if_neg hmem]
    rfl

theorem setPeer_keys_nodup {interface : Interface}
    (hnodup : (interface.peers.map (fun peer => peer.key)).Nodup)
    (key : Key) (ip : Cidr) (seconds : ℕ) :
    ((interface.setPeer key ip seconds).peers.map
      (fun peer => peer.key)).Nodup := by
  rw [setPeer_keys]
  by_cases hmem : key ∈ interface.peers.map (fun peer => peer.key)
  · rw [if_pos hmem, List.append_nil]
    exact hnodup
  · rw [if_neg hmem]
    exact hnodup.append (List.nodup_singleton key) (by simpa using hmem)

theorem mem_removePeer {interface : Interface} {key : Key} {peer : Peer} :
    peer ∈ (interface.removePeer key).peers ↔
      peer ∈ interface.peers ∧ peer.key ≠ key := by
  simp [Interface.removePeer]

theorem removePeer_keys_nodup {interface : Interface}
    (hnodup : (interface.peers.map (fun peer => peer.key)).Nodup)
    (key : Key) :
    ((interface.removePeer key).peers.map (fun peer => peer.key)).Nodup :=
  hnodup.sublist (List.Sublist.map _ List.filter_sublist)

/-! ## The down/up cycle -/

structure Container.Saving (container : Container)
    (interface : Interface) : Prop where
  up : container.wg0 = some interface
  saves : container.conf.saveConfig = true

theorem load_save_peers (host : Host) (interface : Interface) (conf : Conf) :
    ((interface.save conf).load host).peers.map Peer.toPeerConfig =
      interface.peers.map Peer.toPeerConfig := by
  simp [Interface.save, Conf.load, List.map_map, Function.comp_def]

theorem map_client_of_map_toPeerConfig {left right : List Peer}
    (hconfig : left.map Peer.toPeerConfig = right.map Peer.toPeerConfig) :
    left.map Peer.client = right.map Peer.client := by
  have hclient :
      Peer.client =
        (fun config : PeerConfig =>
          (config.key, config.allowedIps, config.keepalive,
            config.presharedKey)) ∘
          Peer.toPeerConfig := rfl
  rw [hclient, ← List.map_map, ← List.map_map, hconfig]

theorem restart_eq_of_up (host : Host) {container : Container}
    {interface : Interface} (hup : container.wg0 = some interface) :
    restart host container =
      { container with
        conf :=
          if container.conf.saveConfig then interface.save container.conf
          else container.conf
        wg0 := some ((if container.conf.saveConfig then
          interface.save container.conf else container.conf).load host) } := by
  simp only [restart, wgQuickDown, hup, wgQuickUp]

theorem restart_eq_of_down (host : Host) {container : Container}
    (hdown : container.wg0 = none) :
    restart host container =
      { container with wg0 := some (container.conf.load host) } := by
  simp only [restart, wgQuickDown, hdown, wgQuickUp]

theorem Container.Saving.restart (host : Host) {container : Container}
    {interface : Interface} (hsaving : container.Saving interface) :
    ∃ next, (restart host container).Saving next ∧
      next.peers.map Peer.toPeerConfig =
        interface.peers.map Peer.toPeerConfig ∧
      next.privateKey = interface.privateKey ∧
      (WireGuard.restart host container).privateKeyFile =
        container.privateKeyFile := by
  refine ⟨(interface.save container.conf).load host, ⟨?_, ?_⟩,
    load_save_peers host interface container.conf, rfl, ?_⟩
  · rw [restart_eq_of_up host hsaving.up, hsaving.saves]
    rfl
  · rw [restart_eq_of_up host hsaving.up, hsaving.saves]
    exact hsaving.saves
  · rw [restart_eq_of_up host hsaving.up]

/-! ## One event -/

inductive Command where
  | set (key : Key) (ip : Cidr)
  | remove (key : Key)

def Interface.execute (interface : Interface) : Option Command → Interface
  | none => interface
  | some (.set key ip) => interface.setPeer key ip 25
  | some (.remove key) => interface.removePeer key

/-- The `wg set` command of an event that `wg` carries out. -/
def commandOf (host : Host) (container : Container) :
    Event → Option Command
  | .action (.addClient publicKey) =>
      match popFreeIp (addressLines host container) freeIpList with
      | none => none
      | some clientIp =>
          match Key.ofText? publicKey, Token.ofText? isCidrChar clientIp with
          | some key, some ip => some (.set key ip)
          | _, _ => none
  | .action (.disconnectClient publicKey ip) =>
      match checkClient host publicKey ip container with
      | some true => (Key.ofText? publicKey).map .remove
      | _ => none
  | .action (.initConfig _) => none
  | .action .disconnectServer => none
  | .clients _ => none

/-- `add-client` finds no address, or cannot start `wg`, or restarts the
server. -/
theorem onAddClientAction_cases (host : Host) (publicKey : Text)
    (container : Container) :
    (popFreeIp (addressLines host container) freeIpList = none ∧
      onAddClientAction host publicKey container =
        (container, noIpsAvailable)) ∨
    (∃ exception, startError "wg".toList publicKey = some exception ∧
      onAddClientAction host publicKey container =
        (container, serverFailed exception)) ∨
    ∃ clientIp,
      popFreeIp (addressLines host container) freeIpList = some clientIp ∧
        CanBeArgument publicKey ∧
          onAddClientAction host publicKey container =
            (restart host (wgSetAllowedIps publicKey clientIp 25 container),
              clientAdded clientIp) := by
  unfold onAddClientAction
  cases hpop : popFreeIp (addressLines host container) freeIpList with
  | none => exact Or.inl ⟨rfl, rfl⟩
  | some clientIp =>
      cases hstart : startError "wg".toList publicKey with
      | some exception => exact Or.inr (Or.inl ⟨exception, rfl, rfl⟩)
      | none =>
          have hargument := (startError_eq_none_iff _ _).mp hstart
          exact Or.inr (Or.inr ⟨clientIp, rfl, hargument, rfl⟩)

/-- `disconnect-client` refuses the data, or cannot start `wg`, or restarts
the server. -/
theorem onDisconnectClientAction_cases (host : Host)
    (publicKey ip : Text) (container : Container) :
    (checkClient host publicKey ip container ≠ some true ∧
      (onDisconnectClientAction host publicKey ip container).1 = container ∧
        ((onDisconnectClientAction host publicKey ip container).2 =
            clientDataNotCorrect ∨
          ∃ message, (onDisconnectClientAction host publicKey ip
            container).2 = .failed message)) ∨
    (∃ exception, startError "wg".toList publicKey = some exception ∧
      onDisconnectClientAction host publicKey ip container =
        (container, serverFailed exception)) ∨
    (checkClient host publicKey ip container = some true ∧
      CanBeArgument publicKey ∧
        onDisconnectClientAction host publicKey ip container =
          (restart host (wgSetRemove publicKey container), clientRemoved)) := by
  unfold onDisconnectClientAction
  cases hcheck : checkClient host publicKey ip container with
  | none => exact Or.inl ⟨by simp, rfl, Or.inr ⟨_, rfl⟩⟩
  | some check =>
      cases check with
      | false => exact Or.inl ⟨by simp, rfl, Or.inl rfl⟩
      | true =>
          cases hstart : startError "wg".toList publicKey with
          | some exception => exact Or.inr (Or.inl ⟨exception, rfl, rfl⟩)
          | none =>
              have hargument := (startError_eq_none_iff _ _).mp hstart
              exact Or.inr (Or.inr ⟨rfl, hargument, rfl⟩)

/-- `init-config` always replaces the key files; when it succeeds it also
replaces the configuration file and brings `wg0` up unless it is up. -/
theorem onInitConfigAction_cases (host : Host) (answers : InitAnswers)
    (container : Container) :
    ((onInitConfigAction host answers container).1 =
        generateKeys host answers.genkey container ∧
      ¬ (onInitConfigAction host answers container).2.Succeeded) ∨
    ∃ ifaceName,
      (onInitConfigAction host answers container).1 =
          wgQuickUp host
            { generateKeys host answers.genkey container with
              conf := initialConf answers.genkey ifaceName } ∧
        (onInitConfigAction host answers container).2.Succeeded := by
  cases hcheck : checkInterface interfacePrefixes answers.sysClassNet with
  | none =>
      left
      simp only [onInitConfigAction, hcheck, ActionResult.Succeeded]
      exact ⟨trivial, not_false⟩
  | some ifaceName =>
      cases hdig : (splitlines answers.dig).head? with
      | none =>
          left
          simp only [onInitConfigAction, hcheck, generateKeys, hdig,
            initFailed, ActionResult.Succeeded]
          exact ⟨trivial, not_false⟩
      | some ip =>
          right
          refine ⟨ifaceName, ?_, ?_⟩ <;>
            simp only [onInitConfigAction, hcheck, generateKeys, hdig,
              ActionResult.output, ActionResult.Succeeded]

/-- A successful `init-config` ends with a saving server: the one that was
up, or a new one with the new key and no peers. -/
theorem onInitConfigAction_started (host : Host) {answers : InitAnswers}
    {container : Container}
    (hstarted : (onInitConfigAction host answers container).2.Succeeded) :
    ∃ ifaceName,
      (onInitConfigAction host answers container).1.Saving
        (container.wg0.getD
          ((initialConf answers.genkey ifaceName).load host)) := by
  rcases onInitConfigAction_cases host answers container with
    ⟨_, hfailed⟩ | ⟨ifaceName, hnext, _⟩
  · exact absurd hstarted hfailed
  · refine ⟨ifaceName, ?_⟩
    rw [hnext]
    cases hwg0 : container.wg0 with
    | none =>
        constructor <;>
          simp only [wgQuickUp, generateKeys, hwg0, initialConf,
            Option.getD_none]
    | some interface =>
        constructor <;>
          simp only [wgQuickUp, generateKeys, hwg0, initialConf,
            Option.getD_some]

theorem onInitConfigAction_of_up (host : Host) (answers : InitAnswers)
    {container : Container} {interface : Interface}
    (hsaving : container.Saving interface) :
    (onInitConfigAction host answers container).1.Saving interface := by
  rcases onInitConfigAction_cases host answers container with
    ⟨hsame, _⟩ | ⟨_, _, hstarted⟩
  · rw [hsame]
    exact ⟨hsaving.up, hsaving.saves⟩
  · obtain ⟨_, hnext⟩ := onInitConfigAction_started host hstarted
    rw [hsaving.up, Option.getD_some] at hnext
    exact hnext

theorem commandOf_eq_set {host : Host} {container : Container}
    {event : Event} {key : Key} {ip : Cidr}
    (hcommand : commandOf host container event = some (.set key ip)) :
    event = .action (.addClient key.text) ∧
      popFreeIp (addressLines host container) freeIpList = some ip.text := by
  unfold commandOf at hcommand
  split at hcommand
  next publicKey =>
    split at hcommand
    · contradiction
    next clientIp hpop =>
      split at hcommand
      next found token hkey hip =>
        simp only [Option.some.injEq, Command.set.injEq] at hcommand
        obtain ⟨rfl, rfl⟩ := hcommand
        rw [Key.ofText?_eq_some.mp hkey, Token.ofText?_eq_some.mp hip]
        exact ⟨rfl, hpop⟩
      · contradiction
  next publicKey ip' =>
    split at hcommand
    · simp at hcommand
    · contradiction
  all_goals contradiction

theorem commandOf_eq_remove {host : Host} {container : Container}
    {event : Event} {key : Key}
    (hcommand : commandOf host container event = some (.remove key)) :
    ∃ ip, event = .action (.disconnectClient key.text ip) ∧
      checkClient host key.text ip container = some true := by
  unfold commandOf at hcommand
  split at hcommand
  next publicKey =>
    split at hcommand
    · contradiction
    · split at hcommand
      · simp at hcommand
      · contradiction
  next publicKey ip =>
    split at hcommand
    next hcheck =>
      rw [Option.map_eq_some_iff] at hcommand
      obtain ⟨found, hkey, hremove⟩ := hcommand
      rw [Command.remove.injEq] at hremove
      subst hremove
      rw [Key.ofText?_eq_some.mp hkey]
      exact ⟨ip, rfl, hcheck⟩
    · contradiction
  all_goals contradiction

theorem wgSetAllowedIps_saving {container : Container}
    {interface : Interface} (hsaving : container.Saving interface)
    (publicKey clientIp : Text) :
    (wgSetAllowedIps publicKey clientIp 25 container).Saving
      (interface.execute
        (match Key.ofText? publicKey, Token.ofText? isCidrChar clientIp with
        | some key, some ip => some (.set key ip)
        | _, _ => none)) := by
  cases hkey : Key.ofText? publicKey with
  | none => simpa [wgSetAllowedIps, hsaving.up, hkey, Interface.execute]
  | some key =>
      cases hip : Token.ofText? isCidrChar clientIp with
      | none =>
          simpa [wgSetAllowedIps, hsaving.up, hkey, hip, Interface.execute]
      | some ip =>
          simp only [wgSetAllowedIps, hsaving.up, hkey, hip]
          exact ⟨rfl, hsaving.saves⟩

theorem wgSetRemove_saving {container : Container}
    {interface : Interface} (hsaving : container.Saving interface)
    (publicKey : Text) :
    (wgSetRemove publicKey container).Saving
      (interface.execute ((Key.ofText? publicKey).map .remove)) := by
  cases hkey : Key.ofText? publicKey with
  | none => simpa [wgSetRemove, hsaving.up, hkey, Interface.execute]
  | some key =>
      simp only [wgSetRemove, hsaving.up, hkey]
      exact ⟨rfl, hsaving.saves⟩

/-- Every event but `disconnect-server` leaves a saving server saving, and
its clients are those of the table after the event's command. -/
theorem step_of_saving (host : Host) {container : Container}
    {interface : Interface} (hsaving : container.Saving interface)
    (event : Event) (hstay : ¬ event.IsDisconnectServer) :
    ∃ next, (step host container event).Saving next ∧
      ((interface.execute (commandOf host container event)).peers.map
        Peer.client).Perm (next.peers.map Peer.client) := by
  cases event with
  | clients peers =>
      simp only [step, observe, hsaving.up]
      split
      next hperm =>
        exact ⟨{ interface with peers := peers }, ⟨rfl, hsaving.saves⟩, hperm⟩
      next => exact ⟨interface, hsaving, List.Perm.refl _⟩
  | action action =>
      cases action with
      | initConfig answers =>
          exact ⟨interface, onInitConfigAction_of_up host answers hsaving,
            List.Perm.refl _⟩
      | disconnectServer => exact absurd trivial hstay
      | addClient publicKey =>
          simp only [step, perform, commandOf]
          rcases onAddClientAction_cases host publicKey container with
            ⟨hpop, heq⟩ | ⟨exception, hstart, heq⟩ | ⟨clientIp, hpop, _, heq⟩
          · rw [heq, hpop]
            exact ⟨interface, hsaving, List.Perm.refl _⟩
          · rw [heq, Key.ofText?_of_startError hstart]
            refine ⟨interface, hsaving, ?_⟩
            split <;> exact List.Perm.refl _
          · rw [heq, hpop]
            have hset := wgSetAllowedIps_saving hsaving publicKey clientIp
            obtain ⟨next, hnext, hpeers, _⟩ := hset.restart host
            refine ⟨next, hnext, ?_⟩
            rw [map_client_of_map_toPeerConfig hpeers]
      | disconnectClient publicKey ip =>
          simp only [step, perform, commandOf]
          rcases onDisconnectClientAction_cases host publicKey ip container with
            ⟨hcheck, hsame, _⟩ | ⟨exception, hstart, heq⟩ | ⟨hcheck, _, heq⟩
          · rw [hsame]
            refine ⟨interface, hsaving, ?_⟩
            split
            next htrue => exact absurd htrue hcheck
            next => exact List.Perm.refl _
          · rw [heq, Key.ofText?_of_startError hstart]
            refine ⟨interface, hsaving, ?_⟩
            split <;> exact List.Perm.refl _
          · rw [heq, hcheck]
            have hset := wgSetRemove_saving hsaving publicKey
            obtain ⟨next, hnext, hpeers, _⟩ := hset.restart host
            refine ⟨next, hnext, ?_⟩
            rw [map_client_of_map_toPeerConfig hpeers]

/-! ## What a client keeps -/

theorem Peer.withoutIp_client {peer : Peer} {ip other : Cidr}
    (hips : peer.allowedIps = [ip]) (hne : ip ≠ other) :
    (peer.withoutIp other).client = peer.client := by
  simp [Peer.withoutIp, Peer.client, hips, hne]

/-- A client with one address of the pool keeps it through every event that
does not name it: `add-client` sees the address in the listing and offers
another one. -/
theorem mem_execute_of_not_named {host : Host} {container : Container}
    {interface : Interface} (hup : container.wg0 = some interface)
    {event : Event} {key : Key} {ip : Cidr} {keepalive : Option ℕ}
    {presharedKey : Option Key}
    (hnamed : ¬ event.Names key.text) (hip : ip.text ∈ freeIpList)
    (hmem : (key, [ip], keepalive, presharedKey) ∈
      interface.peers.map Peer.client) :
    (key, [ip], keepalive, presharedKey) ∈
      (interface.execute (commandOf host container event)).peers.map
        Peer.client := by
  obtain ⟨peer, hpeer, hclient⟩ := List.mem_map.mp hmem
  have hkey : peer.key = key := congrArg Prod.fst hclient
  have hips : peer.allowedIps = [ip] :=
    congrArg (fun client => client.2.1) hclient
  cases hcommand : commandOf host container event with
  | none => exact hmem
  | some command =>
      cases command with
      | set other otherIp =>
          obtain ⟨rfl, hpop⟩ := commandOf_eq_set hcommand
          have hother : peer.key ≠ other := by
            rw [hkey]
            rintro rfl
            exact hnamed rfl
          have hne : ip ≠ otherIp := by
            rintro rfl
            apply popFreeIp_not_held hpop
            exact infix_addressLines_of_holder host hup hpeer hip (by rw [hips]; rfl)
          rw [← hclient, ← Peer.withoutIp_client hips hne]
          exact List.mem_map_of_mem (setPeer_mem_of_ne hpeer hother)
      | remove other =>
          obtain ⟨_, rfl, _⟩ := commandOf_eq_remove hcommand
          have hother : peer.key ≠ other := by
            rw [hkey]
            rintro rfl
            exact hnamed rfl
          rw [← hclient]
          exact List.mem_map_of_mem (mem_removePeer.mpr ⟨hpeer, hother⟩)

theorem keys_nodup_of_client_perm {left right : List Peer}
    (hperm : (left.map Peer.client).Perm (right.map Peer.client))
    (hnodup : (left.map (fun peer => peer.key)).Nodup) :
    (right.map (fun peer => peer.key)).Nodup := by
  have hkeys : (fun peer : Peer => peer.key) = Prod.fst ∘ Peer.client := rfl
  rw [hkeys, ← List.map_map] at hnodup ⊢
  exact (hperm.map Prod.fst).nodup_iff.mp hnodup

end SecaasCharms.WireGuard
