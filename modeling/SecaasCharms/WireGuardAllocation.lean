import Mathlib.Data.List.Find
import SecaasCharms.LeasePool
import SecaasCharms.WireGuardCommands

/-!
# Address allocation over whole runs

On a saving server the peer table is a set of leases from the ten addresses
of the pool, and the handlers `add-client` and `disconnect-client` carry out
the requests of that lease pool: the text test finds the lowest free address,
and the down/up cycle loses nothing.
-/

namespace SecaasCharms.WireGuard

open TextLines
open StepRuns
open LeasePool

/-! ## The table as a set of leases -/

structure Interface.Holds (interface : Interface)
    (leases : Leases Key freeIpList) : Prop where
  keys_nodup : (interface.peers.map (fun peer => peer.key)).Nodup
  leased : ∀ peer ∈ interface.peers, ∃ ip,
    leases.addressOf peer.key = some ip ∧
      peer.allowedIps.map Token.text = [ip]
  listed : ∀ {key ip}, leases.addressOf key = some ip →
    ∃ peer ∈ interface.peers, peer.key = key
  unshared : ∀ peer ∈ interface.peers, peer.presharedKey = none

structure Serves (container : Container)
    (leases : Leases Key freeIpList) : Prop where
  saving : ∃ interface, container.Saving interface ∧ interface.Holds leases

theorem Interface.Holds.of_perm {left right : Interface}
    {leases : Leases Key freeIpList} (hholds : left.Holds leases)
    (hperm : (left.peers.map Peer.client).Perm
      (right.peers.map Peer.client)) :
    right.Holds leases := by
  constructor
  · exact keys_nodup_of_client_perm hperm hholds.keys_nodup
  · intro peer hpeer
    have hmem : peer.client ∈ left.peers.map Peer.client :=
      hperm.mem_iff.mpr (List.mem_map_of_mem hpeer)
    obtain ⟨old, hold, hclient⟩ := List.mem_map.mp hmem
    obtain ⟨ip, hip, hips⟩ := hholds.leased old hold
    have hkey : old.key = peer.key := congrArg Prod.fst hclient
    have hsame : old.allowedIps = peer.allowedIps :=
      congrArg (fun client => client.2.1) hclient
    exact ⟨ip, by rw [← hkey]; exact hip, by rw [← hsame]; exact hips⟩
  · intro key ip hip
    obtain ⟨old, hold, hkey⟩ := hholds.listed hip
    have hmem : old.client ∈ right.peers.map Peer.client :=
      hperm.mem_iff.mp (List.mem_map_of_mem hold)
    obtain ⟨peer, hpeer, hclient⟩ := List.mem_map.mp hmem
    exact ⟨peer, hpeer, (congrArg Prod.fst hclient).trans hkey⟩
  · intro peer hpeer
    have hmem : peer.client ∈ left.peers.map Peer.client :=
      hperm.mem_iff.mpr (List.mem_map_of_mem hpeer)
    obtain ⟨old, hold, hclient⟩ := List.mem_map.mp hmem
    have hsame : old.presharedKey = peer.presharedKey :=
      congrArg (fun client => client.2.2.2) hclient
    rw [← hsame]
    exact hholds.unshared old hold

theorem Interface.Holds.single {interface : Interface}
    {leases : Leases Key freeIpList} (hholds : interface.Holds leases) :
    ∀ peer ∈ interface.peers,
      ∃ ip ∈ freeIpList, peer.allowedIps.map Token.text = [ip] := by
  intro peer hpeer
  obtain ⟨ip, hip, hips⟩ := hholds.leased peer hpeer
  exact ⟨ip, leases.mem_pool hip, hips⟩

theorem Interface.Holds.held_iff {interface : Interface}
    {leases : Leases Key freeIpList} (hholds : interface.Holds leases)
    (ip : Text) :
    (∃ peer ∈ interface.peers, peer.allowedIps.map Token.text = [ip]) ↔
      leases.Held ip := by
  constructor
  · rintro ⟨peer, hpeer, hips⟩
    obtain ⟨held, hheld, hsame⟩ := hholds.leased peer hpeer
    have heq : held = ip := by simpa [hsame] using hips
    exact ⟨peer.key, by rw [hheld, heq]⟩
  · rintro ⟨key, hkey⟩
    obtain ⟨peer, hpeer, rfl⟩ := hholds.listed hkey
    obtain ⟨held, hheld, hips⟩ := hholds.leased peer hpeer
    have heq : held = ip := by simpa [hkey] using hheld.symm
    exact ⟨peer, hpeer, by rw [hips, heq]⟩

theorem Interface.Holds.infix_addressLines_iff (host : Host)
    {container : Container} {interface : Interface}
    (hup : container.wg0 = some interface)
    {leases : Leases Key freeIpList} (hholds : interface.Holds leases)
    {ip : Text} (hip : ip ∈ freeIpList) :
    ip <:+: addressLines host container ↔ leases.Held ip :=
  (infix_addressLines_iff_of_single hup hholds.single hip).trans
    (hholds.held_iff ip)

/-- The loop of `add-client` finds the lowest free address. -/
theorem popFreeIp_eq_lowestFree (host : Host) {container : Container}
    {interface : Interface} (hup : container.wg0 = some interface)
    {leases : Leases Key freeIpList} (hholds : interface.Holds leases) :
    popFreeIp (addressLines host container) freeIpList =
      leases.lowestFree := by
  classical
  rw [popFreeIp_eq_find?]
  unfold Leases.lowestFree
  apply List.find?_congr
  intro ip hip
  simp only [hholds.infix_addressLines_iff host hup hip]

/-! ## Commands are requests -/

theorem Interface.Holds.setPeer {interface : Interface}
    {leases : Leases Key freeIpList} (hholds : interface.Holds leases)
    {ip : Cidr} (hfree : leases.lowestFree = some ip.text) (key : Key)
    (seconds : ℕ) :
    (interface.setPeer key ip seconds).Holds (leases.grant key) := by
  have hgrant := Leases.grant_addressOf key hfree
  constructor
  · exact setPeer_keys_nodup hholds.keys_nodup key ip seconds
  · intro peer hpeer
    rcases mem_setPeer hpeer with
      ⟨hkey, hips, _⟩ | ⟨old, hold, hkey, rfl⟩
    · refine ⟨ip.text, ?_, by rw [hips]; rfl⟩
      rw [hgrant, hkey, Function.update_self]
    · obtain ⟨held, hheld, hips⟩ := hholds.leased old hold
      refine ⟨held, ?_, ?_⟩
      · exact (leases.grant_addressOf_of_ne hkey).trans hheld
      · obtain ⟨token, htoken, rfl⟩ := List.map_eq_singleton_iff.mp hips
        have hne : token ≠ ip := by
          rintro rfl
          exact Leases.lowestFree_not_held hfree ⟨old.key, hheld⟩
        have hkept := Peer.withoutIp_client htoken hne
        have hsame : (old.withoutIp ip).allowedIps = old.allowedIps :=
          congrArg (fun client => client.2.1) hkept
        rw [hsame, htoken]
        rfl
  · intro other found hfound
    by_cases hother : other = key
    · subst other
      obtain ⟨_, hself⟩ := setPeer_mem_self interface key ip seconds
      obtain ⟨peer, hpeer, hclient⟩ := List.mem_map.mp hself
      exact ⟨peer, hpeer, congrArg Prod.fst hclient⟩
    · rw [leases.grant_addressOf_of_ne hother] at hfound
      obtain ⟨old, hold, rfl⟩ := hholds.listed hfound
      exact ⟨old.withoutIp ip, setPeer_mem_of_ne hold hother, rfl⟩
  · intro peer hpeer
    rcases presharedKey_of_mem_setPeer hpeer with hnone | ⟨old, hold, hsame⟩
    · exact hnone
    · rw [hsame]
      exact hholds.unshared old hold

theorem Interface.Holds.removePeer {interface : Interface}
    {leases : Leases Key freeIpList} (hholds : interface.Holds leases)
    (key : Key) :
    (interface.removePeer key).Holds (leases.revoke key) := by
  constructor
  · exact removePeer_keys_nodup hholds.keys_nodup key
  · intro peer hpeer
    obtain ⟨hold, hkey⟩ := mem_removePeer.mp hpeer
    obtain ⟨ip, hip, hips⟩ := hholds.leased peer hold
    exact ⟨ip, (leases.revoke_addressOf_of_ne hkey).trans hip, hips⟩
  · intro other ip hip
    have hother : other ≠ key := by
      rintro rfl
      simp [Leases.revoke] at hip
    rw [leases.revoke_addressOf_of_ne hother] at hip
    obtain ⟨peer, hpeer, rfl⟩ := hholds.listed hip
    exact ⟨peer, mem_removePeer.mpr ⟨hpeer, hother⟩, rfl⟩
  · intro peer hpeer
    exact hholds.unshared peer (mem_removePeer.mp hpeer).1

def Command.request : Command → Request Key
  | .set key _ => .grant key
  | .remove key => .revoke key

def requestOf (host : Host) (container : Container) (event : Event) :
    Option (Request Key) :=
  (commandOf host container event).map Command.request

/-- The charm refines the lease pool: an event other than
`disconnect-server` changes the leases by its request. -/
theorem Serves.step (host : Host) {container : Container}
    {leases : Leases Key freeIpList} (hserves : Serves container leases)
    (event : Event) (hstay : ¬ event.IsDisconnectServer) :
    Serves (step host container event)
      (leases.serve (requestOf host container event)) := by
  obtain ⟨interface, hsaving, hholds⟩ := hserves.saving
  obtain ⟨next, hnext, hperm⟩ := step_of_saving host hsaving event hstay
  refine ⟨⟨next, hnext, Interface.Holds.of_perm ?_ hperm⟩⟩
  unfold requestOf
  cases hcommand : commandOf host container event with
  | none => exact hholds
  | some command =>
      cases command with
      | set key ip =>
          obtain ⟨_, hpop⟩ := commandOf_eq_set hcommand
          rw [popFreeIp_eq_lowestFree host hsaving.up hholds] at hpop
          exact hholds.setPeer hpop key 25
      | remove key => exact hholds.removePeer key

theorem onInitConfigAction_serves (host : Host) {answers : InitAnswers}
    {container : Container} (hstopped : container.wg0 = none)
    (hstarted : (onInitConfigAction host answers container).2.Succeeded) :
    Serves (onInitConfigAction host answers container).1
      (Leases.none Key freeIpList) := by
  obtain ⟨ifaceName, hsaving⟩ := onInitConfigAction_started host hstarted
  rw [hstopped, Option.getD_none] at hsaving
  refine ⟨⟨_, hsaving, ?_⟩⟩
  constructor
  · simp [Conf.load, initialConf]
  · simp [Conf.load, initialConf]
  · simp [Leases.none]
  · simp [Conf.load, initialConf]

theorem run_serves (host : Host) {container : Container}
    {leases : Leases Key freeIpList} (hserves : Serves container leases)
    {events : List Event}
    (hstay : ∀ event ∈ events, ¬ event.IsDisconnectServer) :
    ∃ reached, Serves (run (WireGuard.step host) container events) reached :=
  run_invariant (fun container => ∃ leases, Serves container leases)
    (fun _ event ⟨_, h⟩ hevent => ⟨_, h.step host event hevent⟩) ⟨leases, hserves⟩
    (EveryStep.of_forall_mem hstay container)

/-! ## What the clients get -/

def Container.addressesOf (container : Container) (key : Key) :
    Option (List Text) :=
  (container.wg0.bind fun interface =>
    interface.peers.find? (fun peer => peer.key = key)).map
      (fun peer => peer.allowedIps.map Token.text)

def Container.AddressHeld (container : Container) (ip : Text) : Prop :=
  ∃ key ips, container.addressesOf key = some ips ∧ ip ∈ ips

theorem Serves.addressesOf {container : Container}
    {leases : Leases Key freeIpList} (hserves : Serves container leases)
    (key : Key) :
    container.addressesOf key =
      (leases.addressOf key).map (fun ip => [ip]) := by
  obtain ⟨interface, hsaving, hholds⟩ := hserves.saving
  unfold Container.addressesOf
  rw [hsaving.up]
  simp only [Option.bind_some]
  cases hfind : interface.peers.find? (fun peer => peer.key = key) with
  | some peer =>
      have hkey : peer.key = key := by
        simpa using List.find?_some hfind
      obtain ⟨ip, hip, hips⟩ :=
        hholds.leased peer (List.mem_of_find?_eq_some hfind)
      rw [hkey] at hip
      rw [hip, Option.map_some, Option.map_some, hips]
  | none =>
      cases haddress : leases.addressOf key with
      | none => rfl
      | some ip =>
          obtain ⟨peer, hpeer, hkey⟩ := hholds.listed haddress
          have hnone := List.find?_eq_none.mp hfind peer hpeer
          exact absurd (decide_eq_true hkey) hnone

theorem Serves.addressHeld_iff {container : Container}
    {leases : Leases Key freeIpList} (hserves : Serves container leases)
    (ip : Text) : container.AddressHeld ip ↔ leases.Held ip := by
  constructor
  · rintro ⟨key, ips, hips, hmem⟩
    rw [hserves.addressesOf, Option.map_eq_some_iff] at hips
    obtain ⟨held, hheld, rfl⟩ := hips
    rw [List.mem_singleton] at hmem
    exact ⟨key, by rw [hheld, hmem]⟩
  · rintro ⟨key, hkey⟩
    exact ⟨key, [ip], by rw [hserves.addressesOf, hkey]; rfl, by simp⟩

theorem requestOf_client {host : Host} {container : Container}
    {event : Event} {request : Request Key}
    (hrequest : requestOf host container event = some request) :
    event.Names request.client.text := by
  unfold requestOf at hrequest
  rw [Option.map_eq_some_iff] at hrequest
  obtain ⟨command, hcommand, rfl⟩ := hrequest
  cases command with
  | set key ip =>
      obtain ⟨rfl, _⟩ := commandOf_eq_set hcommand
      rfl
  | remove key =>
      obtain ⟨_, rfl, _⟩ := commandOf_eq_remove hcommand
      rfl

/-! ## The allocation guarantee -/

/-- The events of a run that serves clients: no `disconnect-server`, and only
well-formed keys are added. -/
def Event.ServesClients : Event → Prop
  | .action (.addClient publicKey) => isKeyText publicKey = true
  | .action (.disconnectClient _ _) => True
  | .action (.initConfig _) => True
  | .action .disconnectServer => False
  | .clients _ => True

theorem Event.ServesClients.stays {event : Event}
    (hserves : event.ServesClients) : ¬ event.IsDisconnectServer := by
  cases event with
  | clients peers => exact not_false
  | action action => cases action <;> simp_all [IsDisconnectServer, ServesClients]

/-- Every peer holds one address of the pool, and no two peers the same. -/
def Container.PeersHoldDistinctAddresses (container : Container) : Prop :=
  ∃ interface, container.wg0 = some interface ∧
    (∀ peer ∈ interface.peers, ∃ ip ∈ freeIpList,
      peer.allowedIps.map Token.text = [ip]) ∧
    interface.peers.Pairwise (fun peer other =>
      peer.key ≠ other.key ∧
        peer.allowedIps.map Token.text ≠ other.allowedIps.map Token.text)

theorem Serves.peersHoldDistinctAddresses {container : Container}
    {leases : Leases Key freeIpList} (hserves : Serves container leases) :
    container.PeersHoldDistinctAddresses := by
  obtain ⟨interface, hsaving, hholds⟩ := hserves.saving
  refine ⟨interface, hsaving.up, hholds.single, ?_⟩
  have hkeys : interface.peers.Pairwise
      (fun peer other => peer.key ≠ other.key) :=
    List.pairwise_map.mp hholds.keys_nodup
  refine hkeys.imp_of_mem ?_
  intro peer other hpeer hother hne
  refine ⟨hne, fun hsame => hne ?_⟩
  obtain ⟨ip, hip, hips⟩ := hholds.leased peer hpeer
  obtain ⟨otherIp, hotherIp, hotherIps⟩ := hholds.leased other hother
  have heq : ip = otherIp := by simpa [hips, hotherIps] using hsame
  rw [← heq] at hotherIp
  exact leases.exclusive hip hotherIp

/-- `add-client(key)` answers that no address is left and changes nothing. -/
def RefusesClient (host : Host) (container : Container) (key : Key) : Prop :=
  onAddClientAction host key.text container = (container, noIpsAvailable)

/-- After `add-client(key)` the client holds `ip`, the first address of the
pool that nobody held before. -/
def AdmitsAtLowest (host : Host) (container : Container) (key : Key) : Prop :=
  ∃ before ip after, freeIpList = before ++ ip :: after ∧
    (∀ earlier ∈ before, container.AddressHeld earlier) ∧
    ¬ container.AddressHeld ip ∧
    (onAddClientAction host key.text container).2 = clientAdded ip ∧
    (onAddClientAction host key.text container).1.addressesOf key = some [ip]

theorem clientAdded_ne_noIpsAvailable (ip : Text) :
    clientAdded ip ≠ noIpsAvailable := by
  unfold clientAdded noIpsAvailable
  rw [ne_eq, ActionResult.output_inj, List.append_assoc]
  intro h
  have hhead : some 'T' = some 'N' := congrArg List.head? h
  exact absurd hhead (by decide)

theorem Serves.refusesClient_iff (host : Host) {container : Container}
    {leases : Leases Key freeIpList} (hserves : Serves container leases)
    (key : Key) :
    RefusesClient host container key ↔
      ∀ ip ∈ freeIpList, container.AddressHeld ip := by
  obtain ⟨interface, hsaving, hholds⟩ := hserves.saving
  have hpop := popFreeIp_eq_lowestFree host hsaving.up hholds
  simp only [hserves.addressHeld_iff]
  rw [← leases.lowestFree_eq_none_iff, ← hpop]
  unfold RefusesClient onAddClientAction
  cases popFreeIp (addressLines host container) freeIpList with
  | none => simp
  | some ip => simp [key.startError_text, clientAdded_ne_noIpsAvailable]

theorem Serves.admitsAtLowest (host : Host) {container : Container}
    {leases : Leases Key freeIpList} (hserves : Serves container leases)
    (key : Key)
    (hroom : ¬ ∀ ip ∈ freeIpList, container.AddressHeld ip) :
    AdmitsAtLowest host container key := by
  obtain ⟨interface, hsaving, hholds⟩ := hserves.saving
  have hpop := popFreeIp_eq_lowestFree host hsaving.up hholds
  simp only [hserves.addressHeld_iff] at hroom
  rw [← leases.lowestFree_eq_none_iff] at hroom
  obtain ⟨ip, hfree⟩ := Option.ne_none_iff_exists'.mp hroom
  rw [hfree] at hpop
  obtain ⟨before, after, hsplit, hbefore⟩ :=
    Leases.held_of_before_lowestFree hfree
  refine ⟨before, ip, after, hsplit, ?_, ?_, ?_, ?_⟩
  · intro earlier hearlier
    exact (hserves.addressHeld_iff earlier).mpr (hbefore earlier hearlier)
  · rw [hserves.addressHeld_iff]
    exact Leases.lowestFree_not_held hfree
  · simp only [onAddClientAction, hpop, key.startError_text]
  · have htoken := (mem_freeIpList (Leases.lowestFree_mem hfree)).2.2.2.2.2.1
    have hrequest :
        requestOf host container (.action (.addClient key.text)) =
          some (.grant key) := by
      simp [requestOf, commandOf, hpop, Token.ofText?, htoken,
        Command.request]
    have hstep := hserves.step host (.action (.addClient key.text)) not_false
    rw [hrequest] at hstep
    have haddress := hstep.addressesOf key
    rw [Leases.serve, Leases.grant_addressOf key hfree,
      Function.update_self] at haddress
    exact haddress

theorem Serves.addressesOf_step_of_not_named (host : Host)
    {container : Container} {leases : Leases Key freeIpList}
    (hserves : Serves container leases) {event : Event}
    (hstay : ¬ event.IsDisconnectServer) {key : Key}
    (hnamed : ¬ event.Names key.text) :
    (WireGuard.step host container event).addressesOf key =
      container.addressesOf key := by
  rw [(hserves.step host event hstay).addressesOf, hserves.addressesOf,
    leases.serve_addressOf_of_not_named]
  rintro request hrequest rfl
  exact hnamed (requestOf_client hrequest)

/-- From a stopped server started by `init-config`, through any run that
serves clients: the peers hold distinct addresses of the pool, an event
moves only the client it names, and `add-client` refuses exactly when all
ten addresses are held and otherwise grants the lowest free one. -/
theorem addressAllocation_of_run (host : Host) (start : Container)
    (answers : InitAnswers) (events : List Event)
    (hstopped : start.wg0 = none)
    (hstarted : (onInitConfigAction host answers start).2.Succeeded)
    (hevents : ∀ event ∈ events, event.ServesClients) :
    let reached :=
      run (WireGuard.step host) (onInitConfigAction host answers start).1 events
    reached.PeersHoldDistinctAddresses ∧
      (∀ event key, event.ServesClients → ¬ event.Names key.text →
        (WireGuard.step host reached event).addressesOf key =
          reached.addressesOf key) ∧
      ∀ key,
        (RefusesClient host reached key ↔
          ∀ ip ∈ freeIpList, reached.AddressHeld ip) ∧
        ((¬ ∀ ip ∈ freeIpList, reached.AddressHeld ip) →
          AdmitsAtLowest host reached key) := by
  intro reached
  obtain ⟨leases, hserves⟩ :=
    run_serves host (onInitConfigAction_serves host hstopped hstarted)
      (fun event hevent => (hevents event hevent).stays)
  refine ⟨hserves.peersHoldDistinctAddresses, ?_, ?_⟩
  · intro event key hevent hnamed
    exact hserves.addressesOf_step_of_not_named host hevent.stays hnamed
  · intro key
    exact ⟨hserves.refusesClient_iff host key,
      hserves.admitsAtLowest host key⟩

theorem addressAllocation_of_small_run :
    let reached :=
      run (WireGuard.step smallHost)
        (onInitConfigAction smallHost initAnswers Container.fresh).1
        [.action (.addClient phoneKey.text), .action (.initConfig initAnswers)]
    reached.PeersHoldDistinctAddresses ∧
      (∀ event key, event.ServesClients → ¬ event.Names key.text →
        (WireGuard.step smallHost reached event).addressesOf key =
          reached.addressesOf key) ∧
      ∀ key,
        (RefusesClient smallHost reached key ↔
          ∀ ip ∈ freeIpList, reached.AddressHeld ip) ∧
        ((¬ ∀ ip ∈ freeIpList, reached.AddressHeld ip) →
          AdmitsAtLowest smallHost reached key) :=
  addressAllocation_of_run smallHost Container.fresh initAnswers _ rfl
    (by decide) (by
      intro event hevent
      simp only [List.mem_cons, List.not_mem_nil, or_false] at hevent
      rcases hevent with rfl | rfl
      · exact phoneKey.wellFormed
      · trivial)

end SecaasCharms.WireGuard
