import SecaasCharms.WireGuardCredentials
import SecaasCharms.WireGuardAllocation

/-!
# When disconnecting undoes admitting

In the block of a client the line two below the key is the `allowed ips:`
line only if there is an `endpoint:` line in between: the charm gives no
client a preshared key.  A client that was
admitted and never connected has none, so it cannot be disconnected with the
address it was told.
-/

namespace SecaasCharms.WireGuard

open TextLines
open StepRuns
open LeasePool

/-! ## What stands two lines below a client's key -/

theorem not_infix_plain_of_pool {ip line : Text} (hip : ip ∈ freeIpList)
    (hline : PlainLine line) : ¬ ip <:+: line := by
  intro hocc
  have hslash := (mem_freeIpList hip).2.2.2.1
  exact hline.not_mem (by decide) (hocc.subset hslash)

theorem Peer.twoBelowKey_of_connected {peer : Peer}
    (hunshared : peer.presharedKey = none)
    (hendpoint : peer.endpoint.isSome = true) (later : List Peer) :
    peer.twoBelowKey later = some (allowedIpsLine peer.allowedIps) := by
  obtain ⟨endpoint, hsome⟩ := Option.isSome_iff_exists.mp hendpoint
  unfold Peer.twoBelowKey
  rw [hunshared, hsome]

theorem Peer.twoBelowKey_of_not_connected {peer : Peer} {seconds : ℕ}
    (hunshared : peer.presharedKey = none) (hendpoint : peer.endpoint = none)
    (hkeepalive : peer.keepalive = some seconds) (later : List Peer) :
    ∃ line, peer.twoBelowKey later = some line ∧ PlainLine line := by
  unfold Peer.twoBelowKey Peer.belowAllowedIps
  rw [hunshared, hendpoint, hkeepalive]
  cases peer.handshake with
  | some handshake => exact ⟨_, rfl, plainLine_handshake handshake⟩
  | none =>
      cases peer.transfer with
      | some transfer => exact ⟨_, rfl, plainLine_transferLine transfer⟩
      | none => exact ⟨_, rfl, plainLine_keepalive seconds⟩

theorem infix_twoBelowKey_iff {peer : Peer} {ip : Text} {seconds : ℕ}
    (hunshared : peer.presharedKey = none) (hip : ip ∈ freeIpList)
    (hips : peer.allowedIps.map Token.text = [ip])
    (hkeepalive : peer.keepalive = some seconds) (later : List Peer) :
    (∃ below, peer.twoBelowKey later = some below ∧ ip <:+: below) ↔
      peer.endpoint.isSome = true := by
  cases hendpoint : peer.endpoint with
  | some endpoint =>
      have hconnected : peer.endpoint.isSome = true := by
        rw [hendpoint]
        rfl
      rw [peer.twoBelowKey_of_connected hunshared hconnected later,
        allowedIpsLine_of_single hips]
      refine iff_of_true ⟨_, rfl, ?_⟩ rfl
      exact (List.suffix_append _ _).isInfix
  | none =>
      obtain ⟨line, hline, hplain⟩ :=
        peer.twoBelowKey_of_not_connected hunshared hendpoint hkeepalive later
      have hnot := not_infix_plain_of_pool hip hplain
      rw [hline]
      simp only [Option.some.injEq, exists_eq_left', hnot,
        Option.isSome_none, Bool.false_eq_true]

/-- The pair of a client and its only address is accepted exactly when the
client has an endpoint. -/
theorem accepts_client_iff (host : Host) {interface : Interface}
    (hnodup : (interface.peers.map (fun peer => peer.key)).Nodup)
    {peer : Peer} (hpeer : peer ∈ interface.peers)
    (hunshared : peer.presharedKey = none) {ip : Text}
    (hip : ip ∈ freeIpList) (hips : peer.allowedIps.map Token.text = [ip])
    {seconds : ℕ} (hkeepalive : peer.keepalive = some seconds) :
    Accepts peer.key.text ip (interface.showLines host) ↔
      peer.endpoint.isSome = true := by
  have hport : ¬ ip <:+: "  listening port: ".toList ++
      digits interface.listenPort :=
    not_infix_plain_of_pool hip
      ((plainLine_append _ _).mpr ⟨by decide, plainLine_digits _⟩)
  rw [accepts_iff_matchesKey]
  unfold Interface.MatchesKey
  simp only [hport, and_false, false_or]
  constructor
  · rintro ⟨earlier, other, later, hsplit, hkey, hbelow⟩
    have hother : other ∈ interface.peers := by
      rw [hsplit]
      simp
    have hsame : other = peer :=
      List.inj_on_of_nodup_map hnodup hother hpeer (Key.ext_text hkey)
    subst hsame
    exact (infix_twoBelowKey_iff hunshared hip hips hkeepalive later).mp hbelow
  · intro hconnected
    obtain ⟨earlier, later, hsplit⟩ := List.append_of_mem hpeer
    have hbelow :=
      (infix_twoBelowKey_iff hunshared hip hips hkeepalive later).mpr hconnected
    exact ⟨earlier, peer, later, hsplit, rfl, hbelow⟩

/-! ## The pair of actions -/

def Container.Connected (container : Container) (key : Key) : Prop :=
  ∃ interface, container.wg0 = some interface ∧
    ∃ peer ∈ interface.peers, peer.key = key ∧ peer.endpoint.isSome = true

/-- `disconnect-client` with the key and the address it was told removes
this client and no other, and the next `add-client` finds the address
free. -/
def UndoesAdmission (host : Host) (container : Container) (key : Key)
    (ip : Text) : Prop :=
  let answer := onDisconnectClientAction host key.text ip container
  answer.2 = clientRemoved ∧
    ∃ interface next, container.wg0 = some interface ∧
      answer.1.wg0 = some next ∧
      (∀ peer ∈ next.peers, peer.key ≠ key) ∧
      next.configs = interface.configsWithout key.text ∧
      ip ∈ freeIpList ∧ ¬ ip <:+: addressLines host answer.1

theorem onDisconnectClientAction_frees (host : Host) {container : Container}
    {leases : Leases Key freeIpList} (hserves : Serves container leases)
    {key : Key} {ip : Text} (hleased : leases.addressOf key = some ip)
    (haccepts : Accepts key.text ip (splitlines (wgShow host container))) :
    ¬ ip <:+: addressLines host
      (onDisconnectClientAction host key.text ip container).1 := by
  have hcheck := (checkClient_eq_true_iff host container).mpr haccepts
  have hrequest : requestOf host container
      (.action (.disconnectClient key.text ip)) = some (.revoke key) := by
    simp only [requestOf, commandOf, hcheck, Key.ofText?_text,
      Option.map_some, Command.request]
  have hnext := hserves.step host
    (.action (.disconnectClient key.text ip)) not_false
  rw [hrequest] at hnext
  obtain ⟨next, hsaving, hholds⟩ := hnext.saving
  have hfree := hholds.infix_addressLines_iff host hsaving.up
    (leases.mem_pool hleased)
  intro hocc
  exact Leases.revoke_not_held hleased (hfree.mp hocc)

theorem undoesAdmission_iff (host : Host) {container : Container}
    {leases : Leases Key freeIpList} (hserves : Serves container leases)
    {interface : Interface} (hsaving : container.Saving interface)
    {key : Key} {token : Cidr}
    {presharedKey : Option Key}
    (hmem : (key, [token], some 25, presharedKey) ∈
      interface.peers.map Peer.client) :
    UndoesAdmission host container key token.text ↔
      container.Connected key := by
  obtain ⟨served, hserved, hholds⟩ := hserves.saving
  have hsame : served = interface := by
    have hup := hserved.up
    rw [hsaving.up, Option.some.injEq] at hup
    exact hup.symm
  subst hsame
  obtain ⟨peer, hpeer, hclient⟩ := List.mem_map.mp hmem
  have hkey : peer.key = key := congrArg Prod.fst hclient
  have hallowed : peer.allowedIps = [token] :=
    congrArg (fun client => client.2.1) hclient
  have hkeepalive : peer.keepalive = some 25 :=
    congrArg (fun client => client.2.2.1) hclient
  subst hkey
  have hips : peer.allowedIps.map Token.text = [token.text] := by
    rw [hallowed]
    rfl
  obtain ⟨ip, hleased, hheld⟩ := hholds.leased peer hpeer
  have hip : ip = token.text := by
    rw [hips, List.cons.injEq] at hheld
    exact hheld.1.symm
  subst hip
  have hpool := leases.mem_pool hleased
  have haccepts :=
    accepts_client_iff host hholds.keys_nodup hpeer
      (hholds.unshared peer hpeer) hpool hips hkeepalive
  rw [← splitlines_wgShow hsaving.up] at haccepts
  constructor
  · intro hundoes
    by_cases htest : Accepts peer.key.text token.text
        (splitlines (wgShow host container))
    · exact ⟨served, hsaving.up, peer, hpeer, rfl, haccepts.mp htest⟩
    · have hnot := (onDisconnectClientAction_of_not_accepts
        (Or.inr htest)).2.1
      exact absurd hundoes.1 hnot
  · intro hconnected
    obtain ⟨found, hup, other, hother, hsameKey, hendpoint⟩ := hconnected
    rw [hsaving.up, Option.some.injEq] at hup
    subst hup
    have hpeers : other = peer :=
      List.inj_on_of_nodup_map hholds.keys_nodup hother hpeer hsameKey
    subst hpeers
    have htest := haccepts.mpr hendpoint
    obtain ⟨next, hnext, hconfigs⟩ :=
      onDisconnectClientAction_configs hsaving.up other.key htest
    rw [hsaving.saves, if_pos rfl] at hconfigs
    refine ⟨?_, served, next, hsaving.up, hnext, ?_, hconfigs, hpool,
      onDisconnectClientAction_frees host hserves hleased htest⟩
    · rw [onDisconnectClientAction_of_accepts other.key.canBeArgument htest]
    · intro kept hkept hbad
      have hconfig : kept.toPeerConfig ∈ next.configs :=
        List.mem_map_of_mem hkept
      rw [hconfigs] at hconfig
      have hne := (List.mem_filter.mp hconfig).2
      rw [hbad] at hne
      simp at hne

/-- On a server that `init-config` started, a client that was admitted can be
disconnected with its key and its address, after any later events that do
not name it, exactly when it has an endpoint by then. -/
theorem disconnection_of_run (host : Host) (start : Container)
    (answers : InitAnswers) (before later : List Event) (key : Key)
    (ip : Text) (hstopped : start.wg0 = none)
    (hstarted : (onInitConfigAction host answers start).2.Succeeded)
    (hbefore : ∀ event ∈ before, ¬ event.IsDisconnectServer)
    (hreport : (onAddClientAction host key.text
      (run (step host) (onInitConfigAction host answers start).1 before)).2 =
        clientAdded ip)
    (hlater : ∀ event ∈ later,
      ¬ event.IsDisconnectServer ∧ ¬ event.Names key.text) :
    let reached := run (step host)
      (onAddClientAction host key.text
        (run (step host) (onInitConfigAction host answers start).1 before)).1
      later
    UndoesAdmission host reached key ip ↔ reached.Connected key := by
  intro reached
  have hinit := onInitConfigAction_serves host hstopped hstarted
  obtain ⟨leases, hserves⟩ := run_serves host hinit hbefore
  obtain ⟨interface, hsaving, _⟩ := hserves.saving
  obtain ⟨found, token, admitted, hkey, htoken, hip, hadded, _, hmem⟩ :=
    addClient_of_saving host hsaving key.wellFormed hreport
  have hsame : found = key := Key.ext_text hkey
  subst hsame
  subst htoken
  have hnext := hserves.step host (.action (.addClient found.text)) not_false
  obtain ⟨final, hfinal⟩ := run_serves host hnext
    (fun event hevent => (hlater event hevent).1)
  obtain ⟨last, hlast, hstill⟩ := client_mem_of_run host hadded hip hmem hlater
  exact undoesAdmission_iff host hfinal hlast hstill

theorem disconnection_of_small_run :
    let reached := run (step smallHost)
      (onAddClientAction smallHost phoneKey.text
        (run (step smallHost)
          (onInitConfigAction smallHost initAnswers Container.fresh).1
          [.action (.addClient laptopKey.text)])).1
      [.action (.disconnectClient laptopKey.text [])]
    UndoesAdmission smallHost reached phoneKey "192.168.1.202/32".toList ↔
      reached.Connected phoneKey := by
  apply disconnection_of_run smallHost Container.fresh initAnswers
  · rfl
  · decide
  · intro event hevent
    rw [List.mem_singleton] at hevent
    rw [hevent]
    exact not_false
  · decide
  · intro event hevent
    rw [List.mem_singleton] at hevent
    rw [hevent]
    refine ⟨not_false, ?_⟩
    simp only [Event.Names]
    decide

/-- A client that has not connected yet is told that its data is not
correct. -/
theorem disconnection_fails_before_connecting :
    let admitted := onAddClientAction smallHost phoneKey.text
      (onInitConfigAction smallHost initAnswers Container.fresh).1
    admitted.2 = clientAdded "192.168.1.201/32".toList ∧
      ¬ UndoesAdmission smallHost admitted.1 phoneKey
        "192.168.1.201/32".toList := by
  intro admitted
  have hanswer : (onDisconnectClientAction smallHost phoneKey.text
      "192.168.1.201/32".toList admitted.1).2 = clientDataNotCorrect := by
    decide
  refine ⟨by decide, ?_⟩
  intro hundoes
  have hremoved := hundoes.1
  rw [hanswer] at hremoved
  exact clientDataNotCorrect_ne_clientRemoved hremoved

end SecaasCharms.WireGuard
