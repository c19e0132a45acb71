import SecaasCharms.WireGuardKeys
import SecaasCharms.WireGuardMatches

/-!
# Which credentials `disconnect-client` accepts

The text test compares two strings with the listing, not with the table it
was printed from.  It is right when the strings are the key and an address of
a client, or match nowhere; and then the table comes back without that client
if the file was saved or already holds the others.
-/

namespace SecaasCharms.WireGuard

open TextLines
open StepRuns

variable {clientKey clientIp : Text}

/-! ## What the action does -/

theorem clientDataNotCorrect_ne_clientRemoved :
    clientDataNotCorrect ≠ clientRemoved := by
  decide

theorem onDisconnectClientAction_of_accepts {host : Host}
    {container : Container} (hargument : CanBeArgument clientKey)
    (haccepts : Accepts clientKey clientIp
      (splitlines (wgShow host container))) :
    onDisconnectClientAction host clientKey clientIp container =
      (restart host (wgSetRemove clientKey container), clientRemoved) := by
  have hcheck := (checkClient_eq_true_iff host container).mpr haccepts
  rcases onDisconnectClientAction_cases host clientKey clientIp container with
    ⟨hnot, _⟩ | ⟨_, hstart, _⟩ | ⟨_, _, heq⟩
  · exact absurd hcheck hnot
  · exact absurd hargument (not_canBeArgument_of_startError hstart)
  · exact heq

theorem onDisconnectClientAction_of_not_accepts {host : Host}
    {container : Container}
    (hnot : ¬ CanBeArgument clientKey ∨ ¬ Accepts clientKey clientIp
      (splitlines (wgShow host container))) :
    let answer := onDisconnectClientAction host clientKey clientIp container
    answer.1 = container ∧ answer.2 ≠ clientRemoved ∧
      (answer.2 = clientDataNotCorrect ∨
        ∃ message, answer.2 = .failed message) := by
  intro answer
  rcases onDisconnectClientAction_cases host clientKey clientIp container with
    ⟨_, hsame, hreport⟩ | ⟨exception, _, heq⟩ | ⟨hcheck, hargument, _⟩
  · refine ⟨hsame, ?_, hreport⟩
    rcases hreport with hwrong | ⟨message, hfailed⟩
    · simp only [answer, hwrong]
      exact clientDataNotCorrect_ne_clientRemoved
    · simp only [answer, hfailed]
      exact (ActionResult.output_ne_failed _ _).symm
  · simp only [answer, heq]
    exact ⟨trivial, (ActionResult.output_ne_failed _ _).symm,
      Or.inr ⟨_, rfl⟩⟩
  · rw [← checkClient_eq_true_iff] at hnot
    rcases hnot with hnot | hnot
    · exact absurd hargument hnot
    · exact absurd hcheck hnot

def Interface.configs (interface : Interface) : List PeerConfig :=
  interface.peers.map Peer.toPeerConfig

/-- The table after a down/up cycle: the saved one, or the one of the
file. -/
theorem restart_configs (host : Host) {container : Container}
    {interface : Interface} (hup : container.wg0 = some interface) :
    ∃ next, (restart host container).wg0 = some next ∧
      next.configs =
        if container.conf.saveConfig then interface.configs
        else container.conf.peers := by
  rw [restart_eq_of_up host hup]
  refine ⟨_, rfl, ?_⟩
  split
  · exact load_save_peers host interface container.conf
  · simp [Interface.configs, Conf.load, Function.comp_def]

def Interface.configsWithout (keyText : Text) (interface : Interface) :
    List PeerConfig :=
  interface.configs.filter (fun config => config.key.text ≠ keyText)

theorem removePeer_configs (interface : Interface) (key : Key) :
    (interface.removePeer key).configs =
      interface.configsWithout key.text := by
  unfold Interface.configsWithout Interface.configs Interface.removePeer
  rw [List.filter_map]
  congr 1
  apply List.filter_congr
  intro peer _
  have hkeys : peer.key.text ≠ key.text ↔ peer.key ≠ key :=
    not_congr ⟨Key.ext_text, fun h => h ▸ rfl⟩
  simp only [Function.comp_apply, hkeys]

/-! ## The comparison -/

/-- The address is one of the peer's, written with or without `/32`. -/
def Peer.Allows (ip : Text) (peer : Peer) : Prop :=
  ∃ allowed ∈ peer.allowedIps,
    allowed.text = ip ∨ allowed.text = ip ++ "/32".toList

def Interface.HasClient (interface : Interface) (keyText ip : Text) : Prop :=
  ∃ peer ∈ interface.peers, peer.key.text = keyText ∧ peer.Allows ip

/-- `disconnect-client` removes exactly the client whose credentials it was
given, and otherwise reports wrong data or a failure and changes nothing. -/
def ChecksCredentials (host : Host) (container : Container)
    (clientKey clientIp : Text) : Prop :=
  let answer := onDisconnectClientAction host clientKey clientIp container
  (answer.2 = clientRemoved →
    ∃ interface, container.wg0 = some interface ∧
      interface.HasClient clientKey clientIp ∧
      ∃ next, answer.1.wg0 = some next ∧
        next.configs = interface.configsWithout clientKey) ∧
  (answer.2 ≠ clientRemoved →
    answer.1 = container ∧
      (answer.2 = clientDataNotCorrect ∨
        ∃ message, answer.2 = .failed message))

/-- The restart brings back the other clients, from the saved table or
because the file holds exactly them. -/
def Container.KeepsOthers (container : Container) (interface : Interface)
    (clientKey : Text) : Prop :=
  container.conf.saveConfig = true ∨
    container.conf.peers = interface.configsWithout clientKey

/-- A whole key has the address two lines below it nowhere in the table.  A
string that is not a key stands nowhere two lines above the address, or on
the last line, or is one that `wg` cannot be started with. -/
def Interface.MatchesNowhere (host : Host) (interface : Interface)
    (clientKey clientIp : Text) : Prop :=
  if isKeyText clientKey = true then
    ¬ interface.MatchesKey host clientKey clientIp
  else
    ¬ Accepts clientKey clientIp (interface.showLines host) ∨
      ¬ CanBeArgument clientKey

def TextTestIsExact (host : Host) (container : Container)
    (clientKey clientIp : Text) : Prop :=
  ∀ interface, container.wg0 = some interface →
    (interface.HasClient clientKey clientIp ∧
        container.KeepsOthers interface clientKey) ∨
      interface.MatchesNowhere host clientKey clientIp

theorem not_accepts_of_down (host : Host) {container : Container}
    (hdown : container.wg0 = none) :
    ¬ Accepts clientKey clientIp (splitlines (wgShow host container)) := by
  unfold wgShow
  rw [hdown]
  exact not_accepts_nil

theorem onDisconnectClientAction_configs {host : Host}
    {container : Container} {interface : Interface}
    (hup : container.wg0 = some interface) (key : Key)
    (haccepts : Accepts key.text clientIp
      (splitlines (wgShow host container))) :
    ∃ next,
      (onDisconnectClientAction host key.text clientIp container).1.wg0 =
          some next ∧
        next.configs =
          if container.conf.saveConfig then interface.configsWithout key.text
          else container.conf.peers := by
  rw [onDisconnectClientAction_of_accepts key.canBeArgument haccepts,
    ← removePeer_configs]
  have hremoved : wgSetRemove key.text container =
      { container with wg0 := some (interface.removePeer key) } := by
    simp only [wgSetRemove, hup, Key.ofText?_text]
  rw [hremoved]
  exact restart_configs host rfl

/-- A client is removed when the strings match and `wg` can be started. -/
theorem matchesNowhere_iff {host : Host} {container : Container}
    {interface : Interface} (hup : container.wg0 = some interface) :
    interface.MatchesNowhere host clientKey clientIp ↔
      ¬ CanBeArgument clientKey ∨ ¬ Accepts clientKey clientIp
        (splitlines (wgShow host container)) := by
  rw [splitlines_wgShow hup]
  unfold Interface.MatchesNowhere
  by_cases hkey : isKeyText clientKey = true
  · have hargument : CanBeArgument clientKey :=
      Key.canBeArgument ⟨clientKey, hkey⟩
    have hmatches :=
      @accepts_iff_matchesKey clientIp host interface ⟨clientKey, hkey⟩
    rw [if_pos hkey, ← hmatches]
    simp only [hargument, not_true_eq_false, false_or]
  · rw [if_neg hkey, or_comm]

theorem Interface.HasClient.key {interface : Interface}
    (hclient : interface.HasClient clientKey clientIp) :
    ∃ key : Key, key.text = clientKey := by
  obtain ⟨peer, _, hkey, _⟩ := hclient
  exact ⟨peer.key, hkey⟩

/-- When the strings match, the claim on the action is that they are a
client's and that the restart keeps the others. -/
theorem checksCredentials_of_accepts {host : Host} {container : Container}
    {interface : Interface} (hup : container.wg0 = some interface)
    (hargument : CanBeArgument clientKey)
    (haccepts : Accepts clientKey clientIp
      (splitlines (wgShow host container))) :
    ChecksCredentials host container clientKey clientIp ↔
      interface.HasClient clientKey clientIp ∧
        container.KeepsOthers interface clientKey := by
  have hanswer := onDisconnectClientAction_of_accepts hargument haccepts
  have hremoved : (onDisconnectClientAction host clientKey clientIp
      container).2 = clientRemoved := by rw [hanswer]
  constructor
  · intro hchecks
    obtain ⟨old, hold, hclient, next, hnext, htable⟩ := hchecks.1 hremoved
    have hsame : old = interface := by
      rw [hup, Option.some.injEq] at hold
      exact hold.symm
    subst hsame
    refine ⟨hclient, ?_⟩
    obtain ⟨key, rfl⟩ := hclient.key
    obtain ⟨found, hfound, hconfigs⟩ :=
      onDisconnectClientAction_configs hup key haccepts
    rw [hnext, Option.some.injEq] at hfound
    subst hfound
    rw [htable] at hconfigs
    cases hsaves : container.conf.saveConfig with
    | true => exact Or.inl hsaves
    | false =>
        rw [hsaves] at hconfigs
        exact Or.inr hconfigs.symm
  · rintro ⟨hclient, htable⟩
    refine ⟨fun _ => ⟨interface, hup, hclient, ?_⟩,
      fun hnot => absurd hremoved hnot⟩
    obtain ⟨key, rfl⟩ := hclient.key
    obtain ⟨next, hnext, hconfigs⟩ :=
      onDisconnectClientAction_configs hup key haccepts
    refine ⟨next, hnext, ?_⟩
    rw [hconfigs]
    split
    · rfl
    next hsaves => exact htable.resolve_left hsaves

theorem checksCredentials_of_not_accepts {host : Host}
    {container : Container}
    (hnot : ¬ CanBeArgument clientKey ∨ ¬ Accepts clientKey clientIp
      (splitlines (wgShow host container))) :
    ChecksCredentials host container clientKey clientIp := by
  obtain ⟨hsame, hkept, hreport⟩ := onDisconnectClientAction_of_not_accepts hnot
  exact ⟨fun hremoved => absurd hremoved hkept, fun _ => ⟨hsame, hreport⟩⟩

/-- For every state and every two strings, the credentials are checked
exactly when they are a client's, on a table that the restart keeps, or match
nowhere. -/
theorem checksCredentials_iff (host : Host) (container : Container)
    (clientKey clientIp : Text) :
    ChecksCredentials host container clientKey clientIp ↔
      TextTestIsExact host container clientKey clientIp := by
  cases hwg0 : container.wg0 with
  | none =>
      have hchecks := @checksCredentials_of_not_accepts clientKey clientIp
        host container (Or.inr (not_accepts_of_down host hwg0))
      refine iff_of_true hchecks ?_
      intro interface hup
      rw [hwg0] at hup
      contradiction
  | some interface =>
      have hexact : TextTestIsExact host container clientKey clientIp ↔
          (interface.HasClient clientKey clientIp ∧
              container.KeepsOthers interface clientKey) ∨
            interface.MatchesNowhere host clientKey clientIp := by
        simp only [TextTestIsExact, hwg0, Option.some.injEq, forall_eq']
      rw [hexact, matchesNowhere_iff hwg0]
      by_cases hnot : ¬ CanBeArgument clientKey ∨
          ¬ Accepts clientKey clientIp (splitlines (wgShow host container))
      · exact iff_of_true (checksCredentials_of_not_accepts hnot)
          (Or.inr hnot)
      · have hboth := not_or.mp hnot
        rw [not_not, not_not] at hboth
        rw [checksCredentials_of_accepts hwg0 hboth.1 hboth.2,
          or_iff_left hnot]

def phoneConnected : Container :=
  run (step smallHost) Container.fresh
    [.action (.initConfig initAnswers), .action (.addClient phoneKey.text),
      .clients [⟨⟨phoneKey, none, [⟨"192.168.1.201/32".toList, by decide⟩],
        some ⟨"10.0.0.7:51820".toList, by decide⟩, some 25⟩, none, none⟩]]

/-- An address that is only the beginning of the client's one is accepted. -/
theorem checksCredentials_fails_on_prefix :
    ¬ ChecksCredentials smallHost phoneConnected phoneKey.text
      "192.168.1.20".toList := by
  intro hchecks
  obtain ⟨interface, hup, hclient, _⟩ := hchecks.1 (by decide)
  obtain ⟨peer, hpeer, _, allowed, hallowed, hip⟩ := hclient
  have htable : phoneConnected.wg0.map (fun interface =>
      interface.peers.map (fun peer => peer.allowedIps.map Token.text)) =
        some [["192.168.1.201/32".toList]] := by decide
  rw [hup, Option.map_some, Option.some.injEq] at htable
  have hips : peer.allowedIps.map Token.text ∈
      interface.peers.map (fun peer => peer.allowedIps.map Token.text) :=
    List.mem_map_of_mem hpeer
  rw [htable, List.mem_singleton] at hips
  have htext : allowed.text ∈ peer.allowedIps.map Token.text :=
    List.mem_map_of_mem hallowed
  rw [hips, List.mem_singleton] at htext
  rw [htext] at hip
  revert hip
  decide

end SecaasCharms.WireGuard
