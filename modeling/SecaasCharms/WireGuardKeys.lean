import SecaasCharms.WireGuardAdmission

/-!
# Which key the server runs with

The private key lives in the key file, in `wg0.conf` and in the running
interface.  `init-config` replaces the first two and, when `wg0` is up, not
the third; the down/up cycle of the client actions writes the third over the
second, or reloads the second when the file is not saved.
-/

namespace SecaasCharms.WireGuard

open TextLines
open StepRuns

def StoredKeyInUse (container : Container) : Prop :=
  ∀ interface, container.wg0 = some interface →
    ∃ key, interface.privateKey = some key ∧
      container.privateKeyFile = some key

/-- A down/up cycle brings the stored key back: the running interface is
saved first, or the file already has that key. -/
def ReloadsStoredKey (container : Container) : Prop :=
  (∃ interface, container.Saving interface) ∨
    ∃ key, container.conf.privateKey = some key ∧
      container.privateKeyFile = some key

/-- `init-config` runs only while `wg0` is down, and a client action that
restarts the server reloads the stored key. -/
def KeepsStoredKey (host : Host) (container : Container) : Event → Prop
  | .action (.initConfig _) => container.wg0 = none
  | .action (.addClient publicKey) =>
      ReloadsStoredKey container ∨
        (∀ ip ∈ freeIpList, ip <:+: addressLines host container) ∨
          ¬ CanBeArgument publicKey
  | .action (.disconnectClient publicKey ip) =>
      ReloadsStoredKey container ∨
        checkClient host publicKey ip container ≠ some true ∨
          ¬ CanBeArgument publicKey
  | .action .disconnectServer => True
  | .clients _ => True

def GenkeyIsNew (container : Container) : Event → Prop
  | .action (.initConfig answers) =>
      ∀ interface, container.wg0 = some interface →
        interface.privateKey ≠ some answers.genkey
  | .action (.addClient _) => True
  | .action (.disconnectClient _ _) => True
  | .action .disconnectServer => True
  | .clients _ => True

/-- `public_key.key.pub` belongs to `private_key.key`. -/
def KeyFilesMatch (host : Host) (container : Container) : Prop :=
  container.publicKeyFile = container.privateKeyFile.map host.pubkey

/-! ## The down/up cycle -/

theorem restart_storedKeyInUse_iff (host : Host) {container : Container}
    (hinUse : StoredKeyInUse container) :
    StoredKeyInUse (restart host container) ↔ ReloadsStoredKey container := by
  cases hwg0 : container.wg0 with
  | none =>
      have hnot : ¬ ∃ interface, container.Saving interface := by
        rintro ⟨interface, hsaving⟩
        rw [hsaving.up] at hwg0
        contradiction
      rw [restart_eq_of_down host hwg0]
      simp [StoredKeyInUse, ReloadsStoredKey, hnot, Conf.load]
  | some interface =>
      obtain ⟨key, hkey, hfile⟩ := hinUse interface hwg0
      cases hsaves : container.conf.saveConfig with
      | true =>
          rw [restart_eq_of_up host hwg0, hsaves]
          constructor
          · intro _
            exact Or.inl ⟨interface, hwg0, hsaves⟩
          · rintro _ next hnext
            rw [Option.some.injEq] at hnext
            rw [← hnext]
            exact ⟨key, hkey, hfile⟩
      | false =>
          have hnot : ¬ ∃ interface, container.Saving interface := by
            rintro ⟨other, hsaving⟩
            have h := hsaving.saves
            rw [hsaves] at h
            contradiction
          rw [restart_eq_of_up host hwg0, hsaves]
          simp [StoredKeyInUse, ReloadsStoredKey, hnot, Conf.load]

theorem storedKeyInUse_withPeers {container : Container}
    {interface : Interface} (hup : container.wg0 = some interface)
    (next : Interface) (hkey : next.privateKey = interface.privateKey) :
    (StoredKeyInUse { container with wg0 := some next } ↔
        StoredKeyInUse container) ∧
      (ReloadsStoredKey { container with wg0 := some next } ↔
        ReloadsStoredKey container) := by
  constructor
  · simp [StoredKeyInUse, hup, hkey]
  · have hsaving :
        (∃ other, Container.Saving { container with wg0 := some next } other) ↔
          ∃ other, container.Saving other := by
      constructor
      · rintro ⟨_, h⟩
        exact ⟨interface, hup, h.saves⟩
      · rintro ⟨_, h⟩
        exact ⟨next, rfl, h.saves⟩
    unfold ReloadsStoredKey
    rw [hsaving]

theorem wgSetAllowedIps_keys (keyText ipText : Text) (seconds : ℕ)
    (container : Container) :
    (StoredKeyInUse (wgSetAllowedIps keyText ipText seconds container) ↔
        StoredKeyInUse container) ∧
      (ReloadsStoredKey (wgSetAllowedIps keyText ipText seconds container) ↔
        ReloadsStoredKey container) := by
  unfold wgSetAllowedIps
  split
  next interface key ip hup _ _ => exact storedKeyInUse_withPeers hup _ rfl
  next => exact ⟨Iff.rfl, Iff.rfl⟩

theorem wgSetRemove_keys (keyText : Text) (container : Container) :
    (StoredKeyInUse (wgSetRemove keyText container) ↔
        StoredKeyInUse container) ∧
      (ReloadsStoredKey (wgSetRemove keyText container) ↔
        ReloadsStoredKey container) := by
  unfold wgSetRemove
  split
  next interface key hup _ => exact storedKeyInUse_withPeers hup _ rfl
  next => exact ⟨Iff.rfl, Iff.rfl⟩

/-! ## One event -/

theorem onInitConfigAction_storedKeyInUse (host : Host)
    (answers : InitAnswers) {container : Container}
    (hdown : container.wg0 = none) :
    StoredKeyInUse (onInitConfigAction host answers container).1 := by
  intro interface hup
  rcases onInitConfigAction_cases host answers container with
    ⟨hsame, _⟩ | ⟨ifaceName, hnext, _⟩
  · rw [hsame] at hup
    simp only [generateKeys, hdown] at hup
    contradiction
  · rw [hnext] at hup ⊢
    simp only [wgQuickUp, generateKeys, hdown, Option.some.injEq] at hup ⊢
    rw [← hup]
    exact ⟨answers.genkey, rfl, rfl⟩

theorem onInitConfigAction_wg0_of_up (host : Host) (answers : InitAnswers)
    {container : Container} {interface : Interface}
    (hup : container.wg0 = some interface) :
    (onInitConfigAction host answers container).1.wg0 = some interface ∧
      (onInitConfigAction host answers container).1.privateKeyFile =
        some answers.genkey := by
  rcases onInitConfigAction_cases host answers container with
    ⟨hsame, _⟩ | ⟨ifaceName, hnext, _⟩
  · rw [hsame]
    exact ⟨hup, rfl⟩
  · rw [hnext]
    simp only [wgQuickUp, generateKeys, hup, and_self]

theorem initConfig_storedKeyInUse_iff (host : Host) {container : Container}
    {answers : InitAnswers}
    (hnew : GenkeyIsNew container (.action (.initConfig answers))) :
    StoredKeyInUse (step host container (.action (.initConfig answers))) ↔
      KeepsStoredKey host container (.action (.initConfig answers)) := by
  simp only [step, perform, KeepsStoredKey]
  constructor
  · intro hafter
    by_contra hup
    obtain ⟨interface, hup⟩ := Option.ne_none_iff_exists'.mp hup
    obtain ⟨hsame, hfile⟩ := onInitConfigAction_wg0_of_up host answers hup
    obtain ⟨key, hkey, hstored⟩ := hafter interface hsame
    rw [hfile] at hstored
    exact hnew interface hup (hkey.trans hstored.symm)
  · exact onInitConfigAction_storedKeyInUse host answers

theorem addClient_storedKeyInUse_iff (host : Host) {container : Container}
    (hinUse : StoredKeyInUse container) (publicKey : Text) :
    StoredKeyInUse (step host container (.action (.addClient publicKey))) ↔
      KeepsStoredKey host container (.action (.addClient publicKey)) := by
  simp only [step, perform, KeepsStoredKey]
  rcases onAddClientAction_cases host publicKey container with
    ⟨hpop, heq⟩ | ⟨exception, hstart, heq⟩ | ⟨ip, hpop, hargument, heq⟩
  · have hheld := held_of_popFreeIp_eq_none hpop
    rw [heq]
    exact iff_of_true hinUse (Or.inr (Or.inl hheld))
  · have hnot := not_canBeArgument_of_startError hstart
    rw [heq]
    exact iff_of_true hinUse (Or.inr (Or.inr hnot))
  · have hset := wgSetAllowedIps_keys publicKey ip 25 container
    have hnotHeld : ¬ ∀ ip ∈ freeIpList,
        ip <:+: addressLines host container := by
      intro hheld
      exact popFreeIp_not_held hpop (hheld ip (popFreeIp_mem hpop))
    rw [heq, restart_storedKeyInUse_iff host (hset.1.mpr hinUse), hset.2]
    simp only [hnotHeld, hargument, not_true_eq_false, or_false]

theorem disconnectClient_storedKeyInUse_iff (host : Host)
    {container : Container} (hinUse : StoredKeyInUse container)
    (publicKey ip : Text) :
    StoredKeyInUse
        (step host container (.action (.disconnectClient publicKey ip))) ↔
      KeepsStoredKey host container
        (.action (.disconnectClient publicKey ip)) := by
  simp only [step, perform, KeepsStoredKey]
  rcases onDisconnectClientAction_cases host publicKey ip container with
    ⟨hcheck, hsame, _⟩ | ⟨exception, hstart, heq⟩ | ⟨hcheck, hargument, heq⟩
  · rw [hsame]
    exact iff_of_true hinUse (Or.inr (Or.inl hcheck))
  · have hnot := not_canBeArgument_of_startError hstart
    rw [heq]
    exact iff_of_true hinUse (Or.inr (Or.inr hnot))
  · have hset := wgSetRemove_keys publicKey container
    rw [heq, restart_storedKeyInUse_iff host (hset.1.mpr hinUse), hset.2]
    simp only [hcheck, hargument, ne_eq, not_true_eq_false, or_false]

theorem observe_storedKeyInUse {container : Container}
    (hinUse : StoredKeyInUse container) (peers : List Peer) :
    StoredKeyInUse (observe peers container) := by
  unfold observe
  split
  · exact hinUse
  next interface hup =>
    split
    next hperm =>
      have hkept := storedKeyInUse_withPeers hup
        { interface with peers := peers } rfl
      exact hkept.1.mpr hinUse
    next => exact hinUse

/-- From a state in which the stored key is in use, an event keeps it so
exactly under its condition. -/
theorem step_storedKeyInUse_iff (host : Host) {container : Container}
    (hinUse : StoredKeyInUse container) {event : Event}
    (hnew : GenkeyIsNew container event) :
    StoredKeyInUse (step host container event) ↔
      KeepsStoredKey host container event := by
  cases event with
  | clients peers =>
      exact iff_of_true (observe_storedKeyInUse hinUse peers) trivial
  | action action =>
      cases action with
      | initConfig answers => exact initConfig_storedKeyInUse_iff host hnew
      | addClient publicKey =>
          exact addClient_storedKeyInUse_iff host hinUse publicKey
      | disconnectClient publicKey ip =>
          exact disconnectClient_storedKeyInUse_iff host hinUse publicKey ip
      | disconnectServer =>
          simp only [step, perform, KeepsStoredKey, iff_true]
          intro interface hup
          rw [(onDisconnectServerAction_down container)] at hup
          contradiction

/-! ## The key files -/

def Container.keyFiles (container : Container) : Option Key × Option Key :=
  (container.privateKeyFile, container.publicKeyFile)

theorem restart_keyFiles (host : Host) (container : Container) :
    (restart host container).keyFiles = container.keyFiles := by
  cases hwg0 : container.wg0 with
  | none =>
      rw [restart_eq_of_down host hwg0]
      rfl
  | some interface =>
      rw [restart_eq_of_up host hwg0]
      rfl

theorem wgSetAllowedIps_keyFiles (keyText ipText : Text) (seconds : ℕ)
    (container : Container) :
    (wgSetAllowedIps keyText ipText seconds container).keyFiles =
      container.keyFiles := by
  unfold wgSetAllowedIps
  split <;> rfl

theorem wgSetRemove_keyFiles (keyText : Text) (container : Container) :
    (wgSetRemove keyText container).keyFiles = container.keyFiles := by
  unfold wgSetRemove
  split <;> rfl

theorem onInitConfigAction_keyFiles (host : Host) (answers : InitAnswers)
    (container : Container) :
    (onInitConfigAction host answers container).1.keyFiles =
      (some answers.genkey, some (host.pubkey answers.genkey)) := by
  rcases onInitConfigAction_cases host answers container with
    ⟨hsame, _⟩ | ⟨ifaceName, hnext, _⟩
  · rw [hsame]
    rfl
  · rw [hnext]
    unfold wgQuickUp
    split <;> rfl

/-- Only `init-config` writes the key files, and it writes both. -/
theorem step_keyFiles (host : Host) (container : Container) (event : Event) :
    (step host container event).keyFiles = container.keyFiles ∨
      ∃ key, (step host container event).keyFiles =
        (some key, some (host.pubkey key)) := by
  cases event with
  | clients peers =>
      left
      simp only [step, observe]
      split
      · rfl
      · split <;> rfl
  | action action =>
      cases action with
      | initConfig answers =>
          right
          exact ⟨answers.genkey,
            onInitConfigAction_keyFiles host answers container⟩
      | addClient publicKey =>
          left
          simp only [step, perform]
          rcases onAddClientAction_cases host publicKey container with
            ⟨_, heq⟩ | ⟨_, _, heq⟩ | ⟨_, _, _, heq⟩ <;> rw [heq]
          rw [restart_keyFiles, wgSetAllowedIps_keyFiles]
      | disconnectClient publicKey ip =>
          left
          simp only [step, perform]
          rcases onDisconnectClientAction_cases host publicKey ip container with
            ⟨_, hsame, _⟩ | ⟨_, _, heq⟩ | ⟨_, _, heq⟩
          · rw [hsame]
          · rw [heq]
          · rw [heq, restart_keyFiles, wgSetRemove_keyFiles]
      | disconnectServer =>
          left
          simp only [step, perform, onDisconnectServerAction, wgQuickDown]
          split <;> rfl

theorem step_keyFilesMatch (host : Host) {container : Container}
    (hmatch : KeyFilesMatch host container) (event : Event) :
    KeyFilesMatch host (step host container event) := by
  have hstep := step_keyFiles host container event
  unfold Container.keyFiles at hstep
  unfold KeyFilesMatch at hmatch ⊢
  rcases hstep with hsame | ⟨key, hnext⟩
  · rw [Prod.mk.injEq] at hsame
    rw [hsame.1, hsame.2]
    exact hmatch
  · rw [Prod.mk.injEq] at hnext
    rw [hnext.1, hnext.2]
    rfl

/-! ## Whole runs -/

/-- From a container without a running interface, the server runs with the
stored key in every state of a run exactly when every event met its
condition. -/
theorem storedKey_of_run (host : Host) (start : Container)
    (events : List Event) (hstopped : start.wg0 = none)
    (hnew : EveryStep (step host) GenkeyIsNew start events) :
    (EveryState (step host) StoredKeyInUse start events ↔
        EveryStep (step host) (KeepsStoredKey host) start events) ∧
      (KeyFilesMatch host start →
        EveryState (step host) (KeyFilesMatch host) start events) := by
  have hinit : StoredKeyInUse start := by
    intro interface hup
    rw [hstopped] at hup
    contradiction
  refine ⟨⟨?_, ?_⟩, ?_⟩
  · exact everyStep_of_everyState
      (fun _ _ hinUse hevent hnext =>
        (step_storedKeyInUse_iff host hinUse hevent).mp hnext) hnew
  · intro hkeeps
    have hboth := hnew.and hkeeps
    exact everyState_of_invariant
      (fun _ _ hinUse hevent =>
        (step_storedKeyInUse_iff host hinUse hevent.1).mpr hevent.2)
      hinit hboth
  · intro hmatch
    have hany : EveryStep (step host) (fun _ _ => True) start events :=
      EveryStep.of_forall (fun _ _ => trivial) _ _
    exact everyState_of_invariant
      (fun _ event hmatch _ => step_keyFilesMatch host hmatch event)
      hmatch hany

theorem storedKey_of_small_run :
    let events := [Event.action (.initConfig initAnswers),
      .action (.addClient phoneKey.text)]
    (EveryState (step smallHost) StoredKeyInUse Container.fresh events ↔
        EveryStep (step smallHost) (KeepsStoredKey smallHost)
          Container.fresh events) ∧
      (KeyFilesMatch smallHost Container.fresh →
        EveryState (step smallHost) (KeyFilesMatch smallHost)
          Container.fresh events) :=
  storedKey_of_run smallHost Container.fresh _ rfl
    ⟨by simp [GenkeyIsNew, Container.fresh], trivial, trivial⟩

/-- A second `init-config` reports success and leaves the server running
with the first key. -/
theorem storedKey_after_second_initConfig :
    let first := step smallHost Container.fresh
      (.action (.initConfig initAnswers))
    let again : InitAnswers := { initAnswers with genkey := laptopKey }
    GenkeyIsNew first (.action (.initConfig again)) ∧
      (onInitConfigAction smallHost again first).2.Succeeded ∧
      ¬ StoredKeyInUse (step smallHost first (.action (.initConfig again))) := by
  intro first again
  have hrunning :
      first.wg0.map Interface.privateKey = some (some serverKey) := by decide
  refine ⟨?_, by decide, ?_⟩
  · intro interface hup hsame
    rw [hup, Option.map_some, hsame] at hrunning
    revert hrunning
    decide
  · have hafter :
        (step smallHost first (.action (.initConfig again))).wg0.map
          Interface.privateKey = some (some serverKey) := by decide
    have hstored :
        (step smallHost first (.action (.initConfig again))).privateKeyFile =
          some laptopKey := by decide
    intro hinUse
    obtain ⟨interface, hup, hkey⟩ := Option.map_eq_some_iff.mp hafter
    obtain ⟨key, hused, hfile⟩ := hinUse interface hup
    have hsame : some serverKey = some laptopKey := by
      rw [← hkey, hused, ← hfile, hstored]
    revert hsame
    decide

end SecaasCharms.WireGuard
