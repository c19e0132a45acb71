import Mathlib.Data.List.TakeWhile
import SecaasCharms.WireGuardAdmission
import SecaasCharms.WireGuardCredentials

/-!
# The server's report and what its answers promised

`get-server-data` of `wireguard/src/charm.py` prints the listing of `wg`.
Whoever calls the actions sees nothing of the server but their answers.  The
clients that the report lists are the ones that the answers admitted and did
not remove, in every state of a run, exactly if `add-client` is called on an
initialised server with well-formed keys.
-/

namespace SecaasCharms.WireGuard

open TextLines
open StepRuns
open LeasePool

/-! ## `get-server-data` -/

def serverData (serverPublicIp wgOutput : Text) : ActionResult :=
  .output ("Server with public IP ".toList ++ serverPublicIp ++
    " started successfully:\n".toList ++ wgOutput)

def onGetServerDataAction (host : Host) (dig : Text) (container : Container) :
    Container × ActionResult :=
  match (splitlines dig).head? with
  | none =>
      (container, .failed
        ("Server data failed due an unespected exception named: ".toList ++
          "list index out of range".toList))
  | some serverPublicIp =>
      (container,
        serverData serverPublicIp (unlines (splitlines (wgShow host container))))

/-! ## Reading the report -/

/-- A `peer:` line names a client, the next line of addresses is its own. -/
def readLine (client : Option Text) (line : Text) :
    Option Text × List (Text × Text) :=
  match line.dropPrefix? "peer: ".toList, client,
    line.dropPrefix? "  allowed ips: ".toList with
  | some key, _, _ => (some key, [])
  | none, some key, some ips => (none, [(key, ips)])
  | none, _, _ => (client, [])

def listedFrom (client : Option Text) : List Text → List (Text × Text)
  | [] => []
  | line :: rest =>
      (readLine client line).2 ++ listedFrom (readLine client line).1 rest

def clientsOf : ActionResult → List (Text × Text)
  | .results fields =>
      listedFrom none (splitlines ((fields.lookup "output".toList).getD []))
  | .failed _ => []
  | .crashed => []

theorem unbroken_of_mem_splitlines {text line : Text}
    (hline : line ∈ splitlines text) : Unbroken line := by
  obtain ⟨kept, _, rfl⟩ := List.mem_map.mp hline
  intro c hc
  simpa using List.mem_takeWhile_imp hc

theorem dropPrefix?_label (label text : Text) :
    (label ++ text).dropPrefix? label = some text :=
  List.dropPrefix?_append_of_beq text (beq_self_eq_true label)

theorem listedFrom_peer (client : Option Text) (key : Text)
    (rest : List Text) :
    listedFrom client (("peer: ".toList ++ key) :: rest) =
      listedFrom (some key) rest := by
  simp only [listedFrom, readLine, dropPrefix?_label, List.nil_append]

theorem listedFrom_allowedIps (key ips : Text) (rest : List Text) :
    listedFrom (some key) (("  allowed ips: ".toList ++ ips) :: rest) =
      (key, ips) :: listedFrom none rest := by
  have hpeer : ("  allowed ips: ".toList ++ ips).dropPrefix?
      "peer: ".toList = none := rfl
  simp only [listedFrom, readLine, dropPrefix?_label, hpeer,
    List.singleton_append]

/-- The line names no client and no addresses. -/
def Silent (line : Text) : Prop :=
  line.dropPrefix? "peer: ".toList = none ∧
    line.dropPrefix? "  allowed ips: ".toList = none

theorem listedFrom_silent {lines : List Text}
    (hlines : ∀ line ∈ lines, Silent line) (client : Option Text)
    (rest : List Text) :
    listedFrom client (lines ++ rest) = listedFrom client rest := by
  induction lines with
  | nil => rfl
  | cons line lines ih =>
      obtain ⟨hpeer, hips⟩ := hlines line (by simp)
      have hread : readLine client line = (client, []) := by
        simp only [readLine, hpeer, hips]
      rw [List.cons_append, listedFrom, hread, List.nil_append]
      exact ih (fun other hmem => hlines other (by simp [hmem]))

theorem Interface.silent_headLines (host : Host) (interface : Interface) :
    ∀ line ∈ interface.headLines host, Silent line := by
  intro line hline
  simp only [Interface.headLines, List.mem_append, List.mem_singleton,
    Option.mem_toList, Option.map_eq_some_iff] at hline
  rcases hline with ((rfl | ⟨_, _, rfl⟩) | ⟨_, _, rfl⟩) | rfl <;>
    exact ⟨rfl, rfl⟩

/-- A block of the listing is read as its client, whatever else stands in
it. -/
theorem listedFrom_block (peer : Peer) (rest : List Text) :
    listedFrom none (([] :: peer.showLines) ++ rest) =
      (peer.key.text, allowedIpsText peer.allowedIps) ::
        listedFrom none rest := by
  have hnil : ∀ line ∈ [([] : Text)], Silent line := by
    intro line hline
    rw [List.mem_singleton.mp hline]
    exact ⟨rfl, rfl⟩
  have hpreshared : ∀ line ∈ (peer.presharedKey.map fun _ =>
      "  preshared key: (hidden)".toList).toList, Silent line := by
    intro line hline
    obtain ⟨_, _, rfl⟩ := Option.map_eq_some_iff.mp (Option.mem_toList.mp hline)
    exact ⟨rfl, rfl⟩
  have hendpoint : ∀ line ∈ (peer.endpoint.map fun endpoint =>
      "  endpoint: ".toList ++ endpoint.text).toList, Silent line := by
    intro line hline
    obtain ⟨_, _, rfl⟩ := Option.map_eq_some_iff.mp (Option.mem_toList.mp hline)
    exact ⟨rfl, rfl⟩
  have hrest : ∀ line ∈ (peer.handshake.map fun handshake =>
        "  latest handshake: ".toList ++ handshake.text).toList ++
      (peer.transfer.map fun transfer =>
        "  transfer: ".toList ++ transfer.text).toList ++
      (peer.keepalive.map keepaliveLine).toList, Silent line := by
    intro line hline
    simp only [List.mem_append, Option.mem_toList,
      Option.map_eq_some_iff] at hline
    rcases hline with (⟨_, _, rfl⟩ | ⟨_, _, rfl⟩) | ⟨_, _, rfl⟩ <;>
      exact ⟨rfl, rfl⟩
  calc listedFrom none (([] :: peer.showLines) ++ rest)
      = listedFrom none ([[]] ++ ("peer: ".toList ++ peer.key.text) ::
          ((peer.presharedKey.map fun _ =>
            "  preshared key: (hidden)".toList).toList ++
          ((peer.endpoint.map fun endpoint =>
            "  endpoint: ".toList ++ endpoint.text).toList ++
          ("  allowed ips: ".toList ++ allowedIpsText peer.allowedIps) ::
          ((peer.handshake.map fun handshake =>
              "  latest handshake: ".toList ++ handshake.text).toList ++
            (peer.transfer.map fun transfer =>
              "  transfer: ".toList ++ transfer.text).toList ++
            (peer.keepalive.map keepaliveLine).toList ++ rest)))) := by
        simp [Peer.showLines, Peer.detailLines]
    _ = (peer.key.text, allowedIpsText peer.allowedIps) ::
          listedFrom none rest := by
        rw [listedFrom_silent hnil, listedFrom_peer,
          listedFrom_silent hpreshared, listedFrom_silent hendpoint, listedFrom_allowedIps,
          listedFrom_silent hrest]

theorem listedFrom_blocks (peers : List Peer) :
    listedFrom none (peers.flatMap (fun peer => [] :: peer.showLines)) =
      peers.map (fun peer =>
        (peer.key.text, allowedIpsText peer.allowedIps)) := by
  induction peers with
  | nil => rfl
  | cons peer peers ih =>
      rw [List.flatMap_cons, listedFrom_block, ih, List.map_cons]

/-- What a container's report lists: the clients of `wg0`, in its order. -/
def Container.listed (container : Container) : List (Text × Text) :=
  (container.wg0.map Interface.peers).getD [] |>.map fun peer =>
    (peer.key.text, allowedIpsText peer.allowedIps)

theorem clientsOf_serverData (host : Host) {serverPublicIp : Text}
    (hip : Unbroken serverPublicIp) (container : Container) :
    clientsOf (serverData serverPublicIp
      (unlines (splitlines (wgShow host container)))) = container.listed := by
  have hlines : ∀ line ∈ splitlines (wgShow host container), Unbroken line :=
    fun _ hline => unbroken_of_mem_splitlines hline
  let title : Text := "Server with public IP ".toList ++ serverPublicIp ++
    " started successfully:".toList
  have htitle : Unbroken title := by
    simp only [title, unbroken_append]
    exact ⟨⟨by decide, hip⟩, by decide⟩
  have hsilent : ∀ line ∈ [title], Silent line := by
    intro line hline
    rw [List.mem_singleton.mp hline]
    exact ⟨rfl, rfl⟩
  have hread : clientsOf (serverData serverPublicIp
      (unlines (splitlines (wgShow host container)))) =
      listedFrom none (splitlines (unlines
        (title :: splitlines (wgShow host container)))) := by
    simp [clientsOf, serverData, ActionResult.output, title]
  have htext : ∀ line ∈ title :: splitlines (wgShow host container),
      Unbroken line := by
    intro line hline
    rcases List.mem_cons.mp hline with rfl | hmem
    · exact htitle
    · exact hlines line hmem
  have hbody : listedFrom none (title :: splitlines (wgShow host container)) =
      listedFrom none (splitlines (wgShow host container)) :=
    listedFrom_silent hsilent none _
  rw [hread, splitlines_unlines htext, hbody]
  cases hwg0 : container.wg0 with
  | none =>
      have hshow : wgShow host container = [] := by simp only [wgShow, hwg0]
      rw [hshow, Container.listed, hwg0]
      rfl
  | some interface =>
      rw [splitlines_wgShow hwg0, Interface.showLines,
        listedFrom_silent (interface.silent_headLines host),
        listedFrom_blocks, Container.listed, hwg0]
      rfl

/-! ## Keeping books of the answers -/

/-- The address in an answer of `add-client`. -/
def grantedIp : ActionResult → Option Text
  | .results fields =>
      (((fields.lookup "output".toList).getD []).dropPrefix?
        "This is your private IP: ".toList).map
          (fun text => text.takeWhile (fun c => c ≠ '\n'))
  | .failed _ => none
  | .crashed => none

abbrev Ledger := Text → Option Text

def Ledger.note (ledger : Ledger) (result : ActionResult) : Action → Ledger
  | .initConfig _ => ledger
  | .addClient publicKey =>
      match grantedIp result with
      | some ip => Function.update ledger publicKey (some ip)
      | none => ledger
  | .disconnectClient publicKey _ =>
      if result = clientRemoved then Function.update ledger publicKey none
      else ledger
  | .disconnectServer => fun _ => none

/-- The server, and the books of somebody who sees only the answers. -/
structure Booked where
  container : Container
  ledger : Ledger

def Booked.fresh : Booked where
  container := Container.fresh
  ledger := fun _ => none

def bookedStep (host : Host) (booked : Booked) (event : Event) : Booked where
  container := step host booked.container event
  ledger :=
    match event with
    | .action action =>
        booked.ledger.note (perform host booked.container action).2 action
    | .clients _ => booked.ledger

/-- The report lists no client twice, and for each client the address of the
ledger. -/
def Booked.ReportsLedger (host : Host) (booked : Booked) : Prop :=
  ∀ dig, splitlines dig ≠ [] →
    ((clientsOf (onGetServerDataAction host dig booked.container).2).map
      Prod.fst).Nodup ∧
    ∀ publicKey,
      (clientsOf (onGetServerDataAction host dig booked.container).2).lookup
        publicKey = booked.ledger publicKey

/-- `add-client` is called where it can admit the client. -/
def Event.Admissible (host : Host) (container : Container) : Event → Prop
  | .action (.addClient publicKey) => CanAdmit host container publicKey
  | .action (.initConfig _) => True
  | .action (.disconnectClient _ _) => True
  | .action .disconnectServer => True
  | .clients _ => True

theorem reportsLedger_iff (host : Host) (booked : Booked) :
    booked.ReportsLedger host ↔
      (booked.container.listed.map Prod.fst).Nodup ∧
        ∀ publicKey, booked.container.listed.lookup publicKey =
          booked.ledger publicKey := by
  have hread : ∀ dig, splitlines dig ≠ [] →
      clientsOf (onGetServerDataAction host dig booked.container).2 =
        booked.container.listed := by
    intro dig hdig
    obtain ⟨serverPublicIp, lines, hlines⟩ := List.exists_cons_of_ne_nil hdig
    have hfirst : serverPublicIp ∈ splitlines dig := by simp [hlines]
    have hip : Unbroken serverPublicIp := unbroken_of_mem_splitlines hfirst
    simp only [onGetServerDataAction, hlines, List.head?_cons]
    exact clientsOf_serverData host hip booked.container
  constructor
  · intro hreports
    have hsome : splitlines "0".toList ≠ [] := by decide
    have hlisted := hreports "0".toList hsome
    rwa [hread _ hsome] at hlisted
  · intro hlisted dig hdig
    rw [hread dig hdig]
    exact hlisted

/-! ## The invariant -/

/-- The books agree with the leases. -/
def Ledger.Matches (ledger : Ledger) (addressOf : Key → Option Text) : Prop :=
  ∀ publicKey, ledger publicKey = (Key.ofText? publicKey).bind addressOf

/-- Nothing is configured and nothing promised, or the server serves the
leases of the ledger. -/
def Booked.Kept (booked : Booked) : Prop :=
  (booked.container.Blank ∧ ∀ publicKey, booked.ledger publicKey = none) ∨
    ∃ leases : Leases Key freeIpList, Serves booked.container leases ∧
      booked.ledger.Matches leases.addressOf

theorem grantedIp_clientAdded {ip : Text} (hip : ip ∈ freeIpList) :
    grantedIp (clientAdded ip) = some ip := by
  revert ip
  decide

theorem grantedIp_noIpsAvailable : grantedIp noIpsAvailable = none := by
  decide

theorem grantedIp_serverFailed (exception : Text) :
    grantedIp (serverFailed exception) = none := rfl

/-- Where `add-client` admits nobody it changes nothing, and says so. -/
theorem onAddClientAction_of_refused {host : Host} {container : Container}
    {publicKey : Text}
    (hnone : (∀ ip ∈ freeIpList, ip <:+: addressLines host container) ∨
      ¬ CanBeArgument publicKey) :
    (onAddClientAction host publicKey container).1 = container ∧
      grantedIp (onAddClientAction host publicKey container).2 = none := by
  rcases onAddClientAction_cases host publicKey container with
    ⟨_, heq⟩ | ⟨exception, _, heq⟩ | ⟨ip, hpop, hargument, _⟩
  · rw [heq]
    exact ⟨rfl, grantedIp_noIpsAvailable⟩
  · rw [heq]
    exact ⟨rfl, grantedIp_serverFailed exception⟩
  · rcases hnone with hheld | hnot
    · exact absurd (hheld ip (popFreeIp_mem hpop)) (popFreeIp_not_held hpop)
    · exact absurd hargument hnot

theorem allowedIpsText_of_single {allowedIps : List Cidr} {ip : Text}
    (hips : allowedIps.map Token.text = [ip]) :
    allowedIpsText allowedIps = ip :=
  List.append_cancel_left (allowedIpsLine_of_single hips)

theorem Container.Blank.listed {container : Container}
    (hblank : container.Blank) : container.listed = [] := by
  unfold Container.listed
  cases hwg0 : container.wg0 with
  | none => rfl
  | some interface =>
      simp only [Option.map_some, Option.getD_some,
        hblank.no_peers interface hwg0, List.map_nil]

theorem Container.Blank.not_saving {container : Container}
    (hblank : container.Blank) (interface : Interface) :
    ¬ container.Saving interface := by
  intro hsaving
  have hsaves := hsaving.saves
  rw [hblank.conf_eq] at hsaves
  contradiction

theorem Interface.Holds.reports {interface : Interface}
    {leases : Leases Key freeIpList} (hholds : interface.Holds leases) :
    let listed := interface.peers.map fun peer =>
      (peer.key.text, allowedIpsText peer.allowedIps)
    (listed.map Prod.fst).Nodup ∧ ∀ publicKey, listed.lookup publicKey =
      (Key.ofText? publicKey).bind leases.addressOf := by
  intro listed
  have hnodup : (listed.map Prod.fst).Nodup := by
    have hkeys : listed.map Prod.fst =
        (interface.peers.map (fun peer => peer.key)).map Key.text := by
      simp only [listed, List.map_map]
      rfl
    rw [hkeys]
    exact hholds.keys_nodup.map (fun _ _ htext => Key.ext_text htext)
  refine ⟨hnodup, ?_⟩
  intro publicKey
  cases haddress : (Key.ofText? publicKey).bind leases.addressOf with
  | some ip =>
      obtain ⟨key, hkey, hleased⟩ := Option.bind_eq_some_iff.mp haddress
      obtain ⟨peer, hpeer, rfl⟩ := hholds.listed hleased
      obtain ⟨held, hheld, hips⟩ := hholds.leased peer hpeer
      rw [hleased, Option.some.injEq] at hheld
      apply lookup_of_mem hnodup
      rw [← Key.ofText?_eq_some.mp hkey, hheld,
        ← allowedIpsText_of_single hips]
      exact List.mem_map_of_mem hpeer
  | none =>
      rw [List.lookup_eq_none_iff]
      rintro ⟨text, ips⟩ hmem
      obtain ⟨peer, hpeer, hpair⟩ := List.mem_map.mp hmem
      obtain ⟨ip, hleased, _⟩ := hholds.leased peer hpeer
      rw [bne_iff_ne]
      rintro rfl
      have htext : peer.key.text = publicKey := congrArg Prod.fst hpair
      rw [← htext, Key.ofText?_text, Option.bind_some, hleased] at haddress
      contradiction

theorem Booked.Kept.reports (host : Host) {booked : Booked}
    (hkept : booked.Kept) : booked.ReportsLedger host := by
  rw [reportsLedger_iff]
  rcases hkept with ⟨hblank, hnone⟩ | ⟨leases, hserves, hledger⟩
  · rw [hblank.listed]
    exact ⟨List.nodup_nil, fun publicKey => (hnone publicKey).symm⟩
  · obtain ⟨interface, hsaving, hholds⟩ := hserves.saving
    obtain ⟨hnodup, hlookup⟩ := hholds.reports
    simp only [Container.listed, hsaving.up, Option.map_some,
      Option.getD_some]
    exact ⟨hnodup, fun publicKey =>
      (hlookup publicKey).trans (hledger publicKey).symm⟩

/-! ## One step -/

/-- A blank server stays blank and promises nothing, unless `init-config`
succeeds and starts a server without clients. -/
theorem Booked.Kept.step_of_blank (host : Host) {booked : Booked}
    (hblank : booked.container.Blank)
    (hnone : ∀ publicKey, booked.ledger publicKey = none) {event : Event}
    (hadmissible : event.Admissible host booked.container) :
    (bookedStep host booked event).Kept := by
  cases event with
  | clients peers =>
      left
      refine ⟨?_, hnone⟩
      rcases hblank.step host (.clients peers) with hnext | ⟨interface, hnext⟩
      · exact hnext
      · have hsame : (observe peers booked.container).conf =
            booked.container.conf := by
          unfold observe
          split
          · rfl
          · split <;> rfl
        have hsaves := hnext.saves
        simp only [step, hsame, hblank.conf_eq] at hsaves
        contradiction
  | action action =>
      cases action with
      | initConfig answers =>
          rcases onInitConfigAction_cases host answers booked.container with
            ⟨hsame, _⟩ | ⟨_, _, hstarted⟩
          · left
            refine ⟨?_, hnone⟩
            simp only [bookedStep, step, perform, hsame]
            exact ⟨hblank.conf_eq, hblank.no_peers⟩
          · right
            obtain ⟨ifaceName, hsaving⟩ :=
              onInitConfigAction_started host hstarted
            have hpeers : (booked.container.wg0.getD
                ((initialConf answers.genkey ifaceName).load host)).peers =
                [] := by
              cases hwg0 : booked.container.wg0 with
              | none => rfl
              | some interface => exact hblank.no_peers interface hwg0
            refine ⟨Leases.none Key freeIpList, ⟨⟨_, hsaving, ?_⟩⟩, ?_⟩
            · constructor <;> simp [hpeers, Leases.none]
            · intro publicKey
              simp [bookedStep, Ledger.note, hnone, Leases.none]
      | addClient publicKey =>
          left
          rcases hadmissible with ⟨⟨interface, hsaving⟩, _⟩ | hrefused
          · exact absurd hsaving (hblank.not_saving interface)
          · obtain ⟨hsame, hgranted⟩ := onAddClientAction_of_refused hrefused
            simp only [bookedStep, step, perform, Ledger.note, hsame, hgranted]
            exact ⟨hblank, hnone⟩
      | disconnectClient publicKey ip =>
          left
          constructor
          · simp only [bookedStep, step, perform]
            rcases onDisconnectClientAction_cases host publicKey ip
              booked.container with
                ⟨_, hsame, _⟩ | ⟨_, _, heq⟩ | ⟨_, _, heq⟩
            · rw [hsame]
              exact hblank
            · rw [heq]
              exact hblank
            · rw [heq]
              apply restart_blank
              rw [wgSetRemove_conf]
              exact hblank.conf_eq
          · intro other
            simp only [bookedStep, Ledger.note]
            split
            · by_cases hother : other = publicKey
              · rw [hother, Function.update_self]
              · rw [Function.update_of_ne hother, hnone]
            · exact hnone other
      | disconnectServer =>
          left
          exact ⟨onDisconnectServerAction_blank booked.container, fun _ => rfl⟩

theorem Ledger.Matches.update {ledger : Ledger}
    {addressOf : Key → Option Text} (hmatches : ledger.Matches addressOf)
    (key : Key) (ip : Option Text) :
    Ledger.Matches (Function.update ledger key.text ip)
      (Function.update addressOf key ip) := by
  intro publicKey
  by_cases hsame : publicKey = key.text
  · rw [hsame, Key.ofText?_text, Option.bind_some, Function.update_self,
      Function.update_self]
  · rw [Function.update_of_ne hsame, hmatches]
    cases hfound : Key.ofText? publicKey with
    | none => rfl
    | some found =>
        have hne : found ≠ key := by
          rintro rfl
          exact hsame (Key.ofText?_eq_some.mp hfound).symm
        rw [Option.bind_some, Option.bind_some, Function.update_of_ne hne]

/-- A text that is no key is in no ledger. -/
theorem Ledger.Matches.erase_malformed {ledger : Ledger}
    {addressOf : Key → Option Text} (hmatches : ledger.Matches addressOf)
    {publicKey : Text} (hkey : Key.ofText? publicKey = none) :
    Ledger.Matches (Function.update ledger publicKey none) addressOf := by
  have hnone : ledger publicKey = none := by rw [hmatches, hkey]; rfl
  rw [← hnone, Function.update_eq_self]
  exact hmatches

theorem note_addClient (host : Host) {booked : Booked}
    {leases : Leases Key freeIpList} (hserves : Serves booked.container leases)
    (hmatches : booked.ledger.Matches leases.addressOf) {publicKey : Text}
    (hcan : CanAdmit host booked.container publicKey) :
    (bookedStep host booked (.action (.addClient publicKey))).ledger.Matches
      (leases.serve (requestOf host booked.container
        (.action (.addClient publicKey)))).addressOf := by
  obtain ⟨interface, hsaving, hholds⟩ := hserves.saving
  rcases onAddClientAction_cases host publicKey booked.container with
    ⟨hpop, heq⟩ | ⟨exception, hstart, heq⟩ | ⟨ip, hpop, hargument, heq⟩
  · simp only [bookedStep, perform, heq, hpop, Ledger.note,
      grantedIp_noIpsAvailable, requestOf, commandOf, Option.map_none,
      Leases.serve]
    exact hmatches
  · have hrequest : requestOf host booked.container
        (.action (.addClient publicKey)) = none := by
      simp only [requestOf, commandOf, Key.ofText?_of_startError hstart]
      split <;> rfl
    simp only [bookedStep, perform, heq, Ledger.note, grantedIp_serverFailed,
      hrequest, Leases.serve]
    exact hmatches
  · have hkey : isKeyText publicKey = true := by
      rcases hcan with ⟨_, hkey⟩ | hheld | hnot
      · exact hkey
      · exact absurd (hheld ip (popFreeIp_mem hpop)) (popFreeIp_not_held hpop)
      · exact absurd hargument hnot
    obtain ⟨key, rfl⟩ : ∃ key : Key, key.text = publicKey :=
      ⟨⟨publicKey, hkey⟩, rfl⟩
    have hip := popFreeIp_mem hpop
    have hcidr := (mem_freeIpList hip).2.2.2.2.2.1
    have hrequest : requestOf host booked.container
        (.action (.addClient key.text)) = some (.grant key) := by
      simp [requestOf, commandOf, hpop, Token.ofText?, hcidr,
        Command.request]
    have hfree : leases.lowestFree = some ip := by
      rw [← popFreeIp_eq_lowestFree host hsaving.up hholds, hpop]
    rw [hrequest, Leases.serve, Leases.grant_addressOf key hfree]
    simp only [bookedStep, perform, heq, Ledger.note,
      grantedIp_clientAdded hip]
    exact hmatches.update key (some ip)

theorem note_disconnectClient (host : Host) {booked : Booked}
    {leases : Leases Key freeIpList}
    (hmatches : booked.ledger.Matches leases.addressOf)
    (publicKey ip : Text) :
    (bookedStep host booked
      (.action (.disconnectClient publicKey ip))).ledger.Matches
        (leases.serve (requestOf host booked.container
          (.action (.disconnectClient publicKey ip)))).addressOf := by
  rcases onDisconnectClientAction_cases host publicKey ip booked.container with
    ⟨hcheck, _, hreport⟩ | ⟨exception, hstart, heq⟩ | ⟨hcheck, _, heq⟩
  · have hanswer : (onDisconnectClientAction host publicKey ip
        booked.container).2 ≠ clientRemoved := by
      rcases hreport with hwrong | ⟨message, hfailed⟩
      · rw [hwrong]
        exact clientDataNotCorrect_ne_clientRemoved
      · rw [hfailed]
        exact (ActionResult.output_ne_failed _ _).symm
    have hrequest : requestOf host booked.container
        (.action (.disconnectClient publicKey ip)) = none := by
      simp only [requestOf, commandOf, Option.map_none]
    simp only [bookedStep, perform, Ledger.note, hanswer, if_false, hrequest,
      Leases.serve]
    exact hmatches
  · have hanswer : serverFailed exception ≠ clientRemoved :=
      (ActionResult.output_ne_failed _ _).symm
    have hrequest : requestOf host booked.container
        (.action (.disconnectClient publicKey ip)) = none := by
      simp only [requestOf, commandOf, Key.ofText?_of_startError hstart]
      split <;> rfl
    simp only [bookedStep, perform, heq, Ledger.note, hanswer, if_false,
      hrequest, Leases.serve]
    exact hmatches
  · simp only [bookedStep, perform, heq, Ledger.note, if_true, requestOf,
      commandOf, hcheck]
    cases hkey : Key.ofText? publicKey with
    | none => exact hmatches.erase_malformed hkey
    | some key =>
        rw [← Key.ofText?_eq_some.mp hkey]
        exact hmatches.update key none

/-- The books follow the requests that the handlers carry out. -/
theorem note_eq_serve (host : Host) {booked : Booked}
    {leases : Leases Key freeIpList} (hserves : Serves booked.container leases)
    (hmatches : booked.ledger.Matches leases.addressOf) {event : Event}
    (hadmissible : event.Admissible host booked.container)
    (hstay : ¬ event.IsDisconnectServer) :
    (bookedStep host booked event).ledger.Matches
      (leases.serve (requestOf host booked.container event)).addressOf := by
  cases event with
  | clients peers => exact hmatches
  | action action =>
      cases action with
      | initConfig answers => exact hmatches
      | disconnectServer => exact absurd trivial hstay
      | addClient publicKey =>
          exact note_addClient host hserves hmatches hadmissible
      | disconnectClient publicKey ip =>
          exact note_disconnectClient host hmatches publicKey ip

theorem Booked.Kept.step (host : Host) {booked : Booked}
    (hkept : booked.Kept) {event : Event}
    (hadmissible : event.Admissible host booked.container) :
    (bookedStep host booked event).Kept := by
  rcases hkept with ⟨hblank, hnone⟩ | ⟨leases, hserves, hledger⟩
  · exact Booked.Kept.step_of_blank host hblank hnone hadmissible
  · by_cases hstay : event.IsDisconnectServer
    · left
      cases event with
      | clients peers => exact absurd hstay not_false
      | action action =>
          cases action with
          | disconnectServer =>
              exact ⟨onDisconnectServerAction_blank booked.container,
                fun _ => rfl⟩
          | initConfig answers => exact absurd hstay not_false
          | addClient publicKey => exact absurd hstay not_false
          | disconnectClient publicKey ip => exact absurd hstay not_false
    · right
      exact ⟨_, hserves.step host event hstay,
        note_eq_serve host hserves hledger hadmissible hstay⟩

/-- If the report still agrees after `add-client`, the client could be
admitted. -/
theorem Booked.Kept.admissible (host : Host) {booked : Booked}
    (hkept : booked.Kept) {event : Event}
    (hreports : (bookedStep host booked event).ReportsLedger host) :
    event.Admissible host booked.container := by
  cases event with
  | clients peers => trivial
  | action action =>
      cases action with
      | initConfig answers => trivial
      | disconnectClient publicKey ip => trivial
      | disconnectServer => trivial
      | addClient publicKey =>
          rcases onAddClientAction_cases host publicKey booked.container with
            ⟨hpop, _⟩ | ⟨exception, hstart, _⟩ | ⟨ip, hpop, _, heq⟩
          · exact Or.inr (Or.inl (held_of_popFreeIp_eq_none hpop))
          · exact Or.inr (Or.inr (not_canBeArgument_of_startError hstart))
          · left
            have hnoted : (bookedStep host booked
                (.action (.addClient publicKey))).ledger publicKey =
                  some ip := by
              simp only [bookedStep, perform, heq, Ledger.note,
                grantedIp_clientAdded (popFreeIp_mem hpop),
                Function.update_self]
            have hlisted := ((reportsLedger_iff host _).mp hreports).2
              publicKey
            rw [hnoted] at hlisted
            rcases hkept with ⟨hblank, _⟩ | ⟨leases, hserves, _⟩
            · have hnext : (bookedStep host booked
                  (.action (.addClient publicKey))).container.Blank := by
                simp only [bookedStep, WireGuard.step, perform, heq]
                apply restart_blank
                rw [wgSetAllowedIps_conf]
                exact hblank.conf_eq
              rw [hnext.listed] at hlisted
              contradiction
            · obtain ⟨interface, hsaving, _⟩ := hserves.saving
              obtain ⟨before, after, hsplit, _⟩ :=
                List.lookup_eq_some_iff.mp hlisted
              have hmem : (publicKey, ip) ∈ (bookedStep host booked
                  (.action (.addClient publicKey))).container.listed := by
                rw [hsplit]
                simp
              obtain ⟨peer, _, hpair⟩ := List.mem_map.mp hmem
              have hkey : peer.key.text = publicKey :=
                congrArg Prod.fst hpair
              exact ⟨⟨interface, hsaving⟩,
                by rw [← hkey]; exact peer.key.wellFormed⟩

/-- From a fresh container, through any run: `get-server-data` lists exactly
the clients that the answers admitted and did not remove, in every state, if
and only if every `add-client` of the run finds a server that `init-config`
started and has a well-formed key, or finds no address left. -/
theorem reportsLedger_of_run (host : Host) (events : List Event) :
    EveryState (bookedStep host) (Booked.ReportsLedger host) Booked.fresh
        events ↔
      EveryStep (bookedStep host)
        (fun booked event => event.Admissible host booked.container)
        Booked.fresh events := by
  have hinit : Booked.fresh.Kept := by
    left
    exact ⟨⟨rfl, by simp [Booked.fresh, Container.fresh]⟩, fun _ => rfl⟩
  exact everyState_iff_everyStep (fun booked hkept => hkept.reports host)
    (fun booked event hkept hadmissible => hkept.step host hadmissible)
    (fun booked event hkept hreports => hkept.admissible host hreports) hinit

example :
    clientsOf (onGetServerDataAction smallHost "203.0.113.7\n".toList
      phoneConnected).2 =
        [(phoneKey.text, "192.168.1.201/32".toList)] := by
  decide

end SecaasCharms.WireGuard
