import SecaasCharms.WireGuardHost
import SecaasCharms.StepRuns

/-!
# The WireGuard charm

The action handlers of `wireguard/src/charm.py`, each run in a fresh charm
process: the constructor rebuilds `free_IP_list` and nothing else survives
from one action to the next but the container.  Exit codes are ignored where
the source ignores them.
-/

namespace SecaasCharms.WireGuard

open TextLines

/-- `wgServices.__init__`. -/
def freeIpList : List Text :=
  (List.range' 1 10).map fun i =>
    "192.168.1.".toList ++ digits (200 + i) ++ "/32".toList

/-! ## `init-config` -/

/-- What the host answers during one `init-config`: a new key, the directory
`/sys/class/net` with each `operstate` (`none` when `ls` fails), and the
output of `dig`. -/
structure InitAnswers where
  genkey : Key
  sysClassNet : Option (List (Text × Text))
  dig : Text

def interfacePrefixes : List Text :=
  ["enp".toList, "eno".toList, "ens".toList, "eth".toList, "wlan".toList,
    "wlp".toList]

/-- `checkInterface`; `none` is the exception of a failing `ls`. -/
def checkInterface (interfaceList : List Text)
    (sysClassNet : Option (List (Text × Text))) : Option Text :=
  sysClassNet.map fun table =>
    let output := (unlines (table.map Prod.fst)).splitOn '\n'
    let operstate := fun interface =>
      ((((table.lookup interface).getD []).splitOn '\n').head?).getD []
    let found := output.find? fun interface =>
      ("en".toList <:+: interface ∨ "wl".toList <:+: interface ∨
          "eth".toList <:+: interface) ∧
        interface.length < 8 ∧
        interfaceList.any (fun current =>
          current <:+: interface ∧ operstate interface = "up".toList)
    found.getD "-1".toList

/-- `generate_keys`. -/
def generateKeys (host : Host) (genkey : Key) (container : Container) :
    Container :=
  { container with
    privateKeyFile := some genkey
    publicKeyFile := some (host.pubkey genkey) }

/-- The file that `init-config` writes. -/
def initialConf (privateKey : Key) (ifaceName : Text) : Conf where
  address := some "192.168.1.200".toList
  privateKey := some privateKey
  listenPort := some 41194
  postUp := some ("iptables -A FORWARD -i %i -j ACCEPT; ".toList ++
    "iptables -A FORWARD -o %i -j ACCEPT; ".toList ++
    "iptables -t nat -A POSTROUTING -o ".toList ++ ifaceName ++
    " -j MASQUERADE ".toList)
  postDown := some ("iptables -D FORWARD -i %i -j ACCEPT; ".toList ++
    "iptables -D FORWARD -o %i -j ACCEPT; ".toList ++
    "iptables -t nat -D POSTROUTING -o ".toList ++ ifaceName ++
    " -j MASQUERADE ".toList)
  saveConfig := true
  peers := []

def initFailed (exception : Text) : ActionResult :=
  .failed ("Server initiation failed due an unespected exception named: ".toList
    ++ exception)

def onInitConfigAction (host : Host) (answers : InitAnswers)
    (container : Container) : Container × ActionResult :=
  let container := generateKeys host answers.genkey container
  match checkInterface interfacePrefixes answers.sysClassNet with
  | none => (container, .crashed)
  | some ifaceName =>
      match container.privateKeyFile, (splitlines answers.dig).head? with
      | some serverPrivKey, some _ =>
          let container := wgQuickUp host
            { container with conf := initialConf serverPrivKey ifaceName }
          let wgOutput := unlines (splitlines (wgShow host container))
          (container,
            .output ("Server started successfully:\n".toList ++ wgOutput))
      | none, _ =>
          (container, initFailed ("[Errno 2] No such file or directory: ".toList
            ++ "'/etc/wireguard/private_key.key'".toList))
      | _, none => (container, initFailed "list index out of range".toList)

/-! ## `add-client` -/

/-- `192.168.1.*` as `grep` reads it: a dot is any character. -/
def addressPattern : List (Option Char) :=
  [some '1', some '9', some '2', none, some '1', some '6', some '8', none,
    some '1']

/-- The output of `wg show | grep -o 192.168.1.*`. -/
def addressLines (host : Host) (container : Container) : Text :=
  grepOnly addressPattern (wgShow host container)

/-- The loop `while no_ip`: pop addresses until one is not in the output. -/
def popFreeIp (lines : Text) : List Text → Option Text
  | [] => none
  | clientIp :: freeIps =>
      if clientIp <:+: lines then popFreeIp lines freeIps else some clientIp

def restart (host : Host) (container : Container) : Container :=
  wgQuickUp host (wgQuickDown container)

def clientAdded (clientIp : Text) : ActionResult :=
  .output ("This is your private IP: ".toList ++ clientIp ++
    "\nClient added\n".toList)

def noIpsAvailable : ActionResult := .output "No IPs available".toList

def serverFailed (exception : Text) : ActionResult :=
  .failed ("Server failed due an unespected exception named: ".toList ++
    exception)

/-- The commands' exit codes are ignored, but a `wg set` that cannot be
started with the key raises, and the handler ends there. -/
def onAddClientAction (host : Host) (clientKey : Text)
    (container : Container) : Container × ActionResult :=
  match popFreeIp (addressLines host container) freeIpList with
  | some clientIp =>
      match startError "wg".toList clientKey with
      | some exception => (container, serverFailed exception)
      | none =>
          (restart host (wgSetAllowedIps clientKey clientIp 25 container),
            clientAdded clientIp)
  | none => (container, noIpsAvailable)

/-! ## `disconnect-client` -/

/-- The loop over `lines`.  After a match `continue` skips `index += 1`, so
from then on the index lags behind the line; `none` is an `IndexError`. -/
def checkClientLoop (clientKey clientIp : Text) (lines : List Text) :
    List Text → ℕ → Bool → Option Bool
  | [], _, check => some check
  | line :: rest, index, check =>
      if clientKey <:+: line then
        match lines[index + 2]? with
        | none => none
        | some below =>
            if clientIp <:+: below then
              checkClientLoop clientKey clientIp lines rest index true
            else
              checkClientLoop clientKey clientIp lines rest (index + 1) check
      else checkClientLoop clientKey clientIp lines rest (index + 1) check

def checkClient (host : Host) (clientKey clientIp : Text)
    (container : Container) : Option Bool :=
  let lines := splitlines (wgShow host container)
  checkClientLoop clientKey clientIp lines lines 0 false

def clientRemoved : ActionResult := .output "Client removed\n".toList

def clientDataNotCorrect : ActionResult :=
  .output "Client data is not correct. Please, check the params.\n".toList

def onDisconnectClientAction (host : Host) (clientKey clientIp : Text)
    (container : Container) : Container × ActionResult :=
  match checkClient host clientKey clientIp container with
  | none => (container, serverFailed "list index out of range".toList)
  | some true =>
      match startError "wg".toList clientKey with
      | some exception => (container, serverFailed exception)
      | none => (restart host (wgSetRemove clientKey container), clientRemoved)
  | some false => (container, clientDataNotCorrect)

/-! ## `disconnect-server` -/

def onDisconnectServerAction (container : Container) :
    Container × ActionResult :=
  ({ wgQuickDown container with conf := Conf.empty },
    .output "Server disconnected.".toList)

/-! ## Runs -/

inductive Action where
  | initConfig (answers : InitAnswers)
  | addClient (publicKey : Text)
  | disconnectClient (publicKey ip : Text)
  | disconnectServer

def perform (host : Host) (container : Container) :
    Action → Container × ActionResult
  | .initConfig answers => onInitConfigAction host answers container
  | .addClient publicKey => onAddClientAction host publicKey container
  | .disconnectClient publicKey ip =>
      onDisconnectClientAction host publicKey ip container
  | .disconnectServer => onDisconnectServerAction container

/-- What no client can change from outside. -/
def Peer.client (peer : Peer) : Key × List Cidr × Option ℕ × Option Key :=
  (peer.key, peer.allowedIps, peer.keepalive, peer.presharedKey)

/-- Between two actions clients connect, roam, exchange data and fall silent.
`wg show` then lists the same clients, with other endpoints, handshakes and
transfers, in another order. -/
inductive Event where
  | action (action : Action)
  | clients (peers : List Peer)

def observe (peers : List Peer) (container : Container) : Container :=
  match container.wg0 with
  | none => container
  | some interface =>
      if (interface.peers.map Peer.client).Perm (peers.map Peer.client) then
        { container with wg0 := some { interface with peers := peers } }
      else container

def step (host : Host) (container : Container) : Event → Container
  | .action action => (perform host container action).1
  | .clients peers => observe peers container

/-- The event is an action with exactly this key as its parameter. -/
def Event.Names (keyText : Text) : Event → Prop
  | .action (.addClient publicKey) => publicKey = keyText
  | .action (.disconnectClient publicKey _) => publicKey = keyText
  | .action (.initConfig _) => False
  | .action .disconnectServer => False
  | .clients _ => False

def Event.IsDisconnectServer : Event → Prop
  | .action .disconnectServer => True
  | .action (.initConfig _) => False
  | .action (.addClient _) => False
  | .action (.disconnectClient _ _) => False
  | .clients _ => False

/-! ## A small deployment -/

def serverKey : Key :=
  ⟨List.replicate 42 'S' ++ "A=".toList, by decide⟩

def phoneKey : Key :=
  ⟨List.replicate 42 'p' ++ "A=".toList, by decide⟩

def laptopKey : Key :=
  ⟨List.replicate 42 'l' ++ "A=".toList, by decide⟩

def smallHost : Host where
  pubkey := id
  freePort := 51820

def initAnswers : InitAnswers where
  genkey := serverKey
  sysClassNet := some [("eth0".toList, "up\n".toList), ("lo".toList, "unknown\n".toList)]
  dig := "203.0.113.7\n".toList

end SecaasCharms.WireGuard
