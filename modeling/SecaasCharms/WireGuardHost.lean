import SecaasCharms.CharmActions

/-!
# The WireGuard tools of the server container

The charm drives `wg` and `wg-quick` and reads what `wg show` prints.  This
file is the part of their documented behaviour the charm relies on: the peer
table of the interface `wg0`, the configuration file, the listing, and the
commands, which change nothing when they fail.
-/

namespace SecaasCharms.WireGuard

open TextLines

/-! ## Keys and addresses -/

def isBase64 (c : Char) : Bool :=
  c.isAlphanum || c == '+' || c == '/'

def lastDigits : List Char := "AEIMQUYcgkosw048".toList

/-- The base64 text of 32 bytes: 43 digits, the last with two zero padding
bits, and one `=`. -/
def isKeyText (text : Text) : Bool :=
  match text.drop 42 with
  | [last, '='] => (text.take 42).all isBase64 && lastDigits.contains last
  | _ => false

theorem isBase64_of_mem_lastDigits {c : Char} (hc : c ∈ lastDigits) :
    isBase64 c = true := by
  revert c
  decide

structure Key where
  text : Text
  wellFormed : isKeyText text = true
  deriving DecidableEq

def Key.ofText? (text : Text) : Option Key :=
  if h : isKeyText text = true then some ⟨text, h⟩ else none

theorem Key.ofText?_eq_some {text : Text} {key : Key} :
    Key.ofText? text = some key ↔ key.text = text := by
  unfold Key.ofText?
  constructor
  · intro h
    split at h
    · simp only [Option.some.injEq] at h
      rw [← h]
    · contradiction
  · rintro rfl
    simp [key.wellFormed]

@[simp] theorem Key.ofText?_text (key : Key) :
    Key.ofText? key.text = some key :=
  Key.ofText?_eq_some.mpr rfl

theorem Key.ext_text {left right : Key} (htext : left.text = right.text) :
    left = right := by
  cases left
  cases right
  simpa using htext

theorem Key.text_eq (key : Key) :
    ∃ body : Text, key.text = body ++ ['='] ∧
      (∀ c ∈ body, isBase64 c = true) ∧ body.length = 43 := by
  have hkey := key.wellFormed
  unfold isKeyText at hkey
  split at hkey
  next last hdrop =>
    rw [Bool.and_eq_true, List.all_eq_true] at hkey
    have hlast : isBase64 last = true :=
      isBase64_of_mem_lastDigits (List.contains_iff_mem.mp hkey.2)
    have hlength : key.text.length = 44 := by
      have h := congrArg List.length hdrop
      rw [List.length_drop] at h
      simp only [List.length_cons, List.length_nil] at h
      omega
    refine ⟨key.text.take 42 ++ [last], ?_, ?_, ?_⟩
    · calc
        key.text = key.text.take 42 ++ key.text.drop 42 :=
          (List.take_append_drop 42 key.text).symm
        _ = key.text.take 42 ++ [last] ++ ['='] := by rw [hdrop]; simp
    · intro c hc
      rw [List.mem_append, List.mem_singleton] at hc
      rcases hc with hc | rfl
      · exact hkey.1 c hc
      · exact hlast
    · simp [hlength]
  next => contradiction

theorem Key.length_text (key : Key) : key.text.length = 44 := by
  obtain ⟨body, hbody, _, hlength⟩ := key.text_eq
  rw [hbody, List.length_append, hlength]
  rfl

theorem Key.mem_text {key : Key} {c : Char} (hc : c ∈ key.text) :
    isBase64 c = true ∨ c = '=' := by
  obtain ⟨body, hbody, hdigits, _⟩ := key.text_eq
  rw [hbody, List.mem_append, List.mem_singleton] at hc
  exact hc.imp (hdigits c) id

theorem Key.unbroken (key : Key) : Unbroken key.text := by
  intro c hc
  rcases Key.mem_text hc with hdigit | rfl
  · exact isLineBoundary_eq_false_of (by decide) hdigit
  · decide

theorem Key.dot_not_mem (key : Key) : '.' ∉ key.text := by
  intro hmem
  rcases Key.mem_text hmem with h | h <;> revert h <;> decide

theorem Key.eq_of_infix_append {key other : Key} {label : Text}
    (hlabel : '=' ∉ label) (hocc : key.text <:+: label ++ other.text) :
    key = other := by
  obtain ⟨body, hbody, _, _⟩ := key.text_eq
  obtain ⟨rest, hrest, hdigits, _⟩ := other.text_eq
  have hnot : '=' ∉ label ++ rest := by
    rw [List.mem_append, not_or]
    refine ⟨hlabel, fun hmem => ?_⟩
    have h := hdigits '=' hmem
    revert h
    decide
  obtain ⟨before, after, heq⟩ := hocc
  have hafter : after = [] := by
    rw [hbody, hrest, ← List.append_assoc label] at heq
    rcases List.eq_nil_or_concat after with rfl | ⟨front, last, rfl⟩
    · rfl
    · rw [← List.append_assoc] at heq
      rw [List.concat_eq_append, ← List.append_assoc] at heq
      have hinit := (List.append_inj' heq rfl).1
      exact absurd (by rw [← hinit]; simp) hnot
  subst after
  rw [List.append_nil] at heq
  have hsame := List.append_inj' heq
    (by rw [key.length_text, other.length_text])
  exact Key.ext_text hsame.2

/-- A key is never what keeps a command from starting. -/
theorem Key.canBeArgument (key : Key) : CanBeArgument key.text := by
  constructor
  · intro hmem
    rcases Key.mem_text hmem with h | h <;> revert h <;> decide
  · have hsize := sum_utf8Size_le key.text
    rw [key.length_text] at hsize
    omega

@[simp] theorem Key.startError_text (key : Key) (program : Text) :
    startError program key.text = none :=
  (startError_eq_none_iff program key.text).mpr key.canBeArgument

theorem Key.ofText?_of_startError {program argument exception : Text}
    (hraised : startError program argument = some exception) :
    Key.ofText? argument = none := by
  cases hkey : Key.ofText? argument with
  | none => rfl
  | some key =>
      rw [← Key.ofText?_eq_some.mp hkey, key.startError_text] at hraised
      contradiction

def isCidrChar (c : Char) : Bool :=
  c.isAlphanum || c == '.' || c == ':' || c == '/'

abbrev Cidr := Token isCidrChar

/-- What `wg` prints of endpoints and times: one line, no `/`, no `=`. -/
def isPlain (c : Char) : Bool :=
  !(c == '/' || c == '=' || isLineBoundary c)

abbrev Printed := Token isPlain

theorem isPlain_of_isAlphanum {c : Char} (hc : c.isAlphanum = true) :
    isPlain c = true := by
  by_contra hplain
  simp only [isPlain, Bool.not_eq_true', Bool.not_eq_false,
    Bool.or_eq_true, beq_iff_eq] at hplain
  rcases hplain with (rfl | rfl) | hboundary
  · revert hc; decide
  · revert hc; decide
  · rw [isLineBoundary_eq_false_of (by decide) hc] at hboundary
    contradiction

/-! ## Traffic -/

inductive ByteUnit where
  | B
  | KiB
  | MiB
  | GiB
  | TiB
  deriving DecidableEq

def ByteUnit.text : ByteUnit → Text
  | .B => "B".toList
  | .KiB => "KiB".toList
  | .MiB => "MiB".toList
  | .GiB => "GiB".toList
  | .TiB => "TiB".toList

structure Decimal where
  whole : ℕ
  fraction : List (Fin 10)
  deriving DecidableEq

def Decimal.text (number : Decimal) : Text :=
  digits number.whole ++
    if number.fraction = [] then []
    else '.' :: number.fraction.map (fun digit => Nat.digitChar digit.val)

structure Amount where
  number : Decimal
  unit : ByteUnit
  deriving DecidableEq

def Amount.text (amount : Amount) : Text :=
  amount.number.text ++ ' ' :: amount.unit.text

structure Transfer where
  received : Amount
  sent : Amount
  deriving DecidableEq

def Transfer.text (transfer : Transfer) : Text :=
  transfer.received.text ++ " received, ".toList ++
    transfer.sent.text ++ " sent".toList

theorem isPlain_digitChar (digit : Fin 10) :
    isPlain (Nat.digitChar digit.val) = true := by
  revert digit
  decide

theorem Decimal.isPlain_of_mem_text {number : Decimal} {c : Char}
    (hc : c ∈ number.text) : isPlain c = true := by
  unfold Decimal.text at hc
  rw [List.mem_append] at hc
  rcases hc with hwhole | hfraction
  · have hdigit := isDigit_of_mem_digits hwhole
    exact isPlain_of_isAlphanum (by simp [Char.isAlphanum, hdigit])
  · split at hfraction
    · simp at hfraction
    · rw [List.mem_cons, List.mem_map] at hfraction
      rcases hfraction with rfl | ⟨digit, _, rfl⟩
      · decide
      · exact isPlain_digitChar digit

theorem Amount.isPlain_of_mem_text {amount : Amount} {c : Char}
    (hc : c ∈ amount.text) : isPlain c = true := by
  unfold Amount.text at hc
  rw [List.mem_append, List.mem_cons] at hc
  rcases hc with hnumber | rfl | hunit
  · exact Decimal.isPlain_of_mem_text hnumber
  · decide
  · cases hcase : amount.unit <;> rw [hcase] at hunit <;>
      revert hunit c <;> decide

theorem Transfer.isPlain_of_mem_text {transfer : Transfer} {c : Char}
    (hc : c ∈ transfer.text) : isPlain c = true := by
  unfold Transfer.text at hc
  simp only [List.mem_append] at hc
  rcases hc with ((hreceived | hlabel) | hsent) | hlabel
  · exact Amount.isPlain_of_mem_text hreceived
  · revert hlabel c
    decide
  · exact Amount.isPlain_of_mem_text hsent
  · revert hlabel c
    decide

/-! ## The peer table and the configuration file -/

structure PeerConfig where
  key : Key
  presharedKey : Option Key
  allowedIps : List Cidr
  endpoint : Option Printed
  keepalive : Option ℕ
  deriving DecidableEq

structure Peer extends PeerConfig where
  handshake : Option Printed
  transfer : Option Transfer
  deriving DecidableEq

structure Interface where
  privateKey : Option Key
  address : Option Text
  listenPort : ℕ
  peers : List Peer

/-- What `wg-quick` reads from `wg0.conf`. -/
structure Conf where
  address : Option Text
  privateKey : Option Key
  listenPort : Option ℕ
  postUp : Option Text
  postDown : Option Text
  saveConfig : Bool
  peers : List PeerConfig

def Conf.empty : Conf where
  address := none
  privateKey := none
  listenPort := none
  postUp := none
  postDown := none
  saveConfig := false
  peers := []

/-- The files under `/etc/wireguard` and the interface `wg0`, if it exists. -/
structure Container where
  conf : Conf
  privateKeyFile : Option Key
  publicKeyFile : Option Key
  wg0 : Option Interface

/-- The container as the image ships it: `touch /etc/wireguard/wg0.conf`. -/
def Container.fresh : Container where
  conf := Conf.empty
  privateKeyFile := none
  publicKeyFile := none
  wg0 := none

/-- `wg pubkey`, and the port the kernel picks when none is configured. -/
structure Host where
  pubkey : Key → Key
  freePort : ℕ

/-! ## `wg show` -/

def timeUnits : List (ℕ × Text) :=
  [(31536000, "year".toList), (86400, "day".toList), (3600, "hour".toList),
    (60, "minute".toList), (1, "second".toList)]

def timePart (name : Text) (count : ℕ) : List Text :=
  if count = 0 then []
  else if count = 1 then [digits count ++ ' ' :: name]
  else [digits count ++ ' ' :: name ++ "s".toList]

/-- The parts of a time in seconds that are not zero. -/
def timeParts : List (ℕ × Text) → ℕ → List Text
  | [], _ => []
  | (size, name) :: units, seconds =>
      timePart name (seconds / size) ++ timeParts units (seconds % size)

def keepaliveLine (seconds : ℕ) : Text :=
  "  persistent keepalive: every ".toList ++
    ", ".toList.intercalate (timeParts timeUnits seconds)

def allowedIpsText (allowedIps : List Cidr) : Text :=
  if allowedIps = [] then "(none)".toList
  else ", ".toList.intercalate (allowedIps.map Token.text)

def Peer.detailLines (peer : Peer) : List Text :=
  (peer.presharedKey.map fun _ =>
      "  preshared key: (hidden)".toList).toList ++
    (peer.endpoint.map fun endpoint =>
      "  endpoint: ".toList ++ endpoint.text).toList ++
    ["  allowed ips: ".toList ++ allowedIpsText peer.allowedIps] ++
    (peer.handshake.map fun handshake =>
      "  latest handshake: ".toList ++ handshake.text).toList ++
    (peer.transfer.map fun transfer =>
      "  transfer: ".toList ++ transfer.text).toList ++
    (peer.keepalive.map keepaliveLine).toList

def Peer.showLines (peer : Peer) : List Text :=
  ("peer: ".toList ++ peer.key.text) :: peer.detailLines

def Interface.headLines (host : Host) (interface : Interface) : List Text :=
  ["interface: wg0".toList] ++
    (interface.privateKey.map fun key =>
      "  public key: ".toList ++ (host.pubkey key).text).toList ++
    (interface.privateKey.map fun _ =>
      "  private key: (hidden)".toList).toList ++
    ["  listening port: ".toList ++ digits interface.listenPort]

def Interface.showLines (host : Host) (interface : Interface) : List Text :=
  interface.headLines host ++
    interface.peers.flatMap (fun peer => [] :: peer.showLines)

def wgShow (host : Host) (container : Container) : Text :=
  match container.wg0 with
  | none => []
  | some interface => unlines (interface.showLines host)

/-! ## Commands -/

/-- The kernel lets an address be routed to one peer only: giving it to one
takes it from the others. -/
def Peer.withoutIp (ip : Cidr) (peer : Peer) : Peer :=
  { peer with allowedIps := peer.allowedIps.filter (fun other => other ≠ ip) }

def Interface.setPeer (key : Key) (ip : Cidr) (seconds : ℕ)
    (interface : Interface) : Interface :=
  { interface with
    peers :=
      interface.peers.map (fun peer =>
        if peer.key = key then
          { peer with allowedIps := [ip], keepalive := some seconds }
        else peer.withoutIp ip) ++
      if interface.peers.any (fun peer => peer.key = key) then []
      else [⟨⟨key, none, [ip], none, some seconds⟩, none, none⟩] }

def Interface.removePeer (key : Key) (interface : Interface) : Interface :=
  { interface with
    peers := interface.peers.filter (fun peer => peer.key ≠ key) }

/-- `wg set wg0 peer KEY allowed-ips IP persistent-keepalive SECONDS`. -/
def wgSetAllowedIps (keyText ipText : Text) (seconds : ℕ)
    (container : Container) : Container :=
  match container.wg0, Key.ofText? keyText, Token.ofText? isCidrChar ipText with
  | some interface, some key, some ip =>
      { container with wg0 := some (interface.setPeer key ip seconds) }
  | _, _, _ => container

/-- `wg set wg0 peer KEY remove`. -/
def wgSetRemove (keyText : Text) (container : Container) : Container :=
  match container.wg0, Key.ofText? keyText with
  | some interface, some key =>
      { container with wg0 := some (interface.removePeer key) }
  | _, _ => container

def Interface.save (interface : Interface) (conf : Conf) : Conf :=
  { conf with
    address := interface.address
    privateKey := interface.privateKey
    listenPort := some interface.listenPort
    peers := interface.peers.map Peer.toPeerConfig }

def Conf.load (host : Host) (conf : Conf) : Interface where
  privateKey := conf.privateKey
  address := conf.address
  listenPort := conf.listenPort.getD host.freePort
  peers := conf.peers.map (fun config => ⟨config, none, none⟩)

/-- `wg-quick down wg0` saves the interface before it removes it, if the file
asks for that. -/
def wgQuickDown (container : Container) : Container :=
  match container.wg0 with
  | none => container
  | some interface =>
      { container with
        conf :=
          if container.conf.saveConfig then interface.save container.conf
          else container.conf
        wg0 := none }

/-- `wg-quick up wg0` fails when `wg0` exists. -/
def wgQuickUp (host : Host) (container : Container) : Container :=
  match container.wg0 with
  | none => { container with wg0 := some (container.conf.load host) }
  | some _ => container

end SecaasCharms.WireGuard
