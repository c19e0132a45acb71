import SecaasCharms.WireGuardTraffic

/-!
# Whether the health check adds up all traffic

The loop reads the words of the `transfer:` lines with a stride of seven.  The
totals are right exactly when no bytes are printed in the unit `B` and no
other line puts words between those of the transfers.
-/

namespace SecaasCharms.WireGuard

open TextLines
open TextWords

/-! ## The traffic of the peers -/

def ByteUnit.size : ByteUnit → ℚ
  | .B => 1
  | .KiB => 2 ^ 10
  | .MiB => 2 ^ 20
  | .GiB => 2 ^ 30
  | .TiB => 2 ^ 40

def Decimal.value (number : Decimal) : ℚ :=
  number.whole +
    (number.fraction.foldl (fun n digit => 10 * n + digit.val) 0 : ℕ) /
      10 ^ number.fraction.length

def Amount.bytes (amount : Amount) : ℚ :=
  amount.number.value * amount.unit.size

def Interface.transfers (interface : Interface) : List Transfer :=
  interface.peers.filterMap Peer.transfer

/-- The bytes received from and sent to all peers. -/
def Interface.traffic (interface : Interface) : ℚ × ℚ :=
  ((interface.transfers.map (fun transfer => transfer.received.bytes)).sum,
    (interface.transfers.map (fun transfer => transfer.sent.bytes)).sum)

theorem Decimal.value_nonneg (number : Decimal) : 0 ≤ number.value := by
  unfold Decimal.value
  positivity

theorem Amount.bytes_nonneg (amount : Amount) : 0 ≤ amount.bytes := by
  have hsize : 0 ≤ amount.unit.size := by
    cases amount.unit with
    | B => norm_num [ByteUnit.size]
    | KiB => norm_num [ByteUnit.size]
    | MiB => norm_num [ByteUnit.size]
    | GiB => norm_num [ByteUnit.size]
    | TiB => norm_num [ByteUnit.size]
  exact mul_nonneg amount.number.value_nonneg hsize

theorem Interface.traffic_nonneg (interface : Interface) :
    0 ≤ interface.traffic.1 ∧ 0 ≤ interface.traffic.2 := by
  constructor
  · apply List.sum_nonneg
    intro bytes hbytes
    rcases List.mem_map.mp hbytes with ⟨transfer, _, hshown⟩
    rw [← hshown]
    exact transfer.received.bytes_nonneg
  · apply List.sum_nonneg
    intro bytes hbytes
    rcases List.mem_map.mp hbytes with ⟨transfer, _, hshown⟩
    rw [← hshown]
    exact transfer.sent.bytes_nonneg

/-! ## One amount -/

theorem ofDigitChars_fraction (fraction : List (Fin 10)) (initial : ℕ) :
    Nat.ofDigitChars 10
        (fraction.map (fun digit => Nat.digitChar digit.val)) initial =
      fraction.foldl (fun n digit => 10 * n + digit.val) initial := by
  induction fraction generalizing initial with
  | nil => rfl
  | cons digit fraction ih =>
      rw [List.map_cons, Nat.ofDigitChars_cons_digitChar_of_lt_ten digit.isLt,
        ih, List.foldl_cons]

theorem isDigit_of_mem_fraction {fraction : List (Fin 10)} {c : Char}
    (hc : c ∈ fraction.map (fun digit => Nat.digitChar digit.val)) :
    c.isDigit = true := by
  rcases List.mem_map.mp hc with ⟨digit, _, hshown⟩
  rw [← hshown, Nat.isDigit_digitChar]
  exact decide_eq_true digit.isLt

theorem decimal?_text (number : Decimal) :
    decimal? number.text = some number.value := by
  have htail : (if number.fraction = [] then [] else '.' ::
      number.fraction.map (fun digit => Nat.digitChar digit.val)) =
      if number.fraction.map (fun digit => Nat.digitChar digit.val) = [] then []
      else '.' ::
        number.fraction.map (fun digit => Nat.digitChar digit.val) := by
    simp only [List.map_eq_nil_iff]
  have hwhole : ∀ c ∈ digits number.whole, c.isDigit = true :=
    fun c hc => isDigit_of_mem_digits hc
  have hvalue := decimal?_of_digits Nat.toDigits_ne_nil hwhole
    (fun c hc => isDigit_of_mem_fraction hc) htail
  rw [Nat.ofDigitChars_ten_toDigits, ofDigitChars_fraction, List.length_map]
    at hvalue
  exact hvalue

theorem float_text (printable : Char → Bool) (number : Decimal) :
    float printable number.text = .ok number.value := by
  rw [float, decimal?_text]

theorem toBytes_text (number : ℚ) (unit : ByteUnit) :
    toBytes number unit.text =
      if unit = .B then 0 else number * unit.size := by
  cases unit with
  | B => rfl
  | KiB => rfl
  | MiB => rfl
  | GiB => rfl
  | TiB => rfl

/-- What the loop adds for an amount. -/
def Amount.counted (amount : Amount) : ℚ :=
  toBytes amount.number.value amount.unit.text

theorem Amount.counted_le (amount : Amount) :
    amount.counted ≤ amount.bytes := by
  have hvalue := amount.number.value_nonneg
  rw [Amount.counted, Amount.bytes, toBytes_text]
  split
  · rename_i hunit
    rw [hunit, ByteUnit.size, mul_one]
    exact hvalue
  · exact le_rfl

theorem Amount.counted_eq_iff (amount : Amount) :
    amount.counted = amount.bytes ↔
      (amount.unit = .B → amount.number.value = 0) := by
  rw [Amount.counted, Amount.bytes, toBytes_text]
  split
  · rename_i hunit
    rw [hunit, ByteUnit.size, mul_one]
    constructor
    · intro hzero _
      exact hzero.symm
    · intro hzero
      exact (hzero rfl).symm
  · rename_i hunit
    simp [hunit]

/-! ## The words of a line -/

def transferLine (transfer : Transfer) : Text :=
  "  transfer: ".toList ++ transfer.text

theorem isWord_text (number : Decimal) : IsWord number.text := by
  have hspaces : ∀ d ∈ whitespace, ¬ (d = '.' ∨ d.isDigit = true) := by
    decide
  apply isWord_of_forall hspaces
  · intro hempty
    exact Nat.toDigits_ne_nil (List.append_eq_nil_iff.mp hempty).1
  · intro c hc
    cases List.mem_append.mp hc with
    | inl hwhole => exact Or.inr (isDigit_of_mem_digits hwhole)
    | inr hfraction =>
        split at hfraction
        · exact absurd hfraction List.not_mem_nil
        · cases List.mem_cons.mp hfraction with
          | inl hdot => exact Or.inl hdot
          | inr hmem => exact Or.inr (isDigit_of_mem_fraction hmem)

theorem isWord_unit (unit : ByteUnit) : IsWord unit.text := by
  cases unit with
  | B => decide
  | KiB => decide
  | MiB => decide
  | GiB => decide
  | TiB => decide

/-- The seven words of a transfer. -/
def Transfer.words (transfer : Transfer) : List Text :=
  ["transfer:".toList, transfer.received.number.text,
    transfer.received.unit.text, "received,".toList,
    transfer.sent.number.text, transfer.sent.unit.text, "sent".toList]

theorem words_transferLine (transfer : Transfer) :
    words (transferLine transfer) = transfer.words := by
  have hparts : transferLine transfer =
      ' ' :: ' ' :: ("transfer:".toList ++ ' ' ::
        (transfer.received.number.text ++ ' ' ::
          (transfer.received.unit.text ++ ' ' :: ("received,".toList ++ ' ' ::
            (transfer.sent.number.text ++ ' ' ::
              (transfer.sent.unit.text ++ ' ' :: "sent".toList)))))) := by
    have hlabel : "  transfer: ".toList =
        ' ' :: ' ' :: ("transfer:".toList ++ [' ']) := by decide
    have hreceived : " received, ".toList =
        ' ' :: ("received,".toList ++ [' ']) := by decide
    have hassoc : ∀ a b c d e f g : Text,
        (' ' :: ' ' :: (a ++ [' '])) ++ (b ++ ' ' :: c ++
          ' ' :: (d ++ [' ']) ++ (e ++ ' ' :: f) ++ ' ' :: g) =
        ' ' :: ' ' :: (a ++ ' ' :: (b ++ ' ' :: (c ++ ' ' :: (d ++ ' ' ::
          (e ++ ' ' :: (f ++ ' ' :: g)))))) := by
      simp
    unfold transferLine Transfer.text Amount.text
    rewrite [hlabel, hreceived]
    exact hassoc _ _ _ _ _ _ _
  have hspace : isWhitespace ' ' = true := by decide
  rw [hparts, words_cons hspace, words_cons hspace,
    words_word_append (by decide) hspace,
    words_word_append (isWord_text _) hspace,
    words_word_append (isWord_unit _) hspace,
    words_word_append (by decide) hspace,
    words_word_append (isWord_text _) hspace,
    words_word_append (isWord_unit _) hspace,
    words_of_isWord (by decide)]
  rfl

/-! ## The loop -/

theorem transferAt_append (printable : Char → Bool) {chunk : List Text}
    (hchunk : chunk.length = 7) (rest : List Text) (i : ℕ) :
    transferAt printable (chunk ++ rest) (i + 1) =
      transferAt printable rest i := by
  have hskip : ∀ k, (chunk ++ rest).getD (k + 7 * (i + 1)) [] =
      rest.getD (k + 7 * i) [] := by
    intro k
    have hindex : k + 7 * (i + 1) - chunk.length = k + 7 * i := by omega
    rw [List.getD_eq_getElem?_getD, List.getD_eq_getElem?_getD,
      List.getElem?_append_right (by omega), hindex]
  simp only [transferAt, hskip]

/-- The first seven words are read by the first iteration. -/
theorem accumulateFrom_append (printable : Char → Bool) (totals : ℚ × ℚ)
    {chunk : List Text} (hchunk : chunk.length = 7) (rest : List Text) :
    accumulateFrom printable totals (chunk ++ rest) =
      (do
        let bytes ← transferAt printable (chunk ++ rest) 0
        accumulateFrom printable (totals.1 + bytes.1, totals.2 + bytes.2)
          rest) := by
  have hcount : (chunk ++ rest).length / 7 = rest.length / 7 + 1 := by
    rw [List.length_append]
    omega
  unfold accumulateFrom
  rw [hcount, List.range_succ_eq_map, List.foldlM_cons]
  simp only [List.foldlM_map, transferAt_append printable hchunk, bind_assoc,
    pure_bind]

theorem accumulateFrom_of_few (printable : Char → Bool) (totals : ℚ × ℚ)
    {listLines : List Text} (hfew : listLines.length < 7) :
    accumulateFrom printable totals listLines = .ok totals := by
  have hcount : listLines.length / 7 = 0 := by omega
  unfold accumulateFrom
  rw [hcount]
  rfl

/-- The second word of an iteration has to be a numeral. -/
theorem accumulateFrom_of_no_numeral (printable : Char → Bool)
    (totals : ℚ × ℚ) {first second : Text} {rest : List Text}
    (hmany : 7 ≤ (first :: second :: rest).length)
    (hsecond : decimal? second = none) (output : ℚ × ℚ) :
    accumulateFrom printable totals (first :: second :: rest) ≠
      .ok output := by
  have hcount : ∃ count, (first :: second :: rest).length / 7 = count + 1 :=
    ⟨(first :: second :: rest).length / 7 - 1, by omega⟩
  rcases hcount with ⟨count, hcount⟩
  have hfails : ∃ exception, transferAt printable
      (first :: second :: rest) 0 = .error exception := by
    refine ⟨"could not convert string to float: ".toList ++
      Json.reprText printable second, ?_⟩
    unfold transferAt float
    rw [show (first :: second :: rest).getD (1 + 7 * 0) [] = second from rfl,
      hsecond]
    rfl
  rcases hfails with ⟨exception, hfails⟩
  unfold accumulateFrom
  rw [hcount, List.range_succ_eq_map, List.foldlM_cons, hfails]
  intro houtput
  contradiction

theorem accumulateFrom_transfers (printable : Char → Bool)
    (transfers : List Transfer) (totals : ℚ × ℚ) (rest : List Text) :
    accumulateFrom printable totals
        (transfers.flatMap Transfer.words ++ rest) =
      accumulateFrom printable
        (totals.1 + (transfers.map (fun transfer =>
            transfer.received.counted)).sum,
          totals.2 + (transfers.map (fun transfer =>
            transfer.sent.counted)).sum) rest := by
  induction transfers generalizing totals with
  | nil => simp
  | cons transfer transfers ih =>
      have hfirst : ∀ later, transferAt printable
          (transfer.words ++ later) 0 =
          .ok (transfer.received.counted, transfer.sent.counted) := by
        intro later
        change (do
          let received ← float printable transfer.received.number.text
          let sent ← float printable transfer.sent.number.text
          return (toBytes received transfer.received.unit.text,
            toBytes sent transfer.sent.unit.text)) = _
        rw [float_text, float_text]
        rfl
      rw [List.flatMap_cons, List.append_assoc,
        accumulateFrom_append printable totals rfl, hfirst]
      change accumulateFrom printable _ _ = _
      rw [ih, List.map_cons, List.map_cons, List.sum_cons, List.sum_cons,
        add_assoc, add_assoc]

/-! ## The lines that `grep` lets through -/

def IsTransferLine (line : Text) : Prop := "  transfer: ".toList <+: line

instance : DecidablePred IsTransferLine :=
  fun line => inferInstanceAs (Decidable ("  transfer: ".toList <+: line))

theorem isTransferLine_transferLine (transfer : Transfer) :
    IsTransferLine (transferLine transfer) :=
  List.prefix_append _ _

theorem not_isTransferLine {label : Text} (hlength : 3 ≤ label.length)
    (hlabel : label.take 3 ≠ "  t".toList) (rest : Text) :
    ¬ IsTransferLine (label ++ rest) := by
  intro htransfer
  rcases htransfer with ⟨tail, htail⟩
  apply hlabel
  have htake := congrArg (List.take 3) htail
  rw [List.take_append_of_le_length hlength] at htake
  exact htake.symm

theorem filter_optionLine {α : Type} {line : α → Text}
    (hline : ∀ value, ¬ IsTransferLine (line value)) (value : Option α) :
    (value.map line).toList.filter (fun line => IsTransferLine line) = [] := by
  cases value with
  | none => rfl
  | some value => simp [hline value]

theorem Peer.filter_showLines (peer : Peer) :
    peer.showLines.filter (fun line => IsTransferLine line) =
      (peer.transfer.map transferLine).toList := by
  have hkey : ¬ IsTransferLine ("peer: ".toList ++ peer.key.text) :=
    not_isTransferLine (by decide) (by decide) _
  have hips : ¬ IsTransferLine
      ("  allowed ips: ".toList ++ allowedIpsText peer.allowedIps) :=
    not_isTransferLine (by decide) (by decide) _
  have hendpoint : ∀ endpoint : Printed,
      ¬ IsTransferLine ("  endpoint: ".toList ++ endpoint.text) :=
    fun endpoint => not_isTransferLine (by decide) (by decide) _
  have hhandshake : ∀ handshake : Printed,
      ¬ IsTransferLine ("  latest handshake: ".toList ++ handshake.text) :=
    fun handshake => not_isTransferLine (by decide) (by decide) _
  have hpreshared : ∀ _ : Key,
      ¬ IsTransferLine "  preshared key: (hidden)".toList := by
    intro _
    decide
  have hkeepalive : ∀ seconds, ¬ IsTransferLine (keepaliveLine seconds) :=
    fun seconds => not_isTransferLine (by decide) (by decide) _
  have htransfer : (peer.transfer.map transferLine).toList.filter
      (fun line => IsTransferLine line) =
      (peer.transfer.map transferLine).toList := by
    cases peer.transfer with
    | none => rfl
    | some transfer => simp [isTransferLine_transferLine]
  unfold Peer.showLines Peer.detailLines
  rw [List.filter_cons_of_neg (by simpa using hkey)]
  simp only [List.filter_append, filter_optionLine hpreshared,
    filter_optionLine hendpoint, filter_optionLine hhandshake,
    filter_optionLine hkeepalive]
  rw [List.filter_singleton]
  simp only [hips, decide_false, List.append_nil]
  exact htransfer

theorem Interface.not_isTransferLine_headLines {host : Host}
    {interface : Interface} {line : Text}
    (hline : line ∈ interface.headLines host) : ¬ IsTransferLine line := by
  simp only [Interface.headLines, List.mem_append, List.mem_singleton,
    Option.mem_toList, Option.map_eq_some_iff] at hline
  rcases hline with ((rfl | ⟨key, _, rfl⟩) | ⟨key, _, rfl⟩) | rfl
  · decide
  · exact not_isTransferLine (by decide) (by decide) _
  · decide
  · exact not_isTransferLine (by decide) (by decide) _

/-- The lines of the transfers are those with their label. -/
theorem Interface.filter_showLines (host : Host) (interface : Interface) :
    (interface.showLines host).filter (fun line => IsTransferLine line) =
      interface.transfers.map transferLine := by
  have hhead : (interface.headLines host).filter
      (fun line => IsTransferLine line) = [] := by
    rw [List.filter_eq_nil_iff]
    intro line hline htransfer
    exact Interface.not_isTransferLine_headLines hline
      (of_decide_eq_true htransfer)
  have hblank : ¬ IsTransferLine [] := by decide
  unfold Interface.showLines Interface.transfers
  rw [List.filter_append, hhead, List.nil_append]
  induction interface.peers with
  | nil => rfl
  | cons peer peers ih =>
      rw [List.flatMap_cons, List.filter_append, ih, List.filter_cons,
        if_neg (by simpa using hblank), Peer.filter_showLines]
      cases htransfer : peer.transfer with
      | none => simp [htransfer]
      | some transfer => simp [htransfer]

/-- A line whose second word is no numeral. -/
def StopsLoop (line : Text) : Prop :=
  ∃ first second rest, words line = first :: second :: rest ∧
    decimal? second = none

theorem stopsLoop_of_label {label first second : Text} {others : List Text}
    (hlast : label.getLast? = some ' ')
    (hlabel : words label = first :: second :: others)
    (hsecond : decimal? second = none) (rest : Text) :
    StopsLoop (label ++ rest) := by
  refine ⟨first, second, others ++ words rest, ?_, hsecond⟩
  rw [words_append_of_trailing hlast, hlabel]
  rfl

/-- A word behind a one-word label that `grep` lets through is no numeral. -/
theorem stopsLoop_of_needle {label first word : Text}
    (hlabel : words label = [first]) (hfree : ¬ needle <:+: label)
    (hword : IsWord word) (hline : needle <:+: label ++ ' ' :: word) :
    StopsLoop (label ++ ' ' :: word) := by
  have hinWord : needle <:+: word := by
    cases (infix_append_cons_iff (by decide : ' ' ∉ needle)).mp hline with
    | inl hinLabel => exact absurd hinLabel hfree
    | inr hinWord => exact hinWord
  have hletter : 't' ∈ word := hinWord.subset (by decide)
  refine ⟨first, word, [], ?_, decimal?_eq_none hletter (by decide)⟩
  rw [words_append_cons label word (by decide), hlabel, words_of_isWord hword]
  rfl

theorem isWord_key (key : Key) : IsWord key.text := by
  have hspaces : ∀ d ∈ whitespace, ¬ (isBase64 d = true ∨ d = '=') := by
    decide
  apply isWord_of_forall hspaces
  · intro hempty
    have hlength := key.length_text
    rw [hempty] at hlength
    contradiction
  · intro c hc
    exact Key.mem_text hc

theorem Peer.stopsLoop_of_mem {peer : Peer}
    (hendpoint : ∀ endpoint ∈ peer.endpoint, IsWord endpoint.text)
    {line : Text} (hline : line ∈ peer.showLines)
    (hneedle : needle <:+: line) (hother : ¬ IsTransferLine line) :
    StopsLoop line := by
  simp only [Peer.showLines, Peer.detailLines, List.mem_cons,
    List.mem_append, List.not_mem_nil, or_false, Option.mem_toList,
    Option.map_eq_some_iff] at hline
  rcases hline with hkey | ((((⟨_, _, hhidden⟩ | ⟨endpoint, hmem, hshown⟩) |
    hips) | ⟨handshake, _, hshown⟩) | ⟨transfer, _, hshown⟩) |
      ⟨seconds, _, hshown⟩
  · rw [hkey] at hneedle ⊢
    exact @stopsLoop_of_needle "peer:".toList "peer:".toList peer.key.text
      (by decide) (by decide) (isWord_key peer.key) hneedle
  · rw [← hhidden] at hneedle
    exact absurd hneedle (by decide)
  · rw [← hshown] at hneedle ⊢
    exact @stopsLoop_of_needle "  endpoint:".toList "endpoint:".toList
      endpoint.text (by decide) (by decide) (hendpoint endpoint hmem) hneedle
  · rw [hips]
    exact @stopsLoop_of_label _ "allowed".toList "ips:".toList []
      (by decide) (by decide) (by decide) _
  · rw [← hshown]
    exact @stopsLoop_of_label _ "latest".toList "handshake:".toList []
      (by decide) (by decide) (by decide) _
  · rw [← hshown] at hother
    exact absurd (isTransferLine_transferLine transfer) hother
  · rw [← hshown]
    exact @stopsLoop_of_label _ "persistent".toList "keepalive:".toList
      ["every".toList] (by decide) (by decide) (by decide) _

theorem Interface.stopsLoop_of_mem {host : Host} {interface : Interface}
    (hendpoints : ∀ peer ∈ interface.peers,
      ∀ endpoint ∈ peer.endpoint, IsWord endpoint.text)
    {line : Text} (hline : line ∈ interface.showLines host)
    (hneedle : needle <:+: line) (hother : ¬ IsTransferLine line) :
    StopsLoop line := by
  unfold Interface.showLines at hline
  rcases List.mem_append.mp hline with hhead | hpeers
  · simp only [Interface.headLines, List.mem_append, List.mem_singleton,
      Option.mem_toList, Option.map_eq_some_iff] at hhead
    rcases hhead with ((hwg0 | ⟨key, _, hshown⟩) | ⟨key, _, hshown⟩) | hport
    · rw [hwg0] at hneedle
      exact absurd hneedle (by decide)
    · rw [← hshown]
      exact @stopsLoop_of_label _ "public".toList "key:".toList []
        (by decide) (by decide) (by decide) _
    · rw [← hshown] at hneedle
      exact absurd hneedle (by decide)
    · rw [hport]
      exact @stopsLoop_of_label _ "listening".toList "port:".toList []
        (by decide) (by decide) (by decide) _
  · rcases List.mem_flatMap.mp hpeers with ⟨peer, hpeer, hmem⟩
    rcases List.mem_cons.mp hmem with hblank | hmem
    · rw [hblank] at hneedle
      exact absurd hneedle (by decide)
    · exact Peer.stopsLoop_of_mem (hendpoints peer hpeer) hmem hneedle hother

/-! ## The totals -/

/-- The words from the first line on that is not of a transfer. -/
def strayWords (shown : Text) : List Text :=
  (((shown.splitOn '\n').filter (fun line => needle <:+: line)).dropWhile
    (fun line => IsTransferLine line)).flatMap words

/-- Nothing but zero is printed in bytes. -/
def Interface.NoBytes (interface : Interface) : Prop :=
  ∀ transfer ∈ interface.transfers,
    (transfer.received.unit = .B → transfer.received.number.value = 0) ∧
      (transfer.sent.unit = .B → transfer.sent.number.value = 0)

theorem sum_map_eq_iff {α : Type} {items : List α} {f g : α → ℚ}
    (hle : ∀ item, f item ≤ g item) :
    (items.map f).sum = (items.map g).sum ↔
      ∀ item ∈ items, f item = g item := by
  induction items with
  | nil => simp
  | cons item items ih =>
      have hrest : (items.map f).sum ≤ (items.map g).sum :=
        List.sum_le_sum (fun other _ => hle other)
      have hfirst := hle item
      rw [List.map_cons, List.map_cons, List.sum_cons, List.sum_cons,
        List.forall_mem_cons, ← ih]
      constructor
      · intro hsum
        constructor
        · linarith
        · linarith
      · intro hboth
        rw [hboth.1, hboth.2]

theorem counted_eq_traffic_iff (interface : Interface) :
    ((interface.transfers.map (fun transfer =>
          transfer.received.counted)).sum,
        (interface.transfers.map (fun transfer =>
          transfer.sent.counted)).sum) = interface.traffic ↔
      interface.NoBytes := by
  unfold Interface.traffic Interface.NoBytes
  rw [Prod.mk.injEq,
    sum_map_eq_iff (fun transfer => transfer.received.counted_le),
    sum_map_eq_iff (fun transfer => transfer.sent.counted_le)]
  simp only [Amount.counted_eq_iff]
  constructor
  · intro hboth transfer hmem
    exact ⟨hboth.1 transfer hmem, hboth.2 transfer hmem⟩
  · intro hall
    exact ⟨fun transfer hmem => (hall transfer hmem).1,
      fun transfer hmem => (hall transfer hmem).2⟩

section

variable {host : Host} {container : Container} {interface : Interface}

def Interface.greppedLines (host : Host) (interface : Interface) :
    List Text :=
  (interface.showLines host).filter (fun line => needle <:+: line)

theorem transferWords_wgShow (hup : container.wg0 = some interface) :
    transferWords (wgShow host container) =
      (interface.greppedLines host).flatMap words := by
  unfold transferWords Interface.greppedLines
  rw [wgShow_of_up hup, grep_unlines (by decide) (fun _ hline =>
    (Interface.showLines_unbroken hline).newline_not_mem), words_unlines]

theorem strayWords_wgShow (hup : container.wg0 = some interface) :
    strayWords (wgShow host container) =
      ((interface.greppedLines host).dropWhile
        (fun line => IsTransferLine line)).flatMap words := by
  have hblank : ¬ needle <:+: ([] : Text) := by decide
  unfold strayWords Interface.greppedLines
  rw [wgShow_of_up hup, splitOn_unlines (fun _ hline =>
    (Interface.showLines_unbroken hline).newline_not_mem),
    List.filter_append, List.filter_singleton]
  simp only [hblank, decide_false, cond_false, List.append_nil]

theorem needle_infix_of_isTransferLine {line : Text}
    (hline : IsTransferLine line) : needle <:+: line :=
  (by decide : needle <:+: "  transfer: ".toList).trans hline.isInfix

theorem filter_greppedLines (host : Host) (interface : Interface) :
    (interface.greppedLines host).filter (fun line => IsTransferLine line) =
      interface.transfers.map transferLine := by
  unfold Interface.greppedLines
  rw [List.filter_filter, ← Interface.filter_showLines host]
  apply List.filter_congr
  intro line _
  by_cases hline : IsTransferLine line
  · simp [hline, needle_infix_of_isTransferLine hline]
  · simp [hline]

/-- The lines that `grep` lets through begin with lines of transfers.  The
transfers behind the first other line are those of the second list. -/
theorem greppedLines_split (host : Host) (interface : Interface) :
    ∃ before behind, interface.transfers = before ++ behind ∧
      (interface.greppedLines host).takeWhile
          (fun line => IsTransferLine line) = before.map transferLine ∧
      ((interface.greppedLines host).dropWhile
          (fun line => IsTransferLine line)).filter
            (fun line => IsTransferLine line) = behind.map transferLine := by
  have hall : ∀ line ∈ (interface.greppedLines host).takeWhile
      (fun line => IsTransferLine line), decide (IsTransferLine line) = true :=
    fun line hline => @List.mem_takeWhile_imp Text
      (fun line => decide (IsTransferLine line)) _ _ hline
  have hsplit := filter_greppedLines host interface
  rw [← List.takeWhile_append_dropWhile
    (p := fun line => decide (IsTransferLine line))
    (l := interface.greppedLines host), List.filter_append,
    List.filter_eq_self.mpr hall] at hsplit
  rcases List.map_eq_append_iff.mp hsplit.symm with
    ⟨before, behind, htransfers, hbefore, hbehind⟩
  exact ⟨before, behind, htransfers, hbefore.symm, hbehind.symm⟩

theorem length_words_le {lines : List Text} {line : Text}
    (hline : line ∈ lines) :
    (words line).length ≤ (lines.flatMap words).length := by
  rw [List.length_flatMap]
  exact List.le_sum_of_mem (List.mem_map.mpr ⟨line, hline, rfl⟩)

theorem trafficTotals_eq_iff (printable : Char → Bool)
    (hup : container.wg0 = some interface)
    (hendpoints : ∀ peer ∈ interface.peers,
      ∀ endpoint ∈ peer.endpoint, IsWord endpoint.text) :
    trafficTotals printable (wgShow host container) =
        .ok interface.traffic ↔
      interface.NoBytes ∧ (strayWords (wgShow host container)).length < 7 := by
  rcases greppedLines_split host interface with
    ⟨before, behind, htransfers, htake, hdrop⟩
  have hwords : transferWords (wgShow host container) =
      before.flatMap Transfer.words ++ strayWords (wgShow host container) := by
    have hlines := @List.takeWhile_append_dropWhile Text
      (fun line => decide (IsTransferLine line)) (interface.greppedLines host)
    rw [transferWords_wgShow hup, strayWords_wgShow hup, ← hlines,
      List.flatMap_append, hlines, htake, List.flatMap_map]
    simp only [words_transferLine]
  unfold trafficTotals
  rw [hwords, accumulateFrom_transfers]
  by_cases hfew : (strayWords (wgShow host container)).length < 7
  · have hbehind : behind = [] := by
      rw [strayWords_wgShow hup] at hfew
      cases behind with
      | nil => rfl
      | cons transfer behind =>
          have hmem : transferLine transfer ∈
              (interface.greppedLines host).dropWhile
                (fun line => IsTransferLine line) := by
            apply List.mem_of_mem_filter (p := fun line => IsTransferLine line)
            rw [hdrop]
            exact List.mem_cons_self
          have hlength := length_words_le hmem
          rw [words_transferLine] at hlength
          change 7 ≤ _ at hlength
          omega
    rw [hbehind, List.append_nil] at htransfers
    rw [accumulateFrom_of_few printable _ hfew, Except.ok.injEq, zero_add,
      zero_add, ← htransfers, counted_eq_traffic_iff]
    simp only [hfew, and_true]
  · simp only [hfew, and_false, iff_false]
    cases hrest : (interface.greppedLines host).dropWhile
        (fun line => IsTransferLine line) with
    | nil =>
        rw [strayWords_wgShow hup, hrest] at hfew
        exact absurd (by decide) hfew
    | cons line others =>
        have hmem : line ∈ interface.greppedLines host :=
          (List.dropWhile_sublist _).subset (by rw [hrest]; simp)
        have hline := List.mem_filter.mp hmem
        have hother : ¬ IsTransferLine line := by
          have hstop := List.head?_dropWhile_not
            (fun line => decide (IsTransferLine line))
            (interface.greppedLines host)
          rw [hrest] at hstop
          exact of_decide_eq_false hstop
        rcases Interface.stopsLoop_of_mem hendpoints hline.1
          (of_decide_eq_true hline.2) hother with
          ⟨first, second, rest, hsplit, hsecond⟩
        rw [strayWords_wgShow hup, hrest, List.flatMap_cons, hsplit,
          List.cons_append, List.cons_append] at hfew ⊢
        exact accumulateFrom_of_no_numeral printable _ (not_lt.mp hfew)
          hsecond _

/-- What the check reports when the totals are right. -/
theorem onHealthCheckAction_of_traffic (printable : Char → Bool)
    (hup : container.wg0 = some interface)
    (hendpoints : ∀ peer ∈ interface.peers,
      ∀ endpoint ∈ peer.endpoint, IsWord endpoint.text)
    (hbytes : interface.NoBytes)
    (hfew : (strayWords (wgShow host container)).length < 7)
    (hsome : interface.transfers ≠ []) :
    ∃ received sent, convertBytes interface.traffic.1 = .ok received ∧
      convertBytes interface.traffic.2 = .ok sent ∧
      onHealthCheckAction printable (.ok (wgShow host container))
          (.ok (wgShow host container)) =
        usageReport printable "Status: Wireguard is running".toList
          (roundedText sent.1 ++ sent.2)
          (roundedText received.1 ++ received.2) := by
  have htotals : trafficTotals printable (wgShow host container) =
      .ok interface.traffic :=
    (trafficTotals_eq_iff printable hup hendpoints).mpr ⟨hbytes, hfew⟩
  rcases converts_convertBytes interface.traffic_nonneg.1 with
    ⟨receivedValue, receivedUnit, _, hreceived, _⟩
  rcases converts_convertBytes interface.traffic_nonneg.2 with
    ⟨sentValue, sentUnit, _, hsent, _⟩
  have hlines : splitlines (wgShow host container) ≠ [] := by
    rw [splitlines_wgShow hup]
    exact List.cons_ne_nil _ _
  have hmany : 7 ≤ (transferWords (wgShow host container)).length := by
    rcases List.exists_mem_of_ne_nil _ hsome with ⟨transfer, htransfer⟩
    have hline : transferLine transfer ∈ (interface.greppedLines host).filter
        (fun line => IsTransferLine line) := by
      rw [filter_greppedLines]
      exact List.mem_map.mpr ⟨transfer, htransfer, rfl⟩
    have hle := length_words_le (List.mem_filter.mp hline).1
    rw [words_transferLine, ← transferWords_wgShow hup] at hle
    exact hle
  have hwords : transferWords (wgShow host container) ≠ [] := by
    intro hempty
    rw [hempty] at hmany
    contradiction
  have hiterations :
      (transferWords (wgShow host container)).length / 7 ≠ 0 := by omega
  refine ⟨_, _, hreceived, hsent, ?_⟩
  simp only [onHealthCheckAction, Except.bind, bind, pure, Except.pure,
    if_neg hlines, if_neg hwords, htotals, hreceived, hsent, trafficText,
    if_neg hiterations]

end

/-- The totals are the sums of the traffic of all peers exactly when nothing
but zero is printed in bytes and fewer than seven words stand in the lines
with the needle from the first one on that is no line of a transfer; and
`convert_bytes` keeps the value of a total. -/
theorem healthCheck_addsUp (printable : Char → Bool) (host : Host)
    (container : Container) (interface : Interface) (total : ℚ) :
    (container.wg0 = some interface →
      (∀ peer ∈ interface.peers,
        ∀ endpoint ∈ peer.endpoint, IsWord endpoint.text) →
      (trafficTotals printable (wgShow host container) =
          .ok interface.traffic ↔
        interface.NoBytes ∧
          (strayWords (wgShow host container)).length < 7)) ∧
    (0 ≤ total →
      ∃ value unit k, convertBytes total = .ok (value, unit) ∧
        Converts total value unit k) := by
  constructor
  · intro hup hendpoints
    exact trafficTotals_eq_iff printable hup hendpoints
  · intro htotal
    exact converts_convertBytes htotal

/-- One peer with the given traffic. -/
def phoneTraffic (received sent : Amount) : Interface where
  privateKey := some serverKey
  address := none
  listenPort := 41194
  peers := [⟨⟨phoneKey, none, [], none, some 25⟩, none, some ⟨received, sent⟩⟩]

theorem phoneTraffic_traffic (received sent : Amount) :
    (phoneTraffic received sent).traffic = (received.bytes, sent.bytes) := by
  have htransfers : (phoneTraffic received sent).transfers =
      [⟨received, sent⟩] := rfl
  simp [Interface.traffic, htransfers]

theorem healthCheck_addsUp_of_phone :
    let interface := phoneTraffic ⟨⟨1, [5]⟩, .KiB⟩ ⟨⟨2, []⟩, .MiB⟩
    let container := { Container.fresh with wg0 := some interface }
    (trafficTotals (fun _ => true) (wgShow smallHost container) =
        .ok interface.traffic ↔
      interface.NoBytes ∧
        (strayWords (wgShow smallHost container)).length < 7) ∧
    ∃ value unit k, convertBytes 1536 = .ok (value, unit) ∧
      Converts 1536 value unit k := by
  intro interface container
  constructor
  · apply (healthCheck_addsUp (fun _ => true) smallHost container interface
      1536).1 rfl
    intro peer hpeer endpoint hendpoint
    rw [List.mem_singleton.mp hpeer] at hendpoint
    contradiction
  · exact (healthCheck_addsUp (fun _ => true) smallHost container interface
      1536).2 (by norm_num)

/-- A first reply of 148 bytes is printed in the unit `B`. -/
theorem not_addsUp_of_bytes :
    let interface := phoneTraffic ⟨⟨0, []⟩, .B⟩ ⟨⟨148, []⟩, .B⟩
    let container := { Container.fresh with wg0 := some interface }
    interface.traffic = (0, 148) ∧
      trafficTotals (fun _ => true) (wgShow smallHost container) ≠
        .ok interface.traffic := by
  intro interface container
  constructor
  · rw [phoneTraffic_traffic]
    norm_num [Amount.bytes, Decimal.value, ByteUnit.size]
  · intro htotals
    have hendpoints : ∀ peer ∈ interface.peers,
        ∀ endpoint ∈ peer.endpoint, IsWord endpoint.text := by
      intro peer hpeer endpoint hendpoint
      rw [List.mem_singleton.mp hpeer] at hendpoint
      contradiction
    have hbytes := ((trafficTotals_eq_iff (fun _ => true) rfl
      hendpoints).mp htotals).1
    have hzero := (hbytes ⟨⟨⟨0, []⟩, .B⟩, ⟨⟨148, []⟩, .B⟩⟩
      (by simp [interface, phoneTraffic, Interface.transfers])).2 rfl
    norm_num [Decimal.value] at hzero

end SecaasCharms.WireGuard
