import SecaasCharms.WireGuardCharm

/-!
# What the charm can read off `wg show`

The handlers see the peer table only as text.  A line of the listing is a
label and a key, the `allowed ips:` line of a peer, or a line without `/` and
`=`.  This is enough to tell when an address of the pool, or a key, occurs in
the listing, whatever endpoints, handshakes and transfers stand in it.
-/

namespace SecaasCharms.WireGuard

open TextLines

def PlainLine (line : Text) : Prop :=
  ∀ c ∈ line, isPlain c = true

theorem PlainLine.not_mem {line : Text} (hline : PlainLine line) {c : Char}
    (hc : isPlain c = false) : c ∉ line := by
  intro hmem
  rw [hline c hmem] at hc
  contradiction

@[simp] theorem plainLine_append (left right : Text) :
    PlainLine (left ++ right) ↔ PlainLine left ∧ PlainLine right := by
  simp only [PlainLine, List.mem_append, or_imp, forall_and]

theorem PlainLine.unbroken {line : Text} (hline : PlainLine line) :
    Unbroken line := by
  intro c hmem
  exact isLineBoundary_eq_false_of (by decide) (hline c hmem)

instance (line : Text) : Decidable (PlainLine line) :=
  inferInstanceAs (Decidable (∀ c ∈ line, isPlain c = true))

theorem plainLine_token (token : Printed) : PlainLine token.text :=
  List.all_eq_true.mp token.all_allowed

theorem plainLine_digits (n : ℕ) : PlainLine (digits n) := by
  intro c hc
  exact isPlain_of_isAlphanum
    (by simp [Char.isAlphanum, isDigit_of_mem_digits hc])

theorem plainLine_transfer (transfer : Transfer) :
    PlainLine transfer.text :=
  fun _ hc => Transfer.isPlain_of_mem_text hc

def allowedIpsLine (allowedIps : List Cidr) : Text :=
  "  allowed ips: ".toList ++ allowedIpsText allowedIps

def allowedIpsLabelChars : List Char := "  allowed ips: (none), ".toList

theorem mem_allowedIpsLine {c : Char} {allowedIps : List Cidr}
    (hc : c ∈ allowedIpsLine allowedIps) :
    c ∈ allowedIpsLabelChars ∨ isCidrChar c = true := by
  have hlabel : "  allowed ips: ".toList ⊆ allowedIpsLabelChars := by decide
  have hnone : "(none)".toList ⊆ allowedIpsLabelChars := by decide
  have hcomma : ", ".toList ⊆ allowedIpsLabelChars := by decide
  unfold allowedIpsLine at hc
  rw [List.mem_append] at hc
  rcases hc with hc | hips
  · exact Or.inl (hlabel hc)
  · unfold allowedIpsText at hips
    split at hips
    · exact Or.inl (hnone hips)
    · rcases mem_intercalate hips with hseparator | ⟨text, htext, hmem⟩
      · exact Or.inl (hcomma hseparator)
      · obtain ⟨token, _, rfl⟩ := List.mem_map.mp htext
        exact Or.inr (List.all_eq_true.mp token.all_allowed c hmem)

theorem allowedIpsLine_unbroken (allowedIps : List Cidr) :
    Unbroken (allowedIpsLine allowedIps) := by
  intro c hc
  rcases mem_allowedIpsLine hc with hlabel | hcidr
  · have hplain : Unbroken allowedIpsLabelChars := by decide
    exact hplain c hlabel
  · exact isLineBoundary_eq_false_of (by decide) hcidr

theorem equals_not_mem_allowedIpsLine (allowedIps : List Cidr) :
    '=' ∉ allowedIpsLine allowedIps := by
  intro hmem
  rcases mem_allowedIpsLine hmem with h | h <;> revert h <;> decide

def keyLabels : List Text := ["peer: ".toList, "  public key: ".toList]

theorem plainLine_keyLabel {label : Text} (hlabel : label ∈ keyLabels) :
    PlainLine label ∧ '.' ∉ label := by
  revert label
  decide

theorem Peer.allowedIpsLine_mem_detailLines (peer : Peer) :
    allowedIpsLine peer.allowedIps ∈ peer.detailLines := by
  unfold Peer.detailLines allowedIpsLine
  simp only [List.mem_append, List.mem_singleton, or_true, true_or]

theorem plainLine_endpoint (endpoint : Printed) :
    PlainLine ("  endpoint: ".toList ++ endpoint.text) :=
  (plainLine_append _ _).mpr ⟨by decide, plainLine_token endpoint⟩

theorem plainLine_handshake (handshake : Printed) :
    PlainLine ("  latest handshake: ".toList ++ handshake.text) :=
  (plainLine_append _ _).mpr ⟨by decide, plainLine_token handshake⟩

theorem plainLine_transferLine (transfer : Transfer) :
    PlainLine ("  transfer: ".toList ++ transfer.text) :=
  (plainLine_append _ _).mpr ⟨by decide, plainLine_transfer transfer⟩

theorem plainLine_of_mem_timePart {name part : Text} {count : ℕ}
    (hname : PlainLine name) (hpart : part ∈ timePart name count) :
    PlainLine part := by
  have hspace : PlainLine [' '] := by decide
  have hplural : PlainLine "s".toList := by decide
  have hcount : PlainLine (digits count ++ ' ' :: name) := by
    rw [← List.singleton_append, plainLine_append, plainLine_append]
    exact ⟨plainLine_digits count, hspace, hname⟩
  unfold timePart at hpart
  split_ifs at hpart
  · exact absurd hpart List.not_mem_nil
  · rw [List.mem_singleton.mp hpart]
    exact hcount
  · rw [List.mem_singleton.mp hpart]
    exact (plainLine_append _ _).mpr ⟨hcount, hplural⟩

theorem plainLine_of_mem_timeParts {units : List (ℕ × Text)}
    (hunits : ∀ unit ∈ units, PlainLine unit.2) {seconds : ℕ} {part : Text}
    (hpart : part ∈ timeParts units seconds) : PlainLine part := by
  induction units generalizing seconds with
  | nil => exact absurd hpart List.not_mem_nil
  | cons unit units ih =>
      unfold timeParts at hpart
      cases List.mem_append.mp hpart with
      | inl hfirst =>
          exact plainLine_of_mem_timePart (hunits unit (by simp)) hfirst
      | inr hrest =>
          exact ih (fun other hmem => hunits other (by simp [hmem])) hrest

theorem plainLine_keepalive (seconds : ℕ) :
    PlainLine (keepaliveLine seconds) := by
  have hlabel : PlainLine "  persistent keepalive: every ".toList := by decide
  have hcomma : PlainLine ", ".toList := by decide
  have hunits : ∀ unit ∈ timeUnits, PlainLine unit.2 := by decide
  refine (plainLine_append _ _).mpr ⟨hlabel, ?_⟩
  intro c hc
  rcases mem_intercalate hc with hseparator | ⟨part, hpart, hmem⟩
  · exact hcomma c hseparator
  · exact plainLine_of_mem_timeParts hunits hpart c hmem

theorem Peer.mem_detailLines {peer : Peer} {line : Text}
    (hline : line ∈ peer.detailLines) :
    line = allowedIpsLine peer.allowedIps ∨ PlainLine line := by
  simp only [Peer.detailLines, List.mem_append, List.mem_singleton,
    Option.mem_toList, Option.map_eq_some_iff] at hline
  rcases hline with
    ((((⟨_, _, rfl⟩ | ⟨endpoint, _, rfl⟩) | hips) | ⟨handshake, _, rfl⟩) |
      ⟨transfer, _, rfl⟩) | ⟨seconds, _, rfl⟩
  · exact Or.inr (by decide)
  · exact Or.inr (plainLine_endpoint endpoint)
  · exact Or.inl hips
  · exact Or.inr (plainLine_handshake handshake)
  · exact Or.inr (plainLine_transferLine transfer)
  · exact Or.inr (plainLine_keepalive seconds)

theorem Interface.mem_headLines {host : Host} {interface : Interface}
    {line : Text} (hline : line ∈ interface.headLines host) :
    (∃ key : Key, line = "  public key: ".toList ++ key.text) ∨
      PlainLine line := by
  simp only [Interface.headLines, List.mem_append, List.mem_singleton,
    Option.mem_toList, Option.map_eq_some_iff] at hline
  rcases hline with ((rfl | ⟨key, _, rfl⟩) | ⟨key, _, rfl⟩) | rfl
  · exact Or.inr (by decide)
  · exact Or.inl ⟨host.pubkey key, rfl⟩
  · exact Or.inr (by decide)
  · exact Or.inr ((plainLine_append _ _).mpr
      ⟨by decide, plainLine_digits _⟩)

/-- Every line of the listing is a labelled key, the addresses of a peer, or
plain. -/
theorem Interface.mem_showLines {host : Host} {interface : Interface}
    {line : Text} (hline : line ∈ interface.showLines host) :
    (∃ label ∈ keyLabels, ∃ key : Key, line = label ++ key.text) ∨
      (∃ peer ∈ interface.peers, line = allowedIpsLine peer.allowedIps) ∨
      PlainLine line := by
  unfold Interface.showLines at hline
  rw [List.mem_append, List.mem_flatMap] at hline
  rcases hline with hhead | ⟨peer, hpeer, hmem⟩
  · rcases Interface.mem_headLines hhead with ⟨key, hkey⟩ | hplain
    · exact Or.inl ⟨_, by simp [keyLabels], key, hkey⟩
    · exact Or.inr (Or.inr hplain)
  · rw [List.mem_cons] at hmem
    rcases hmem with rfl | hmem
    · exact Or.inr (Or.inr (by simp [PlainLine]))
    · rw [Peer.showLines, List.mem_cons] at hmem
      rcases hmem with hkey | hdetail
      · exact Or.inl ⟨_, by simp [keyLabels], peer.key, hkey⟩
      · rcases Peer.mem_detailLines hdetail with hips | hplain
        · exact Or.inr (Or.inl ⟨peer, hpeer, hips⟩)
        · exact Or.inr (Or.inr hplain)

theorem Interface.showLines_unbroken {host : Host} {interface : Interface}
    {line : Text} (hline : line ∈ interface.showLines host) :
    Unbroken line := by
  rcases Interface.mem_showLines hline with
    ⟨label, hlabel, key, rfl⟩ | ⟨peer, _, rfl⟩ | hplain
  · rw [unbroken_append]
    exact ⟨(plainLine_keyLabel hlabel).1.unbroken, key.unbroken⟩
  · exact allowedIpsLine_unbroken peer.allowedIps
  · exact hplain.unbroken

theorem mem_showLines_allowedIps (host : Host) {interface : Interface}
    {peer : Peer} (hpeer : peer ∈ interface.peers) :
    allowedIpsLine peer.allowedIps ∈ interface.showLines host := by
  unfold Interface.showLines
  rw [List.mem_append, List.mem_flatMap]
  refine Or.inr ⟨peer, hpeer, List.mem_cons_of_mem _ ?_⟩
  rw [Peer.showLines]
  exact List.mem_cons_of_mem _ peer.allowedIpsLine_mem_detailLines

theorem wgShow_of_up {host : Host} {container : Container}
    {interface : Interface} (hup : container.wg0 = some interface) :
    wgShow host container = unlines (interface.showLines host) := by
  simp only [wgShow, hup]

theorem splitlines_wgShow {host : Host} {container : Container}
    {interface : Interface} (hup : container.wg0 = some interface) :
    splitlines (wgShow host container) = interface.showLines host := by
  rw [wgShow_of_up hup]
  exact splitlines_unlines (fun _ hline => Interface.showLines_unbroken hline)

/-! ## Addresses of the pool -/

theorem mem_freeIpList {ip : Text} (hip : ip ∈ freeIpList) :
    ip ≠ [] ∧ '\n' ∉ ip ∧ '.' ∈ ip ∧ '/' ∈ ip ∧ ip.length = 16 ∧
      ip.all isCidrChar = true ∧
      grepLine addressPattern ("  allowed ips: ".toList ++ ip) = some ip := by
  revert ip
  decide

theorem allowedIpsLine_of_single {allowedIps : List Cidr} {ip : Text}
    (hips : allowedIps.map Token.text = [ip]) :
    allowedIpsLine allowedIps = "  allowed ips: ".toList ++ ip := by
  obtain ⟨token, rfl, rfl⟩ := List.map_eq_singleton_iff.mp hips
  unfold allowedIpsLine allowedIpsText
  rw [if_neg (List.cons_ne_nil _ _)]
  simp only [List.map_cons, List.map_nil, List.intercalate,
    List.intersperse_singleton, List.flatten_cons, List.flatten_nil,
    List.append_nil]

/-- An address of the pool is printed by the filter exactly when it is
printed for the addresses of some peer. -/
theorem infix_addressLines_iff {host : Host} {container : Container}
    {interface : Interface} (hup : container.wg0 = some interface)
    {ip : Text} (hip : ip ∈ freeIpList) :
    ip <:+: addressLines host container ↔
      ∃ peer ∈ interface.peers, ∃ found,
        grepLine addressPattern (allowedIpsLine peer.allowedIps) =
          some found ∧ ip <:+: found := by
  obtain ⟨hne, hnewline, hdot, hslash, _⟩ := mem_freeIpList hip
  unfold addressLines
  rw [wgShow_of_up hup, infix_grepOnly_unlines_iff hne hnewline
    (fun _ hline => (Interface.showLines_unbroken hline).newline_not_mem)]
  constructor
  · rintro ⟨line, hline, found, hfound, hocc⟩
    have hinLine : ip <:+: line :=
      hocc.trans (grepLine_suffix hfound).isInfix
    rcases Interface.mem_showLines hline with
      ⟨label, hlabel, key, rfl⟩ | ⟨peer, hpeer, rfl⟩ | hplain
    · have hmem := hinLine.subset hdot
      rw [List.mem_append] at hmem
      rcases hmem with hmem | hmem
      · exact absurd hmem (plainLine_keyLabel hlabel).2
      · exact absurd hmem key.dot_not_mem
    · exact ⟨peer, hpeer, found, hfound, hocc⟩
    · exact absurd (hinLine.subset hslash) (hplain.not_mem (by decide))
  · rintro ⟨peer, hpeer, found, hfound, hocc⟩
    exact ⟨_, mem_showLines_allowedIps host hpeer, found, hfound, hocc⟩

theorem infix_addressLines_of_holder (host : Host) {container : Container}
    {interface : Interface} (hup : container.wg0 = some interface)
    {peer : Peer} (hpeer : peer ∈ interface.peers) {ip : Text}
    (hip : ip ∈ freeIpList) (hholds : peer.allowedIps.map Token.text = [ip]) :
    ip <:+: addressLines host container := by
  rw [infix_addressLines_iff hup hip]
  refine ⟨peer, hpeer, ip, ?_, List.infix_rfl⟩
  rw [allowedIpsLine_of_single hholds]
  exact (mem_freeIpList hip).2.2.2.2.2.2

theorem eq_of_infix_freeIpList {left right : Text}
    (hleft : left ∈ freeIpList) (hright : right ∈ freeIpList)
    (hocc : left <:+: right) : left = right := by
  have hlengthLeft := (mem_freeIpList hleft).2.2.2.2.1
  have hlengthRight := (mem_freeIpList hright).2.2.2.2.1
  exact hocc.eq_of_length (by rw [hlengthLeft, hlengthRight])

/-- When every peer holds one address of the pool, the substring test of
`add-client` is exact. -/
theorem infix_addressLines_iff_of_single {host : Host}
    {container : Container} {interface : Interface}
    (hup : container.wg0 = some interface)
    (hsingle : ∀ peer ∈ interface.peers,
      ∃ ip ∈ freeIpList, peer.allowedIps.map Token.text = [ip])
    {ip : Text} (hip : ip ∈ freeIpList) :
    ip <:+: addressLines host container ↔
      ∃ peer ∈ interface.peers, peer.allowedIps.map Token.text = [ip] := by
  constructor
  · intro hocc
    obtain ⟨peer, hpeer, found, hfound, hoccFound⟩ :=
      (infix_addressLines_iff hup hip).mp hocc
    obtain ⟨held, hheld, hips⟩ := hsingle peer hpeer
    rw [allowedIpsLine_of_single hips,
      (mem_freeIpList hheld).2.2.2.2.2.2, Option.some.injEq] at hfound
    subst found
    exact ⟨peer, hpeer,
      by rw [eq_of_infix_freeIpList hip hheld hoccFound]; exact hips⟩
  · rintro ⟨peer, hpeer, hips⟩
    exact infix_addressLines_of_holder host hup hpeer hip hips

/-! ## The allocation loop -/

theorem popFreeIp_eq_find? (lines : Text) (freeIps : List Text) :
    popFreeIp lines freeIps =
      freeIps.find? (fun ip => decide (¬ ip <:+: lines)) := by
  induction freeIps with
  | nil => rfl
  | cons ip freeIps ih =>
      unfold popFreeIp
      by_cases hocc : ip <:+: lines
      · rw [if_pos hocc, List.find?_cons_of_neg (by simpa using hocc), ih]
      · rw [if_neg hocc, List.find?_cons_of_pos (by simpa using hocc)]

theorem held_of_popFreeIp_eq_none {lines : Text} {freeIps : List Text}
    (hpop : popFreeIp lines freeIps = none) :
    ∀ ip ∈ freeIps, ip <:+: lines := by
  rw [popFreeIp_eq_find?, List.find?_eq_none] at hpop
  intro ip hip
  simpa using hpop ip hip

theorem popFreeIp_mem {lines : Text} {freeIps : List Text} {ip : Text}
    (hpop : popFreeIp lines freeIps = some ip) : ip ∈ freeIps := by
  rw [popFreeIp_eq_find?] at hpop
  exact List.mem_of_find?_eq_some hpop

theorem popFreeIp_not_held {lines : Text} {freeIps : List Text} {ip : Text}
    (hpop : popFreeIp lines freeIps = some ip) : ¬ ip <:+: lines := by
  rw [popFreeIp_eq_find?] at hpop
  simpa using List.find?_some hpop

end SecaasCharms.WireGuard
