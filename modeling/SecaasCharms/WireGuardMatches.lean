import SecaasCharms.WireGuardCommands

/-!
# What the text test of `disconnect-client` matches

The handler looks for a line with the key and for the address two lines below
it, and its index stops once after every match.  `Accepts` says which
listings pass this test, without the loop.  For a whole key the listing need
not be looked at: `Interface.MatchesKey` says it of the table.
-/

namespace SecaasCharms.WireGuard

open TextLines

/-- The line at `position` contains the key, and the line `distance` below
contains the address. -/
def HitAt (distance : ℕ) (clientKey clientIp : Text) (lines : List Text)
    (position : ℕ) : Prop :=
  ∃ line below, lines[position]? = some line ∧
    lines[position + distance]? = some below ∧
      clientKey <:+: line ∧ clientIp <:+: below

def LastLineWithout (clientKey : Text) (lines : List Text) : Prop :=
  ∀ line, lines.getLast? = some line → ¬ clientKey <:+: line

/-- The address stands two lines below the key; and the last line is without
the key, since the index would leave the listing there, unless a second match
has stopped the index again. -/
def Accepts (clientKey clientIp : Text) (lines : List Text) : Prop :=
  (∃ first, HitAt 2 clientKey clientIp lines first) ∧
    (LastLineWithout clientKey lines ∨
      ∃ first second, first < second ∧
        HitAt 2 clientKey clientIp lines first ∧
          HitAt 1 clientKey clientIp lines second)

/-! ## Matches in a listing read from its head -/

variable {clientKey clientIp : Text}

theorem hitAt_cons_succ (distance : ℕ) (line : Text) (rest : List Text)
    (position : ℕ) :
    HitAt distance clientKey clientIp (line :: rest) (position + 1) ↔
      HitAt distance clientKey clientIp rest position := by
  have hshift : position + 1 + distance = position + distance + 1 := by omega
  unfold HitAt
  rw [hshift, List.getElem?_cons_succ, List.getElem?_cons_succ]

theorem hitAt_cons_zero (distance : ℕ) (line : Text) (rest : List Text) :
    HitAt (distance + 1) clientKey clientIp (line :: rest) 0 ↔
      clientKey <:+: line ∧
        ∃ below, rest[distance]? = some below ∧ clientIp <:+: below := by
  unfold HitAt
  rw [Nat.zero_add, List.getElem?_cons_succ, List.getElem?_cons_zero]
  constructor
  · intro h
    obtain ⟨found, below, hfound, hbelow, hkey, hip⟩ := h
    rw [Option.some.injEq] at hfound
    rw [hfound]
    exact ⟨hkey, below, hbelow, hip⟩
  · intro h
    obtain ⟨hkey, below, hbelow, hip⟩ := h
    exact ⟨line, below, rfl, hbelow, hkey, hip⟩

theorem exists_hitAt_cons (distance : ℕ) (line : Text) (rest : List Text) :
    (∃ position,
        HitAt (distance + 1) clientKey clientIp (line :: rest) position) ↔
      (clientKey <:+: line ∧
        ∃ below, rest[distance]? = some below ∧ clientIp <:+: below) ∨
      ∃ position, HitAt (distance + 1) clientKey clientIp rest position := by
  rw [← hitAt_cons_zero]
  constructor
  · intro h
    obtain ⟨position, hhit⟩ := h
    cases position with
    | zero => exact Or.inl hhit
    | succ position => exact Or.inr ⟨position, (hitAt_cons_succ ..).mp hhit⟩
  · intro h
    cases h with
    | inl hhit => exact ⟨0, hhit⟩
    | inr hlater =>
        obtain ⟨position, hhit⟩ := hlater
        exact ⟨position + 1, (hitAt_cons_succ ..).mpr hhit⟩

theorem exists_hitAt_append (distance : ℕ) {front : List Text}
    (hfront : ∀ line ∈ front, ¬ clientKey <:+: line) (rest : List Text) :
    (∃ position,
        HitAt (distance + 1) clientKey clientIp (front ++ rest) position) ↔
      ∃ position, HitAt (distance + 1) clientKey clientIp rest position := by
  induction front with
  | nil => exact Iff.rfl
  | cons line front ih =>
      have hline := hfront line (by simp)
      rw [List.cons_append, exists_hitAt_cons,
        ih (fun other hother => hfront other (by simp [hother]))]
      constructor
      · intro h
        exact h.resolve_left (fun hhead => hline hhead.1)
      · exact Or.inr

theorem not_hitAt_nil (distance position : ℕ) :
    ¬ HitAt distance clientKey clientIp [] position := by
  intro h
  obtain ⟨line, _, hline, _⟩ := h
  simp at hline

theorem lastLineWithout_cons {line next : Text} {rest : List Text} :
    LastLineWithout clientKey (line :: next :: rest) ↔
      LastLineWithout clientKey (next :: rest) := by
  unfold LastLineWithout
  rw [List.getLast?_cons_cons]

theorem lastLineWithout_singleton {line : Text} :
    LastLineWithout clientKey [line] ↔ ¬ clientKey <:+: line := by
  simp [LastLineWithout]

/-! ## The loop -/

/-- Two matches behind, the loop can only finish. -/
theorem checkClientLoop_of_two_matches (lines : List Text) {rest : List Text}
    {index : ℕ} (hindex : index + 2 + rest.length ≤ lines.length) :
    checkClientLoop clientKey clientIp lines rest index true = some true := by
  induction rest generalizing index with
  | nil => rfl
  | cons line rest ih =>
      rw [List.length_cons] at hindex
      have hbelow : index + 2 < lines.length := by omega
      unfold checkClientLoop
      rw [List.getElem?_eq_getElem hbelow]
      by_cases hkey : clientKey <:+: line
      · by_cases hip : clientIp <:+: lines[index + 2]
        · simp only [if_pos hkey, if_pos hip]
          apply ih
          omega
        · simp only [if_pos hkey, if_neg hip]
          apply ih
          omega
      · rw [if_neg hkey]
        apply ih
        omega

/-- One match behind, the index lags by one: the line below the current one
is tested, and on the last line there is none. -/
theorem checkClientLoop_of_one_match {lines before rest : List Text}
    {index : ℕ} (hlines : lines = before ++ rest)
    (hindex : index + 1 = before.length) :
    checkClientLoop clientKey clientIp lines rest index true = some true ↔
      LastLineWithout clientKey rest ∨
        ∃ position, HitAt 1 clientKey clientIp rest position := by
  induction rest generalizing before index with
  | nil => simp [checkClientLoop, LastLineWithout]
  | cons line rest ih =>
      have hbelow : lines[index + 2]? = rest[0]? := by
        have hshift : index + 2 = before.length + 1 := by omega
        rw [hlines, hshift, List.getElem?_append_right (by omega),
          Nat.add_sub_cancel_left, List.getElem?_cons_succ]
      have hnext : checkClientLoop clientKey clientIp lines rest (index + 1)
          true = some true ↔ LastLineWithout clientKey rest ∨
            ∃ position, HitAt 1 clientKey clientIp rest position := by
        apply @ih (before ++ [line])
        · rw [hlines, List.append_assoc, List.singleton_append]
        · rw [List.length_append, List.length_singleton]
          omega
      rw [exists_hitAt_cons]
      unfold checkClientLoop
      rw [hbelow]
      by_cases hkey : clientKey <:+: line
      · rw [if_pos hkey]
        cases rest with
        | nil =>
            simp [lastLineWithout_singleton, hkey, not_hitAt_nil]
        | cons below rest =>
            rw [lastLineWithout_cons]
            by_cases hip : clientIp <:+: below
            · have hdone : checkClientLoop clientKey clientIp lines
                  (below :: rest) index true = some true := by
                apply checkClientLoop_of_two_matches
                simp only [hlines, List.length_append, List.length_cons]
                omega
              simp [hip, hkey, hdone]
            · simp [hip, hnext]
      · rw [if_neg hkey, hnext]
        cases rest with
        | nil => simp [hkey, LastLineWithout]
        | cons below rest => simp [lastLineWithout_cons, hkey]

theorem exists_two_hits_cons (line : Text) (rest : List Text) :
    (∃ first second, first < second ∧
        HitAt 2 clientKey clientIp (line :: rest) first ∧
          HitAt 1 clientKey clientIp (line :: rest) second) ↔
      (HitAt 2 clientKey clientIp (line :: rest) 0 ∧
        ∃ second, HitAt 1 clientKey clientIp rest second) ∨
      ∃ first second, first < second ∧
        HitAt 2 clientKey clientIp rest first ∧
          HitAt 1 clientKey clientIp rest second := by
  constructor
  · intro h
    obtain ⟨first, second, hlt, hfirst, hsecond⟩ := h
    cases second with
    | zero => omega
    | succ second =>
        rw [hitAt_cons_succ] at hsecond
        cases first with
        | zero => exact Or.inl ⟨hfirst, second, hsecond⟩
        | succ first =>
            rw [hitAt_cons_succ] at hfirst
            exact Or.inr ⟨first, second, by omega, hfirst, hsecond⟩
  · intro h
    cases h with
    | inl h =>
        obtain ⟨hfirst, second, hsecond⟩ := h
        exact ⟨0, second + 1, by omega, hfirst,
          (hitAt_cons_succ ..).mpr hsecond⟩
    | inr h =>
        obtain ⟨first, second, hlt, hfirst, hsecond⟩ := h
        exact ⟨first + 1, second + 1, by omega,
          (hitAt_cons_succ ..).mpr hfirst, (hitAt_cons_succ ..).mpr hsecond⟩

theorem not_accepts_nil : ¬ Accepts clientKey clientIp [] := by
  intro h
  obtain ⟨position, hhit⟩ := h.1
  exact not_hitAt_nil 2 position hhit

theorem accepts_cons_of_not_hit {line : Text} {rest : List Text}
    (hhit : ¬ HitAt 2 clientKey clientIp (line :: rest) 0) :
    Accepts clientKey clientIp (line :: rest) ↔
      Accepts clientKey clientIp rest := by
  have hfirst := hhit
  rw [hitAt_cons_zero] at hfirst
  cases rest with
  | nil =>
      constructor
      · intro h
        have hany := (exists_hitAt_cons 1 line []).mp h.1
        obtain ⟨position, hlater⟩ := hany.resolve_left hfirst
        exact absurd hlater (not_hitAt_nil 2 position)
      · intro h
        exact absurd h not_accepts_nil
  | cons next rest =>
      unfold Accepts
      rw [exists_hitAt_cons, lastLineWithout_cons, exists_two_hits_cons]
      simp only [hfirst, hhit, false_and, false_or]

/-- Before the first match the index is the position of the line. -/
theorem checkClientLoop_of_no_match {lines before rest : List Text}
    (hlines : lines = before ++ rest) :
    checkClientLoop clientKey clientIp lines rest before.length false =
        some true ↔
      Accepts clientKey clientIp rest := by
  induction rest generalizing before with
  | nil => simp [checkClientLoop, not_accepts_nil]
  | cons line rest ih =>
      have hbelow : lines[before.length + 2]? = rest[1]? := by
        rw [hlines, List.getElem?_append_right (by omega),
          Nat.add_sub_cancel_left, List.getElem?_cons_succ]
      have happend : lines = before ++ [line] ++ rest := by
        rw [hlines, List.append_assoc, List.singleton_append]
      have hlength : (before ++ [line]).length = before.length + 1 := by
        rw [List.length_append, List.length_singleton]
      have hnext := ih happend
      rw [hlength] at hnext
      unfold checkClientLoop
      rw [hbelow]
      by_cases hhit : HitAt 2 clientKey clientIp (line :: rest) 0
      · obtain ⟨hkey, below, hsome, hip⟩ := (hitAt_cons_zero ..).mp hhit
        rw [if_pos hkey, hsome]
        simp only [if_pos hip]
        rw [checkClientLoop_of_one_match happend hlength.symm]
        cases rest with
        | nil => simp at hsome
        | cons next rest =>
            unfold Accepts
            rw [lastLineWithout_cons, exists_two_hits_cons]
            constructor
            · intro h
              refine ⟨⟨0, hhit⟩, h.imp_right ?_⟩
              intro hsecond
              exact Or.inl ⟨hhit, hsecond⟩
            · intro h
              apply h.2.imp_right
              intro htwo
              cases htwo with
              | inl htwo => exact htwo.2
              | inr htwo =>
                  obtain ⟨_, second, _, _, hsecond⟩ := htwo
                  exact ⟨second, hsecond⟩
      · rw [accepts_cons_of_not_hit hhit]
        rw [hitAt_cons_zero] at hhit
        by_cases hkey : clientKey <:+: line
        · rw [if_pos hkey]
          cases hsome : rest[1]? with
          | none =>
              constructor
              · intro h
                simp at h
              · intro h
                obtain ⟨position, _, below, _, hlast, _⟩ := h.1
                rw [List.getElem?_eq_none_iff] at hsome
                have hposition := (List.getElem?_eq_some_iff.mp hlast).1
                omega
          | some below =>
              have hip : ¬ clientIp <:+: below := by
                intro hip
                exact hhit ⟨hkey, below, hsome, hip⟩
              simp only [if_neg hip]
              exact hnext
        · rw [if_neg hkey]
          exact hnext

theorem checkClient_eq_true_iff (host : Host) (container : Container) :
    checkClient host clientKey clientIp container = some true ↔
      Accepts clientKey clientIp (splitlines (wgShow host container)) := by
  unfold checkClient
  apply @checkClientLoop_of_no_match _ _ _ []
  rfl

/-! ## Where a whole key stands -/

theorem Key.not_infix_of_equals_not_mem (key : Key) {line : Text}
    (hline : '=' ∉ line) : ¬ key.text <:+: line := by
  intro hocc
  obtain ⟨body, hbody, _⟩ := key.text_eq
  apply hline
  apply hocc.subset
  rw [hbody]
  simp

theorem Key.not_infix_of_plain (key : Key) {line : Text}
    (hline : PlainLine line) : ¬ key.text <:+: line := by
  apply key.not_infix_of_equals_not_mem
  exact hline.not_mem (by decide)

theorem Key.not_infix_detailLines (key : Key) {peer : Peer} {line : Text}
    (hline : line ∈ peer.detailLines) : ¬ key.text <:+: line := by
  cases Peer.mem_detailLines hline with
  | inl hips =>
      rw [hips]
      exact key.not_infix_of_equals_not_mem
        (equals_not_mem_allowedIpsLine peer.allowedIps)
  | inr hplain => exact key.not_infix_of_plain hplain

/-- The first line after the addresses of a peer: of its own block, the empty
line before the next peer, or nothing. -/
def Peer.belowAllowedIps (peer : Peer) (later : List Peer) : Option Text :=
  match peer.handshake, peer.transfer, peer.keepalive with
  | some handshake, _, _ =>
      some ("  latest handshake: ".toList ++ handshake.text)
  | none, some transfer, _ => some ("  transfer: ".toList ++ transfer.text)
  | none, none, some seconds => some (keepaliveLine seconds)
  | none, none, none => if later = [] then none else some []

/-- What stands two lines below the key of a peer: its addresses, if either a
preshared key or an endpoint stands in between; with both, the endpoint; with
neither, what comes after the addresses. -/
def Peer.twoBelowKey (peer : Peer) (later : List Peer) : Option Text :=
  match peer.presharedKey, peer.endpoint with
  | some _, some endpoint => some ("  endpoint: ".toList ++ endpoint.text)
  | some _, none => some (allowedIpsLine peer.allowedIps)
  | none, some _ => some (allowedIpsLine peer.allowedIps)
  | none, none => peer.belowAllowedIps later

def blocks (peers : List Peer) : List Text :=
  peers.flatMap (fun peer => [] :: peer.showLines)

theorem Peer.twoBelowKey_eq (peer : Peer) (later : List Peer) :
    (peer.detailLines ++ blocks later)[1]? = peer.twoBelowKey later := by
  unfold Peer.detailLines Peer.twoBelowKey Peer.belowAllowedIps blocks
    allowedIpsLine
  cases peer.presharedKey <;> cases peer.endpoint <;>
    cases peer.handshake <;> cases peer.transfer <;>
      cases peer.keepalive <;> try rfl
  cases later <;> rfl

/-- Two lines below a whole key stands the address: below the interface's own
public key, where that line is the listening port, or in the block of a
peer. -/
def Interface.MatchesKey (host : Host) (interface : Interface)
    (clientKey clientIp : Text) : Prop :=
  ((∃ own, interface.privateKey = some own ∧
      (host.pubkey own).text = clientKey) ∧
    clientIp <:+: "  listening port: ".toList ++
      digits interface.listenPort) ∨
  ∃ earlier peer later, interface.peers = earlier ++ peer :: later ∧
    peer.key.text = clientKey ∧
      ∃ below, peer.twoBelowKey later = some below ∧ clientIp <:+: below

theorem Key.infix_label_iff {key other : Key} {label : Text}
    (hlabel : label ∈ keyLabels) :
    key.text <:+: label ++ other.text ↔ other.text = key.text := by
  have hequals : '=' ∉ label :=
    (plainLine_keyLabel hlabel).1.not_mem (by decide)
  constructor
  · intro hocc
    rw [Key.eq_of_infix_append hequals hocc]
  · intro hsame
    rw [← hsame]
    exact (List.suffix_append _ _).isInfix

theorem exists_hitAt_headLines (host : Host) (interface : Interface)
    (key : Key) (rest : List Text) :
    (∃ position,
        HitAt 2 key.text clientIp (interface.headLines host ++ rest)
          position) ↔
      ((∃ own, interface.privateKey = some own ∧
          (host.pubkey own).text = key.text) ∧
        clientIp <:+: "  listening port: ".toList ++
          digits interface.listenPort) ∨
      ∃ position, HitAt 2 key.text clientIp rest position := by
  have hname := key.not_infix_of_plain
    (show PlainLine "interface: wg0".toList by decide)
  have hhidden := key.not_infix_of_plain
    (show PlainLine "  private key: (hidden)".toList by decide)
  have hport := key.not_infix_of_plain
    (show PlainLine ("  listening port: ".toList ++
        digits interface.listenPort) from
      (plainLine_append _ _).mpr ⟨by decide, plainLine_digits _⟩)
  unfold Interface.headLines
  cases interface.privateKey with
  | none =>
      simp only [Option.map_none, Option.toList_none, List.append_nil,
        List.cons_append, List.nil_append]
      rw [exists_hitAt_cons, exists_hitAt_cons]
      simp only [hname, hport, false_and, false_or, reduceCtorEq,
        exists_false]
  | some own =>
      have hown : key.text <:+: "  public key: ".toList ++
          (host.pubkey own).text ↔ (host.pubkey own).text = key.text :=
        Key.infix_label_iff (by simp [keyLabels])
      simp only [Option.map_some, Option.toList_some, List.cons_append,
        List.nil_append]
      rw [exists_hitAt_cons, exists_hitAt_cons, exists_hitAt_cons,
        exists_hitAt_cons]
      simp only [hname, hhidden, hport, hown, false_and, false_or,
        List.getElem?_cons_succ, List.getElem?_cons_zero,
        Option.some.injEq, exists_eq_left']

/-- Read from its head, every block of the listing is met at its key line
only. -/
theorem exists_hitAt_blocks (key : Key) (peers : List Peer) :
    (∃ position, HitAt 2 key.text clientIp (blocks peers) position) ↔
      ∃ earlier peer later, peers = earlier ++ peer :: later ∧
        peer.key.text = key.text ∧
          ∃ below, peer.twoBelowKey later = some below ∧
            clientIp <:+: below := by
  induction peers with
  | nil => simp [blocks, not_hitAt_nil]
  | cons peer peers ih =>
      have hempty : ¬ key.text <:+: [] :=
        key.not_infix_of_plain (by simp [PlainLine])
      have hkey : key.text <:+: "peer: ".toList ++ peer.key.text ↔
          peer.key.text = key.text :=
        Key.infix_label_iff (by simp [keyLabels])
      have hdetail : ∀ line ∈ peer.detailLines, ¬ key.text <:+: line :=
        fun line hline => key.not_infix_detailLines hline
      have hlines : blocks (peer :: peers) =
          [] :: ("peer: ".toList ++ peer.key.text) ::
            (peer.detailLines ++ blocks peers) := by
        simp only [blocks, List.flatMap_cons, Peer.showLines,
          List.cons_append]
      rw [hlines, exists_hitAt_cons, exists_hitAt_cons,
        exists_hitAt_append 1 hdetail, peer.twoBelowKey_eq, hkey, ih]
      simp only [hempty, false_and, false_or]
      constructor
      · rintro (⟨hsame, hbelow⟩ | ⟨earlier, other, later, rfl, hother⟩)
        · exact ⟨[], peer, peers, rfl, hsame, hbelow⟩
        · exact ⟨peer :: earlier, other, later, rfl, hother⟩
      · rintro ⟨earlier, other, later, hsplit, hother⟩
        cases earlier with
        | nil =>
            simp only [List.nil_append, List.cons.injEq] at hsplit
            rw [hsplit.1, hsplit.2]
            exact Or.inl hother
        | cons first earlier =>
            simp only [List.cons_append, List.cons.injEq] at hsplit
            exact Or.inr ⟨earlier, other, later, hsplit.2, hother⟩

/-- The last line of a listing is the listening port, or belongs to a block
and is not a key line. -/
theorem lastLineWithout_showLines (host : Host) (key : Key)
    (interface : Interface) :
    LastLineWithout key.text (interface.showLines host) := by
  intro line hlast
  rcases List.eq_nil_or_concat interface.peers with hnone | ⟨front, peer, hsplit⟩
  · have hport : line = "  listening port: ".toList ++
        digits interface.listenPort := by
      unfold Interface.showLines Interface.headLines at hlast
      rw [hnone, List.flatMap_nil, List.append_nil, List.getLast?_concat,
        Option.some.injEq] at hlast
      exact hlast.symm
    rw [hport]
    exact key.not_infix_of_plain
      ((plainLine_append _ _).mpr ⟨by decide, plainLine_digits _⟩)
  · have hlines : interface.showLines host =
        (interface.headLines host ++
          front.flatMap (fun peer => [] :: peer.showLines) ++
            [[], "peer: ".toList ++ peer.key.text]) ++ peer.detailLines := by
      unfold Interface.showLines
      rw [hsplit, List.concat_eq_append, List.flatMap_append,
        List.flatMap_singleton, Peer.showLines]
      simp only [List.append_assoc, List.cons_append, List.nil_append]
    have hne : peer.detailLines ≠ [] := by
      intro hnil
      have hmem := peer.allowedIpsLine_mem_detailLines
      rw [hnil] at hmem
      exact List.not_mem_nil hmem
    rw [hlines, List.getLast?_append_of_ne_nil _ hne] at hlast
    exact key.not_infix_detailLines (List.mem_of_getLast? hlast)

theorem accepts_iff_matchesKey (host : Host) (interface : Interface)
    (key : Key) :
    Accepts key.text clientIp (interface.showLines host) ↔
      interface.MatchesKey host key.text clientIp := by
  have hlast := lastLineWithout_showLines host key interface
  have hhit := @exists_hitAt_headLines clientIp host interface key
    (blocks interface.peers)
  rw [exists_hitAt_blocks] at hhit
  unfold Accepts Interface.MatchesKey
  rw [and_iff_left (Or.inl hlast)]
  exact hhit

end SecaasCharms.WireGuard
