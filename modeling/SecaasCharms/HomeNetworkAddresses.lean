import SecaasCharms.FailedConfiguration

/-!
# Which lists of addresses give the home network

The loop takes an address out of the list it iterates over when it contains an
`f`, and thereby skips the next one.  It computes the masked IPv4 addresses
exactly when it meets no other address, or only a last one with an `f`.
-/

namespace SecaasCharms

open TextLines

/-! ## Addresses -/

structure Ipv4 where
  first : Fin 256
  second : Fin 256
  third : Fin 256
  fourth : Fin 256

def Ipv4.text (address : Ipv4) : Text :=
  digits address.first ++ '.' :: (digits address.second ++
    '.' :: (digits address.third ++ '.' :: digits address.fourth))

/-- `a.b.c.0/24`. -/
def Ipv4.network (address : Ipv4) : Text :=
  digits address.first ++ '.' :: (digits address.second ++
    '.' :: (digits address.third ++ ".0/24".toList))

def isIpv6Char (c : Char) : Bool :=
  c.isAlphanum || c == ':' || c == '.'

/-- The text of an IPv6 address.  Only its end may be dotted, as in
`::ffff:10.0.0.7`. -/
structure Ipv6 where
  address : Token isIpv6Char
  colon_before_dots : ∃ head rest, address.text = head ++ ':' :: rest ∧
    '.' ∉ head

inductive HostAddress where
  | ipv4 (address : Ipv4)
  | ipv6 (address : Ipv6)

def HostAddress.text : HostAddress → Text
  | .ipv4 address => address.text
  | .ipv6 address => address.address.text

theorem isAddressChar_of_isIpv6Char {c : Char}
    (hc : isIpv6Char c = true) : isAddressChar c = true := by
  have hboundary : isLineBoundary c = false :=
    isLineBoundary_eq_false_of (by decide) hc
  have hblank : c ≠ ' ' := by
    rintro rfl
    revert hc
    decide
  simp [isAddressChar, hboundary, hblank]

theorem Ipv4.digit_or_dot {address : Ipv4} {c : Char}
    (hc : c ∈ address.text) : c.isDigit = true ∨ c = '.' := by
  simp only [Ipv4.text, List.mem_append, List.mem_cons] at hc
  rcases hc with h | rfl | h | rfl | h | rfl | h
  · exact Or.inl (isDigit_of_mem_digits h)
  · exact Or.inr rfl
  · exact Or.inl (isDigit_of_mem_digits h)
  · exact Or.inr rfl
  · exact Or.inl (isDigit_of_mem_digits h)
  · exact Or.inr rfl
  · exact Or.inl (isDigit_of_mem_digits h)

theorem isIpv6Char_of_digit_or_dot {c : Char}
    (hc : c.isDigit = true ∨ c = '.') : isIpv6Char c = true := by
  rcases hc with hdigit | rfl
  · simp [isIpv6Char, Char.isAlphanum, hdigit]
  · decide

theorem HostAddress.text_allowed (address : HostAddress) :
    address.text.all isAddressChar = true := by
  rw [List.all_eq_true]
  intro c hc
  cases address with
  | ipv4 address =>
      exact isAddressChar_of_isIpv6Char
        (isIpv6Char_of_digit_or_dot (Ipv4.digit_or_dot hc))
  | ipv6 address =>
      exact isAddressChar_of_isIpv6Char
        (List.all_eq_true.mp address.address.all_allowed c hc)

def HostAddress.address (address : HostAddress) : Address :=
  ⟨address.text, address.text_allowed⟩

/-- `hostname -I`. -/
def hostnameStdout (addresses : List HostAddress) : Text :=
  hostnameOutput (addresses.map HostAddress.address)

/-! ## What is wanted -/

def HostAddress.network? : HostAddress → Option Text
  | .ipv4 address => some address.network
  | .ipv6 _ => none

def maskedNetworks (addresses : List HostAddress) : List Text :=
  addresses.filterMap HostAddress.network?

/-- The home network is computed and is what the charms write. -/
structure WritesHomeNetwork (addresses : List HostAddress) : Prop where
  computed : homeNetwork (hostnameStdout addresses) =
    .ok (maskedNetworks addresses)
  snort : ∀ files content, files (confPath .snort) = some content →
    (SnortCharm.onStartConfigurationAction (.ok (hostnameStdout addresses))
        files).1 (confPath .snort) =
      some (SnortCharm.homeNetLine (maskedNetworks addresses) ++
        '\n' :: universalNewlines content)
  suricata : ∀ files content nic,
    files (confPath .suricata) = some content → ∃ rest,
      (SuricataCharm.onStartConfigurationAction
          (.ok (hostnameStdout addresses)) nic files).1 (confPath .suricata) =
        some (SuricataCharm.homeNetLine (maskedNetworks addresses) ++
          '\n' :: rest)
  ids : ∀ files content, files (confPath .snort) = some content →
    (IdsCharm.configureSnort (.ok (hostnameStdout addresses)) files).1
        (confPath .snort) =
      some (SnortCharm.homeNetLine (maskedNetworks addresses) ++
        '\n' :: universalNewlines content)

def HostAddress.IsIpv4 : HostAddress → Prop
  | .ipv4 _ => True
  | .ipv6 _ => False

/-- Every address but the last is an IPv4 address, and the last one is that or
contains the letter `f`. -/
def OnlyLastIpv6 (addresses : List HostAddress) : Prop :=
  (∀ address ∈ addresses.dropLast, address.IsIpv4) ∧
    ∀ address ∈ addresses.getLast?, address.IsIpv4 ∨ 'f' ∈ address.text

/-! ## The loop without its index -/

/-- What the loop makes of the elements it has not reached: an element after
one that is removed is passed over. -/
def maskRest : List Text → Except Text (List Text)
  | [] => .ok []
  | [value] =>
      if 'f' ∈ value then .ok []
      else (maskAddress value).map (fun masked => [masked])
  | value :: next :: rest =>
      if 'f' ∈ value then
        (maskRest rest).map (fun masked => next :: masked)
      else
        match maskAddress value with
        | .error exception => .error exception
        | .ok first =>
            (maskRest (next :: rest)).map (fun masked => first :: masked)

theorem maskRest_of_masked {value masked : Text} (hvalue : 'f' ∉ value)
    (hmasked : maskAddress value = .ok masked) (rest : List Text) :
    maskRest (value :: rest) =
      (maskRest rest).map (fun later => masked :: later) := by
  cases rest with
  | nil => simp [maskRest, hvalue, hmasked, Except.map]
  | cons next rest => simp [maskRest, hvalue, hmasked]

theorem maskRest_of_error {value exception : Text} (hvalue : 'f' ∉ value)
    (herror : maskAddress value = .error exception) (rest : List Text) :
    maskRest (value :: rest) = .error exception := by
  cases rest with
  | nil => simp [maskRest, hvalue, herror, Except.map]
  | cons next rest => simp [maskRest, hvalue, herror]

theorem maskRest_of_removed {value : Text} (hvalue : 'f' ∈ value)
    (next : Text) (rest : List Text) :
    maskRest (value :: next :: rest) =
      (maskRest rest).map (fun later => next :: later) := by
  simp [maskRest, hvalue]

theorem maskLoop_at_end (passes index : ℕ) {output : List Text}
    (hindex : output.length ≤ index) :
    maskLoop passes index output = .ok output := by
  cases passes with
  | zero => rfl
  | succ passes =>
      unfold maskLoop
      rw [List.getElem?_eq_none hindex]

/-- The index stands between what is done and what is still to come. -/
theorem maskLoop_eq (passes : ℕ) (done rest : List Text)
    (hpasses : rest.length ≤ passes) :
    maskLoop passes done.length (done ++ rest) =
      (maskRest rest).map (fun masked => done ++ masked) := by
  induction passes generalizing done rest with
  | zero =>
      have hrest : rest = [] := List.length_eq_zero_iff.mp (by omega)
      rw [hrest]
      rfl
  | succ passes ih =>
      cases rest with
      | nil =>
          rw [List.append_nil]
          exact (maskLoop_at_end _ _ le_rfl).trans
            (congrArg Except.ok (List.append_nil done).symm)
      | cons value rest =>
          have hvalue : (done ++ value :: rest)[done.length]? =
              some value := by simp
          have hlength : rest.length ≤ passes := by
            rw [List.length_cons] at hpasses
            omega
          unfold maskLoop
          rw [hvalue]
          simp only
          by_cases hremoved : 'f' ∈ value
          · have herased : (done ++ value :: rest).eraseIdx done.length =
                done ++ rest := by
              rw [List.eraseIdx_append_of_length_le le_rfl]
              simp
            rw [if_pos hremoved, herased]
            cases rest with
            | nil =>
                rw [maskLoop_at_end _ _ (by simp)]
                simp [maskRest, hremoved, Except.map]
            | cons next rest =>
                have hnext := ih (done ++ [next]) rest
                  (Nat.le_of_succ_le hlength)
                rw [List.length_append, List.length_singleton,
                  List.append_assoc] at hnext
                rw [maskRest_of_removed hremoved]
                refine hnext.trans ?_
                cases maskRest rest <;> simp [Except.map]
          · rw [if_neg hremoved]
            cases hmask : maskAddress value with
            | error exception =>
                rw [maskRest_of_error hremoved hmask]
                rfl
            | ok masked =>
                have hset : (done ++ value :: rest).set done.length masked =
                    done ++ [masked] ++ rest := by
                  rw [List.set_append_right _ _ le_rfl]
                  simp
                have hnext := ih (done ++ [masked]) rest hlength
                rw [List.length_append, List.length_singleton] at hnext
                rw [maskRest_of_masked hremoved hmask]
                simp only [hset]
                refine hnext.trans ?_
                cases maskRest rest <;> simp [Except.map]

theorem homeNetwork_hostnameStdout (addresses : List HostAddress) :
    homeNetwork (hostnameStdout addresses) =
      maskRest (addresses.map HostAddress.text) := by
  have htexts : (addresses.map HostAddress.address).map Token.text =
      addresses.map HostAddress.text := by
    rw [List.map_map]
    rfl
  unfold homeNetwork hostnameStdout
  rw [splitOn_hostnameOutput, htexts]
  have hloop := maskLoop_eq (addresses.map HostAddress.text).length []
    (addresses.map HostAddress.text) le_rfl
  simp only [List.length_nil, List.nil_append] at hloop
  refine hloop.trans ?_
  cases maskRest (addresses.map HostAddress.text) <;> rfl

/-! ## One address -/

theorem Ipv4.f_not_mem (address : Ipv4) : 'f' ∉ address.text := by
  intro hmem
  rcases Ipv4.digit_or_dot hmem with hdigit | hdot
  · revert hdigit
    decide
  · revert hdot
    decide

theorem dot_not_mem_digits (n : ℕ) : '.' ∉ digits n := by
  intro hmem
  have hdigit := isDigit_of_mem_digits hmem
  revert hdigit
  decide

theorem Ipv4.maskAddress_text (address : Ipv4) :
    maskAddress address.text = .ok address.network := by
  have hsplit : address.text.splitOn '.' =
      [digits address.first, digits address.second, digits address.third,
        digits address.fourth] := by
    unfold Ipv4.text
    rw [splitOn_append_cons (dot_not_mem_digits _),
      splitOn_append_cons (dot_not_mem_digits _),
      splitOn_append_cons (dot_not_mem_digits _),
      splitOn_of_not_mem (dot_not_mem_digits _)]
  unfold maskAddress
  rw [hsplit]
  simp [Ipv4.network]

theorem colon_not_mem_network (address : Ipv4) : ':' ∉ address.network := by
  have hdigits : ∀ n, ':' ∉ digits n := by
    intro n hmem
    have hdigit := isDigit_of_mem_digits hmem
    revert hdigit
    decide
  simp [Ipv4.network, hdigits]

theorem colon_not_mem_maskedNetworks {addresses : List HostAddress}
    {network : Text} (hnetwork : network ∈ maskedNetworks addresses) :
    ':' ∉ network := by
  unfold maskedNetworks at hnetwork
  rw [List.mem_filterMap] at hnetwork
  rcases hnetwork with ⟨address, _, hsome⟩
  cases address with
  | ipv4 address =>
      cases hsome
      exact colon_not_mem_network address
  | ipv6 address => cases hsome

theorem Ipv4.network_ne_text (address other : Ipv4) :
    other.text ≠ address.network := by
  have hslash : '/' ∈ address.network := by simp [Ipv4.network]
  intro heq
  rw [← heq] at hslash
  rcases Ipv4.digit_or_dot hslash with hdigit | hdot
  · revert hdigit
    decide
  · revert hdot
    decide

/-- A masked IPv6 address is still none of the wanted ones. -/
theorem Ipv6.colon_mem_of_maskAddress {address : Ipv6} {masked : Text}
    (hmasked : maskAddress address.address.text = .ok masked) :
    ':' ∈ masked := by
  rcases address.colon_before_dots with ⟨head, rest, htext, hhead⟩
  rw [htext] at hmasked
  by_cases hdot : '.' ∈ rest
  · rcases List.eq_append_cons_of_mem hdot with
      ⟨group, dotted, hrest, hgroup⟩
    have hfirst : '.' ∉ head ++ ':' :: group := by
      simp [hhead, hgroup]
    have hsplit : head ++ ':' :: rest =
        (head ++ ':' :: group) ++ '.' :: dotted := by
      rw [hrest, List.append_assoc, List.cons_append]
    unfold maskAddress at hmasked
    rw [hsplit, splitOn_append_cons hfirst] at hmasked
    split at hmasked
    next first second third others heq =>
      rw [List.cons.injEq] at heq
      rw [← heq.1, Except.ok.injEq] at hmasked
      rw [← hmasked]
      simp
    next => contradiction
  · have hnone : '.' ∉ head ++ ':' :: rest := by
      simp [hhead, hdot]
    unfold maskAddress at hmasked
    rw [splitOn_of_not_mem hnone] at hmasked
    contradiction

theorem Ipv6.colon_mem (address : Ipv6) : ':' ∈ address.address.text := by
  rcases address.colon_before_dots with ⟨head, rest, htext, _⟩
  rw [htext]
  simp

/-! ## When the loop computes the masked IPv4 addresses -/

theorem map_cons_eq_ok_iff {computed : Except Text (List Text)}
    {network : Text} {networks : List Text} :
    computed.map (fun later => network :: later) = .ok (network :: networks) ↔
      computed = .ok networks := by
  cases computed with
  | error exception => simp [Except.map]
  | ok later => simp [Except.map]

theorem map_cons_ne_ok {computed : Except Text (List Text)} {first : Text}
    {networks : List Text} (hfirst : first ∉ networks) :
    computed.map (fun later => first :: later) ≠ .ok networks := by
  intro heq
  cases computed with
  | error exception => contradiction
  | ok later =>
      have hlist : first :: later = networks := Except.ok.inj heq
      rw [← hlist] at hfirst
      exact hfirst List.mem_cons_self

theorem onlyLastIpv6_singleton (address : HostAddress) :
    OnlyLastIpv6 [address] ↔ address.IsIpv4 ∨ 'f' ∈ address.text := by
  simp [OnlyLastIpv6]

theorem onlyLastIpv6_cons (address next : HostAddress)
    (rest : List HostAddress) :
    OnlyLastIpv6 (address :: next :: rest) ↔
      address.IsIpv4 ∧ OnlyLastIpv6 (next :: rest) := by
  simp [OnlyLastIpv6, and_assoc]

/-- The element after a removed one is not among the wanted networks: it is an
IPv6 text or an address that is not masked. -/
theorem maskRest_of_removed_ne {value : Text} (hvalue : 'f' ∈ value)
    (next : HostAddress) (rest : List HostAddress) :
    maskRest (value :: next.text :: rest.map HostAddress.text) ≠
      .ok (maskedNetworks (next :: rest)) := by
  rw [maskRest_of_removed hvalue]
  cases next with
  | ipv6 address =>
      apply map_cons_ne_ok
      intro hmem
      exact colon_not_mem_maskedNetworks hmem address.colon_mem
  | ipv4 address =>
      intro heq
      cases hrest : maskRest (rest.map HostAddress.text) with
      | error exception =>
          rw [hrest] at heq
          contradiction
      | ok later =>
          rw [hrest] at heq
          have hlist := Except.ok.inj heq
          have hhead : address.text = address.network :=
            (List.cons.inj hlist).1
          exact Ipv4.network_ne_text address address hhead

theorem maskRest_eq_maskedNetworks_iff (addresses : List HostAddress) :
    maskRest (addresses.map HostAddress.text) =
        .ok (maskedNetworks addresses) ↔
      OnlyLastIpv6 addresses := by
  induction addresses with
  | nil => simp [maskRest, maskedNetworks, OnlyLastIpv6]
  | cons address rest ih =>
      cases address with
      | ipv4 address =>
          have hstep := maskRest_of_masked address.f_not_mem
            address.maskAddress_text (rest.map HostAddress.text)
          have hwanted : maskedNetworks (.ipv4 address :: rest) =
              address.network :: maskedNetworks rest := rfl
          rw [List.map_cons, hwanted]
          refine (iff_of_eq (congrArg (· = _) hstep)).trans ?_
          rw [map_cons_eq_ok_iff, ih]
          cases rest with
          | nil => simp [OnlyLastIpv6, HostAddress.IsIpv4]
          | cons next rest =>
              rw [onlyLastIpv6_cons]
              simp [HostAddress.IsIpv4]
      | ipv6 address =>
          have hwanted : maskedNetworks (.ipv6 address :: rest) =
              maskedNetworks rest := rfl
          rw [List.map_cons, hwanted]
          by_cases hremoved : 'f' ∈ address.address.text
          · cases rest with
            | nil =>
                rw [onlyLastIpv6_singleton]
                refine iff_of_true ?_ (Or.inr hremoved)
                exact if_pos hremoved
            | cons next rest =>
                rw [onlyLastIpv6_cons]
                refine iff_of_false ?_ (fun honly => honly.1)
                exact maskRest_of_removed_ne hremoved next rest
          · have hnot : ¬ OnlyLastIpv6 (.ipv6 address :: rest) := by
              intro honly
              cases rest with
              | nil =>
                  rw [onlyLastIpv6_singleton] at honly
                  exact honly.elim id hremoved
              | cons next rest =>
                  rw [onlyLastIpv6_cons] at honly
                  exact honly.1
            refine iff_of_false ?_ hnot
            intro heq
            cases hmask : maskAddress address.address.text with
            | error exception =>
                have herror := maskRest_of_error hremoved hmask
                  (rest.map HostAddress.text)
                have hclash := herror.symm.trans heq
                contradiction
            | ok masked =>
                have hstep := maskRest_of_masked hremoved hmask
                  (rest.map HostAddress.text)
                have hcolon := Ipv6.colon_mem_of_maskAddress hmask
                have hother : masked ∉ maskedNetworks rest := by
                  intro hmem
                  exact colon_not_mem_maskedNetworks hmem hcolon
                exact map_cons_ne_ok hother (hstep.symm.trans heq)

/-! ## The configuration files -/

theorem writesHomeNetwork_of_computed {addresses : List HostAddress}
    (hcomputed : homeNetwork (hostnameStdout addresses) =
      .ok (maskedNetworks addresses)) :
    WritesHomeNetwork addresses := by
  have hbind : (Except.ok (hostnameStdout addresses)).bind homeNetwork =
      .ok (maskedNetworks addresses) := hcomputed
  constructor
  · exact hcomputed
  · intro files content hfile
    unfold SnortCharm.onStartConfigurationAction
    rw [hbind, Files.read_of_some hfile]
    simp only [Files.write_self]
  · intro files content nic hfile
    rw [suricata_eq_configure]
    cases hname : nic.map (fun status => (selectInterface status).text) with
    | error exception =>
        rw [configure_of_no_interface _ hbind hfile rfl]
        exact ⟨_, Files.write_self files (confPath .suricata) _⟩
    | ok name =>
        have houtput := homeNetwork_unbroken hcomputed
        have hdone := configure_of_interface
          SuricataCharm.configurationFailed hbind hfile
          (rfl : Except.ok name = .ok name)
        rw [inPlacePass_header _ houtput] at hdone
        exact ⟨_, hdone.2⟩
  · intro files content hfile
    unfold IdsCharm.configureSnort
    rw [hbind, Files.read_of_some hfile]
    simp only [Files.write_self]

/-- The home network is the list of the masked IPv4 addresses, and is written
so, exactly when no address but the last is an IPv6 address and such a last
one contains an `f`. -/
theorem writesHomeNetwork_iff (addresses : List HostAddress) :
    WritesHomeNetwork addresses ↔ OnlyLastIpv6 addresses := by
  rw [← maskRest_eq_maskedNetworks_iff, ← homeNetwork_hostnameStdout]
  constructor
  · intro hwrites
    exact hwrites.computed
  · exact writesHomeNetwork_of_computed

/-- The IPv4 address below an IPv6 address with an `f` is passed over. -/
theorem not_writesHomeNetwork_of_ipv6_first :
    ¬ WritesHomeNetwork
      [.ipv6 ⟨⟨"fd00::7".toList, by decide⟩,
          ⟨"fd00".toList, ":7".toList, by decide, by decide⟩⟩,
        .ipv4 ⟨10, 0, 0, 7⟩] := by
  intro hwrites
  have hcomputed := hwrites.computed
  revert hcomputed
  decide

end SecaasCharms
