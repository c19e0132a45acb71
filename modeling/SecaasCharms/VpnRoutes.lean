import SecaasCharms.CharmActions
import SecaasCharms.JsonText
import SecaasCharms.VpnSettings

/-!
# Networks in the OpenVPN configuration

The scripts take networks as an address and a number of bits, and OpenVPN
wants an address and a mask.  `cidr2mask` fills the mask octet by octet.  The
mask it prints keeps exactly the leading bits, so a route covers exactly the
addresses that share them with the network.
-/

namespace SecaasCharms.OpenVpn

open TextLines

/-! ## Words and `echo` -/

/-- The characters at which the shell cuts what is not quoted. -/
def isIfs (c : Char) : Bool := c = ' ' || c = '\t' || c = '\n'

/-- The words of an expansion that is not quoted.  One with `*`, `?` or `[`
stands for itself, as if no file had such a name. -/
def shellWords (text : Text) : List Text :=
  (text.splitOnP isIfs).filter (fun word => word ≠ [])

def isEchoOption : Text → Bool
  | '-' :: letters =>
      letters ≠ [] && letters.all (fun c => c = 'n' || c = 'e' || c = 'E')
  | _ => false

/-- What `echo` prints of its arguments, up to the end of the line.  No
argument that follows an option here has a backslash. -/
def echoText (arguments : List Text) : Text :=
  " ".toList.intercalate (arguments.dropWhile isEchoOption)

/-- The lines that `echo` adds to a file for one argument; an option prints
the end of the line at most. -/
def echoLines (argument : Text) : List Text :=
  if isEchoOption argument then
    if argument.contains 'n' then [] else [[]]
  else [argument]

/-! ## The conversion -/

/-- `${1#*/}`. -/
def behindSlash (route : Text) : Text :=
  if route.contains '/' then (route.dropWhile (fun c => c != '/')).tail
  else route

/-- `${1%/*}`. -/
def beforeSlash (route : Text) : Text :=
  if route.contains '/' then
    (route.reverse.dropWhile (fun c => c != '/')).tail.reverse
  else route

def isOctal (c : Char) : Bool := c.isDigit && c ≠ '8' && c ≠ '9'

/-- A number in 64 bits with a sign. -/
def wrapped (value : ℕ) : ℤ := (value : ℤ).bmod (2 ^ 64)

/-- A numeral in `$((...))`; a leading zero makes it octal.  Other expressions
are taken as failing. -/
def arithmetic? (numeral : Text) : Option ℤ :=
  match numeral with
  | [] => none
  | '0' :: digits =>
      if digits.all isOctal then
        some (wrapped (Nat.ofDigitChars 8 digits 0))
      else none
  | digits =>
      if digits.all Char.isDigit then
        some (wrapped (Nat.ofDigitChars 10 digits 0))
      else none

/-- One pass of the loop over the octets. -/
def maskOctet (cidr : ℤ) (octet : ℕ) : ℤ :=
  if octet < cidr.tdiv 8 then 255
  else if octet = cidr.tdiv 8 then 256 - 2 ^ (8 - cidr.tmod 8).toNat
  else 0

def maskText (cidr : ℤ) : Text :=
  ".".toList.intercalate
    ((List.range 4).map (fun octet => JsonText.intText (maskOctet cidr octet)))

/-- Nothing is printed if the arithmetic fails. -/
def cidr2mask (route : Text) : Text :=
  match arithmetic? (behindSlash route) with
  | none => []
  | some cidr => maskText cidr

/-- `$(getroute ...)` with a network that is not quoted.  Without any word `$1`
is unbound, and nothing is printed. -/
def getroute (network : Text) : Text :=
  match shellWords network with
  | [] => []
  | route :: _ =>
      echoText (shellWords (beforeSlash route) ++
        shellWords (cidr2mask route))

example : getroute "10.1.0.0/20".toList = "10.1.0.0 255.255.240.0".toList := by
  decide

/-! ## Reading a network back -/

theorem wrapped_of_lt {value : ℕ} (hvalue : value < 2 ^ 63) :
    wrapped value = value := by
  apply Int.bmod_eq_of_le
  · omega
  · omega

theorem arithmetic?_digits {n : ℕ} (hn : n < 2 ^ 63) :
    arithmetic? (digits n) = some (n : ℤ) := by
  have hvalue : Nat.ofDigitChars 10 (digits n) 0 = n :=
    Nat.ofDigitChars_ten_toDigits
  have hall : (digits n).all Char.isDigit = true :=
    List.all_eq_true.mpr (fun _ hc => isDigit_of_mem_digits hc)
  unfold arithmetic?
  split
  case h_1 hempty => exact absurd hempty Nat.toDigits_ne_nil
  case h_2 rest hzero =>
    have hdigits : digits n = ['0'] :=
      JsonText.digits_eq_of_head_zero n (congrArg List.head? hzero)
    have hrest : rest = [] := (List.cons.inj (hzero.symm.trans hdigits)).2
    rw [hdigits] at hvalue
    rw [hrest, ← hvalue]
    rfl
  case h_3 => rw [if_pos hall, hvalue, wrapped_of_lt hn]

theorem isIfs_of_isHostChar {c : Char} (hc : isHostChar c = true) :
    isIfs c = false := by
  cases hifs : isIfs c with
  | false => rfl
  | true =>
      simp only [isIfs, Bool.or_eq_true, decide_eq_true_eq] at hifs
      rcases hifs with (rfl | rfl) | rfl
      all_goals contradiction

theorem isHostChar_of_mem_digits {n : ℕ} {c : Char} (hc : c ∈ digits n) :
    isHostChar c = true := by
  simp [isHostChar, Char.isAlphanum, isDigit_of_mem_digits hc]

/-- A text that the shell does not cut. -/
theorem shellWords_of_solid {word : Text} (hne : word ≠ [])
    (hsolid : ∀ c ∈ word, isIfs c = false) : shellWords word = [word] := by
  rw [shellWords, List.splitOnP_eq_singleton hsolid]
  simp [hne]

theorem slash_not_mem_digits (n : ℕ) : '/' ∉ digits n :=
  fun hslash => absurd (isDigit_of_mem_digits hslash) (by decide)

theorem ne_slash_of_mem {text : Text} (htext : '/' ∉ text) :
    ∀ c ∈ text, (c != '/') = true := by
  intro c hc
  rw [bne_iff_ne]
  intro hslash
  rw [hslash] at hc
  exact htext hc

theorem behindSlash_network {address : Text} (haddress : '/' ∉ address)
    (bits : Text) : behindSlash (address ++ '/' :: bits) = bits := by
  have hmem : (address ++ '/' :: bits).contains '/' = true :=
    List.contains_iff_mem.mpr (by simp)
  rw [behindSlash, if_pos hmem,
    List.dropWhile_append_of_pos (ne_slash_of_mem haddress)]
  rfl

theorem beforeSlash_network (address : Text) {bits : Text}
    (hbits : '/' ∉ bits) : beforeSlash (address ++ '/' :: bits) = address := by
  have hmem : (address ++ '/' :: bits).contains '/' = true :=
    List.contains_iff_mem.mpr (by simp)
  have hreverse : (address ++ '/' :: bits).reverse =
      bits.reverse ++ '/' :: address.reverse := by simp
  have hdigits : ∀ c ∈ bits.reverse, (c != '/') = true :=
    fun c hc => ne_slash_of_mem hbits c (List.mem_reverse.mp hc)
  have hstop : ('/' :: address.reverse).dropWhile (fun c => c != '/') =
      '/' :: address.reverse := rfl
  rw [beforeSlash, if_pos hmem, hreverse,
    List.dropWhile_append_of_pos hdigits, hstop, List.tail_cons,
    List.reverse_reverse]

/-! ## The octets as natural numbers -/

def keptOctet (cidr octet : ℕ) : ℕ :=
  if octet < cidr / 8 then 255
  else if octet = cidr / 8 then 256 - 2 ^ (8 - cidr % 8)
  else 0

theorem maskOctet_natCast (cidr octet : ℕ) :
    maskOctet cidr octet = keptOctet cidr octet := by
  have hdiv : (cidr : ℤ).tdiv 8 = ((cidr / 8 : ℕ) : ℤ) :=
    Int.ofNat_tdiv cidr 8
  have hmod : (8 - (cidr : ℤ).tmod 8).toNat = 8 - cidr % 8 := by
    have hrest : (cidr : ℤ).tmod 8 = ((cidr % 8 : ℕ) : ℤ) :=
      Int.ofNat_tmod cidr 8
    omega
  have hpower : 2 ^ (8 - cidr % 8) ≤ 256 :=
    Nat.pow_le_pow_right Nat.zero_lt_two (Nat.sub_le 8 (cidr % 8))
  unfold maskOctet keptOctet
  rw [hdiv, hmod]
  simp only [Nat.cast_lt, Nat.cast_inj]
  split_ifs
  · rfl
  · exact (Int.natCast_sub hpower).symm
  · rfl

theorem maskText_natCast (cidr : ℕ) :
    maskText cidr = ".".toList.intercalate
      ((List.range 4).map (fun octet => digits (keptOctet cidr octet))) := by
  simp only [maskText, maskOctet_natCast, JsonText.intText_natCast]
  rfl

theorem isHostChar_of_mem_maskText {cidr : ℕ} {c : Char}
    (hc : c ∈ maskText cidr) : isHostChar c = true := by
  rw [maskText_natCast] at hc
  simp only [List.range_succ, List.range_zero, List.nil_append,
    List.cons_append, List.map_cons, List.map_nil, List.intercalate,
    List.intersperse, List.flatten_cons, List.flatten_nil, List.mem_append,
    List.append_nil] at hc
  have hdot : c ∈ ".".toList → isHostChar c = true := by
    intro hmem
    rw [List.mem_singleton.mp hmem]
    rfl
  rcases hc with hmem | hmem | hmem | hmem | hmem | hmem | hmem
  all_goals first | exact isHostChar_of_mem_digits hmem | exact hdot hmem

theorem shellWords_maskText (cidr : ℕ) :
    shellWords (maskText cidr) = [maskText cidr] := by
  have hdot : '.' ∈ maskText cidr := by
    rw [maskText_natCast]
    simp [List.range_succ, List.intercalate]
  exact shellWords_of_solid (List.ne_nil_of_mem hdot)
    (fun _ hc => isIfs_of_isHostChar (isHostChar_of_mem_maskText hc))

theorem getroute_network {address : Text} (hne : address ≠ [])
    (haddress : ∀ c ∈ address, isHostChar c = true)
    (hdash : address.head? ≠ some '-') {cidr : ℕ} (hcidr : cidr < 2 ^ 63) :
    getroute (address ++ '/' :: digits cidr) =
      address ++ ' ' :: maskText cidr := by
  have hslash : '/' ∉ address :=
    fun hmem => absurd (haddress '/' hmem) (by decide)
  have hsolid : ∀ c ∈ address, isIfs c = false :=
    fun c hc => isIfs_of_isHostChar (haddress c hc)
  have hroute : shellWords (address ++ '/' :: digits cidr) =
      [address ++ '/' :: digits cidr] := by
    apply shellWords_of_solid
    · simp
    · intro c hc
      rcases List.mem_append.mp hc with hmem | hmem
      · exact hsolid c hmem
      · rcases List.mem_cons.mp hmem with rfl | hmem
        · rfl
        · exact isIfs_of_isHostChar (isHostChar_of_mem_digits hmem)
  have hmask : cidr2mask (address ++ '/' :: digits cidr) = maskText cidr := by
    rw [cidr2mask, behindSlash_network hslash, arithmetic?_digits hcidr]
  have hoption : isEchoOption address = false := by
    unfold isEchoOption
    split
    · exact absurd rfl hdash
    · rfl
  rw [getroute, hroute]
  simp only [hmask, beforeSlash_network address (slash_not_mem_digits cidr),
    shellWords_of_solid hne hsolid, shellWords_maskText, echoText,
    List.cons_append, List.nil_append, List.dropWhile_cons, hoption]
  simp [List.intercalate]

/-! ## What a mask covers -/

/-- An IPv4 address, the leading octet first. -/
abbrev Octets := Fin 4 → Fin 256

/-- The bits of an address, the leading one first. -/
def Octets.bit (address : Octets) (position : Fin 32) : Bool :=
  (address ⟨position / 8, by omega⟩).val.testBit (7 - position % 8)

/-- What an address leaves under the mask. -/
def Octets.masked (cidr : ℕ) (address : Octets) (octet : Fin 4) : ℕ :=
  (address octet).val &&& keptOctet cidr octet

theorem partialOctet_testBit : ∀ kept < 8, ∀ position < 8,
    (256 - 2 ^ (8 - kept)).testBit (7 - position) = decide (position < kept) := by
  decide

theorem fullOctet_testBit : ∀ position < 8, (255 : ℕ).testBit (7 - position) =
    true := by
  decide

/-- The mask has exactly the leading bits. -/
theorem keptOctet_testBit (cidr octet : ℕ) {position : ℕ}
    (hposition : position < 8) :
    (keptOctet cidr octet).testBit (7 - position) =
      decide (8 * octet + position < cidr) := by
  unfold keptOctet
  split_ifs with hfull hpartial
  · rw [fullOctet_testBit position hposition, eq_comm, decide_eq_true_iff]
    omega
  · have hkept : cidr % 8 < 8 := Nat.mod_lt _ (Nat.succ_pos 7)
    rw [partialOctet_testBit (cidr % 8) hkept position hposition,
      decide_eq_decide]
    omega
  · rw [Nat.zero_testBit, eq_comm, decide_eq_false_iff_not]
    omega

theorem Octets.testBit_masked (cidr : ℕ) (address : Octets) (octet : Fin 4)
    {position : ℕ} (hposition : position < 8) :
    (address.masked cidr octet).testBit (7 - position) =
      ((address octet).val.testBit (7 - position) &&
        decide (8 * octet + position < cidr)) := by
  rw [Octets.masked, Nat.testBit_and, keptOctet_testBit cidr octet hposition]

theorem Octets.testBit_masked_of_le (cidr : ℕ) (address : Octets)
    (octet : Fin 4) {index : ℕ} (hindex : 8 ≤ index) :
    (address.masked cidr octet).testBit index = false := by
  have hlt : (address octet).val < 2 ^ index :=
    lt_of_lt_of_le (address octet).isLt
      (Nat.pow_le_pow_right Nat.zero_lt_two hindex)
  rw [Octets.masked, Nat.testBit_and, Nat.testBit_lt_two_pow hlt,
    Bool.false_and]

theorem Octets.masked_eq_iff (cidr : ℕ) (network address : Octets) :
    (∀ octet, address.masked cidr octet = network.masked cidr octet) ↔
      ∀ position : Fin 32, position < cidr →
        address.bit position = network.bit position := by
  constructor
  · intro hmasked position hkept
    have hposition : position.val % 8 < 8 := Nat.mod_lt _ (Nat.succ_pos 7)
    have hbit := congrArg (fun value : ℕ => value.testBit (7 - position % 8))
      (hmasked ⟨position / 8, by omega⟩)
    have hlead : decide (8 * (position.val / 8) + position.val % 8 < cidr) =
        true := by
      rw [decide_eq_true_iff]
      omega
    simp only [Octets.testBit_masked cidr _ _ hposition, hlead, Bool.and_true]
      at hbit
    exact hbit
  · intro hbits octet
    apply Nat.eq_of_testBit_eq
    intro index
    by_cases hindex : index < 8
    · have hposition : 7 - index < 8 := by omega
      have hback : 7 - (7 - index) = index := by omega
      have haddress := address.testBit_masked cidr octet hposition
      have hnetwork := network.testBit_masked cidr octet hposition
      rw [hback] at haddress hnetwork
      rw [haddress, hnetwork]
      by_cases hkept : 8 * octet.val + (7 - index) < cidr
      · have hbit := hbits ⟨8 * octet + (7 - index), by omega⟩ hkept
        have hoctet : (8 * octet.val + (7 - index)) / 8 = octet := by omega
        have hrest : (8 * octet.val + (7 - index)) % 8 = 7 - index := by omega
        simp only [Octets.bit, hoctet, hrest, hback, Fin.eta] at hbit
        rw [hbit]
      · rw [decide_eq_false hkept, Bool.and_false, Bool.and_false]
    · rw [Octets.testBit_masked_of_le cidr address octet (not_lt.mp hindex),
        Octets.testBit_masked_of_le cidr network octet (not_lt.mp hindex)]

/-- The route that is written for a network covers the addresses that share
its leading bits, and no others. -/
theorem getroute_covers {address : Text} (hne : address ≠ [])
    (haddress : ∀ c ∈ address, isHostChar c = true)
    (hdash : address.head? ≠ some '-') {cidr : ℕ} (hcidr : cidr < 2 ^ 63) :
    ∃ mask : Fin 4 → ℕ,
      getroute (address ++ '/' :: digits cidr) =
          address ++ ' ' :: ".".toList.intercalate
            ((List.finRange 4).map (fun octet => digits (mask octet))) ∧
        ∀ network other : Octets,
          (∀ octet, (other octet).val &&& mask octet =
              (network octet).val &&& mask octet) ↔
            ∀ position : Fin 32, position < cidr →
              other.bit position = network.bit position := by
  refine ⟨fun octet => keptOctet cidr octet, ?_,
    fun network other => Octets.masked_eq_iff cidr network other⟩
  rw [getroute_network hne haddress hdash hcidr, maskText_natCast]
  rfl

theorem getroute_covers_internal :
    ∃ mask : Fin 4 → ℕ,
      getroute ("10.1.0.0".toList ++ '/' :: digits 20) =
          "10.1.0.0".toList ++ ' ' :: ".".toList.intercalate
            ((List.finRange 4).map (fun octet => digits (mask octet))) ∧
        ∀ network other : Octets,
          (∀ octet, (other octet).val &&& mask octet =
              (network octet).val &&& mask octet) ↔
            ∀ position : Fin 32, position < 20 →
              other.bit position = network.bit position :=
  getroute_covers (by decide) (by decide) (by decide) (by decide)

end SecaasCharms.OpenVpn
