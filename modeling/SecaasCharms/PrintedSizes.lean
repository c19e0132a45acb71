import SecaasCharms.ScaledRounding
import SecaasCharms.SnortHealth
import SecaasCharms.TextWords

/-!
# What a printed size says

`get_size` divides by 1024 until the rest is small and prints the rest with
two decimals and a unit.  Read back, the text gives the largest power of 1024
and a value that is close to the number of bytes and monotone in it.
-/

namespace SecaasCharms

open ScaledRounding
open TextLines
open TextWords

/-! ## Reading a size -/

/-- A number of units, and the power of 1024 that the unit stands for. -/
structure Size where
  number : ℚ
  unit : ℕ
  deriving DecidableEq

def Size.value (size : Size) : ℚ := size.number * 1024 ^ size.unit

def sizeUnits : List Text :=
  ["B".toList, "KB".toList, "MB".toList, "GB".toList, "TB".toList,
    "PB".toList]

def isSizeChar (c : Char) : Bool := c.isDigit || c == '.'

def readSize (text : Text) : Option Size :=
  let (number, unit) := text.span isSizeChar
  match decimal? number, sizeUnits.idxOf? unit with
  | some number, some unit => some ⟨number, unit⟩
  | _, _ => none

example : readSize "1.50KB".toList = some ⟨3 / 2, 1⟩ := by decide +kernel

/-! ## Two decimals -/

theorem hundredths_div (value : ℚ) :
    (hundredths value : ℚ) / 100 = roundTo 100 value :=
  rfl

def cents (value : ℚ) : Text :=
  [Nat.digitChar (hundredths value / 10 % 10),
    Nat.digitChar (hundredths value % 10)]

theorem fixed2_eq (value : ℚ) :
    fixed2 value = digits (hundredths value / 100) ++ '.' :: cents value := by
  unfold fixed2 cents
  rw [List.append_assoc]
  rfl

theorem isDigit_of_mem_cents {value : ℚ} {c : Char} (hc : c ∈ cents value) :
    c.isDigit = true := by
  have hdigit : ∀ n, (Nat.digitChar (n % 10)).isDigit = true := by
    intro n
    rw [Nat.isDigit_digitChar]
    exact decide_eq_true (Nat.mod_lt n (by omega))
  rcases List.mem_cons.mp hc with hfirst | hrest
  · rw [hfirst]
    exact hdigit _
  · rw [List.mem_singleton.mp hrest]
    exact hdigit _

theorem ofDigitChars_cents (value : ℚ) :
    Nat.ofDigitChars 10 (cents value) 0 = hundredths value % 100 := by
  unfold cents
  rw [Nat.ofDigitChars_cons_digitChar_of_lt_ten (Nat.mod_lt _ (by omega)),
    Nat.ofDigitChars_cons_digitChar_of_lt_ten (Nat.mod_lt _ (by omega)),
    Nat.ofDigitChars_nil]
  omega

theorem decimal?_fixed2 (value : ℚ) :
    decimal? (fixed2 value) = some (roundTo 100 value) := by
  have hwhole : ∀ c ∈ digits (hundredths value / 100), c.isDigit = true :=
    fun c hc => isDigit_of_mem_digits hc
  have hcents : ∀ c ∈ cents value, c.isDigit = true :=
    fun c hc => isDigit_of_mem_cents hc
  have htail : '.' :: cents value =
      if cents value = [] then [] else '.' :: cents value :=
    (if_neg (List.cons_ne_nil _ _)).symm
  have hvalue := decimal?_of_digits Nat.toDigits_ne_nil hwhole hcents htail
  rw [Nat.ofDigitChars_ten_toDigits, ofDigitChars_cents] at hvalue
  have hsum : ((hundredths value / 100 : ℕ) : ℚ) +
      (hundredths value % 100 : ℕ) / 10 ^ (cents value).length =
        roundTo 100 value := by
    have hsplit : (hundredths value : ℚ) =
        100 * (hundredths value / 100 : ℕ) +
          (hundredths value % 100 : ℕ) := by
      exact_mod_cast (Nat.div_add_mod (hundredths value) 100).symm
    rw [← hundredths_div, hsplit]
    simp only [cents, List.length_cons, List.length_nil]
    ring
  rw [fixed2_eq, ← hsum]
  exact hvalue

theorem isSizeChar_of_mem_fixed2 {value : ℚ} {c : Char}
    (hc : c ∈ fixed2 value) : isSizeChar c = true := by
  rw [fixed2_eq, List.mem_append, List.mem_cons] at hc
  unfold isSizeChar
  rcases hc with hwhole | hdot | hcents
  · rw [isDigit_of_mem_digits hwhole, Bool.true_or]
  · rw [hdot]
    rfl
  · rw [isDigit_of_mem_cents hcents, Bool.true_or]

theorem sizeUnits_spec : ∀ k : Fin sizeUnits.length,
    (sizeUnits.get k).head?.any isSizeChar = false ∧
      sizeUnits.idxOf? (sizeUnits.get k) = some k.val := by
  decide

theorem readSize_fixed2 (value : ℚ) (k : Fin sizeUnits.length) :
    readSize (fixed2 value ++ sizeUnits.get k) =
      some ⟨roundTo 100 value, k⟩ := by
  have hnumber : ∀ c ∈ fixed2 value, isSizeChar c = true :=
    fun c hc => isSizeChar_of_mem_fixed2 hc
  have hunit : ∀ c ∈ (sizeUnits.get k).head?, isSizeChar c = false := by
    intro c hc
    have hany := (sizeUnits_spec k).1
    rw [Option.mem_def.mp hc] at hany
    exact hany
  have hspan := span_of_stop hnumber hunit
  simp only [readSize, hspan, decimal?_fixed2, (sizeUnits_spec k).2]

/-! ## The loop -/

/-- The loop stops at the first unit in which the number is small. -/
theorem getSizeLoop_of_small {units : List Text} {k : ℕ} {unit : Text}
    (hunit : units[k]? = some unit) {bytes : ℚ}
    (hlarge : ∀ j < k, 1024 ≤ bytes / 1024 ^ j)
    (hsmall : bytes / 1024 ^ k < 1024) :
    getSizeLoop units bytes =
      some (fixed2 (bytes / 1024 ^ k) ++ unit ++ "B".toList) := by
  induction units generalizing k bytes with
  | nil => contradiction
  | cons first units ih =>
      cases k with
      | zero =>
          rw [pow_zero, div_one] at hsmall ⊢
          rw [List.getElem?_cons_zero, Option.some.injEq] at hunit
          rw [getSizeLoop, if_pos hsmall, hunit]
      | succ k =>
          have hfirst : ¬ bytes < 1024 := by
            have hle := hlarge 0 (Nat.succ_pos k)
            rw [pow_zero, div_one] at hle
            exact not_lt.mpr hle
          have hshift : ∀ j, bytes / 1024 / 1024 ^ j =
              bytes / 1024 ^ (j + 1) := by
            intro j
            rw [div_div, pow_succ']
          rw [List.getElem?_cons_succ] at hunit
          rw [getSizeLoop, if_neg hfirst, ← hshift]
          apply ih hunit
          · intro j hj
            rw [hshift]
            exact hlarge (j + 1) (Nat.succ_lt_succ hj)
          · rw [hshift]
            exact hsmall

theorem getSizeLoop_of_large {units : List Text} {bytes : ℚ}
    (hlarge : 1024 ^ units.length ≤ bytes) :
    getSizeLoop units bytes = none := by
  induction units generalizing bytes with
  | nil => rfl
  | cons first units ih =>
      rw [List.length_cons, pow_succ] at hlarge
      have hone : (1 : ℚ) ≤ 1024 ^ units.length :=
        one_le_pow₀ (by norm_num)
      have hfirst : ¬ bytes < 1024 := by linarith
      rw [getSizeLoop, if_neg hfirst]
      apply ih
      rw [le_div_iff₀ (by norm_num)]
      exact hlarge

theorem getSize_of_lt {n : ℕ} (hlt : n < 1024 ^ 6) :
    ∃ k : Fin sizeUnits.length, k.val = Nat.log 1024 n ∧
      getSize n =
        some (fixed2 (n / 1024 ^ Nat.log 1024 n) ++ sizeUnits.get k) := by
  have hlog : Nat.log 1024 n < sizeUnits.length := by
    by_cases hn : n = 0
    · rw [hn, Nat.log_zero_right]
      decide
    · exact Nat.log_lt_of_lt_pow hn hlt
  have hunits : ∀ k : Fin sizeUnits.length,
      ["".toList, "K".toList, "M".toList, "G".toList, "T".toList,
        "P".toList][k.val]?.map (fun unit => unit ++ "B".toList) =
          some (sizeUnits.get k) := by
    decide
  obtain ⟨unit, hunit, hname⟩ :=
    Option.map_eq_some_iff.mp (hunits ⟨_, hlog⟩)
  refine ⟨⟨_, hlog⟩, rfl, ?_⟩
  have hlarge : ∀ j < Nat.log 1024 n, (1024 : ℚ) ≤ n / 1024 ^ j := by
    intro j hj
    have hn : n ≠ 0 := by
      intro hzero
      rw [hzero, Nat.log_zero_right] at hj
      exact Nat.not_lt_zero j hj
    have hpow : 1024 ^ (j + 1) ≤ n :=
      (Nat.pow_le_pow_right (by omega) hj).trans (Nat.pow_log_le_self _ hn)
    rw [le_div_iff₀ (by positivity), ← pow_succ']
    exact_mod_cast hpow
  have hsmall : (n : ℚ) / 1024 ^ Nat.log 1024 n < 1024 := by
    rw [div_lt_iff₀ (by positivity), ← pow_succ']
    exact_mod_cast Nat.lt_pow_succ_log_self (by omega) n
  rw [getSize, getSizeLoop_of_small hunit hlarge hsmall, List.append_assoc,
    hname]

/-! ## The size of a number of bytes -/

/-- What the printed text of a number of bytes says. -/
structure ShowsSize (n : ℕ) (text : Text) (size : Size) : Prop where
  printed : getSize n = some text
  read : readSize text = some size
  fits : size.unit = 0 ∨ 1024 ^ size.unit ≤ n
  largest : ∀ k, 1024 ^ k ≤ n → k ≤ size.unit
  close : |size.value - n| ≤ 0.005 * 1024 ^ size.unit

def roundedSize (n : ℕ) : Size :=
  ⟨roundTo 100 ((n : ℚ) / 1024 ^ Nat.log 1024 n), Nat.log 1024 n⟩

theorem value_roundedSize (n : ℕ) :
    (roundedSize n).value = scaled 1024 (roundTo 100) n := by
  unfold Size.value roundedSize scaled
  norm_num

theorem monotone_value_roundedSize :
    Monotone (fun n => (roundedSize n).value) := by
  have hone : roundTo 100 (1 : ℚ) = 1 := by
    have hnat := roundTo_natCast (K := ℚ) (by omega : 100 ≠ 0) 1
    rwa [Nat.cast_one] at hnat
  have hmonotone := monotone_scaled (by omega : 1 < 1024)
    (monotone_roundTo 100) hone (roundTo_natCast (by omega) 1024)
  intro m n hle
  simp only [value_roundedSize]
  exact hmonotone hle

theorem showsSize_of_lt {n : ℕ} (hlt : n < 1024 ^ 6) :
    ∃ text, ShowsSize n text (roundedSize n) := by
  obtain ⟨k, hk, hprinted⟩ := getSize_of_lt hlt
  refine ⟨_, hprinted, ?_, ?_, ?_, ?_⟩
  · rw [readSize_fixed2, hk]
    rfl
  · by_cases hn : n = 0
    · left
      rw [hn]
      exact Nat.log_zero_right 1024
    · exact Or.inr (Nat.pow_log_le_self 1024 hn)
  · intro k hpow
    exact Nat.le_log_of_pow_le (by omega) hpow
  · have hclose := abs_scaled_sub_le (by omega : 1024 ≠ 0)
      (fun x => abs_roundTo_sub_le (K := ℚ) (by omega : 100 ≠ 0)) n
    have herror : (1 / 2 / (100 : ℕ) : ℚ) * (1024 : ℕ) ^ Nat.log 1024 n =
        0.005 * 1024 ^ (roundedSize n).unit := by
      norm_num [roundedSize]
    rw [value_roundedSize, ← herror]
    exact hclose

/-- The text that a zero is printed as stands for nothing else. -/
theorem getSize_eq_zero_iff (n : ℕ) :
    getSize n = some "0.00B".toList ↔ n = 0 := by
  constructor
  · intro hprinted
    by_cases hlt : n < 1024 ^ 6
    · obtain ⟨text, hshows⟩ := showsSize_of_lt hlt
      have htext : text = "0.00B".toList :=
        Option.some.inj (hshows.printed.symm.trans hprinted)
      have hread : readSize "0.00B".toList = some ⟨0, 0⟩ := by
        decide +kernel
      have hsize : roundedSize n = ⟨0, 0⟩ := by
        have hshown := hshows.read
        rw [htext, hread] at hshown
        exact (Option.some.inj hshown).symm
      have hlog : Nat.log 1024 n = 0 := congrArg Size.unit hsize
      have hnumber : roundTo 100 ((n : ℚ) / 1024 ^ Nat.log 1024 n) = 0 :=
        congrArg Size.number hsize
      rw [hlog, pow_zero, div_one, roundTo_natCast (by omega)] at hnumber
      exact_mod_cast hnumber
    · have hlarge : (1024 : ℚ) ^ 6 ≤ n := by
        exact_mod_cast not_lt.mp hlt
      have hnone : getSize n = none := getSizeLoop_of_large hlarge
      rw [hnone] at hprinted
      contradiction
  · intro hzero
    rw [hzero]
    decide +kernel

end SecaasCharms
