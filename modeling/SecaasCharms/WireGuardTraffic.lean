import SecaasCharms.SnortHealth
import SecaasCharms.TextWords
import SecaasCharms.WireGuardListing

/-!
# The health check of the WireGuard charm

The check adds up the traffic that `wg show` prints for the peers and reports
it in a unit that suits its size.  Floats are modelled by rational numbers.
-/

namespace SecaasCharms.WireGuard

open TextLines
open TextWords

/-! ## Units -/

/-- The unit `B` is none of the four cases. -/
def toBytes (number : ℚ) (units : Text) : ℚ :=
  if units = "KiB".toList then number * 2 ^ 10
  else if units = "MiB".toList then number * 2 ^ 20
  else if units = "GiB".toList then number * 2 ^ 30
  else if units = "TiB".toList then number * 2 ^ 40
  else 0

def reportUnits : List Text :=
  ["B".toList, "KB".toList, "MB".toList, "GB".toList, "TB".toList]

/-- The loop of `convert_bytes`, by the number of units that are left. -/
def convertLoop : ℕ → ℕ → ℚ → ℚ × ℕ
  | 0, unitIndex, byteValue => (byteValue, unitIndex)
  | left + 1, unitIndex, byteValue =>
      if 1024 ≤ byteValue then
        convertLoop left (unitIndex + 1) (byteValue / 1024)
      else (byteValue, unitIndex)

def convertBytes (byteValue : ℚ) : Except Text (ℚ × Text) :=
  if byteValue < 0 then
    .error "Byte value must be a non-negative number".toList
  else
    let (value, unitIndex) := convertLoop (reportUnits.length - 1) 0 byteValue
    .ok (value, reportUnits.getD unitIndex [])

/-! ## The loop over the words -/

section

variable (printable : Char → Bool)

/-- `float(word)`.  The names of infinity and of nan are refused like any
other word that is no numeral. -/
def float (word : Text) : Except Text ℚ :=
  match decimal? word with
  | some value => .ok value
  | none =>
      .error ("could not convert string to float: ".toList ++
        Json.reprText printable word)

/-- The two amounts of one iteration; its indices lie in the list. -/
def transferAt (listLines : List Text) (i : ℕ) : Except Text (ℚ × ℚ) := do
  let received ← float printable (listLines.getD (1 + 7 * i) [])
  let sent ← float printable (listLines.getD (4 + 7 * i) [])
  return (toBytes received (listLines.getD (2 + 7 * i) []),
    toBytes sent (listLines.getD (5 + 7 * i) []))

def accumulateFrom (totals : ℚ × ℚ) (listLines : List Text) :
    Except Text (ℚ × ℚ) :=
  (List.range (listLines.length / 7)).foldlM (fun totals i => do
    let bytes ← transferAt printable listLines i
    return (totals.1 + bytes.1, totals.2 + bytes.2)) totals

def needle : Text := "transfer".toList

/-- The words of the output of `wg show | grep transfer`. -/
def transferWords (shown : Text) : List Text :=
  words (grep needle shown)

/-- What the health check passes to `convert_bytes`: the bytes received and
the bytes sent. -/
def trafficTotals (shown : Text) : Except Text (ℚ × ℚ) :=
  accumulateFrom printable (0, 0) (transferWords shown)

/-! ## The report -/

/-- `str(round(value, 2))` of a float below 10 ^ 16. -/
def roundedText (value : ℚ) : Text :=
  let cents := hundredths value
  digits (cents / 100) ++ ['.', Nat.digitChar (cents / 10 % 10)] ++
    if cents % 10 = 0 then [] else [Nat.digitChar (cents % 10)]

/-- A sum to which no iteration added is still the integer 0. -/
def trafficText (iterations : ℕ) (total : ℚ × Text) : Text :=
  (if iterations = 0 then "0".toList else roundedText total.1) ++ total.2

def psInfo : Json :=
  .obj [("name".toList, .str "wg-quick".toList),
    ("cpu_percent".toList, .str "0.0".toList),
    ("ram_usage".toList, .str "0.00".toList)]

def usageReport (status bytesSent bytesRecv : Text) : ActionResult :=
  .results [("output".toList, status),
    ("service-usage".toList, (Json.arr [psInfo]).shown printable),
    ("network-usage".toList,
      (Json.obj [("bytes_sent".toList, .str bytesSent),
        ("bytes_recv".toList, .str bytesRecv)]).shown printable)]

/-- `_on_health_check_action`, given what `wg` and `wg show` print or what
starting them raises. -/
def onHealthCheckAction (wg wgShow : Except Text Text) : ActionResult :=
  let attempt : Except Text ActionResult := do
    let wgText ← wg
    if splitlines wgText = [] then
      return .output "Wireguard: Wireguard service is not running".toList
    let shown ← wgShow
    let listLines := transferWords shown
    if listLines = [] then
      return usageReport printable
        ("Status: Wireguard is running, but no currently ".toList ++
          "active connections".toList) "0".toList "0".toList
    let totals ← trafficTotals printable shown
    let received ← convertBytes totals.1
    let sent ← convertBytes totals.2
    let iterations := listLines.length / 7
    return usageReport printable "Status: Wireguard is running".toList
      (trafficText iterations sent) (trafficText iterations received)
  match attempt with
  | .ok result => result
  | .error exception => healthCheckFailed exception

end

example : onHealthCheckAction (fun _ => true)
      (.ok "interface: wg0\n".toList)
      (.ok "  transfer: 1.50 KiB received, 2048.25 GiB sent\n".toList) =
    usageReport (fun _ => true) "Status: Wireguard is running".toList
      "2.0TB".toList "1.5KB".toList := by
  decide +kernel

/-! ## `convert_bytes` -/

theorem convertLoop_spec (left unitIndex : ℕ) {byteValue : ℚ}
    (hvalue : 0 ≤ byteValue) (hpositive : unitIndex ≠ 0 → 1 ≤ byteValue) :
    let converted := convertLoop left unitIndex byteValue
    unitIndex ≤ converted.2 ∧ converted.2 ≤ unitIndex + left ∧
      converted.1 * 1024 ^ (converted.2 - unitIndex) = byteValue ∧
      (converted.2 < unitIndex + left → converted.1 < 1024) ∧
      (converted.2 ≠ 0 → 1 ≤ converted.1) := by
  induction left generalizing unitIndex byteValue with
  | zero => simpa [convertLoop] using hpositive
  | succ left ih =>
      by_cases hlarge : 1024 ≤ byteValue
      · have hnext : 1 ≤ byteValue / 1024 := by
          rw [le_div_iff₀ (by norm_num)]
          linarith
        have hrest := ih (unitIndex + 1) (by linarith) (fun _ => hnext)
        rw [convertLoop, if_pos hlarge]
        generalize convertLoop left (unitIndex + 1) (byteValue / 1024) =
          converted at hrest
        rcases hrest with ⟨hle, hbound, hproduct, hsmall, hone⟩
        have hpower : converted.2 - unitIndex =
            converted.2 - (unitIndex + 1) + 1 := by omega
        refine ⟨by omega, by omega, ?_, ?_, hone⟩
        · rw [hpower, pow_succ, ← mul_assoc, hproduct]
          exact div_mul_cancel₀ byteValue (by norm_num)
        · intro hlt
          exact hsmall (by omega)
      · rw [convertLoop, if_neg hlarge]
        refine ⟨le_rfl, by simp, by simp, ?_, hpositive⟩
        intro _
        exact lt_of_not_ge hlarge

/-- The pair has the value of the total, and the unit suits its size. -/
structure Converts (total value : ℚ) (unit : Text) (k : ℕ) : Prop where
  unit_eq : reportUnits[k]? = some unit
  value_eq : value * 1024 ^ k = total
  small : unit ≠ "TB".toList → value < 1024
  large : unit ≠ "B".toList → 1 ≤ value

theorem converts_convertBytes {total : ℚ} (htotal : 0 ≤ total) :
    ∃ value unit k, convertBytes total = .ok (value, unit) ∧
      Converts total value unit k := by
  have hspec := convertLoop_spec (reportUnits.length - 1) 0 htotal (by simp)
  generalize hloop : convertLoop (reportUnits.length - 1) 0 total =
    converted at hspec
  rcases hspec with ⟨_, hbound, hproduct, hsmall, hlarge⟩
  have hlt : converted.2 < reportUnits.length := by
    have hlength : reportUnits.length = 5 := rfl
    omega
  have hunit : reportUnits[converted.2]? =
      some (reportUnits.getD converted.2 []) := by
    rw [List.getD_eq_getElem?_getD, List.getElem?_eq_getElem hlt]
    rfl
  refine ⟨converted.1, reportUnits.getD converted.2 [], converted.2, ?_,
    hunit, ?_, ?_, ?_⟩
  · rw [convertBytes, if_neg (not_lt.mpr htotal), hloop]
  · simpa using hproduct
  · intro hunit
    apply hsmall
    by_contra hlast
    have hindex : converted.2 = 4 := by
      have hlength : reportUnits.length = 5 := rfl
      omega
    rw [hindex] at hunit
    exact hunit rfl
  · intro hunit
    apply hlarge
    intro hindex
    rw [hindex] at hunit
    exact hunit rfl

end SecaasCharms.WireGuard
