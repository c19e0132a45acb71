import Mathlib.Data.Rat.Floor
import SecaasCharms.JsonValues
import SecaasCharms.SnortService

/-!
# What the health checks report

Sizes are printed by `get_size`, the processes and the traffic as the `str`
of a list and of a dictionary.  The check of snort reports on the first live
snort process.
-/

namespace SecaasCharms

open TextLines

/-! ## Sizes -/

/-- The value in hundredths, a half to the even side, as `.2f` rounds. -/
def hundredths (value : ℚ) : ℕ :=
  let down := ⌊value * 100⌋₊
  let rest := value * 100 - down
  if rest < 1 / 2 ∨ (rest = 1 / 2 ∧ down % 2 = 0) then down else down + 1

def fixed2 (value : ℚ) : Text :=
  digits (hundredths value / 100) ++ ".".toList ++
    [Nat.digitChar (hundredths value / 10 % 10),
      Nat.digitChar (hundredths value % 10)]

/-- The loop of `get_size`, which returns nothing after its last unit. -/
def getSizeLoop : List Text → ℚ → Option Text
  | [], _ => none
  | unit :: units, bytes =>
      if bytes < 1024 then some (fixed2 bytes ++ unit ++ "B".toList)
      else getSizeLoop units (bytes / 1024)

def getSize (bytes : ℕ) : Option Text :=
  getSizeLoop
    ["".toList, "K".toList, "M".toList, "G".toList, "T".toList, "P".toList]
    bytes

example : getSize 1536 = some "1.50KB".toList := by decide +kernel

/-! ## Reports -/

/-- What psutil says of a process: its share of the processor, as `repr`
prints the float, and its virtual memory.  `as_dict` makes a set of the names
it is asked for, so either may come first. -/
structure Usage where
  cpuPercent : Text
  vms : ℕ
  nameFirst : Bool

structure Traffic where
  bytesSent : ℕ
  bytesRecv : ℕ

def sizeValue (bytes : ℕ) : Json :=
  match getSize bytes with
  | none => .null
  | some text => .str text

def processInfo (name : Text) (usage : Usage) : Json :=
  let named := ("name".toList, .str name)
  let measured := ("cpu_percent".toList, .float usage.cpuPercent)
  .obj ((if usage.nameFirst then [named, measured] else [measured, named]) ++
    [("ram_usage".toList, sizeValue usage.vms)])

def netUsage (traffic : Traffic) : Json :=
  .obj [("bytes_sent".toList, sizeValue traffic.bytesSent),
    ("bytes_recv".toList, sizeValue traffic.bytesRecv)]

def statusReport (printable : Char → Bool) (status : Text)
    (processes : List Json) (traffic : Traffic) : ActionResult :=
  .results [("output".toList, status),
    ("service-usage".toList, (Json.arr processes).shown printable),
    ("network-usage".toList, (netUsage traffic).shown printable)]

def healthCheckFailed (exception : Text) : ActionResult :=
  .failed ("Health-check: Health-check status failed with the ".toList ++
    "following exception: ".toList ++ exception)

def ActionResult.reported : ActionResult → Option Text
  | .results fields => fields.lookup "output".toList
  | .failed _ => none
  | .crashed => none

theorem ActionResult.succeeded_of_reported {result : ActionResult}
    {text : Text} (hreported : result.reported = some text) :
    result.Succeeded := by
  cases result with
  | results fields => trivial
  | failed message => contradiction
  | crashed => contradiction

/-! ## The health check of snort -/

namespace SnortCharm

/-- What psutil answers or raises when it is asked for the usage of a process
and for the traffic of the host. -/
structure Measurements where
  usage : Process → Except Text Usage
  traffic : Except Text Traffic

def onHealthCheckAction (printable : Char → Bool)
    (measurements : Measurements) (processes : List Process) :
    ActionResult :=
  match processes.find? (fun process => process.LiveSnort) with
  | none => .output "Stop: Snort service is not running".toList
  | some process =>
      match measurements.usage process with
      | .error exception => healthCheckFailed exception
      | .ok usage =>
          match measurements.traffic with
          | .error exception => healthCheckFailed exception
          | .ok traffic =>
              statusReport printable "Status: Snort is running".toList
                [processInfo process.name usage] traffic

def Measurements.Answered (measurements : Measurements) : Prop :=
  (∀ process, ∃ usage, measurements.usage process = .ok usage) ∧
    ∃ traffic, measurements.traffic = .ok traffic

/-- A report tells whether snort is live, and there is one unless psutil
raises on a live snort. -/
theorem onHealthCheckAction_reported (printable : Char → Bool)
    (measurements : Measurements) (host : Host) :
    let result := onHealthCheckAction printable measurements host.processes
    (result.reported = some "Status: Snort is running".toList ∧
        host.SnortLive) ∨
      (result.reported = some "Stop: Snort service is not running".toList ∧
        ¬ host.SnortLive) ∨
      (¬ result.Succeeded ∧ host.SnortLive ∧
        ¬ measurements.Answered) := by
  unfold onHealthCheckAction
  cases hfound : host.processes.find? (fun process => process.LiveSnort) with
  | none =>
      have hdead : ¬ host.SnortLive := by
        rintro ⟨process, hmem, hlive⟩
        have hnone := List.find?_eq_none.mp hfound process hmem
        exact hnone (decide_eq_true hlive)
      exact Or.inr (Or.inl ⟨rfl, hdead⟩)
  | some process =>
      have hprocess := List.find?_some hfound
      simp only [decide_eq_true_eq] at hprocess
      have hlive : host.SnortLive :=
        ⟨process, List.mem_of_find?_eq_some hfound, hprocess⟩
      simp only
      cases husage : measurements.usage process with
      | error exception =>
          have hunanswered : ¬ measurements.Answered := by
            intro hanswered
            rcases hanswered.1 process with ⟨usage, hok⟩
            rw [husage] at hok
            contradiction
          exact Or.inr (Or.inr ⟨id, hlive, hunanswered⟩)
      | ok usage =>
          simp only
          cases htraffic : measurements.traffic with
          | error exception =>
              have hunanswered : ¬ measurements.Answered := by
                intro hanswered
                rcases hanswered.2 with ⟨traffic, hok⟩
                rw [htraffic] at hok
                contradiction
              exact Or.inr (Or.inr ⟨id, hlive, hunanswered⟩)
          | ok traffic => exact Or.inl ⟨rfl, hlive⟩

end SnortCharm

end SecaasCharms
