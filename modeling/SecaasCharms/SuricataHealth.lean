import SecaasCharms.IdsService
import SecaasCharms.PrintedSizes

/-!
# The health check of the suricata charm

The check lists the processes of Suricata and drops those whose memory is
printed as `0.00B`.  The test on the printed text finds the processes without
memory and no others, because the text stands for zero alone.
-/

namespace SecaasCharms.SuricataCharm

open TextLines
open SnortCharm (Measurements Process)
open IdsCharm (measureProcesses)

/-! ## The handler -/

def suricataCheckFailed (exception : Text) : ActionResult :=
  .failed ("Command: Health-check failed with the following exception: ".toList
    ++ exception)

/-- `_on_health_check_action`, given what `service suricata status` prints or
the exception of `subprocess.run`.  The loop over the processes is the one of
the combined charm. -/
def onHealthCheckAction (printable : Char → Bool) (status : Except Text Text)
    (measurements : Measurements) (processes : List Process) :
    ActionResult :=
  match status with
  | .error exception => suricataCheckFailed exception
  | .ok stdout =>
      if (stdout.splitOn ' ').contains "not".toList = true then
        .output "Status: Suricata is not running".toList
      else
        match measureProcesses measurements processes [] none with
        | .error exception => suricataCheckFailed exception
        | .ok (_, none) =>
            suricataCheckFailed
              ("local variable 'net_usage' referenced before ".toList ++
                "assignment".toList)
        | .ok (infos, some traffic) =>
            statusReport printable "Status: Suricata is running".toList infos
              traffic

/-! ## The processes that are listed -/

/-- psutil answers every question. -/
def answered (usage : Process → Usage) (traffic : Traffic) : Measurements where
  usage := fun process => .ok (usage process)
  traffic := .ok traffic

/-- The processes that use memory, by the number of bytes. -/
def usingMemory (usage : Process → Usage) (processes : List Process) :
    List Process :=
  processes.filter (fun process =>
    process.name = "Suricata-Main".toList ∧ (usage process).vms ≠ 0)

variable (usage : Process → Usage) (traffic : Traffic)

theorem measureProcesses_cons (process : Process)
    (processes : List Process) (infos : List Json)
    (netUsage : Option Traffic) :
    measureProcesses (answered usage traffic) (process :: processes) infos
        netUsage =
      measureProcesses (answered usage traffic) processes
        (if process.name = "Suricata-Main".toList ∧
            getSize (usage process).vms ≠ some "0.00B".toList then
          infos ++ [processInfo process.name (usage process)]
        else infos)
        (some traffic) := by
  rw [measureProcesses]
  rfl

theorem usingMemory_cons_of_pos {process : Process}
    (hkept : process.name = "Suricata-Main".toList ∧
      (usage process).vms ≠ 0) (processes : List Process) :
    usingMemory usage (process :: processes) =
      process :: usingMemory usage processes :=
  List.filter_cons_of_pos (decide_eq_true hkept)

theorem usingMemory_cons_of_neg {process : Process}
    (hdropped : ¬ (process.name = "Suricata-Main".toList ∧
      (usage process).vms ≠ 0)) (processes : List Process) :
    usingMemory usage (process :: processes) =
      usingMemory usage processes := by
  apply List.filter_cons_of_neg
  rw [decide_eq_true_eq]
  exact hdropped

theorem measureProcesses_answered (processes : List Process)
    (infos : List Json) (netUsage : Option Traffic) :
    measureProcesses (answered usage traffic) processes infos netUsage =
      .ok (infos ++ (usingMemory usage processes).map
          (fun process => processInfo process.name (usage process)),
        if processes = [] then netUsage else some traffic) := by
  induction processes generalizing infos netUsage with
  | nil =>
      rw [measureProcesses, if_pos rfl]
      simp only [usingMemory, List.filter_nil, List.map_nil, List.append_nil]
  | cons process processes ih =>
      have htest : (process.name = "Suricata-Main".toList ∧
          getSize (usage process).vms ≠ some "0.00B".toList) ↔
            process.name = "Suricata-Main".toList ∧
              (usage process).vms ≠ 0 := by
        rw [Ne, getSize_eq_zero_iff]
      rw [measureProcesses_cons, ih, if_neg (List.cons_ne_nil _ _), ite_self]
      by_cases hkept : process.name = "Suricata-Main".toList ∧
          (usage process).vms ≠ 0
      · rw [if_pos (htest.mpr hkept), usingMemory_cons_of_pos usage hkept,
          List.map_cons, List.append_assoc, List.singleton_append]
      · rw [if_neg (fun htested => hkept (htest.mp htested)),
          usingMemory_cons_of_neg usage hkept]

/-- The report on a running Suricata lists the processes that use memory, in
the order of the table. -/
theorem onHealthCheckAction_usingMemory (printable : Char → Bool)
    {stdout : Text} (hrunning : "not".toList ∉ stdout.splitOn ' ')
    {processes : List Process} (hprocesses : processes ≠ []) :
    onHealthCheckAction printable (.ok stdout) (answered usage traffic)
        processes =
      statusReport printable "Status: Suricata is running".toList
        ((usingMemory usage processes).map
          (fun process => processInfo process.name (usage process)))
        traffic := by
  have hword : ¬ (stdout.splitOn ' ').contains "not".toList = true := by
    rw [List.contains_iff_mem]
    exact hrunning
  simp only [onHealthCheckAction, if_neg hword, measureProcesses_answered,
    if_neg hprocesses, List.nil_append]

/-! ## What the printed sizes say -/

/-- Below 1024 PB a size is printed with the largest unit that fits and two
decimals close to the number of bytes, a greater number is not printed as
less, and the test of the health check drops exactly the processes without
memory. -/
theorem getSize_faithful {m n : ℕ} (hle : m ≤ n) (hlt : n < 1024 ^ 6) :
    (∃ less lessSize greater greaterSize,
      ShowsSize m less lessSize ∧ ShowsSize n greater greaterSize ∧
        lessSize.value ≤ greaterSize.value) ∧
    (getSize n = some "0.00B".toList ↔ n = 0) ∧
    ∀ (usage : Process → Usage) (traffic : Traffic) (printable : Char → Bool)
        (stdout : Text) (processes : List Process),
      "not".toList ∉ stdout.splitOn ' ' → processes ≠ [] →
      onHealthCheckAction printable (.ok stdout) (answered usage traffic)
          processes =
        statusReport printable "Status: Suricata is running".toList
          ((usingMemory usage processes).map
            (fun process => processInfo process.name (usage process)))
          traffic := by
  refine ⟨?_, getSize_eq_zero_iff n, ?_⟩
  · obtain ⟨less, hless⟩ := showsSize_of_lt (lt_of_le_of_lt hle hlt)
    obtain ⟨greater, hgreater⟩ := showsSize_of_lt hlt
    exact ⟨less, _, greater, _, hless, hgreater,
      monotone_value_roundedSize hle⟩
  · intro usage traffic printable stdout processes hrunning hprocesses
    exact onHealthCheckAction_usingMemory usage traffic printable hrunning
      hprocesses

theorem getSize_faithful_of_kilobyte :
    (∃ less lessSize greater greaterSize,
      ShowsSize 1023 less lessSize ∧ ShowsSize 1024 greater greaterSize ∧
        lessSize.value ≤ greaterSize.value) ∧
    (getSize 1024 = some "0.00B".toList ↔ (1024 : ℕ) = 0) ∧
    onHealthCheckAction (fun _ => true) (.ok "suricata is running\n".toList)
        (answered (fun _ => ⟨"0.0".toList, 0, true⟩) ⟨0, 0⟩)
        [⟨"Suricata-Main".toList, "sleeping".toList⟩] =
      statusReport (fun _ => true) "Status: Suricata is running".toList []
        ⟨0, 0⟩ := by
  have hfaithful := getSize_faithful (by omega : 1023 ≤ 1024) (by norm_num)
  exact ⟨hfaithful.1, hfaithful.2.1,
    hfaithful.2.2 (fun _ => ⟨"0.0".toList, 0, true⟩) ⟨0, 0⟩ (fun _ => true)
      "suricata is running\n".toList
      [⟨"Suricata-Main".toList, "sleeping".toList⟩] (by decide)
      (List.cons_ne_nil _ _)⟩

end SecaasCharms.SuricataCharm
