import SecaasCharms.CharmActions

/-!
# The rrd action of the ntopng charm

The action prints the first 22 lines of a dump and then lines from its end,
which it pops one by one and inserts below the header, until one of them
opens an archive or 1500 are taken.  The popped lines come out in the order
of the dump.
-/

namespace SecaasCharms.NtopngCharm

open TextLines

/-! ## The handler -/

def ntopngDataPath : Text := "/home/ntopng_data/".toList

def rrdNames : List Text :=
  ["alerted_flows".toList, "num_hosts".toList,
    "traffic_anomalies_v2".toList, "dropped_alerts".toList]

def introduceNames : Text :=
  "Introduce one of this rrd name files:\n".toList ++
    "\t alerted_flows\n\t num_hosts\n".toList ++
    "\t traffic_anomalies_v2\n\t dropped_alerts\n".toList

def rrdPath (idInterface : ℤ) (typeFile : Text) : Text :=
  ntopngDataPath ++ (toString idInterface).toList ++ "/rrd/".toList ++
    typeFile ++ ".rrd".toList

/-- `for i in range(...): file_data.append(aux_output[0 + i])`. -/
def takeHeader (auxOutput : List Text) :
    List ℕ → List Text → Except Text (List Text)
  | [], fileData => .ok fileData
  | i :: range, fileData =>
      match auxOutput[0 + i]? with
      | none => .error "list index out of range".toList
      | some line => takeHeader auxOutput range (fileData ++ [line])

/-- `file_data.insert(22, elem)`, which appends to a shorter list. -/
def insertBelowHeader (fileData : List Text) (elem : Text) : List Text :=
  fileData.take 22 ++ elem :: fileData.drop 22

def OpensArchive (line : Text) : Prop := "<rra>".toList <:+: line

instance : DecidablePred OpensArchive :=
  fun line => inferInstanceAs (Decidable ("<rra>".toList <:+: line))

/-- The second loop, with the passes it has left. -/
def takeArchive : ℕ → List Text → List Text → Except Text (List Text)
  | 0, _, fileData => .ok fileData
  | passes + 1, auxOutput, fileData =>
      match auxOutput.getLast? with
      | none => .error "pop from empty list".toList
      | some elem =>
          if OpensArchive elem then .ok (insertBelowHeader fileData elem)
          else
            takeArchive passes auxOutput.dropLast
              (insertBelowHeader fileData elem)

def rrdFailed (exception : Text) : ActionResult :=
  .failed ("rrd action failed due an unespected exception named: ".toList ++
    exception ++ " \n ".toList ++ introduceNames)

/-- `_on_rrd_action`, given what `rrdtool dump` prints for a path or the
exception of `subprocess.run`. -/
def onRrdAction (idInterface : ℤ) (typeFile : Text)
    (rrdtool : Text → Except Text Text) : ActionResult :=
  if typeFile = "alerted_flows".toList ∨ typeFile = "num_hosts".toList ∨
      typeFile = "traffic_anomalies_v2".toList ∨
      typeFile = "dropped_alerts".toList then
    match rrdtool (rrdPath idInterface typeFile) with
    | .error exception => rrdFailed exception
    | .ok stdout =>
        let auxOutput := stdout.splitOn '\n'
        match takeHeader auxOutput (List.range 22) [] with
        | .error exception => rrdFailed exception
        | .ok header =>
            match takeArchive 1500 auxOutput header with
            | .error exception => rrdFailed exception
            | .ok fileData => .output (unlines fileData)
  else .output introduceNames

/-! ## The header -/

theorem takeHeader_append (auxOutput : List Text) (first later : List ℕ)
    (fileData : List Text) :
    takeHeader auxOutput (first ++ later) fileData =
      (takeHeader auxOutput first fileData).bind
        (takeHeader auxOutput later) := by
  induction first generalizing fileData with
  | nil => rfl
  | cons i first ih =>
      rw [List.cons_append, takeHeader, takeHeader]
      cases auxOutput[0 + i]? with
      | none => rfl
      | some line => exact ih (fileData ++ [line])

theorem takeHeader_of_le {auxOutput : List Text} {count : ℕ}
    (hcount : count ≤ auxOutput.length) :
    takeHeader auxOutput (List.range count) [] =
      .ok (auxOutput.take count) := by
  induction count with
  | zero => rfl
  | succ count ih =>
      have hline : auxOutput[0 + count]? = some auxOutput[count] := by
        rw [Nat.zero_add]
        exact List.getElem?_eq_getElem hcount
      rw [List.range_succ, takeHeader_append, ih (Nat.le_of_succ_le hcount)]
      simp only [Except.bind, takeHeader, hline]
      rw [List.take_concat_get']

theorem takeHeader_of_lt {auxOutput : List Text} {range : List ℕ} {i : ℕ}
    (hi : i ∈ range) (hlength : auxOutput.length ≤ i)
    (fileData : List Text) :
    takeHeader auxOutput range fileData =
      .error "list index out of range".toList := by
  induction range generalizing fileData with
  | nil => exact absurd hi List.not_mem_nil
  | cons first range ih =>
      unfold takeHeader
      cases hline : auxOutput[0 + first]? with
      | none => rfl
      | some line =>
          have hfirst : i ≠ first := by
            intro heq
            rw [← heq, Nat.zero_add,
              List.getElem?_eq_none hlength] at hline
            contradiction
          exact ih (List.mem_of_ne_of_mem hfirst hi) (fileData ++ [line])

/-! ## The lines from the end -/

theorem insertBelowHeader_append {header : List Text}
    (hheader : header.length = 22) (elem : Text) (taken : List Text) :
    insertBelowHeader (header ++ taken) elem = header ++ elem :: taken := by
  unfold insertBelowHeader
  rw [← hheader, List.take_left, List.drop_left]

theorem takeArchive_nil (passes : ℕ) (fileData : List Text) :
    takeArchive (passes + 1) [] fileData =
      .error "pop from empty list".toList :=
  rfl

theorem takeArchive_of_opens {line : Text} (hopens : OpensArchive line)
    (passes : ℕ) (before : List Text) {header : List Text}
    (hheader : header.length = 22) (taken : List Text) :
    takeArchive (passes + 1) (before ++ [line]) (header ++ taken) =
      .ok (header ++ line :: taken) := by
  unfold takeArchive
  rw [List.getLast?_concat]
  simp only [if_pos hopens, insertBelowHeader_append hheader]

theorem takeArchive_of_not_opens {line : Text}
    (hother : ¬ OpensArchive line) (passes : ℕ) (before : List Text)
    {header : List Text} (hheader : header.length = 22)
    (taken : List Text) :
    takeArchive (passes + 1) (before ++ [line]) (header ++ taken) =
      takeArchive passes before (header ++ line :: taken) := by
  rw [takeArchive, List.getLast?_concat]
  simp only [if_neg hother, insertBelowHeader_append hheader,
    List.dropLast_concat]

/-- Lines that open no archive move below the header in their order. -/
theorem takeArchive_skip {after : List Text}
    (hafter : ∀ line ∈ after, ¬ OpensArchive line) (passes : ℕ)
    (before : List Text) {header : List Text} (hheader : header.length = 22)
    (taken : List Text) :
    takeArchive (passes + after.length) (before ++ after)
        (header ++ taken) =
      takeArchive passes before (header ++ (after ++ taken)) := by
  induction after using List.reverseRecOn generalizing taken with
  | nil => simp
  | append_singleton after line ih =>
      have hline := hafter line (by simp)
      have hrest : ∀ other ∈ after, ¬ OpensArchive other := by
        intro other hother
        exact hafter other (by simp [hother])
      rw [List.length_append, List.length_singleton, ← List.append_assoc,
        ← Nat.add_assoc, takeArchive_of_not_opens hline _ _ hheader,
        ih hrest, List.append_assoc]
      rfl

/-! ## Where the second part starts -/

def LastArchive (lines : List Text) (number : ℕ) : Prop :=
  ∃ before line after, lines = before ++ line :: after ∧
    before.length = number ∧ OpensArchive line ∧
    ∀ other ∈ after, ¬ OpensArchive other

def NoArchive (lines : List Text) : Prop :=
  ∀ line ∈ lines, ¬ OpensArchive line

theorem noArchive_or_lastArchive (lines : List Text) :
    NoArchive lines ∨ ∃ number, LastArchive lines number := by
  induction lines with
  | nil => exact Or.inl (fun _ hline => absurd hline List.not_mem_nil)
  | cons line lines ih =>
      rcases ih with hnone | ⟨number, before, last, after, hlines, _, hlast⟩
      · by_cases hline : OpensArchive line
        · exact Or.inr ⟨0, [], line, lines, rfl, rfl, hline, hnone⟩
        · left
          intro other hother
          rcases List.mem_cons.mp hother with rfl | hrest
          · exact hline
          · exact hnone other hrest
      · right
        refine ⟨_, line :: before, last, after, ?_, rfl, hlast⟩
        rw [hlines, List.cons_append]

/-- The first line of the second part, when there is one: the last archive,
or the last 1500 lines where that is less. -/
def SectionStart (lines : List Text) (start : ℕ) : Prop :=
  (∃ number, LastArchive lines number ∧
      start = max number (lines.length - 1500)) ∨
    (NoArchive lines ∧ 1500 ≤ lines.length ∧ start = lines.length - 1500)

theorem takeArchive_last {lines header : List Text}
    (hheader : header.length = 22) {after before : List Text}
    (hlines : lines = before ++ after)
    (hafter : ∀ line ∈ after, ¬ OpensArchive line)
    (hlength : 1500 ≤ after.length) :
    takeArchive 1500 lines header =
      .ok (header ++ lines.drop (lines.length - 1500)) := by
  have hsplit : after = after.take (after.length - 1500) ++
      after.drop (after.length - 1500) := (List.take_append_drop _ _).symm
  have hcount : (after.drop (after.length - 1500)).length = 1500 := by
    rw [List.length_drop]
    omega
  have hrest : ∀ line ∈ after.drop (after.length - 1500),
      ¬ OpensArchive line := by
    intro line hline
    exact hafter line (List.mem_of_mem_drop hline)
  have hdrop : lines.drop (lines.length - 1500) =
      after.drop (after.length - 1500) := by
    rw [hlines, List.length_append, List.drop_append]
    have hle : before.length ≤ before.length + after.length - 1500 := by
      omega
    have hindex : before.length + after.length - 1500 - before.length =
        after.length - 1500 := by omega
    rw [List.drop_eq_nil_of_le hle, List.nil_append, hindex]
  have htaken := takeArchive_skip hrest 0
    (before ++ after.take (after.length - 1500)) hheader []
  rw [hcount, Nat.zero_add, List.append_assoc, ← hsplit, ← hlines,
    List.append_nil, List.append_nil] at htaken
  rw [hdrop, htaken]
  rfl

/-- Both ways out of the loop without an exception. -/
theorem takeArchive_of_sectionStart {lines header : List Text}
    (hheader : header.length = 22) {start : ℕ}
    (hstart : SectionStart lines start) :
    takeArchive 1500 lines header = .ok (header ++ lines.drop start) := by
  rcases hstart with ⟨number, hlast, hmax⟩ | ⟨hnone, hlength, hstart⟩
  · rcases hlast with
      ⟨before, line, after, hlines, hnumber, hopens, hafter⟩
    have hcount : lines.length = before.length + 1 + after.length := by
      rw [hlines, List.length_append, List.length_cons]
      omega
    by_cases hmany : 1500 ≤ after.length
    · have hsplit : lines = (before ++ [line]) ++ after := by
        rw [hlines, List.append_assoc]
        rfl
      have hdrop : start = lines.length - 1500 := by
        rw [hmax]
        omega
      rw [hdrop]
      exact takeArchive_last hheader hsplit hafter hmany
    · have hpasses : 1500 = (1500 - after.length - 1) + 1 + after.length := by
        omega
      have hdrop : lines.drop start = line :: after := by
        have hsame : start = before.length := by
          rw [hmax]
          omega
        rw [hsame, hlines, List.drop_left]
      have hskip := takeArchive_skip hafter (1500 - after.length - 1 + 1)
        (before ++ [line]) hheader []
      have hopened := takeArchive_of_opens hopens (1500 - after.length - 1)
        before hheader after
      rw [List.append_nil, List.append_nil, hopened, List.append_assoc,
        ← hpasses] at hskip
      rw [hdrop, hlines]
      exact hskip
  · rw [hstart]
    exact takeArchive_last hheader (List.nil_append lines).symm hnone hlength

theorem takeArchive_of_noArchive {lines header : List Text}
    (hheader : header.length = 22) (hnone : NoArchive lines)
    (hlength : lines.length < 1500) :
    takeArchive 1500 lines header = .error "pop from empty list".toList := by
  have hpasses : 1500 = (1500 - lines.length - 1) + 1 + lines.length := by
    omega
  have hskip := takeArchive_skip hnone (1500 - lines.length - 1 + 1) []
    hheader []
  rw [takeArchive_nil, List.nil_append, List.append_nil, ← hpasses] at hskip
  exact hskip

/-! ## The whole action -/

/-- The lines of the dump that are printed, by their numbers. -/
def printedLines (length start : ℕ) : List ℕ :=
  List.range 22 ++ List.range' start (length - start)

/-- What the action returns for a dump of these lines. -/
structure PrintsLastArchive (lines : List Text) (result : ActionResult) :
    Prop where
  prints : 22 ≤ lines.length → ∀ start, SectionStart lines start →
    result = .output (unlines (lines.take 22 ++ lines.drop start))
  starts : (∃ line ∈ lines, OpensArchive line) ∨ 1500 ≤ lines.length →
    ∃ start, SectionStart lines start
  ordered : 22 ≤ lines.length → ∀ start, 22 ≤ start →
    (lines.take 22 ++ lines.drop start).map some =
        (printedLines lines.length start).map (fun number => lines[number]?) ∧
      (printedLines lines.length start).Pairwise (· < ·)
  archive : ∀ number, LastArchive lines number →
    lines.length - 1500 ≤ number → SectionStart lines number ∧
      ∃ line after, lines.drop number = line :: after ∧ OpensArchive line ∧
        ∀ other ∈ after, ¬ OpensArchive other
  fails : lines.length < 22 ∨
      (NoArchive lines ∧ lines.length < 1500) →
    ∃ exception, result = rrdFailed exception

theorem map_some_range' (lines : List Text) {start count : ℕ}
    (hcount : start + count ≤ lines.length) :
    ((lines.drop start).take count).map some =
      (List.range' start count).map (fun number => lines[number]?) := by
  apply List.ext_getElem?
  intro index
  by_cases hindex : index < count
  · have hline : start + index < lines.length := by omega
    simp [hindex, hline]
  · simp [hindex]

theorem map_some_printed (lines : List Text) {start : ℕ}
    (hheader : 22 ≤ lines.length) :
    (lines.take 22 ++ lines.drop start).map some =
      (printedLines lines.length start).map
        (fun number => lines[number]?) := by
  have hfirst := @map_some_range' lines 0 22 (by omega)
  rw [List.drop_zero] at hfirst
  have hlater : (lines.drop start).map some =
      (List.range' start (lines.length - start)).map
        (fun number => lines[number]?) := by
    by_cases hstart : start ≤ lines.length
    · rw [← map_some_range' lines (by omega), ← List.length_drop,
        List.take_length]
    · have hle : lines.length ≤ start := by omega
      have hnone : lines.length - start = 0 := by omega
      rw [List.drop_eq_nil_of_le hle, hnone]
      rfl
  unfold printedLines
  rw [List.map_append, List.map_append, hfirst, hlater,
    ← List.range_eq_range']

theorem pairwise_printedLines (length : ℕ) {start : ℕ} (hstart : 22 ≤ start) :
    (printedLines length start).Pairwise (· < ·) := by
  unfold printedLines
  rw [List.pairwise_append]
  refine ⟨List.pairwise_lt_range, List.pairwise_lt_range', ?_⟩
  intro first hfirst later hlater
  rw [List.mem_range] at hfirst
  rw [List.mem_range'_1] at hlater
  omega

section Action

variable {idInterface : ℤ} {typeFile : Text} {rrdtool : Text → Except Text Text}

theorem onRrdAction_of_dump (htype : typeFile ∈ rrdNames) {stdout : Text}
    (hdump : rrdtool (rrdPath idInterface typeFile) = .ok stdout) :
    onRrdAction idInterface typeFile rrdtool =
      match takeHeader (stdout.splitOn '\n') (List.range 22) [] with
      | .error exception => rrdFailed exception
      | .ok header =>
          match takeArchive 1500 (stdout.splitOn '\n') header with
          | .error exception => rrdFailed exception
          | .ok fileData => .output (unlines fileData) := by
  have hnamed : typeFile = "alerted_flows".toList ∨
      typeFile = "num_hosts".toList ∨
      typeFile = "traffic_anomalies_v2".toList ∨
      typeFile = "dropped_alerts".toList := by
    simp only [rrdNames, List.mem_cons, List.not_mem_nil, or_false] at htype
    exact htype
  unfold onRrdAction
  rw [if_pos hnamed, hdump]

end Action

end SecaasCharms.NtopngCharm
