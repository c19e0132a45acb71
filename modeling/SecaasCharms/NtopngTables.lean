import SecaasCharms.JsonDumps
import SecaasCharms.RrdDump

/-!
# The alert tables of the ntopng charm

The charm reads tables of SQLite databases row by row and prints the JSON text
that a column holds.  `get-alerts` takes the column in one of its two loops
only: it prints every row of `flow_alerts` and fails on a row of any other
table.
-/

namespace SecaasCharms.NtopngCharm

open JsonModule (Document)
open TextLines

/-! ## Rows -/

/-- What sqlite3 puts in a row. -/
inductive SqlValue where
  | null
  | integer (value : ℤ)
  | real (shown : Text)
  | text (content : Text)
  | blob (bytes : List UInt8)

abbrev Row := List SqlValue

def SqlValue.document : SqlValue → Document
  | .null => .other "NoneType".toList
  | .integer _ => .other "int".toList
  | .real _ => .other "float".toList
  | .text content => .str content
  | .blob bytes => .bytes bytes

/-- `row[index]`. -/
def columnDocument (index : ℕ) (row : Row) : Except Text Document :=
  match row[index]? with
  | some value => .ok value.document
  | none => .error "tuple index out of range".toList

/-- The row itself, which is a tuple. -/
def rowDocument (_ : Row) : Except Text Document := .ok (.other "tuple".toList)

/-- What the cursor of a connection gives for a statement: the rows it
fetches, or an exception in place of one. -/
abbrev Connection := Text → List (Except Text Row)

section Loops

variable (json : JsonModule)

/-- The body of the three loops, up to where the text goes. -/
def prettyRow (document : Row → Except Text Document) (row : Row) :
    Except Text Text :=
  match document row with
  | .error exception => .error exception
  | .ok document =>
      match json.loads document with
      | .error exception => .error exception
      | .ok jsonRow => .ok (jsonRow.dumps 8)

/-- `for row in cur.execute(...)`, which appends the text of each row. -/
def forRows {σ : Type} (document : Row → Except Text Document)
    (append : σ → Text → σ) : List (Except Text Row) → σ → Except Text σ
  | [], result => .ok result
  | .error exception :: _, _ => .error exception
  | .ok row :: rows, result =>
      match prettyRow json document row with
      | .error exception => .error exception
      | .ok text => forRows document append rows (append result text)

/-! ## `get-alerts` -/

def alertTypes : List Text :=
  ["active_monitoring_alerts".toList, "flow_alerts".toList,
    "host_alerts".toList, "mac_alerts".toList, "snmp_alerts".toList,
    "network_alerts".toList, "interface_alerts".toList,
    "system_alerts".toList]

def typesToSelect : Text :=
  "Types to select:\t active_monitoring_alerts\n \t flow_alerts\n".toList ++
    " \t host_alerts\n \t mac_alerts\n \t snmp_alerts\n".toList ++
    " \t network_alerts\n \t interface_alerts\n \t system_alerts\n".toList

def getAlertsFailed (exception : Text) : ActionResult :=
  .failed ("Get alerters failed due an unespected exception named: ".toList ++
    exception ++
    " \n Types to select:\t active_monitoring_alerts\n".toList ++
    " \t sqlite_sentence\n \t flow_alerts\n \t host_alerts\n".toList ++
    " \t mac_alerts\n \t snmp_alerts\n \t network_alerts\n".toList ++
    " \t interface_alerts\n \t system_alerts\n".toList)

def alertStorePath (idInterface : ℤ) : Text :=
  ntopngDataPath ++ (toString idInterface).toList ++
    "/alerts/alert_store_v11.db".toList

/-- `_on_get_alerts_action`, given what `sqlite3.connect` gives for a path.
Only the branch for `flow_alerts` takes a column of the row. -/
def onGetAlertsAction (idInterface : ℤ) (typeAlert : Text)
    (connect : Text → Except Text Connection) : ActionResult :=
  match connect (alertStorePath idInterface) with
  | .error exception => getAlertsFailed exception
  | .ok execute =>
      if typeAlert = "active_monitoring_alerts".toList ∨
          typeAlert = "flow_alerts".toList ∨
          typeAlert = "host_alerts".toList ∨
          typeAlert = "mac_alerts".toList ∨
          typeAlert = "snmp_alerts".toList ∨
          typeAlert = "network_alerts".toList ∨
          typeAlert = "interface_alerts".toList ∨
          typeAlert = "system_alerts".toList then
        let rows := execute ("SELECT * FROM ".toList ++ typeAlert)
        let printed :=
          if typeAlert = "flow_alerts".toList then
            forRows json (columnDocument 9) (fun output text => output ++ text)
              rows []
          else
            forRows json rowDocument (fun output text => output ++ text) rows
              []
        match printed with
        | .error exception => getAlertsFailed exception
        | .ok output => .output output
      else .output typesToSelect

end Loops

/-! ## Rows with a JSON text -/

/-- A row that holds a JSON text in one of its columns. -/
structure JsonRow (column : ℕ) where
  row : Row
  text : Text
  value : JsonText.Value
  stored : row[column]? = some (.text text)
  valid : JsonText.decode text = some value

def JsonRow.fetched {column : ℕ} (stats : JsonRow column) : Except Text Row :=
  .ok stats.row

/-- The value of the row, pretty-printed. -/
def JsonRow.pretty {column : ℕ} (json : JsonModule) (stats : JsonRow column) :
    Text :=
  (json.ofValue stats.value).dumps 8

section Rows

variable (json : JsonModule) {column : ℕ}

theorem JsonRow.pretty_ne_nil (stats : JsonRow column) :
    stats.pretty json ≠ [] :=
  dumps_ofValue_ne_nil json 8 stats.value

theorem prettyRow_column (stats : JsonRow column) :
    prettyRow json (columnDocument column) stats.row =
      .ok (stats.pretty json) := by
  have hdocument : columnDocument column stats.row = .ok (.str stats.text) := by
    rw [columnDocument, stats.stored]
    rfl
  simp only [prettyRow, hdocument, JsonModule.loads, JsonModule.loadsText,
    stats.valid, JsonRow.pretty]

/-- The loop over the column reads every row. -/
theorem forRows_column {σ : Type} (append : σ → Text → σ)
    (rows : List (JsonRow column)) (result : σ) :
    forRows json (columnDocument column) append (rows.map JsonRow.fetched)
        result =
      .ok ((rows.map (JsonRow.pretty json)).foldl append result) := by
  induction rows generalizing result with
  | nil => rfl
  | cons stats rows ih =>
      rw [List.map_cons, JsonRow.fetched, forRows, prettyRow_column]
      exact ih (append result (stats.pretty json))

/-- The loop over the rows themselves ends at the first one. -/
theorem forRows_row {σ : Type} (append : σ → Text → σ)
    (stats : JsonRow column) (rows : List (JsonRow column)) (result : σ) :
    ∃ exception,
      forRows json rowDocument append
        ((stats :: rows).map JsonRow.fetched) result = .error exception :=
  ⟨_, rfl⟩

end Rows

/-! ## Whether every alert is printed -/

/-- The column with the JSON text: the tenth of `flow_alerts`, any of the
other tables. -/
def alertColumn (others : Text → ℕ) (typeAlert : Text) : ℕ :=
  if typeAlert = "flow_alerts".toList then 9 else others typeAlert

section Alerts

variable (json : JsonModule) (others : Text → ℕ) {idInterface : ℤ}
variable {typeAlert : Text} {connect : Text → Except Text Connection}
variable {execute : Connection}

/-- The pretty-printed JSON of every row, in the order of the rows. -/
def PrintsEveryAlert {column : ℕ} (rows : List (JsonRow column))
    (result : ActionResult) : Prop :=
  result = .output (rows.map (JsonRow.pretty json)).flatten

theorem foldl_append (output : Text) (texts : List Text) :
    texts.foldl (fun output text => output ++ text) output =
      output ++ texts.flatten := by
  have hfold := @List.foldl_append_eq_append _ _ texts id output
  rw [List.map_id] at hfold
  exact hfold

theorem onGetAlertsAction_of_type (htype : typeAlert ∈ alertTypes)
    (hconnect : connect (alertStorePath idInterface) = .ok execute) :
    onGetAlertsAction json idInterface typeAlert connect =
      match
        if typeAlert = "flow_alerts".toList then
          forRows json (columnDocument 9) (fun output text => output ++ text)
            (execute ("SELECT * FROM ".toList ++ typeAlert)) []
        else
          forRows json rowDocument (fun output text => output ++ text)
            (execute ("SELECT * FROM ".toList ++ typeAlert)) [] with
      | .error exception => getAlertsFailed exception
      | .ok output => .output output := by
  simp only [alertTypes, List.mem_cons, List.not_mem_nil, or_false] at htype
  unfold onGetAlertsAction
  rw [hconnect]
  simp only [if_pos htype]

theorem printsEveryAlert_of_flow
    (hflow : typeAlert = "flow_alerts".toList)
    (hconnect : connect (alertStorePath idInterface) = .ok execute)
    {rows : List (JsonRow 9)}
    (hrows : execute ("SELECT * FROM ".toList ++ typeAlert) =
      rows.map JsonRow.fetched) :
    PrintsEveryAlert json rows
      (onGetAlertsAction json idInterface typeAlert connect) := by
  have htype : typeAlert ∈ alertTypes := by
    rw [hflow]
    decide
  unfold PrintsEveryAlert
  rw [onGetAlertsAction_of_type json htype hconnect, if_pos hflow, hrows,
    forRows_column, foldl_append, List.nil_append]

theorem printsEveryAlert_of_empty (htype : typeAlert ∈ alertTypes)
    (hconnect : connect (alertStorePath idInterface) = .ok execute)
    {column : ℕ} (hrows : execute ("SELECT * FROM ".toList ++ typeAlert) = []) :
    PrintsEveryAlert json ([] : List (JsonRow column))
      (onGetAlertsAction json idInterface typeAlert connect) := by
  unfold PrintsEveryAlert
  rw [onGetAlertsAction_of_type json htype hconnect, hrows, forRows, forRows,
    ite_self]
  rfl

theorem getAlerts_fails_of_row (htype : typeAlert ∈ alertTypes)
    (hother : typeAlert ≠ "flow_alerts".toList)
    (hconnect : connect (alertStorePath idInterface) = .ok execute)
    {column : ℕ} (first : JsonRow column) (rows : List (JsonRow column))
    (hrows : execute ("SELECT * FROM ".toList ++ typeAlert) =
      (first :: rows).map JsonRow.fetched) :
    ∃ exception, onGetAlertsAction json idInterface typeAlert connect =
      getAlertsFailed exception := by
  rcases forRows_row json (fun output text => output ++ text) first rows []
    with ⟨exception, hfailed⟩
  refine ⟨exception, ?_⟩
  rw [onGetAlertsAction_of_type json htype hconnect, if_neg hother, hrows,
    hfailed]

end Alerts

/-- Python's `json` on texts without floats, and no byte strings. -/
def plainJson : JsonModule where
  reprFloat := fun _ => ⟨"0.0".toList, by decide⟩
  decodeBytes := fun _ => .error "invalid start byte".toList
  decodeError := fun _ => "Expecting value: line 1 column 1 (char 0)".toList

theorem decode_emptyObject :
    JsonText.decode "\x7b\x7d".toList = some (.obj []) :=
  rfl

/-- One row with an empty object in the tenth column. -/
def emptyAlert : JsonRow 9 where
  row := List.replicate 9 .null ++ [.text "\x7b\x7d".toList]
  text := "\x7b\x7d".toList
  value := .obj []
  stored := rfl
  valid := decode_emptyObject

def oneAlert : Text → Except Text Connection :=
  fun _ => .ok (fun _ => [emptyAlert.fetched])

end SecaasCharms.NtopngCharm
