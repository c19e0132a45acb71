import SecaasCharms.JsonRoundTrip
import SecaasCharms.TopTalkers

/-!
# What the output of the ntopng charm says about the rows

The charm prints the JSON of its rows one behind another, without anything in
between.  The text of one row can be loaded again.  Rows that hold objects can
be told apart in the whole output; numbers could not, since two of them in a
row look like one.  Whatever the rows hold, the output is printable ASCII.
-/

namespace SecaasCharms.NtopngCharm

open TextLines
open JsonModule (Document)
open JsonText (Value)

variable {json : JsonModule}

/-! ## One row -/

/-- What was loaded, dumped and loaded again is the same. -/
theorem loads_dumps_of_loads {text : Text} {value : Value}
    (hdecode : JsonText.decode text = some value)
    (hvalue : json.Representable value) (indent : ℕ) :
    ∃ loaded, json.loads (.str text) = .ok loaded ∧
      json.loads (.str (loaded.dumps indent)) = .ok loaded := by
  refine ⟨json.ofValue value, ?_, ?_⟩
  · simp only [JsonModule.loads, JsonModule.loadsText, hdecode]
  · exact Json.loadsText_dumps (JsonModule.wellFormed_ofValue value hvalue)
      indent

theorem loads_dumps_of_repeated_key :
    ∃ loaded,
      plainJson.loads
          (.str "\x7b\"a\": 0.0, \"a\": [\"\\u00e9\"]\x7d".toList) = .ok loaded ∧
      plainJson.loads (.str (loaded.dumps 8)) = .ok loaded :=
  @loads_dumps_of_loads plainJson _
    (.obj [("a".toList, .real "0.0".toList),
      ("a".toList, .arr [.str "é".toList])]) rfl
    ⟨⟨rfl, rfl⟩, ⟨trivial, trivial⟩, trivial⟩ 8

/-! ## The rows of the whole output -/

/-- A row whose JSON is no number and can be dumped. -/
def JsonRow.Separable {column : ℕ} (json : JsonModule)
    (stats : JsonRow column) : Prop :=
  json.Representable stats.value ∧ ¬ stats.value.IsNumber

def JsonRow.loaded {column : ℕ} (json : JsonModule)
    (stats : JsonRow column) : Json :=
  json.ofValue stats.value

theorem not_isNumber_toValue {value : Value} (hvalue : ¬ value.IsNumber) :
    ¬ (json.ofValue value).toValue.IsNumber := by
  cases value with
  | int value => exact absurd trivial hvalue
  | real literal => exact absurd trivial hvalue
  | null => exact id
  | bool value => exact id
  | str text => exact id
  | arr items => exact id
  | obj members => exact id

/-- The texts that rows are printed as. -/
def PrettyTexts (column : ℕ) (json : JsonModule) : Set Text :=
  {text | ∃ stats : JsonRow column,
    stats.Separable json ∧ stats.pretty json = text}

theorem decode_pretty {column : ℕ} {stats : JsonRow column}
    (hstats : json.Representable stats.value) :
    JsonText.decode (stats.pretty json) = some (stats.loaded json).toValue :=
  Json.decode_dumps (JsonModule.wellFormed_ofValue stats.value hstats) 8

theorem loaded_eq_of_toValue_eq {column : ℕ} {first second : JsonRow column}
    (hfirst : json.Representable first.value)
    (hsecond : json.Representable second.value)
    (heq : (first.loaded json).toValue = (second.loaded json).toValue) :
    first.loaded json = second.loaded json := by
  have hback := Json.ofValue_toValue (first.loaded json)
    (JsonModule.wellFormed_ofValue first.value hfirst)
  rw [← hback, heq]
  exact Json.ofValue_toValue (second.loaded json)
    (JsonModule.wellFormed_ofValue second.value hsecond)

theorem uniquelyDecodable_prettyTexts (column : ℕ) (json : JsonModule) :
    InformationTheory.UniquelyDecodable (PrettyTexts column json) := by
  apply JsonText.uniquelyDecodable_of_prefix
  · rintro ⟨stats, _, hempty⟩
    exact stats.pretty_ne_nil json hempty
  · rintro text ⟨first, hfirst, htext⟩ other ⟨second, hsecond, hother⟩ hbegins
    rw [← htext, ← hother] at hbegins ⊢
    rcases hbegins with ⟨rest, happend⟩
    have hdecoded := decode_pretty hsecond.1
    rw [← happend] at hdecoded
    have hvalue := JsonText.eq_of_decode_append (decode_pretty hfirst.1)
      (not_isNumber_toValue hfirst.2) hdecoded
    have hsame := loaded_eq_of_toValue_eq hfirst.1 hsecond.1 hvalue
    exact congrArg (Json.dumps 8) hsame

/-- The value a text is loaded as; the text of a row always is. -/
def loadedText (json : JsonModule) (text : Text) : Json :=
  match json.loadsText text with
  | .ok loaded => loaded
  | .error _ => .null

theorem loadedText_pretty {column : ℕ} {stats : JsonRow column}
    (hstats : json.Representable stats.value) :
    loadedText json (stats.pretty json) = stats.loaded json := by
  have hloads : json.loadsText (stats.pretty json) = .ok (stats.loaded json) :=
    Json.loadsText_dumps (JsonModule.wellFormed_ofValue stats.value hstats) 8
  rw [loadedText, hloads]

/-- Two tables are printed alike exactly when their rows hold the same
values. -/
theorem flatten_pretty_eq_iff {column : ℕ} {first second : List (JsonRow column)}
    (hfirst : ∀ stats ∈ first, stats.Separable json)
    (hsecond : ∀ stats ∈ second, stats.Separable json) :
    (first.map (JsonRow.pretty json)).flatten =
        (second.map (JsonRow.pretty json)).flatten ↔
      first.map (JsonRow.loaded json) = second.map (JsonRow.loaded json) := by
  have htexts : ∀ rows : List (JsonRow column),
      (∀ stats ∈ rows, stats.Separable json) →
      ∀ text ∈ rows.map (JsonRow.pretty json), text ∈ PrettyTexts column json := by
    intro rows hrows text htext
    rcases List.mem_map.mp htext with ⟨stats, hstats, hpretty⟩
    exact ⟨stats, hrows stats hstats, hpretty⟩
  have hloaded : ∀ rows : List (JsonRow column),
      (∀ stats ∈ rows, stats.Separable json) →
      rows.map (JsonRow.loaded json) =
        (rows.map (JsonRow.pretty json)).map (loadedText json) := by
    intro rows hrows
    rw [List.map_map]
    apply List.map_congr_left
    intro stats hstats
    exact (loadedText_pretty (hrows stats hstats).1).symm
  constructor
  · intro hflatten
    have hsame := uniquelyDecodable_prettyTexts column json
      (first.map (JsonRow.pretty json)) (second.map (JsonRow.pretty json))
      (htexts first hfirst) (htexts second hsecond) hflatten
    rw [hloaded first hfirst, hloaded second hsecond, hsame]
  · intro hvalues
    have hpretty : @JsonRow.pretty column json =
        Json.dumps 8 ∘ JsonRow.loaded json := rfl
    rw [hpretty, ← List.map_map, ← List.map_map, hvalues]

/-- A line break or a printable character of ASCII. -/
def IsPrintable (c : Char) : Prop := c = '\n' ∨ 0x20 ≤ c.toNat ∧ c.toNat ≤ 0x7e

instance : DecidablePred IsPrintable :=
  fun c => inferInstanceAs (Decidable (c = '\n' ∨ 0x20 ≤ c.toNat ∧ c.toNat ≤ 0x7e))

def PrintableText (text : Text) : Prop := ∀ c ∈ text, IsPrintable c

instance : DecidablePred PrintableText :=
  fun text => decidableForallMemText IsPrintable text

theorem printable_append {first later : Text} (hfirst : PrintableText first)
    (hlater : PrintableText later) : PrintableText (first ++ later) := by
  intro c hc
  rcases List.mem_append.mp hc with hmem | hmem
  · exact hfirst c hmem
  · exact hlater c hmem

theorem printable_digitChar {digit : ℕ} (hdigit : digit < 16) :
    IsPrintable (Nat.digitChar digit) := by
  revert digit
  decide

theorem printable_escapeUnit {code : ℕ} (hcode : code < 65536) :
    PrintableText (Json.escapeUnit code) := by
  have hlt : ∀ n, n % 16 < 16 := fun n => Nat.mod_lt n (by decide)
  have hdigits : PrintableText (JsonText.codeDigits code) := by
    intro c hc
    simp only [JsonText.codeDigits, List.mem_cons, List.not_mem_nil, or_false]
      at hc
    rcases hc with heq | heq | heq | heq
    · exact heq ▸ printable_digitChar (hlt _)
    · exact heq ▸ printable_digitChar (hlt _)
    · exact heq ▸ printable_digitChar (hlt _)
    · exact heq ▸ printable_digitChar (hlt _)
  rw [Json.escapeUnit_eq hcode, JsonText.unicodeEscape]
  exact printable_append (by decide) hdigits

theorem printable_escapeChar (c : Char) : PrintableText (Json.escapeChar c) := by
  have hbound := (Json.not_surrogate c).2
  unfold Json.escapeChar
  split_ifs with hquote hbackslash hnewline hreturn htab hfeed hback
    hprintable hbasic
  · decide
  · decide
  · decide
  · decide
  · decide
  · decide
  · decide
  · intro d hd
    rw [List.mem_singleton.mp hd]
    exact Or.inr hprintable
  · exact printable_escapeUnit hbasic
  · exact printable_append (printable_escapeUnit (by omega))
      (printable_escapeUnit (by omega))

theorem printable_dumpsText (text : Text) :
    PrintableText (Json.dumpsText text) := by
  have hbody : PrintableText (text.flatMap Json.escapeChar) := by
    intro c hc
    rcases List.mem_flatMap.mp hc with ⟨d, _, hmem⟩
    exact printable_escapeChar d c hmem
  exact printable_append (printable_append (by decide : PrintableText ['"']) hbody)
    (by decide)

theorem printable_newlineIndent (indent level : ℕ) :
    PrintableText (Json.newlineIndent indent level) := by
  intro c hc
  rcases List.mem_cons.mp hc with hnewline | hmem
  · exact Or.inl hnewline
  · rw [(List.mem_replicate.mp hmem).2]
    decide

theorem printable_enclose {opening closing : Char} (hopening : IsPrintable opening)
    (hclosing : IsPrintable closing) {parts : List Text}
    (hparts : ∀ part ∈ parts, PrintableText part) (indent level : ℕ) :
    PrintableText (Json.enclose indent level opening closing parts) := by
  have hindent := printable_newlineIndent indent
  have hend : PrintableText [closing] := by
    intro c hc
    rw [List.mem_singleton.mp hc]
    exact hclosing
  have hbegin : ∀ text, PrintableText text → PrintableText (opening :: text) := by
    intro text htext c hc
    rcases List.mem_cons.mp hc with hfirst | hmem
    · rw [hfirst]
      exact hopening
    · exact htext c hmem
  have hbetween : PrintableText
      ((',' :: Json.newlineIndent indent (level + 1)).intercalate parts) := by
    intro c hc
    rcases mem_intercalate hc with hseparator | ⟨part, hpart, hmem⟩
    · exact printable_append (by decide : PrintableText [','])
        (hindent (level + 1)) c hseparator
    · exact hparts part hpart c hmem
  unfold Json.enclose
  split
  · exact hbegin _ hend
  · exact printable_append (printable_append (printable_append
      (hbegin _ (hindent (level + 1))) hbetween) (hindent level)) hend

theorem isPrintable_of_isNumberChar {c : Char}
    (hc : JsonText.isNumberChar c = true) : IsPrintable c := by
  rw [JsonText.isNumberChar, Bool.or_eq_true] at hc
  rcases hc with hdigit | hother
  · have hbounds := Char.isDigit_iff_toNat.mp hdigit
    have hlow : '0'.toNat = 48 := rfl
    have hhigh : '9'.toNat = 57 := rfl
    exact Or.inr (by omega)
  · have hall : "+-.eE".toList.all (fun d => decide (IsPrintable d)) = true := by
      decide
    exact of_decide_eq_true
      (List.all_eq_true.mp hall c (List.contains_iff_mem.mp hother))

theorem printable_dumpsFloat {shown : Text} (hshown : PrintableText shown) :
    PrintableText (Json.dumpsFloat shown) := by
  unfold Json.dumpsFloat
  split_ifs
  · decide
  · decide
  · decide
  · exact hshown

mutual

theorem printable_dumpsAt (indent level : ℕ) :
    (value : Json) → value.WellFormed PrintableText →
      PrintableText (value.dumpsAt indent level)
  | .null, _ => (by decide : PrintableText "null".toList)
  | .bool true, _ => (by decide : PrintableText "true".toList)
  | .bool false, _ => (by decide : PrintableText "false".toList)
  | .int value, _ => fun _ hc =>
      isPrintable_of_isNumberChar (JsonText.isNumberChar_of_mem_intText hc)
  | .float _, hshown => printable_dumpsFloat hshown
  | .str text, _ => printable_dumpsText text
  | .arr items, hitems =>
      printable_enclose (by decide) (by decide)
        (printable_dumpsItems indent (level + 1) items hitems) indent level
  | .obj fields, hfields =>
      printable_enclose (by decide) (by decide)
        (printable_dumpsFields indent (level + 1) fields hfields.2) indent level

theorem printable_dumpsItems (indent level : ℕ) :
    (items : List Json) → Json.WellFormedItems PrintableText items →
      ∀ part ∈ Json.dumpsItems indent level items, PrintableText part
  | [], _ => fun _ hpart => absurd hpart List.not_mem_nil
  | item :: items, hitems => fun part hpart => by
      rcases List.mem_cons.mp hpart with hfirst | hmem
      · rw [hfirst]
        exact printable_dumpsAt indent level item hitems.1
      · exact printable_dumpsItems indent level items hitems.2 part hmem

theorem printable_dumpsFields (indent level : ℕ) :
    (fields : List (Text × Json)) → Json.WellFormedFields PrintableText fields →
      ∀ part ∈ Json.dumpsFields indent level fields, PrintableText part
  | [], _ => fun _ hpart => absurd hpart List.not_mem_nil
  | (key, value) :: fields, hfields => fun part hpart => by
      rcases List.mem_cons.mp hpart with hfirst | hmem
      · rw [hfirst]
        exact printable_append
          (printable_append (printable_dumpsText key) (by decide))
          (printable_dumpsAt indent level value hfields.1)
      · exact printable_dumpsFields indent level fields hfields.2 part hmem

end

section Actions

variable (hfloats : ∀ literal, PrintableText (json.reprFloat literal).val)

include hfloats

theorem printable_prettyRow {document : Row → Except Text Document} {row : Row}
    {text : Text} (hpretty : prettyRow json document row = .ok text) :
    PrintableText text := by
  unfold prettyRow at hpretty
  split at hpretty
  · contradiction
  · split at hpretty
    · contradiction
    · next loaded hloads =>
        rcases JsonModule.exists_value_of_loads hloads with ⟨value, hvalue⟩
        have hwell := JsonModule.wellFormed_ofValue value
          (JsonModule.floatsHave_of_forall hfloats value)
        rw [← Except.ok.inj hpretty, hvalue]
        exact printable_dumpsAt 8 0 (json.ofValue value) hwell

theorem printable_forRows {σ : Type} {append : σ → Text → σ} {Good : σ → Prop}
    (happend : ∀ result text, Good result → PrintableText text →
      Good (append result text))
    {document : Row → Except Text Document} {rows : List (Except Text Row)}
    {result last : σ} (hresult : Good result)
    (hrows : forRows json document append rows result = .ok last) :
    Good last := by
  induction rows generalizing result with
  | nil => exact Except.ok.inj hrows ▸ hresult
  | cons fetched rows ih =>
      cases fetched with
      | error exception => contradiction
      | ok row =>
          unfold forRows at hrows
          split at hrows
          · contradiction
          · next text hpretty =>
              exact ih (happend result text hresult
                (printable_prettyRow hfloats hpretty)) hrows

theorem printable_of_getAlerts {idInterface : ℤ} {typeAlert : Text}
    {connect : Text → Except Text Connection} {output : Text}
    (htype : typeAlert ∈ alertTypes)
    (hprints : onGetAlertsAction json idInterface typeAlert connect =
      .output output) : PrintableText output := by
  cases hconnect : connect (alertStorePath idInterface) with
  | error exception =>
      unfold onGetAlertsAction at hprints
      rw [hconnect] at hprints
      contradiction
  | ok execute =>
      have hloop : ∀ document rows last,
          forRows json document (fun output text => output ++ text) rows [] =
            .ok last → PrintableText last := by
        intro document rows last hrows
        exact printable_forRows hfloats
          (fun _ _ hresult htext => printable_append hresult htext)
          (fun _ hc => absurd hc List.not_mem_nil) hrows
      rw [onGetAlertsAction_of_type json htype hconnect] at hprints
      split at hprints
      · contradiction
      · next last hlast =>
          rw [← ActionResult.output_inj.mp hprints]
          split at hlast
          · exact hloop _ _ last hlast
          · exact hloop _ _ last hlast

theorem printable_of_getTopTalkers {idInterface : ℤ}
    {connect : Text → Except Text Connection} {output : Text}
    (hprints : onGetTopTalkersAction json idInterface connect =
      .output output) : PrintableText output := by
  unfold onGetTopTalkersAction at hprints
  split at hprints
  · contradiction
  · split at hprints
    · contradiction
    · next auxList hlist =>
        have hall : ∀ text ∈ auxList, PrintableText text :=
          @printable_forRows json hfloats (List Text) _
            (fun texts => ∀ text ∈ texts, PrintableText text)
            (fun texts text htexts htext other hother => by
              rcases List.mem_append.mp hother with hmem | hmem
              · exact htexts other hmem
              · rw [List.mem_singleton.mp hmem]
                exact htext)
            _ _ [] auxList (fun text hmem => absurd hmem List.not_mem_nil) hlist
        rw [takeTalkers_eq] at hprints
        split at hprints
        · contradiction
        · next fileData hdata =>
            split at hdata
            · contradiction
            · rw [← ActionResult.output_inj.mp hprints,
                ← Except.ok.inj hdata]
              intro c hc
              rcases List.mem_flatten.mp hc with ⟨text, htext, hmem⟩
              exact hall text (List.mem_of_mem_drop htext) c hmem

/-- Whatever the databases hold, control characters and characters outside
ASCII reach no output. -/
theorem printable_of_tables (idInterface : ℤ)
    (connect : Text → Except Text Connection) :
    (∀ typeAlert ∈ alertTypes, ∀ output,
      onGetAlertsAction json idInterface typeAlert connect = .output output →
      PrintableText output) ∧
    (∀ output,
      onGetTopTalkersAction json idInterface connect = .output output →
      PrintableText output) :=
  ⟨fun _ htype _ hprints => printable_of_getAlerts hfloats htype hprints,
    fun _ hprints => printable_of_getTopTalkers hfloats hprints⟩

end Actions

theorem printable_of_one_alert :
    (∀ typeAlert ∈ alertTypes, ∀ output,
      onGetAlertsAction plainJson 1 typeAlert oneAlert = .output output →
      PrintableText output) ∧
    (∀ output,
      onGetTopTalkersAction plainJson 1 oneAlert = .output output →
      PrintableText output) :=
  printable_of_tables (fun _ => (by decide : PrintableText "0.0".toList)) 1 oneAlert

end SecaasCharms.NtopngCharm
