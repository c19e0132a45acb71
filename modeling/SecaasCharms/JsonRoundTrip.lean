import SecaasCharms.JsonDumps
import SecaasCharms.JsonTextReading

/-!
# What was dumped can be loaded

`json.dumps` prints a value that `json.loads` gave so that loading the text
gives the value again: strings escape every character that is not printable
ASCII, dictionaries have each key once, and a float is shown by a numeral
that reads as the same float.  Only a number too large for a float, which is
shown as `Infinity`, is no JSON text.
-/

namespace SecaasCharms

open TextLines
open JsonText (Value State Frame Role run)

/-! ## Dumpable values -/

namespace Json

mutual

/-- The JSON value with the same parts. -/
def toValue : Json → Value
  | .null => .null
  | .bool value => .bool value
  | .int value => .int value
  | .float shown => .real shown
  | .str text => .str text
  | .arr items => .arr (toItems items)
  | .obj fields => .obj (toMembers fields)

def toItems : List Json → List Value
  | [] => []
  | item :: items => item.toValue :: toItems items

def toMembers : List (Text × Json) → List (Text × Value)
  | [] => []
  | (key, value) :: fields => (key, value.toValue) :: toMembers fields

end

/-- The numeral of a float reads as that float. -/
def Shows (json : JsonModule) (shown : Text) : Prop :=
  JsonText.numberOf? shown = some (.real shown) ∧
    (json.reprFloat shown).val = shown

mutual

/-- Every dictionary has distinct keys, and `float` holds of every float. -/
def WellFormed (float : Text → Prop) : Json → Prop
  | .null => True
  | .bool _ => True
  | .int _ => True
  | .float shown => float shown
  | .str _ => True
  | .arr items => WellFormedItems float items
  | .obj fields =>
      (fields.map Prod.fst).Nodup ∧ WellFormedFields float fields

def WellFormedItems (float : Text → Prop) : List Json → Prop
  | [] => True
  | item :: items => item.WellFormed float ∧ WellFormedItems float items

def WellFormedFields (float : Text → Prop) : List (Text × Json) → Prop
  | [] => True
  | (_, value) :: fields =>
      value.WellFormed float ∧ WellFormedFields float fields

end

def Dumpable (json : JsonModule) (value : Json) : Prop :=
  value.WellFormed (Shows json)

/-! ## Strings -/

theorem hexDigits_of_lt {n : ℕ} (hn : n < 16) :
    hexDigits 1 n = [Nat.digitChar n] := by
  have hshown := Nat.toDigits_of_lt_base hn
  simp only [hexDigits, hshown]
  rfl

theorem hexDigits_succ {width : ℕ} (hwidth : 0 < width) (n : ℕ) :
    hexDigits (width + 1) n =
      hexDigits width (n / 16) ++ [Nat.digitChar (n % 16)] := by
  by_cases hlt : n < 16
  · have hzero : n / 16 = 0 := Nat.div_eq_of_lt hlt
    have hpad : width = width - 1 + 1 := by omega
    have hone : Nat.toDigits 16 0 = ['0'] := rfl
    rw [hexDigits, hexDigits, Nat.toDigits_of_lt_base hlt, hzero, hone,
      Nat.mod_eq_of_lt hlt]
    simp only [List.length_singleton, Nat.add_sub_cancel]
    rw [← List.replicate_succ', ← hpad]
  · have hmore := Nat.toDigits_of_base_le (by decide : 1 < 16) (not_lt.mp hlt)
    simp only [hexDigits, hmore, List.length_append, List.length_singleton,
      Nat.add_sub_add_right, List.append_assoc]

theorem escapeUnit_eq {code : ℕ} (hcode : code < 65536) :
    escapeUnit code = JsonText.unicodeEscape code := by
  have hthird : code / 16 / 16 = code / 256 := Nat.div_div_eq_div_mul _ _ _
  have hfourth : code / 256 / 16 = code / 4096 := Nat.div_div_eq_div_mul _ _ _
  have hfirst : code / 4096 < 16 := by omega
  rw [escapeUnit, JsonText.unicodeEscape, JsonText.codeDigits,
    hexDigits_succ (by decide), hexDigits_succ (by decide),
    hexDigits_succ (by decide), hthird, hfourth, hexDigits_of_lt hfirst,
    Nat.mod_eq_of_lt hfirst]
  rfl

/-- No character is a surrogate. -/
theorem not_surrogate (c : Char) :
    ¬ (0xd800 ≤ c.toNat ∧ c.toNat < 0xe000) ∧ c.toNat < 0x110000 := by
  have hvalid : c.toNat < 0xd800 ∨ 0xdfff < c.toNat ∧ c.toNat < 0x110000 :=
    c.valid
  omega

theorem run_escapeChar (c : Char) (role : Role) (text : Text)
    (stack : List Frame) :
    run ⟨.string role text, stack⟩ (escapeChar c) =
      some ⟨.string role (text ++ [c]), stack⟩ := by
  have hsurrogate := not_surrogate c
  unfold escapeChar
  split_ifs with hquote hbackslash hnewline hreturn htab hfeed hback
    hprintable hbasic
  · rw [hquote]; rfl
  · rw [hbackslash]; rfl
  · rw [hnewline]; rfl
  · rw [hreturn]; rfl
  · rw [htab]; rfl
  · rw [hfeed]; rfl
  · rw [hback]; rfl
  · have hcontrol : ¬ c.toNat < 0x20 := by omega
    simp only [JsonText.run_cons, JsonText.step, JsonText.modeStep,
      if_neg hquote, if_neg hbackslash, if_neg hcontrol, Option.bind_some]
    rfl
  · rw [escapeUnit_eq hbasic, JsonText.run_unicodeEscape hbasic hsurrogate.1,
      Char.ofNat_toNat]
  · have hhigh : (c.toNat - 0x10000) / 0x400 < 0x400 := by omega
    have hlow : (c.toNat - 0x10000) % 0x400 < 0x400 :=
      Nat.mod_lt _ (by decide)
    have hcode : 0x10000 + 0x400 * ((c.toNat - 0x10000) / 0x400) +
        (c.toNat - 0x10000) % 0x400 = c.toNat := by omega
    rw [escapeUnit_eq (by omega), escapeUnit_eq (by omega),
      JsonText.run_surrogates hhigh hlow, hcode, Char.ofNat_toNat]

theorem run_escapes (added : Text) (role : Role) (text : Text)
    (stack : List Frame) :
    run ⟨.string role text, stack⟩ (added.flatMap escapeChar) =
      some ⟨.string role (text ++ added), stack⟩ := by
  induction added generalizing text with
  | nil => rw [List.append_nil]; rfl
  | cons c added ih =>
      rw [List.flatMap_cons, JsonText.run_append, run_escapeChar,
        Option.bind_some, ih, List.append_assoc]
      rfl

/-- A dumped string, behind a state in which a quote opens a string. -/
theorem run_dumpsText {state : State} {role : Role} {stack : List Frame}
    (hopen : JsonText.step state '"' = some ⟨.string role [], stack⟩)
    (text : Text) :
    run state (dumpsText text) =
      some ⟨JsonText.closeString role text, stack⟩ := by
  rw [dumpsText, List.cons_append, JsonText.run_cons, hopen, Option.bind_some,
    JsonText.run_append, run_escapes, List.nil_append, Option.bind_some]
  rfl

/-! ## Arrays and objects -/

theorem isSpace_of_mem_newlineIndent {indent level : ℕ} {c : Char}
    (hc : c ∈ newlineIndent indent level) : JsonText.isSpace c = true := by
  rcases List.mem_cons.mp hc with hnewline | hmem
  · rw [hnewline]
    rfl
  · rw [(List.mem_replicate.mp hmem).2]
    rfl

/-- The comma between two parts and the line break behind it. -/
def separator (indent level : ℕ) : Text := ',' :: newlineIndent indent level

theorem run_separator_items {state : State} {value : Value}
    {before : List Value} {stack : List Frame}
    (hread : state.HasRead value (.arr before :: stack)) (indent level : ℕ) :
    run state (separator indent level) =
      some ⟨.value, .arr (before ++ [value]) :: stack⟩ := by
  have hcomma : JsonText.step state ',' =
      some ⟨.value, .arr (before ++ [value]) :: stack⟩ := hread.step_eq rfl
  rw [separator, JsonText.run_cons, hcomma, Option.bind_some]
  exact JsonText.run_spaces (fun c hc => isSpace_of_mem_newlineIndent hc) rfl _

theorem run_separator_fields {state : State} {value : Value}
    {before : List (Text × Value)} {name : Text} {stack : List Frame}
    (hread : state.HasRead value (.obj before name :: stack))
    (indent level : ℕ) :
    run state (separator indent level) =
      some ⟨.name (before ++ [(name, value)]), stack⟩ := by
  have hcomma : JsonText.step state ',' =
      some ⟨.name (before ++ [(name, value)]), stack⟩ := hread.step_eq rfl
  rw [separator, JsonText.run_cons, hcomma, Option.bind_some]
  exact JsonText.run_spaces (fun c hc => isSpace_of_mem_newlineIndent hc) rfl _

theorem enclose_cons (indent level : ℕ) (opening closing : Char) (part : Text)
    (parts : List Text) :
    enclose indent level opening closing (part :: parts) =
      opening :: (newlineIndent indent (level + 1) ++
        ((separator indent (level + 1)).intercalate (part :: parts) ++
          (newlineIndent indent level ++ [closing]))) := by
  rw [enclose, if_neg (List.cons_ne_nil part parts)]
  simp only [List.cons_append, List.append_assoc]
  rfl

/-- Behind the last part the container is closed. -/
theorem run_closing {state : State} {value closed : Value} {frame : Frame}
    {stack : List Frame} (hread : state.HasRead value (frame :: stack))
    {closing : Char} (hnumber : JsonText.isNumberChar closing = false)
    (hclose : JsonText.afterValue value (frame :: stack) closing =
      some ⟨.after closed, stack⟩) (indent level : ℕ) :
    run state (newlineIndent indent level ++ [closing]) =
      some ⟨.after closed, stack⟩ := by
  rcases hread.run_spaces (fun c hc => isSpace_of_mem_newlineIndent hc)
    with ⟨next, hrun, hnext⟩
  rw [JsonText.run_append, hrun, Option.bind_some, JsonText.run_cons,
    hnext.step_eq hnumber, hclose]
  rfl

/-! ## The value behind its text -/

variable {json : JsonModule}

theorem dumpsFloat_of_shows {shown : Text} (hshown : Shows json shown) :
    dumpsFloat shown = shown := by
  have hother : ∀ text, JsonText.numberOf? text = none → shown ≠ text := by
    intro text htext heq
    have hnumber := hshown.1
    rw [heq, htext] at hnumber
    contradiction
  unfold dumpsFloat
  rw [if_neg (hother _ rfl), if_neg (hother _ rfl), if_neg (hother _ rfl)]

theorem numberOf?_intText (value : ℤ) :
    JsonText.numberOf? (JsonText.intText value) = some (.int value) := by
  rw [JsonText.numberOf?, JsonText.intOf?_intText]

mutual

/-- The state behind the text of a value, whatever is still open around it. -/
theorem run_dumpsAt (indent level : ℕ) (stack : List Frame) :
    (value : Json) → value.Dumpable json →
      ∃ state, run ⟨.value, stack⟩ (value.dumpsAt indent level) = some state ∧
        state.HasRead value.toValue stack
  | .null, _ => ⟨_, rfl, JsonText.hasRead_after .null stack⟩
  | .bool true, _ => ⟨_, rfl, JsonText.hasRead_after (.bool true) stack⟩
  | .bool false, _ => ⟨_, rfl, JsonText.hasRead_after (.bool false) stack⟩
  | .int value, _ => JsonText.hasRead_number (numberOf?_intText value) stack
  | .float shown, hshown => by
      rw [dumpsAt, dumpsFloat_of_shows hshown]
      exact JsonText.hasRead_number hshown.1 stack
  | .str text, _ =>
      ⟨⟨.after (.str text), stack⟩,
        @run_dumpsText ⟨.value, stack⟩ .value stack rfl text,
        JsonText.hasRead_after (.str text) stack⟩
  | .arr [], _ => ⟨_, rfl, JsonText.hasRead_after (.arr []) stack⟩
  | .arr (item :: items), hitems => by
      rcases run_dumpsItems indent (level + 1) [] stack (item :: items)
        (List.cons_ne_nil item items) hitems with
        ⟨state, init, final, hrun, hread, hparts⟩
      have hclose : JsonText.afterValue final (.arr init :: stack) ']' =
          some ⟨.after (.arr (toItems (item :: items))), stack⟩ := by
        have hall : init ++ [final] = toItems (item :: items) := hparts
        rw [← hall]
        rfl
      have hspaces := @JsonText.run_spaces (newlineIndent indent (level + 1))
        (fun c hc => isSpace_of_mem_newlineIndent hc) .value rfl
        (.arr [] :: stack)
      have hopen : JsonText.step ⟨.value, stack⟩ '[' =
          some ⟨.value, .arr [] :: stack⟩ := rfl
      refine ⟨_, ?_, JsonText.hasRead_after _ stack⟩
      rw [dumpsAt, dumpsItems, enclose_cons, JsonText.run_cons, hopen,
        Option.bind_some, JsonText.run_append, hspaces, Option.bind_some,
        JsonText.run_append, ← dumpsItems, hrun, Option.bind_some]
      exact run_closing hread rfl hclose indent level
  | .obj [], _ => ⟨_, rfl, JsonText.hasRead_after (.obj []) stack⟩
  | .obj ((key, value) :: fields), hfields => by
      rcases run_dumpsFields indent (level + 1) [] stack
        ((key, value) :: fields) (List.cons_ne_nil _ fields) hfields.2 with
        ⟨state, init, name, final, hrun, hread, hparts⟩
      have hclose : JsonText.afterValue final (.obj init name :: stack) '\x7d' =
          some ⟨.after (.obj (toMembers ((key, value) :: fields))), stack⟩ := by
        have hall : init ++ [(name, final)] =
            toMembers ((key, value) :: fields) := hparts
        rw [← hall]
        rfl
      have hspaces := @JsonText.run_spaces (newlineIndent indent (level + 1))
        (fun c hc => isSpace_of_mem_newlineIndent hc) (.name []) rfl stack
      have hopen : JsonText.step ⟨.value, stack⟩ '\x7b' =
          some ⟨.name [], stack⟩ := rfl
      refine ⟨_, ?_, JsonText.hasRead_after _ stack⟩
      rw [dumpsAt, dumpsFields, enclose_cons, JsonText.run_cons, hopen,
        Option.bind_some, JsonText.run_append, hspaces, Option.bind_some,
        JsonText.run_append, ← dumpsFields, hrun, Option.bind_some]
      exact run_closing hread rfl hclose indent level

/-- The items of an array that is open; the last one is not yet in it. -/
theorem run_dumpsItems (indent level : ℕ) (before : List Value)
    (stack : List Frame) : (items : List Json) → items ≠ [] →
      WellFormedItems (Shows json) items →
      ∃ state init final,
        run ⟨.value, .arr before :: stack⟩
          ((separator indent level).intercalate
            (dumpsItems indent level items)) = some state ∧
        state.HasRead final (.arr init :: stack) ∧
        init ++ [final] = before ++ toItems items
  | [], hempty, _ => absurd rfl hempty
  | [item], _, hitems => by
      rcases run_dumpsAt indent level (.arr before :: stack) item hitems.1
        with ⟨state, hrun, hread⟩
      refine ⟨state, before, item.toValue, ?_, hread, rfl⟩
      rw [dumpsItems, dumpsItems, List.intercalate_singleton]
      exact hrun
  | item :: next :: items, _, hitems => by
      rcases run_dumpsAt indent level (.arr before :: stack) item hitems.1
        with ⟨state, hrun, hread⟩
      rcases run_dumpsItems indent level (before ++ [item.toValue]) stack
        (next :: items) (List.cons_ne_nil next items) hitems.2 with
        ⟨last, init, final, hrest, hlast, hparts⟩
      refine ⟨last, init, final, ?_, hlast, ?_⟩
      · rw [dumpsItems, dumpsItems, List.intercalate_cons_cons, ← dumpsItems,
          JsonText.run_append, JsonText.run_append, hrun, Option.bind_some,
          run_separator_items hread, Option.bind_some]
        exact hrest
      · rw [hparts, List.append_assoc]
        rfl

theorem run_dumpsFields (indent level : ℕ) (before : List (Text × Value))
    (stack : List Frame) : (fields : List (Text × Json)) → fields ≠ [] →
      WellFormedFields (Shows json) fields →
      ∃ state init name final,
        run ⟨.name before, stack⟩
          ((separator indent level).intercalate
            (dumpsFields indent level fields)) = some state ∧
        state.HasRead final (.obj init name :: stack) ∧
        init ++ [(name, final)] = before ++ toMembers fields
  | [], hempty, _ => absurd rfl hempty
  | [(key, value)], _, hfields => by
      rcases run_dumpsAt indent level (.obj before key :: stack) value
        hfields.1 with ⟨state, hrun, hread⟩
      have hcolon : run ⟨.colon before key, stack⟩ ": ".toList =
          some ⟨.value, .obj before key :: stack⟩ := rfl
      refine ⟨state, before, key, value.toValue, ?_, hread, rfl⟩
      rw [dumpsFields, dumpsFields, List.intercalate_singleton,
        JsonText.run_append, JsonText.run_append, run_dumpsText rfl,
        Option.bind_some, JsonText.closeString, hcolon, Option.bind_some]
      exact hrun
  | (key, value) :: next :: fields, _, hfields => by
      rcases run_dumpsAt indent level (.obj before key :: stack) value
        hfields.1 with ⟨state, hrun, hread⟩
      rcases run_dumpsFields indent level (before ++ [(key, value.toValue)])
        stack (next :: fields) (List.cons_ne_nil next fields) hfields.2 with
        ⟨last, init, name, final, hrest, hlast, hparts⟩
      have hcolon : run ⟨.colon before key, stack⟩ ": ".toList =
          some ⟨.value, .obj before key :: stack⟩ := rfl
      refine ⟨last, init, name, final, ?_, hlast, ?_⟩
      · rw [dumpsFields, dumpsFields, List.intercalate_cons_cons,
          ← dumpsFields, JsonText.run_append, JsonText.run_append,
          JsonText.run_append, JsonText.run_append, run_dumpsText rfl,
          Option.bind_some, JsonText.closeString, hcolon, Option.bind_some,
          hrun, Option.bind_some, run_separator_fields hread,
          Option.bind_some]
        exact hrest
      · rw [hparts, List.append_assoc]
        rfl

end

theorem decode_dumps {value : Json} (hvalue : value.Dumpable json)
    (indent : ℕ) :
    JsonText.decode (value.dumps indent) = some value.toValue := by
  rcases run_dumpsAt indent 0 [] value hvalue with ⟨state, hrun, hread⟩
  have hstart : run JsonText.start (value.dumps indent) = some state := hrun
  rw [JsonText.decode, hstart, Option.bind_some, hread.finish_eq]

/-! ## Loading it again -/

theorem setItem_of_not_mem {fields : List (Text × Json)} {key : Text}
    (hkey : key ∉ fields.map Prod.fst) (value : Json) :
    setItem fields key value = fields ++ [(key, value)] := by
  induction fields with
  | nil => rfl
  | cons field fields ih =>
      rw [List.map_cons, List.mem_cons, not_or] at hkey
      rw [setItem, if_neg (Ne.symm hkey.1), ih hkey.2]
      rfl

theorem foldl_setItem_of_nodup (fields pairs : List (Text × Json))
    (hnodup : ((fields ++ pairs).map Prod.fst).Nodup) :
    pairs.foldl (fun fields pair => setItem fields pair.1 pair.2) fields =
      fields ++ pairs := by
  induction pairs generalizing fields with
  | nil => rw [List.append_nil]; rfl
  | cons pair pairs ih =>
      have hsplit : fields ++ pair :: pairs = fields ++ [pair] ++ pairs := by
        rw [List.append_assoc]
        rfl
      have hkey : pair.1 ∉ fields.map Prod.fst := by
        intro hmem
        rw [List.map_append, List.map_cons] at hnodup
        exact List.disjoint_of_nodup_append hnodup hmem List.mem_cons_self
      rw [List.foldl_cons, setItem_of_not_mem hkey, hsplit]
      exact ih (fields ++ [pair]) (hsplit ▸ hnodup)

theorem dict_of_nodup {pairs : List (Text × Json)}
    (hnodup : (pairs.map Prod.fst).Nodup) : dict pairs = pairs :=
  foldl_setItem_of_nodup [] pairs hnodup

mutual

theorem ofValue_toValue :
    (value : Json) → value.Dumpable json → json.ofValue value.toValue = value
  | .null, _ => rfl
  | .bool _, _ => rfl
  | .int _, _ => rfl
  | .float shown, hshown => by
      rw [toValue, JsonModule.ofValue, hshown.2]
  | .str _, _ => rfl
  | .arr items, hitems => by
      rw [toValue, JsonModule.ofValue, ofItems_toItems items hitems]
  | .obj fields, hfields => by
      rw [toValue, JsonModule.ofValue, ofMembers_toMembers fields hfields.2,
        dict_of_nodup hfields.1]

theorem ofItems_toItems :
    (items : List Json) → WellFormedItems (Shows json) items →
      json.ofItems (toItems items) = items
  | [], _ => rfl
  | item :: items, hitems => by
      rw [toItems, JsonModule.ofItems, ofValue_toValue item hitems.1,
        ofItems_toItems items hitems.2]

theorem ofMembers_toMembers :
    (fields : List (Text × Json)) → WellFormedFields (Shows json) fields →
      json.ofMembers (toMembers fields) = fields
  | [], _ => rfl
  | (key, value) :: fields, hfields => by
      rw [toMembers, JsonModule.ofMembers, ofValue_toValue value hfields.1,
        ofMembers_toMembers fields hfields.2]

end

theorem loadsText_dumps {value : Json} (hvalue : value.Dumpable json)
    (indent : ℕ) : json.loadsText (value.dumps indent) = .ok value := by
  rw [JsonModule.loadsText, decode_dumps hvalue]
  exact congrArg Except.ok (ofValue_toValue value hvalue)

/-! ## What was loaded is dumpable -/

theorem wellFormedFields_iff {float : Text → Prop}
    {fields : List (Text × Json)} :
    WellFormedFields float fields ↔
      ∀ field ∈ fields, field.2.WellFormed float := by
  induction fields with
  | nil => simp [WellFormedFields]
  | cons field fields ih => simp [WellFormedFields, ih]

theorem mem_keys_setItem {fields : List (Text × Json)} {key other : Text}
    {value : Json}
    (hother : other ∈ (setItem fields key value).map Prod.fst) :
    other = key ∨ other ∈ fields.map Prod.fst := by
  induction fields with
  | nil => exact Or.inl (List.mem_singleton.mp hother)
  | cons field fields ih =>
      unfold setItem at hother
      split at hother
      · rcases List.mem_cons.mp hother with heq | hmem
        · exact Or.inl heq
        · exact Or.inr (List.mem_cons_of_mem _ hmem)
      · rcases List.mem_cons.mp hother with heq | hmem
        · exact Or.inr (List.mem_cons.mpr (Or.inl heq))
        · rcases ih hmem with heq | hold
          · exact Or.inl heq
          · exact Or.inr (List.mem_cons_of_mem _ hold)

theorem nodup_setItem {fields : List (Text × Json)}
    (hfields : (fields.map Prod.fst).Nodup) (key : Text) (value : Json) :
    ((setItem fields key value).map Prod.fst).Nodup := by
  induction fields with
  | nil => exact List.nodup_singleton key
  | cons field fields ih =>
      rw [List.map_cons, List.nodup_cons] at hfields
      unfold setItem
      split
      · next heq =>
          rw [List.map_cons, List.nodup_cons]
          exact ⟨heq ▸ hfields.1, hfields.2⟩
      · next hne =>
          rw [List.map_cons, List.nodup_cons]
          constructor
          · intro hmem
            rcases mem_keys_setItem hmem with heq | hold
            · exact hne heq
            · exact hfields.1 hold
          · exact ih hfields.2

theorem mem_setItem {fields : List (Text × Json)} {key : Text} {value : Json}
    {field : Text × Json} (hfield : field ∈ setItem fields key value) :
    field = (key, value) ∨ field ∈ fields := by
  induction fields with
  | nil => exact Or.inl (List.mem_singleton.mp hfield)
  | cons first fields ih =>
      unfold setItem at hfield
      split at hfield
      · rcases List.mem_cons.mp hfield with heq | hmem
        · exact Or.inl heq
        · exact Or.inr (List.mem_cons_of_mem _ hmem)
      · rcases List.mem_cons.mp hfield with heq | hmem
        · exact Or.inr (List.mem_cons.mpr (Or.inl heq))
        · rcases ih hmem with heq | hold
          · exact Or.inl heq
          · exact Or.inr (List.mem_cons_of_mem _ hold)

/-- A dictionary has distinct keys, and nothing that was not put in it. -/
theorem foldl_setItem_spec (pairs fields : List (Text × Json))
    (hfields : (fields.map Prod.fst).Nodup) :
    let built := pairs.foldl
      (fun fields pair => setItem fields pair.1 pair.2) fields
    (built.map Prod.fst).Nodup ∧
      ∀ field ∈ built, field ∈ fields ∨ field ∈ pairs := by
  induction pairs generalizing fields with
  | nil => exact ⟨hfields, fun field hfield => Or.inl hfield⟩
  | cons pair pairs ih =>
      have hrest := ih (setItem fields pair.1 pair.2)
        (nodup_setItem hfields pair.1 pair.2)
      refine ⟨hrest.1, ?_⟩
      intro field hfield
      rcases hrest.2 field hfield with hset | hmem
      · rcases mem_setItem hset with heq | hold
        · exact Or.inr (List.mem_cons.mpr (Or.inl heq))
        · exact Or.inl hold
      · exact Or.inr (List.mem_cons_of_mem _ hmem)

theorem nodup_dict (pairs : List (Text × Json)) :
    ((dict pairs).map Prod.fst).Nodup :=
  (foldl_setItem_spec pairs [] List.nodup_nil).1

theorem mem_of_mem_dict {pairs : List (Text × Json)} {field : Text × Json}
    (hfield : field ∈ dict pairs) : field ∈ pairs := by
  rcases (foldl_setItem_spec pairs [] List.nodup_nil).2 field hfield
    with hnil | hmem
  · exact absurd hnil List.not_mem_nil
  · exact hmem

end Json

namespace JsonModule

mutual

/-- `float` holds of every float that loading makes of the value. -/
def FloatsHave (json : JsonModule) (float : Text → Prop) : Value → Prop
  | .null => True
  | .bool _ => True
  | .int _ => True
  | .real literal => float (json.reprFloat literal).val
  | .str _ => True
  | .arr items => json.FloatsHaveItems float items
  | .obj members => json.FloatsHaveMembers float members

def FloatsHaveItems (json : JsonModule) (float : Text → Prop) :
    List Value → Prop
  | [] => True
  | item :: items =>
      json.FloatsHave float item ∧ json.FloatsHaveItems float items

def FloatsHaveMembers (json : JsonModule) (float : Text → Prop) :
    List (Text × Value) → Prop
  | [] => True
  | (_, value) :: members =>
      json.FloatsHave float value ∧ json.FloatsHaveMembers float members

end

/-- No number of the value is too large for a float. -/
def Representable (json : JsonModule) (value : Value) : Prop :=
  json.FloatsHave (Json.Shows json) value

variable {json : JsonModule} {float : Text → Prop}

mutual

theorem wellFormed_ofValue :
    (value : Value) → json.FloatsHave float value →
      (json.ofValue value).WellFormed float
  | .null, _ => trivial
  | .bool _, _ => trivial
  | .int _, _ => trivial
  | .real _, hliteral => hliteral
  | .str _, _ => trivial
  | .arr items, hitems => wellFormed_ofItems items hitems
  | .obj members, hmembers => by
      have hall := Json.wellFormedFields_iff.mp
        (wellFormed_ofMembers members hmembers)
      refine ⟨Json.nodup_dict _, Json.wellFormedFields_iff.mpr ?_⟩
      intro field hfield
      exact hall field (Json.mem_of_mem_dict hfield)

theorem wellFormed_ofItems :
    (items : List Value) → json.FloatsHaveItems float items →
      Json.WellFormedItems float (json.ofItems items)
  | [], _ => trivial
  | item :: items, hitems =>
      ⟨wellFormed_ofValue item hitems.1, wellFormed_ofItems items hitems.2⟩

theorem wellFormed_ofMembers :
    (members : List (Text × Value)) → json.FloatsHaveMembers float members →
      Json.WellFormedFields float (json.ofMembers members)
  | [], _ => trivial
  | (_, value) :: members, hmembers =>
      ⟨wellFormed_ofValue value hmembers.1,
        wellFormed_ofMembers members hmembers.2⟩

end

mutual

theorem floatsHave_of_forall
    (hfloat : ∀ literal, float (json.reprFloat literal).val) :
    (value : Value) → json.FloatsHave float value
  | .null => trivial
  | .bool _ => trivial
  | .int _ => trivial
  | .real literal => hfloat literal
  | .str _ => trivial
  | .arr items => floatsHaveItems_of_forall hfloat items
  | .obj members => floatsHaveMembers_of_forall hfloat members

theorem floatsHaveItems_of_forall
    (hfloat : ∀ literal, float (json.reprFloat literal).val) :
    (items : List Value) → json.FloatsHaveItems float items
  | [] => trivial
  | item :: items =>
      ⟨floatsHave_of_forall hfloat item,
        floatsHaveItems_of_forall hfloat items⟩

theorem floatsHaveMembers_of_forall
    (hfloat : ∀ literal, float (json.reprFloat literal).val) :
    (members : List (Text × Value)) → json.FloatsHaveMembers float members
  | [] => trivial
  | (_, value) :: members =>
      ⟨floatsHave_of_forall hfloat value,
        floatsHaveMembers_of_forall hfloat members⟩

end

theorem exists_value_of_loadsText {text : Text} {loaded : Json}
    (hloads : json.loadsText text = .ok loaded) :
    ∃ value, loaded = json.ofValue value := by
  unfold loadsText at hloads
  split at hloads
  · next value _ => exact ⟨value, (Except.ok.inj hloads).symm⟩
  · contradiction

/-- Whatever is loaded comes from a JSON value. -/
theorem exists_value_of_loads {document : Document} {loaded : Json}
    (hloads : json.loads document = .ok loaded) :
    ∃ value, loaded = json.ofValue value := by
  cases document with
  | str text => exact exists_value_of_loadsText hloads
  | bytes bytes =>
      cases hdecoded : json.decodeBytes bytes with
      | error exception =>
          rw [loads, hdecoded] at hloads
          contradiction
      | ok text =>
          rw [loads, hdecoded] at hloads
          exact exists_value_of_loadsText hloads
  | other typeName => contradiction

end JsonModule

end SecaasCharms
