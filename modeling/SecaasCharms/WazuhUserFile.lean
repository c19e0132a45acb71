import SecaasCharms.JsonTextSize

/-!
# The user file of the Wazuh manager

When the container starts, a shell script writes the name and the password of
the API user into a JSON file, as they are, and a Python script reads them
back.  What comes back is what went in when no character needs an escape in a
JSON string, and in no other case.
-/

namespace SecaasCharms.WazuhManager

open JsonText
open TextLines

/-! ## The file -/

def opening : Text := "\x7b\n  \"username\": \"".toList

def between : Text := "\",\n  \"password\": \"".toList

def closing : Text := "\"\n\x7d\n".toList

/-- The here-document of `function_create_custom_user`. -/
def adminFile (username password : Text) : Text :=
  opening ++ (username ++ (between ++ (password ++ closing)))

/-- `read_user_file`: two members of the object in the file, or an
exception. -/
def readUserFile (text : Text) : Option (Value × Value) :=
  match decode (universalNewlines text) with
  | some (.obj members) =>
      match member members "username".toList,
        member members "password".toList with
      | some username, some password => some (username, password)
      | _, _ => none
  | _ => none

example : readUserFile (adminFile "a".toList
    "b\", \"username\": \"c".toList) =
      some (.str "c".toList, .str "b".toList) := by
  rfl

/-! ## Newlines -/

theorem universalNewlines_append_cons (left : Text) {c : Char}
    (hreturn : c ≠ '\r') (hnewline : c ≠ '\n') (rest : Text) :
    universalNewlines (left ++ c :: rest) =
      universalNewlines left ++ c :: universalNewlines rest := by
  fun_induction universalNewlines left with
  | case1 => exact universalNewlines_cons_of_ne hreturn rest
  | case2 left ih =>
      rw [List.cons_append, List.cons_append, universalNewlines, ih]
      rfl
  | case3 left hleft ih =>
      have hfirst : universalNewlines ('\r' :: (left ++ c :: rest)) =
          '\n' :: universalNewlines (left ++ c :: rest) := by
        rw [universalNewlines]
        intro other hother
        cases left with
        | nil => exact hnewline (List.cons.inj hother).1
        | cons d left =>
            exact hleft left (congrArg (fun e => e :: left)
              (List.cons.inj hother).1)
      rw [List.cons_append, hfirst, ih]
      rfl
  | case4 d left hcrlf hd ih =>
      rw [List.cons_append, universalNewlines_cons_of_ne hd, ih]
      rfl

theorem length_universalNewlines_le (text : Text) :
    (universalNewlines text).length ≤ text.length := by
  fun_induction universalNewlines text with
  | case1 => exact le_rfl
  | case2 rest ih =>
      simp only [List.length_cons]
      omega
  | case3 rest _ ih =>
      simp only [List.length_cons]
      omega
  | case4 c rest _ _ ih =>
      simp only [List.length_cons]
      omega

theorem newline_mem_universalNewlines {text : Text} (htext : '\r' ∈ text) :
    '\n' ∈ universalNewlines text := by
  fun_induction universalNewlines text with
  | case1 => exact absurd htext List.not_mem_nil
  | case2 rest ih => exact List.mem_cons_self
  | case3 rest _ ih => exact List.mem_cons_self
  | case4 c rest _ hc ih =>
      cases List.mem_cons.mp htext with
      | inl hfirst => exact absurd hfirst.symm hc
      | inr hrest => exact List.mem_cons_of_mem c (ih hrest)

theorem plain_of_plain_universalNewlines {text : Text}
    (hplain : Plain (universalNewlines text)) : Plain text := by
  by_cases hreturn : '\r' ∈ text
  · have hnewline := hplain '\n' (newline_mem_universalNewlines hreturn)
    exact absurd hnewline (by decide)
  · rw [universalNewlines_of_return_not_mem hreturn] at hplain
    exact hplain

theorem universalNewlines_of_plain {text : Text} (hplain : Plain text) :
    universalNewlines text = text :=
  universalNewlines_of_return_not_mem
    (fun hreturn => absurd (hplain '\r' hreturn) (by decide))

theorem universalNewlines_adminFile (username password : Text) :
    universalNewlines (adminFile username password) =
      adminFile (universalNewlines username) (universalNewlines password) := by
  have hclosing : universalNewlines (password ++ closing) =
      universalNewlines password ++ closing :=
    universalNewlines_append_cons password (by decide) (by decide) _
  have hbetween : universalNewlines (between ++ (password ++ closing)) =
      between ++ (universalNewlines password ++ closing) := by
    rw [universalNewlines_append (by decide), hclosing]
  have husername : universalNewlines
      (username ++ (between ++ (password ++ closing))) =
        universalNewlines username ++
          (between ++ (universalNewlines password ++ closing)) := by
    rw [← hbetween]
    exact universalNewlines_append_cons username (by decide) (by decide) _
  rw [adminFile, universalNewlines_append (by decide), husername]
  rfl

/-! ## Reading back -/

theorem run_opening :
    run start opening =
      some ⟨.string .value [], [.obj [] "username".toList]⟩ :=
  rfl

theorem run_between (members : List (Text × Value)) (key text : Text)
    (stack : List Frame) :
    run ⟨.string .value text, .obj members key :: stack⟩ between =
      some ⟨.string .value [], .obj (members ++ [(key, .str text)])
        "password".toList :: stack⟩ :=
  rfl

/-- The text between the two members is read only at the end of a string that
is the value of a member: its line break ends every other string. -/
theorem eq_of_run_between {state last : State}
    (hrun : run state between = some last) :
    ∃ members key text stack,
      state = ⟨.string .value text, .obj members key :: stack⟩ := by
  have hparts : between = '"' :: ",\n  \"password\": \"".toList := rfl
  rcases state with ⟨mode, stack⟩
  cases hquote : step ⟨mode, stack⟩ '"' with
  | none =>
      rw [hparts, run_cons, hquote] at hrun
      contradiction
  | some next =>
      rcases mode_of_step_quote hquote with hmode | ⟨members, hmode⟩ |
        ⟨role, text, hmode⟩ | ⟨role, text, hmode⟩
      · rw [hmode] at hrun
        contradiction
      · rw [hmode] at hrun
        contradiction
      · rw [hmode] at hrun ⊢
        cases role with
        | name members => contradiction
        | value =>
            cases stack with
            | nil => contradiction
            | cons frame stack =>
                cases frame with
                | obj members key => exact ⟨members, key, text, stack, rfl⟩
                | arr items => contradiction
      · rw [hmode] at hrun
        contradiction

/-- The same for the end of the object. -/
theorem eq_of_finish_closing {state : State} {value : Value}
    (hfinish : (run state closing).bind finish = some value) :
    ∃ members name text,
      state = ⟨.string .value text, [.obj members name]⟩ ∧
      value = .obj (members ++ [(name, .str text)]) := by
  have hparts : closing = '"' :: "\n\x7d\n".toList := rfl
  rcases state with ⟨mode, stack⟩
  cases hquote : step ⟨mode, stack⟩ '"' with
  | none =>
      rw [hparts, run_cons, hquote] at hfinish
      contradiction
  | some next =>
      rcases mode_of_step_quote hquote with hmode | ⟨members, hmode⟩ |
        ⟨role, text, hmode⟩ | ⟨role, text, hmode⟩
      · rw [hmode] at hfinish
        contradiction
      · rw [hmode] at hfinish
        contradiction
      · rw [hmode] at hfinish ⊢
        cases role with
        | name members => contradiction
        | value =>
            cases stack with
            | nil => contradiction
            | cons frame stack =>
                cases frame with
                | arr items => contradiction
                | obj members name =>
                    cases stack with
                    | cons frame stack => contradiction
                    | nil =>
                        exact ⟨members, name, text, rfl,
                          (Option.some.inj hfinish).symm⟩
      · rw [hmode] at hfinish
        contradiction

theorem readUserFile_of_plain {username password : Text}
    (husername : Plain username) (hpassword : Plain password) :
    readUserFile (adminFile username password) =
      some (.str username, .str password) := by
  have hdecode : decode (adminFile username password) =
      some (.obj [("username".toList, .str username),
        ("password".toList, .str password)]) := by
    rw [decode, adminFile, run_append, run_opening, Option.bind_some,
      run_append, run_string_of_plain husername, Option.bind_some, run_append,
      run_between, Option.bind_some, run_append,
      run_string_of_plain hpassword, Option.bind_some]
    rfl
  rw [readUserFile, universalNewlines_adminFile,
    universalNewlines_of_plain husername, universalNewlines_of_plain hpassword,
    hdecode]
  rfl

theorem eq_of_readUserFile {text : Text} {username password : Value}
    (hread : readUserFile text = some (username, password)) :
    ∃ members, decode (universalNewlines text) = some (.obj members) ∧
      member members "username".toList = some username ∧
      member members "password".toList = some password := by
  unfold readUserFile at hread
  split at hread
  · rename_i members hdecode
    split at hread
    · rename_i first second hfirst hsecond
      cases hread
      exact ⟨members, hdecode, hfirst, hsecond⟩
    · contradiction
  · contradiction

def userFields (username password : Text) : List (Text × Value) :=
  [("username".toList, .str username), ("password".toList, .str password)]

theorem userFields_distinct (username password : Text) :
    ((userFields username password).map Prod.fst).Nodup := by
  simp only [userFields, List.map_cons, List.map_nil]
  decide

/-- An object in the file of two texts leaves no room for anything else if it
gives the texts back. -/
theorem plain_of_decode_adminFile {username password given other : Text}
    {members : List (Text × Value)}
    (hdecode : decode (adminFile username password) = some (.obj members))
    (hsubset : userFields given other ⊆ members)
    (husername : username.length ≤ given.length)
    (hpassword : password.length ≤ other.length) :
    Plain username ∧ Plain password := by
  have hsize := membersSize_le_of_subset (userFields_distinct given other)
    hsubset
  rw [decode, adminFile, run_append, run_opening, Option.bind_some, run_append,
    Option.bind_assoc] at hdecode
  rcases Option.bind_eq_some_iff.mp hdecode with ⟨behindName, hname, hrest⟩
  rw [run_append, Option.bind_assoc] at hrest
  rcases Option.bind_eq_some_iff.mp hrest with ⟨inPassword, hmiddle, hrest⟩
  rw [run_append, Option.bind_assoc] at hrest
  rcases Option.bind_eq_some_iff.mp hrest with
    ⟨behindPassword, hsecond, hclosing⟩
  rcases eq_of_run_between hmiddle with ⟨before, key, text, stack, rfl⟩
  rw [run_between] at hmiddle
  rcases eq_of_finish_closing hclosing with ⟨all, last, value, rfl, hmembers⟩
  have hmembers := Value.obj.inj hmembers
  have hmiddle := Option.some.inj hmiddle
  subst hmiddle hmembers
  have hnameSize := size_run_le hname
  have hsecondSize := size_run_le hsecond
  constructor
  · cases plain_or_size_lt hname with
    | inl hplain => exact hplain
    | inr hlt =>
        simp [userFields] at hsize hlt hsecondSize
        omega
  · cases plain_or_size_lt hsecond with
    | inl hplain => exact hplain
    | inr hlt =>
        simp [userFields] at hsize hlt hnameSize
        omega

/-- The script reads back the name and the password that the container was
given exactly if neither holds a quote, a backslash or a control
character. -/
theorem readUserFile_adminFile_iff (username password : Text) :
    readUserFile (adminFile username password) =
        some (.str username, .str password) ↔
      Plain username ∧ Plain password := by
  constructor
  · intro hread
    rcases eq_of_readUserFile hread with
      ⟨members, hdecode, husername, hpassword⟩
    have hsubset : userFields username password ⊆ members := by
      intro field hfield
      simp only [userFields, List.mem_cons, List.not_mem_nil, or_false]
        at hfield
      cases hfield with
      | inl hfirst => exact hfirst ▸ mem_of_member husername
      | inr hsecond => exact hsecond ▸ mem_of_member hpassword
    rw [universalNewlines_adminFile] at hdecode
    have hplain := plain_of_decode_adminFile hdecode hsubset
      (length_universalNewlines_le username)
      (length_universalNewlines_le password)
    exact ⟨plain_of_plain_universalNewlines hplain.1,
      plain_of_plain_universalNewlines hplain.2⟩
  · intro hplain
    exact readUserFile_of_plain hplain.1 hplain.2

end SecaasCharms.WazuhManager
