import SecaasCharms.JsonText

/-!
# The size of what has been read

The size of a value is the number of characters that every text of it needs,
apart from closing quotes and spaces.  No step of the machine adds more than
one to the size of its state, and a character of a string that does not stand
for itself adds nothing.  So a value as large as its text leaves no room for
an escape, for a string that ends early, or for a further member.
-/

namespace JsonText

open TextLines

mutual

@[simp] def Value.size : Value → ℕ
  | .null => 4
  | .bool _ => 4
  | .int value => (intText value).length
  | .real literal => literal.length
  | .str text => text.length + 1
  | .arr items => itemsSize items
  | .obj members => membersSize members

@[simp] def itemsSize : List Value → ℕ
  | [] => 0
  | item :: items => item.size + 1 + itemsSize items

@[simp] def membersSize : List (Text × Value) → ℕ
  | [] => 0
  | (name, value) :: members =>
      name.length + value.size + 3 + membersSize members

end

@[simp] theorem itemsSize_append (first later : List Value) :
    itemsSize (first ++ later) = itemsSize first + itemsSize later := by
  induction first with
  | nil => simp
  | cons item first ih =>
      simp only [List.cons_append, itemsSize, ih]
      omega

theorem membersSize_eq_sum (members : List (Text × Value)) :
    membersSize members =
      (members.map (fun entry => entry.1.length + entry.2.size + 3)).sum := by
  induction members with
  | nil => simp
  | cons entry members ih => simp [ih]

@[simp] theorem membersSize_append (first later : List (Text × Value)) :
    membersSize (first ++ later) = membersSize first + membersSize later := by
  simp [membersSize_eq_sum]

/-! ## The size of a state -/

@[simp] def Role.size : Role → ℕ
  | .value => 0
  | .name members => membersSize members + 1

@[simp] def Mode.size : Mode → ℕ
  | .value => 0
  | .name members => membersSize members + 1
  | .colon members key => membersSize members + key.length + 2
  | .string role text => role.size + text.length + 1
  | .escape role text => role.size + text.length + 1
  | .unicode role text _ _ _ => role.size + text.length + 1
  | .pair role text _ _ => role.size + text.length + 1
  | .literal _ seen => seen
  | .number token => token.length
  | .after done => done.size

@[simp] def Frame.size : Frame → ℕ
  | .arr items => itemsSize items + 1
  | .obj members name => membersSize members + name.length + 3

def State.size (state : State) : ℕ :=
  state.mode.size + (state.stack.map Frame.size).sum

@[simp] theorem State.size_mk (mode : Mode) (stack : List Frame) :
    State.size ⟨mode, stack⟩ = mode.size + (stack.map Frame.size).sum :=
  rfl

/-! ## Numbers are not longer than their literals -/

theorem ofDigitChars_lt {token : Text} (htoken : token.all Char.isDigit = true)
    (initial : ℕ) :
    Nat.ofDigitChars 10 token initial < 10 ^ token.length * (initial + 1) := by
  induction token generalizing initial with
  | nil => simp
  | cons c token ih =>
      rw [List.all_cons, Bool.and_eq_true] at htoken
      have hc : c.toNat - '0'.toNat < 10 := by
        have hdigit := htoken.1
        simp only [Char.isDigit, Bool.and_eq_true, decide_eq_true_eq] at hdigit
        have hle : c.toNat ≤ 57 := hdigit.2
        have hzero : '0'.toNat = 48 := rfl
        omega
      rw [Nat.ofDigitChars_cons]
      have hstep := ih htoken.2 (10 * initial + (c.toNat - '0'.toNat))
      calc
        _ < 10 ^ token.length *
            (10 * initial + (c.toNat - '0'.toNat) + 1) := hstep
        _ ≤ 10 ^ token.length * (10 * (initial + 1)) :=
            Nat.mul_le_mul_left _ (by omega)
        _ = 10 ^ (c :: token).length * (initial + 1) := by
            rw [List.length_cons, pow_succ]
            ring

theorem length_digits_le_of_natOf? {token : Text} {n : ℕ}
    (hn : natOf? token = some n) :
    (Nat.toDigits 10 n).length ≤ token.length := by
  unfold natOf? at hn
  split at hn
  · rename_i hvalid
    have hdigits := hvalid.1
    rw [isDigits, Bool.and_eq_true, Bool.not_eq_true'] at hdigits
    have hlt := ofDigitChars_lt hdigits.2 0
    rw [Option.some.inj hn, zero_add, mul_one] at hlt
    have hpositive : 0 < token.length :=
      List.length_pos_iff.mpr (List.isEmpty_eq_false_iff.mp hdigits.1)
    exact (Nat.length_toDigits_le_iff (by decide) hpositive).mpr hlt
  · contradiction

theorem length_intText_le {token : Text} {value : ℤ}
    (hvalue : intOf? token = some value) :
    (intText value).length ≤ token.length := by
  unfold intOf? at hvalue
  split at hvalue
  · rename_i digits
    rcases Option.map_eq_some_iff.mp hvalue with ⟨n, hn, rfl⟩
    have hle := length_digits_le_of_natOf? hn
    cases n with
    | zero =>
        rw [List.length_cons]
        exact Nat.succ_le_succ (Nat.zero_le _)
    | succ n =>
        have hneg : -((n + 1 : ℕ) : ℤ) = Int.negSucc n := rfl
        rw [hneg, intText_negSucc, List.length_cons, List.length_cons]
        exact Nat.succ_le_succ hle
  · rcases Option.map_eq_some_iff.mp hvalue with ⟨n, hn, rfl⟩
    rw [intText_natCast]
    exact length_digits_le_of_natOf? hn

theorem size_le_of_numberOf? {token : Text} {value : Value}
    (hvalue : numberOf? token = some value) : value.size ≤ token.length := by
  unfold numberOf? at hvalue
  split at hvalue
  · rename_i n hn
    cases hvalue
    rw [Value.size]
    exact length_intText_le hn
  · split at hvalue
    · cases hvalue
      rw [Value.size]
    · contradiction

/-! ## One step adds at most one -/

theorem size_afterValue_le {value : Value} {stack : List Frame} {c : Char}
    {next : State} (hstep : afterValue value stack c = some next) :
    next.size ≤ value.size + (stack.map Frame.size).sum + 1 := by
  unfold afterValue at hstep
  split at hstep
  · cases hstep
    simp
  · cases stack with
    | nil => contradiction
    | cons frame rest =>
        cases frame with
        | arr items =>
            simp only at hstep
            split at hstep
            · cases hstep
              simp
              omega
            · split at hstep
              · cases hstep
                simp
                omega
              · contradiction
        | obj members name =>
            simp only at hstep
            split at hstep
            · cases hstep
              simp
              omega
            · split at hstep
              · cases hstep
                simp
                omega
              · contradiction

theorem size_beginValue_le {stack : List Frame} {c : Char} {next : State}
    (hstep : beginValue stack c = some next) :
    next.size ≤ (stack.map Frame.size).sum + 1 := by
  unfold beginValue at hstep
  split_ifs at hstep
  rotate_right 2
  · -- only an empty array can close here
    split at hstep
    · cases hstep
      simp
      omega
    · contradiction
  · split at hstep
    · contradiction
    · contradiction
  all_goals
    cases hstep
    simp only [State.size_mk, Mode.size, Role.size, Frame.size, itemsSize,
      membersSize, List.map_cons, List.sum_cons, List.length_nil,
      List.length_singleton]
    omega

theorem size_closeString (role : Role) (text : Text) :
    (closeString role text).size = role.size + text.length + 1 := by
  cases role with
  | value => simp [closeString]
  | name members =>
      simp [closeString]
      omega

theorem size_closeUnicode_le {role : Role} {text : Text} {high : Option ℕ}
    {code : ℕ} {mode : Mode}
    (hclose : closeUnicode role text high code = some mode) :
    mode.size ≤ role.size + text.length + 2 := by
  cases high with
  | none =>
      simp only [closeUnicode] at hclose
      split_ifs at hclose
      · cases hclose
        simp
      · cases hclose
        simp
        omega
  | some high =>
      simp only [closeUnicode] at hclose
      split_ifs at hclose
      cases hclose
      simp
      omega

theorem Literal.size_value (word : Literal) :
    word.value.size ≤ word.text.length := by
  cases word with
  | null => decide
  | true => decide
  | false => decide

theorem size_step_le {state next : State} {c : Char}
    (hstep : step state c = some next) : next.size ≤ state.size + 1 := by
  rcases state with ⟨mode, stack⟩
  cases mode with
  | value =>
      have hle := size_beginValue_le hstep
      simp only [State.size_mk, Mode.size] at hle ⊢
      omega
  | name members =>
      simp only [step, modeStep] at hstep
      split_ifs at hstep
      · cases hstep
        simp
      · cases hstep
        simp
        omega
      · cases hstep
        simp
        omega
  | colon members key =>
      simp only [step, modeStep] at hstep
      split_ifs at hstep
      · cases hstep
        simp
      · cases hstep
        simp
        omega
  | string role text =>
      simp only [step, modeStep] at hstep
      split_ifs at hstep
      · cases hstep
        rw [State.size_mk, State.size_mk, size_closeString, Mode.size]
        omega
      · cases hstep
        simp
      · cases hstep
        simp
        omega
  | escape role text =>
      simp only [step, modeStep] at hstep
      split_ifs at hstep
      · cases hstep
        simp
      · rcases Option.map_eq_some_iff.mp hstep with ⟨d, _, rfl⟩
        simp
        omega
  | unicode role text high seen code =>
      simp only [step, modeStep] at hstep
      split at hstep
      · contradiction
      · split_ifs at hstep
        · cases hstep
          simp
        · rcases Option.map_eq_some_iff.mp hstep with ⟨mode, hmode, rfl⟩
          have hle := size_closeUnicode_le hmode
          change mode.size + (stack.map Frame.size).sum ≤
            role.size + text.length + 1 + (stack.map Frame.size).sum + 1
          omega
  | pair role text high escaped =>
      simp only [step, modeStep] at hstep
      split_ifs at hstep
      · cases hstep
        simp
      · cases hstep
        simp
  | literal word seen =>
      simp only [step, modeStep] at hstep
      split_ifs at hstep with hc hend
      · cases hstep
        have hle := word.size_value
        simp
        omega
      · cases hstep
        simp
        omega
  | number token =>
      simp only [step, modeStep] at hstep
      split_ifs at hstep
      · cases hstep
        simp
        omega
      · split at hstep
        · contradiction
        · rename_i value hvalue
          have hle := size_afterValue_le hstep
          have hnumber := size_le_of_numberOf? hvalue
          simp only [State.size_mk, Mode.size]
          omega
  | after value => exact size_afterValue_le hstep

theorem size_run_le {state last : State} {text : Text}
    (hrun : run state text = some last) :
    last.size ≤ state.size + text.length := by
  induction text generalizing state with
  | nil =>
      have hsame : state = last := Option.some.inj hrun
      rw [hsame, List.length_nil]
      exact le_rfl
  | cons c text ih =>
      rw [run_cons] at hrun
      rcases Option.bind_eq_some_iff.mp hrun with ⟨next, hstep, hrest⟩
      have hfirst := size_step_le hstep
      have hlater := ih hrest
      rw [List.length_cons]
      omega

/-! ## Strings that stand for themselves -/

theorem size_step_string_le {role : Role} {text : Text} {stack : List Frame}
    {c : Char} {next : State} (hc : ¬ IsPlain c)
    (hstep : step ⟨.string role text, stack⟩ c = some next) :
    next.size ≤ State.size ⟨.string role text, stack⟩ := by
  simp only [step, modeStep] at hstep
  split_ifs at hstep with hquote hescape hcontrol
  · cases hstep
    rw [State.size_mk, State.size_mk, size_closeString, Mode.size]
  · cases hstep
    simp
  · exact absurd ⟨hquote, hescape, by omega⟩ hc

/-- What is read inside a string stands for itself, or it adds less than its
length to the size of the state. -/
theorem plain_or_size_lt {role : Role} {text added : Text}
    {stack : List Frame} {last : State}
    (hrun : run ⟨.string role text, stack⟩ added = some last) :
    Plain added ∨
      last.size < State.size ⟨.string role text, stack⟩ + added.length := by
  induction added generalizing text with
  | nil => exact Or.inl (fun c hc => absurd hc List.not_mem_nil)
  | cons c added ih =>
      by_cases hc : IsPlain c
      · rw [run_cons, step_string_of_plain hc, Option.bind_some] at hrun
        cases ih hrun with
        | inl hplain =>
            left
            intro d hd
            cases List.mem_cons.mp hd with
            | inl heq => exact heq ▸ hc
            | inr hmem => exact hplain d hmem
        | inr hlt =>
            right
            simp only [State.size_mk, Mode.size, List.length_append,
              List.length_cons, List.length_nil] at hlt ⊢
            omega
      · right
        rw [run_cons] at hrun
        rcases Option.bind_eq_some_iff.mp hrun with ⟨next, hstep, hrest⟩
        have hfirst := size_step_string_le hc hstep
        have hlater := size_run_le hrest
        rw [List.length_cons]
        omega

/-! ## Objects -/

/-- The text decodes to an object with exactly the given members. -/
def Carries (text : Text) (members : List (Text × Value)) : Prop :=
  ∃ decoded, decode text = some (.obj decoded) ∧
    ∀ name, member decoded name = members.lookup name

theorem mem_of_member {members : List (Text × Value)} {name : Text}
    {value : Value} (hmember : member members name = some value) :
    (name, value) ∈ members := by
  rw [member, List.lookup_eq_some_iff] at hmember
  rcases hmember with ⟨before, after, hsplit, _⟩
  have hmem : (name, value) ∈ members.reverse := by simp [hsplit]
  exact List.mem_reverse.mp hmem

/-- An object with certain members is at least as large as they are. -/
theorem membersSize_le_of_subset {members decoded : List (Text × Value)}
    (hdistinct : (members.map Prod.fst).Nodup) (hsubset : members ⊆ decoded) :
    membersSize members ≤ membersSize decoded := by
  rcases List.subperm_of_subset hdistinct.of_map hsubset with
    ⟨sublist, hperm, hsublist⟩
  rw [membersSize_eq_sum, membersSize_eq_sum, ← (hperm.map _).sum_eq]
  exact (hsublist.map _).sum_le_sum (fun _ _ => Nat.zero_le _)

theorem membersSize_le_of_member {members decoded : List (Text × Value)}
    (hdistinct : (members.map Prod.fst).Nodup)
    (hdecoded : ∀ name, member decoded name = members.lookup name) :
    membersSize members ≤ membersSize decoded := by
  have hsubset : members ⊆ decoded := by
    intro entry hentry
    apply mem_of_member
    rw [hdecoded]
    exact lookup_of_mem hdistinct hentry
  exact membersSize_le_of_subset hdistinct hsubset

theorem carries_of_decode {text : Text} {members : List (Text × Value)}
    (hdistinct : (members.map Prod.fst).Nodup)
    (hdecode : decode text = some (.obj members)) : Carries text members := by
  refine ⟨members, hdecode, ?_⟩
  intro name
  cases hfound : members.lookup name with
  | none =>
      rw [member, List.lookup_eq_none_iff]
      intro entry hentry
      exact List.lookup_eq_none_iff.mp hfound entry
        (List.mem_reverse.mp hentry)
  | some value =>
      have hmem : (name, value) ∈ members.reverse := by
        rcases List.lookup_eq_some_iff.mp hfound with ⟨before, after, hsplit, _⟩
        simp [hsplit]
      apply lookup_of_mem _ hmem
      rw [List.map_reverse]
      exact List.nodup_reverse.mpr hdistinct

end JsonText
