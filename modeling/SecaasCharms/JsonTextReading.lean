import Mathlib.InformationTheory.Coding.UniquelyDecodable
import SecaasCharms.JsonText

/-!
# How the machine reads a piece of text

The lemmas say in which state the machine is behind a space, a numeral, or an
escaped character, whatever is still open.  Behind a numeral it has not seen
yet that the number is over, so a value that has been read is one that the
next delimiter or the end of the text completes.
-/

namespace JsonText

open TextLines

/-! ## Spaces -/

/-- The modes in which a space is read over. -/
def Mode.skipsSpace : Mode → Bool
  | .value => true
  | .name _ => true
  | .colon _ _ => true
  | .after _ => true
  | _ => false

theorem step_space {mode : Mode} {stack : List Frame} {c : Char}
    (hc : isSpace c = true) (hmode : mode.skipsSpace = true) :
    step ⟨mode, stack⟩ c = some ⟨mode, stack⟩ := by
  cases mode with
  | value => simp only [step, modeStep, beginValue, hc, if_true]
  | name members => simp only [step, modeStep, hc, if_true]
  | colon members name => simp only [step, modeStep, hc, if_true]
  | after value => simp only [step, modeStep, afterValue, hc, if_true]
  | string role text => contradiction
  | escape role text => contradiction
  | unicode role text high seen code => contradiction
  | pair role text high escaped => contradiction
  | literal word seen => contradiction
  | number token => contradiction

theorem run_spaces {spaces : Text} (hspaces : ∀ c ∈ spaces, isSpace c = true)
    {mode : Mode} (hmode : mode.skipsSpace = true) (stack : List Frame) :
    run ⟨mode, stack⟩ spaces = some ⟨mode, stack⟩ := by
  induction spaces with
  | nil => rfl
  | cons c spaces ih =>
      rw [run_cons, step_space (hspaces c List.mem_cons_self) hmode,
        Option.bind_some]
      exact ih (fun d hd => hspaces d (List.mem_cons_of_mem c hd))

/-! ## A value that has been read -/

/-- The next delimiter, or the end of the text, completes the value. -/
def State.HasRead (state : State) (value : Value) (stack : List Frame) :
    Prop :=
  state = ⟨.after value, stack⟩ ∨
    ∃ token, numberOf? token = some value ∧ state = ⟨.number token, stack⟩

theorem hasRead_after (value : Value) (stack : List Frame) :
    State.HasRead ⟨.after value, stack⟩ value stack :=
  Or.inl rfl

/-- What is no character of a number is read as behind a value. -/
theorem State.HasRead.step_eq {state : State} {value : Value}
    {stack : List Frame} (hread : state.HasRead value stack) {c : Char}
    (hc : isNumberChar c = false) :
    step state c = afterValue value stack c := by
  rcases hread with heq | ⟨token, hnumber, heq⟩
  · rw [heq]
    rfl
  · rw [heq]
    simp only [step, modeStep, hc, Bool.false_eq_true, if_false, hnumber]

theorem State.HasRead.finish_eq {state : State} {value : Value}
    (hread : state.HasRead value []) : finish state = some value := by
  rcases hread with heq | ⟨token, hnumber, heq⟩
  · rw [heq]
    rfl
  · rw [heq]
    exact hnumber

theorem isNumberChar_of_isSpace {c : Char} (hc : isSpace c = true) :
    isNumberChar c = false := by
  have hcases : c = ' ' ∨ c = '\t' ∨ c = '\n' ∨ c = '\r' := by
    simpa [isSpace] using hc
  rcases hcases with heq | heq | heq | heq
  · rw [heq]
    rfl
  · rw [heq]
    rfl
  · rw [heq]
    rfl
  · rw [heq]
    rfl

theorem State.HasRead.run_spaces {state : State} {value : Value}
    {stack : List Frame} (hread : state.HasRead value stack) {spaces : Text}
    (hspaces : ∀ c ∈ spaces, isSpace c = true) :
    ∃ next, run state spaces = some next ∧ next.HasRead value stack := by
  cases spaces with
  | nil => exact ⟨state, rfl, hread⟩
  | cons c spaces =>
      have hc := hspaces c List.mem_cons_self
      have hfirst : step state c = some ⟨.after value, stack⟩ := by
        rw [hread.step_eq (isNumberChar_of_isSpace hc)]
        simp only [afterValue, hc, if_true]
      refine ⟨⟨.after value, stack⟩, ?_, hasRead_after value stack⟩
      rw [run_cons, hfirst, Option.bind_some]
      exact JsonText.run_spaces
        (fun d hd => hspaces d (List.mem_cons_of_mem c hd)) rfl stack

/-! ## Numerals -/

/-- A text that is read as one number, if it is one at all. -/
structure Numeral (token : Text) : Prop where
  begins : ∃ c rest, token = c :: rest ∧ (c = '-' ∨ c.isDigit = true)
  continues : ∀ c ∈ token, isNumberChar c = true

theorem run_numeral {token : Text} (htoken : Numeral token)
    (stack : List Frame) :
    run ⟨.value, stack⟩ token = some ⟨.number token, stack⟩ := by
  rcases htoken.begins with ⟨c, rest, heq, hc⟩
  have hrest : ∀ d ∈ rest, isNumberChar d = true := by
    intro d hd
    apply htoken.continues
    rw [heq]
    exact List.mem_cons_of_mem c hd
  have hbegin : step ⟨.value, stack⟩ c = some ⟨.number [c], stack⟩ :=
    beginValue_of_number hc stack
  rw [heq, run_cons, hbegin, Option.bind_some, run_number hrest]
  rfl

theorem isNumberChar_of_isDigits {token : Text}
    (htoken : isDigits token = true) {c : Char} (hc : c ∈ token) :
    isNumberChar c = true := by
  rw [isDigits, Bool.and_eq_true, List.all_eq_true] at htoken
  rw [isNumberChar, htoken.2 c hc, Bool.true_or]

theorem isDigits_of_natOf? {token : Text} {n : ℕ}
    (htoken : natOf? token = some n) : isDigits token = true := by
  unfold natOf? at htoken
  split at htoken
  · next hdigits => exact hdigits.1
  · contradiction

theorem numeral_of_isDigits {token : Text} (htoken : isDigits token = true) :
    Numeral token := by
  constructor
  · cases token with
    | nil => contradiction
    | cons c rest =>
        rw [isDigits, Bool.and_eq_true, List.all_eq_true] at htoken
        exact ⟨c, rest, rfl, Or.inr (htoken.2 c List.mem_cons_self)⟩
  · intro c hc
    exact isNumberChar_of_isDigits htoken hc

theorem numeral_of_intOf? {token : Text} {value : ℤ}
    (htoken : intOf? token = some value) : Numeral token := by
  unfold intOf? at htoken
  split at htoken
  · next rest =>
      rcases Option.map_eq_some_iff.mp htoken with ⟨n, hn, _⟩
      have hdigits := isDigits_of_natOf? hn
      constructor
      · exact ⟨'-', rest, rfl, Or.inl rfl⟩
      · intro c hc
        rcases List.mem_cons.mp hc with hminus | hmem
        · rw [hminus]
          rfl
        · exact isNumberChar_of_isDigits hdigits hmem
  · rcases Option.map_eq_some_iff.mp htoken with ⟨n, hn, _⟩
    exact numeral_of_isDigits (isDigits_of_natOf? hn)

theorem isNumberChar_of_isFraction {fraction : Text}
    (hfraction : isFraction fraction = true) {c : Char} (hc : c ∈ fraction) :
    isNumberChar c = true := by
  unfold isFraction at hfraction
  split at hfraction
  · contradiction
  · rcases List.mem_cons.mp hc with hpoint | hmem
    · rw [hpoint]
      rfl
    · exact isNumberChar_of_isDigits hfraction hmem
  · contradiction

/-- The letter of an exponent is left out: the caller knows it. -/
theorem isNumberChar_of_isExponent {letter : Char} {exponent : Text}
    (hexponent : isExponent (letter :: exponent) = true) {c : Char}
    (hc : c ∈ exponent) : isNumberChar c = true := by
  unfold isExponent at hexponent
  split at hexponent
  · contradiction
  · next digits heq =>
      rw [(List.cons.inj heq).2] at hc
      rcases List.mem_cons.mp hc with hsign | hmem
      · rw [hsign]
        rfl
      · exact isNumberChar_of_isDigits hexponent hmem
  · next digits heq =>
      rw [(List.cons.inj heq).2] at hc
      rcases List.mem_cons.mp hc with hsign | hmem
      · rw [hsign]
        rfl
      · exact isNumberChar_of_isDigits hexponent hmem
  · next heq =>
      rw [(List.cons.inj heq).2] at hc
      exact isNumberChar_of_isDigits hexponent hc

theorem numeral_append {first later : Text} (hfirst : Numeral first)
    (hlater : ∀ c ∈ later, isNumberChar c = true) : Numeral (first ++ later) := by
  rcases hfirst.begins with ⟨c, rest, heq, hc⟩
  constructor
  · exact ⟨c, rest ++ later, by rw [heq]; rfl, hc⟩
  · intro d hd
    rcases List.mem_append.mp hd with hmem | hmem
    · exact hfirst.continues d hmem
    · exact hlater d hmem

theorem numeral_of_isReal {token : Text} (htoken : isReal token = true) :
    Numeral token := by
  unfold isReal at htoken
  simp only [List.span_eq_takeWhile_dropWhile, Bool.and_eq_true] at htoken
  rcases htoken with ⟨⟨hwhole, hfraction⟩, hexponent⟩
  rcases Option.isSome_iff_exists.mp hwhole with ⟨value, hvalue⟩
  have hmantissa := numeral_append (numeral_of_intOf? hvalue)
    (fun c hc => isNumberChar_of_isFraction hfraction hc)
  rw [List.takeWhile_append_dropWhile] at hmantissa
  have hlater : ∀ c ∈ token.dropWhile (fun c => decide (c ≠ 'e' ∧ c ≠ 'E')),
      isNumberChar c = true := by
    cases hdrop : token.dropWhile (fun c => decide (c ≠ 'e' ∧ c ≠ 'E')) with
    | nil =>
        intro c hc
        contradiction
    | cons letter exponent =>
        rw [hdrop] at hexponent
        have hstop := List.head?_dropWhile_not
          (fun c => decide (c ≠ 'e' ∧ c ≠ 'E')) token
        rw [hdrop] at hstop
        have hletter : letter = 'e' ∨ letter = 'E' := by
          simpa [imp_iff_not_or] using hstop
        intro c hc
        rcases List.mem_cons.mp hc with hfirst | hmem
        · rw [hfirst]
          rcases hletter with heq | heq
          · rw [heq]
            rfl
          · rw [heq]
            rfl
        · exact isNumberChar_of_isExponent hexponent hmem
  have happend := numeral_append hmantissa hlater
  rwa [List.takeWhile_append_dropWhile] at happend

theorem numeral_of_numberOf? {token : Text} {value : Value}
    (htoken : numberOf? token = some value) : Numeral token := by
  unfold numberOf? at htoken
  split at htoken
  · next value hvalue => exact numeral_of_intOf? hvalue
  · split at htoken
    · next hreal => exact numeral_of_isReal hreal
    · contradiction

theorem hasRead_number {token : Text} {value : Value}
    (htoken : numberOf? token = some value) (stack : List Frame) :
    ∃ state, run ⟨.value, stack⟩ token = some state ∧
      state.HasRead value stack :=
  ⟨⟨.number token, stack⟩, run_numeral (numeral_of_numberOf? htoken) stack,
    Or.inr ⟨token, htoken, rfl⟩⟩

/-! ## Escaped characters -/

theorem hexDigit?_digitChar {digit : ℕ} (hdigit : digit < 16) :
    hexDigit? (Nat.digitChar digit) = some digit := by
  revert digit
  decide

theorem step_unicode {digit : ℕ} (hdigit : digit < 16) {seen : ℕ}
    (hseen : seen < 3) (role : Role) (text : Text) (high : Option ℕ)
    (code : ℕ) (stack : List Frame) :
    step ⟨.unicode role text high seen code, stack⟩ (Nat.digitChar digit) =
      some ⟨.unicode role text high (seen + 1) (16 * code + digit), stack⟩ := by
  simp only [step, modeStep, hexDigit?_digitChar hdigit, if_pos hseen]

theorem step_unicode_last {digit : ℕ} (hdigit : digit < 16) (role : Role)
    (text : Text) (high : Option ℕ) (code : ℕ) (stack : List Frame) :
    step ⟨.unicode role text high 3 code, stack⟩ (Nat.digitChar digit) =
      (closeUnicode role text high (16 * code + digit)).map
        (fun mode => ⟨mode, stack⟩) := by
  simp only [step, modeStep, hexDigit?_digitChar hdigit, Nat.lt_irrefl,
    if_false]

/-- The four digits behind `\u`. -/
def codeDigits (code : ℕ) : Text :=
  [Nat.digitChar (code / 4096 % 16), Nat.digitChar (code / 256 % 16),
    Nat.digitChar (code / 16 % 16), Nat.digitChar (code % 16)]

theorem run_codeDigits {code : ℕ} (hcode : code < 65536) (role : Role)
    (text : Text) (high : Option ℕ) (stack : List Frame) :
    run ⟨.unicode role text high 0 0, stack⟩ (codeDigits code) =
      (closeUnicode role text high code).map (fun mode => ⟨mode, stack⟩) := by
  have hlt : ∀ n, n % 16 < 16 := fun n => Nat.mod_lt n (by decide)
  have hvalue : 16 * (16 * (16 * (16 * 0 + code / 4096 % 16) +
      code / 256 % 16) + code / 16 % 16) + code % 16 = code := by omega
  unfold codeDigits
  rw [run_cons, step_unicode (hlt _) (by decide), Option.bind_some, run_cons,
    step_unicode (hlt _) (by decide), Option.bind_some, run_cons,
    step_unicode (hlt _) (by decide), Option.bind_some, run_cons,
    step_unicode_last (hlt _), hvalue]
  cases closeUnicode role text high code with
  | none => rfl
  | some mode => rfl

def unicodeEscape (code : ℕ) : Text := "\\u".toList ++ codeDigits code

theorem run_unicodeEscape {code : ℕ} (hcode : code < 65536)
    (hfirst : ¬ (0xd800 ≤ code ∧ code < 0xe000)) (role : Role) (text : Text)
    (stack : List Frame) :
    run ⟨.string role text, stack⟩ (unicodeEscape code) =
      some ⟨.string role (text ++ [Char.ofNat code]), stack⟩ := by
  have hopen : run ⟨.string role text, stack⟩ "\\u".toList =
      some ⟨.unicode role text none 0 0, stack⟩ := rfl
  have hlow : ¬ (0xd800 ≤ code ∧ code < 0xdc00) := by omega
  have hhigh : ¬ (0xdc00 ≤ code ∧ code < 0xe000) := by omega
  rw [unicodeEscape, run_append, hopen, Option.bind_some,
    run_codeDigits hcode]
  simp only [closeUnicode, if_neg hlow, if_neg hhigh, Option.map_some]

/-- A pair of surrogates stands for one character. -/
theorem run_surrogates {high low : ℕ} (hhigh : high < 0x400)
    (hlow : low < 0x400) (role : Role) (text : Text) (stack : List Frame) :
    run ⟨.string role text, stack⟩
        (unicodeEscape (0xd800 + high) ++ unicodeEscape (0xdc00 + low)) =
      some ⟨.string role (text ++ [Char.ofNat (0x10000 + 0x400 * high + low)]),
        stack⟩ := by
  have hopen : run ⟨.string role text, stack⟩ "\\u".toList =
      some ⟨.unicode role text none 0 0, stack⟩ := rfl
  have hpair : run ⟨.pair role text (0xd800 + high) false, stack⟩
      "\\u".toList =
      some ⟨.unicode role text (some (0xd800 + high)) 0 0, stack⟩ := rfl
  have hfirst : 0xd800 ≤ 0xd800 + high ∧ 0xd800 + high < 0xdc00 := by omega
  have hsecond : 0xdc00 ≤ 0xdc00 + low ∧ 0xdc00 + low < 0xe000 := by omega
  have hcode : 0x10000 + 0x400 * (0xd800 + high - 0xd800) +
      (0xdc00 + low - 0xdc00) = 0x10000 + 0x400 * high + low := by omega
  rw [unicodeEscape, unicodeEscape, run_append, run_append, hopen,
    Option.bind_some, run_codeDigits (by omega)]
  simp only [closeUnicode, if_pos hfirst, Option.map_some, Option.bind_some]
  rw [run_append, hpair, Option.bind_some, run_codeDigits (by omega)]
  simp only [closeUnicode, if_pos hsecond, Option.map_some, hcode]

/-! ## One text behind another -/

/-- Behind a whole value only spaces are read. -/
theorem eq_of_run_after {value : Value} {rest : Text} {last : State}
    (hrun : run ⟨.after value, []⟩ rest = some last) :
    last = ⟨.after value, []⟩ := by
  induction rest with
  | nil => exact (Option.some.inj hrun).symm
  | cons c rest ih =>
      by_cases hspace : isSpace c = true
      · rw [run_cons, step_space hspace rfl, Option.bind_some] at hrun
        exact ih hrun
      · have hnone : step ⟨.after value, []⟩ c = none := by
          simp only [step, modeStep, afterValue, if_neg hspace]
        rw [run_cons, hnone] at hrun
        contradiction

def Value.IsNumber : Value → Prop
  | .int _ => True
  | .real _ => True
  | _ => False

theorem isNumber_of_numberOf? {token : Text} {value : Value}
    (htoken : numberOf? token = some value) : value.IsNumber := by
  unfold numberOf? at htoken
  split at htoken
  · rw [← Option.some.inj htoken]
    trivial
  · split at htoken
    · rw [← Option.some.inj htoken]
      trivial
    · contradiction

/-- The text of a value that is no number says where it ends: a text that it
begins has the same value or none. -/
theorem eq_of_decode_append {text rest : Text} {value other : Value}
    (htext : decode text = some value) (hvalue : ¬ value.IsNumber)
    (hother : decode (text ++ rest) = some other) : value = other := by
  unfold decode at htext hother
  rcases Option.bind_eq_some_iff.mp htext with ⟨state, hrun, hfinish⟩
  have hstate : state = ⟨.after value, []⟩ := by
    unfold finish at hfinish
    split at hfinish
    · rw [Option.some.inj hfinish]
    · exact absurd (isNumber_of_numberOf? hfinish) hvalue
    · contradiction
  rw [run_append, hrun, Option.bind_some, hstate] at hother
  rcases Option.bind_eq_some_iff.mp hother with ⟨last, hlast, hend⟩
  rw [eq_of_run_after hlast] at hend
  exact Option.some.inj hend

/-- Words of which none begins another can be told apart in a row. -/
theorem uniquelyDecodable_of_prefix {α : Type*} {words : Set (List α)}
    (hempty : [] ∉ words)
    (hbegins : ∀ first ∈ words, ∀ second ∈ words,
      first <+: second → first = second) :
    InformationTheory.UniquelyDecodable words := by
  intro first second hfirst hsecond hflatten
  induction first generalizing second with
  | nil =>
      cases second with
      | nil => rfl
      | cons word second =>
          rw [List.flatten_nil, List.flatten_cons] at hflatten
          have hword := (List.append_eq_nil_iff.mp hflatten.symm).1
          exact absurd (hword ▸ hsecond word List.mem_cons_self) hempty
  | cons word first ih =>
      cases second with
      | nil =>
          rw [List.flatten_nil, List.flatten_cons] at hflatten
          have hword := (List.append_eq_nil_iff.mp hflatten).1
          exact absurd (hword ▸ hfirst word List.mem_cons_self) hempty
      | cons other second =>
          have hword := hfirst word List.mem_cons_self
          have hother := hsecond other List.mem_cons_self
          rw [List.flatten_cons, List.flatten_cons] at hflatten
          have hsame : word = other := by
            rcases List.prefix_or_prefix_of_prefix
                (List.prefix_append word first.flatten)
                (hflatten ▸ List.prefix_append other second.flatten)
              with hle | hge
            · exact hbegins word hword other hother hle
            · exact (hbegins other hother word hword hge).symm
          rw [hsame, List.append_cancel_left_eq] at hflatten
          rw [hsame, ih second
            (fun w hw => hfirst w (List.mem_cons_of_mem word hw))
            (fun w hw => hsecond w (List.mem_cons_of_mem other hw)) hflatten]

end JsonText
