import SecaasCharms.TextLines

/-!
# Reading JSON

The decoder is a pushdown machine that reads a text one character at a time.
Its mode says what it is in the middle of, its stack holds the arrays and
objects that are still open.  A number without a fraction or an exponent is
an integer, any other keeps its literal.  The members of an object stay in the
order of the text; of two with one name the later counts.
-/

namespace JsonText

open TextLines

inductive Value where
  | null
  | bool (value : Bool)
  | int (value : ℤ)
  | real (literal : Text)
  | str (text : Text)
  | arr (items : List Value)
  | obj (members : List (Text × Value))

def member (members : List (Text × Value)) (name : Text) : Option Value :=
  members.reverse.lookup name

/-! ## Numbers -/

def isDigits (token : Text) : Bool :=
  !token.isEmpty && token.all Char.isDigit

def natOf? (token : Text) : Option ℕ :=
  if isDigits token ∧ (token.head? = some '0' → token = ['0']) then
    some (Nat.ofDigitChars 10 token 0)
  else
    none

def intOf? : Text → Option ℤ
  | '-' :: token => (natOf? token).map (fun n : ℕ => -(n : ℤ))
  | token => (natOf? token).map (fun n : ℕ => (n : ℤ))

def isFraction : Text → Bool
  | [] => true
  | '.' :: token => isDigits token
  | _ => false

/-- A text that is empty or starts with the letter of an exponent. -/
def isExponent : Text → Bool
  | [] => true
  | _ :: '+' :: token => isDigits token
  | _ :: '-' :: token => isDigits token
  | _ :: token => isDigits token

def isReal (token : Text) : Bool :=
  let (mantissa, exponent) := token.span (fun c => c ≠ 'e' ∧ c ≠ 'E')
  let (whole, fraction) := mantissa.span (fun c => c ≠ '.')
  (intOf? whole).isSome && isFraction fraction && isExponent exponent

def numberOf? (token : Text) : Option Value :=
  match intOf? token with
  | some value => some (.int value)
  | none => if isReal token = true then some (.real token) else none

def isNumberChar (c : Char) : Bool :=
  c.isDigit || "+-.eE".toList.contains c

/-! ## The machine -/

inductive Literal where
  | null
  | true
  | false

def Literal.text : Literal → Text
  | .null => "null".toList
  | .true => "true".toList
  | .false => "false".toList

def Literal.value : Literal → Value
  | .null => .null
  | .true => .bool Bool.true
  | .false => .bool Bool.false

/-- What a string that is being read will be: a value, or the name of the next
member of an object. -/
inductive Role where
  | value
  | name (members : List (Text × Value))

inductive Mode where
  | value
  | name (members : List (Text × Value))
  | colon (members : List (Text × Value)) (name : Text)
  | string (role : Role) (text : Text)
  | escape (role : Role) (text : Text)
  | unicode (role : Role) (text : Text) (high : Option ℕ) (seen code : ℕ)
  | pair (role : Role) (text : Text) (high : ℕ) (escaped : Bool)
  | literal (word : Literal) (seen : ℕ)
  | number (token : Text)
  | after (value : Value)

/-- An open array, or an open object with the name of the member whose value
is being read. -/
inductive Frame where
  | arr (items : List Value)
  | obj (members : List (Text × Value)) (name : Text)

structure State where
  mode : Mode
  stack : List Frame

def isSpace (c : Char) : Bool :=
  " \t\n\r".toList.contains c

def beginValue (stack : List Frame) (c : Char) : Option State :=
  if isSpace c = true then some ⟨.value, stack⟩
  else if c = '"' then some ⟨.string .value [], stack⟩
  else if c = '\x7b' then some ⟨.name [], stack⟩
  else if c = '[' then some ⟨.value, .arr [] :: stack⟩
  else if c = 'n' then some ⟨.literal .null 1, stack⟩
  else if c = 't' then some ⟨.literal .true 1, stack⟩
  else if c = 'f' then some ⟨.literal .false 1, stack⟩
  else if c = '-' ∨ c.isDigit = true then some ⟨.number [c], stack⟩
  else
    match stack with
    | .arr [] :: rest => if c = ']' then some ⟨.after (.arr []), rest⟩ else none
    | _ => none

def afterValue (value : Value) (stack : List Frame) (c : Char) :
    Option State :=
  if isSpace c = true then some ⟨.after value, stack⟩
  else
    match stack with
    | [] => none
    | .arr items :: rest =>
        if c = ',' then some ⟨.value, .arr (items ++ [value]) :: rest⟩
        else if c = ']' then some ⟨.after (.arr (items ++ [value])), rest⟩
        else none
    | .obj members name :: rest =>
        if c = ',' then some ⟨.name (members ++ [(name, value)]), rest⟩
        else if c = '\x7d' then
          some ⟨.after (.obj (members ++ [(name, value)])), rest⟩
        else none

def closeString : Role → Text → Mode
  | .value, text => .after (.str text)
  | .name members, text => .colon members text

def escaped? (c : Char) : Option Char :=
  if c = '"' ∨ c = '\\' ∨ c = '/' then some c
  else if c = 'b' then some '\x08'
  else if c = 'f' then some '\x0c'
  else if c = 'n' then some '\n'
  else if c = 'r' then some '\r'
  else if c = 't' then some '\t'
  else none

def hexDigit? (c : Char) : Option ℕ :=
  if c.isDigit = true then some (c.toNat - '0'.toNat)
  else if 'a' ≤ c ∧ c ≤ 'f' then some (c.toNat - 'a'.toNat + 10)
  else if 'A' ≤ c ∧ c ≤ 'F' then some (c.toNat - 'A'.toNat + 10)
  else none

/-- The end of `\uXXXX`.  A character above U+FFFF is written as a pair of
surrogates; a surrogate without its pair is no character and is refused. -/
def closeUnicode (role : Role) (text : Text) : Option ℕ → ℕ → Option Mode
  | none, code =>
      if 0xd800 ≤ code ∧ code < 0xdc00 then some (.pair role text code false)
      else if 0xdc00 ≤ code ∧ code < 0xe000 then none
      else some (.string role (text ++ [Char.ofNat code]))
  | some high, code =>
      if 0xdc00 ≤ code ∧ code < 0xe000 then
        some (.string role (text ++
          [Char.ofNat (0x10000 + 0x400 * (high - 0xd800) + (code - 0xdc00))]))
      else none

def modeStep (stack : List Frame) (c : Char) : Mode → Option State
  | .value => beginValue stack c
  | .name members =>
      if isSpace c = true then some ⟨.name members, stack⟩
      else if c = '"' then some ⟨.string (.name members) [], stack⟩
      else if c = '\x7d' ∧ members.isEmpty = true then
        some ⟨.after (.obj []), stack⟩
      else none
  | .colon members name =>
      if isSpace c = true then some ⟨.colon members name, stack⟩
      else if c = ':' then some ⟨.value, .obj members name :: stack⟩
      else none
  | .string role text =>
      if c = '"' then some ⟨closeString role text, stack⟩
      else if c = '\\' then some ⟨.escape role text, stack⟩
      else if c.toNat < 0x20 then none
      else some ⟨.string role (text ++ [c]), stack⟩
  | .escape role text =>
      if c = 'u' then some ⟨.unicode role text none 0 0, stack⟩
      else (escaped? c).map (fun d => ⟨.string role (text ++ [d]), stack⟩)
  | .unicode role text high seen code =>
      match hexDigit? c with
      | none => none
      | some digit =>
          if seen < 3 then
            some ⟨.unicode role text high (seen + 1) (16 * code + digit), stack⟩
          else
            (closeUnicode role text high (16 * code + digit)).map
              (fun mode => ⟨mode, stack⟩)
  | .pair role text high escaped =>
      if escaped = true then
        if c = 'u' then some ⟨.unicode role text (some high) 0 0, stack⟩
        else none
      else if c = '\\' then some ⟨.pair role text high true, stack⟩
      else none
  | .literal word seen =>
      if word.text[seen]? = some c then
        if seen + 1 = word.text.length then some ⟨.after word.value, stack⟩
        else some ⟨.literal word (seen + 1), stack⟩
      else none
  | .number token =>
      if isNumberChar c = true then some ⟨.number (token ++ [c]), stack⟩
      else
        match numberOf? token with
        | none => none
        | some value => afterValue value stack c
  | .after value => afterValue value stack c

def step (state : State) (c : Char) : Option State :=
  modeStep state.stack c state.mode

def run (state : State) (text : Text) : Option State :=
  text.foldlM step state

/-- The value of a text that ends here. -/
def finish : State → Option Value
  | ⟨.after value, []⟩ => some value
  | ⟨.number token, []⟩ => numberOf? token
  | _ => none

def start : State := ⟨.value, []⟩

def decode (text : Text) : Option Value :=
  (run start text).bind finish

example : decode " \x7b\"a\\u00e9\\n\": [1, -0.5e+3], \"b\": [], \"b\": \x7b\x7d \x7d".toList =
    some (.obj [("aé\n".toList, .arr [.int 1, .real "-0.5e+3".toList]),
      ("b".toList, .arr []), ("b".toList, .obj [])]) := by
  rfl

theorem run_cons (state : State) (c : Char) (text : Text) :
    run state (c :: text) =
      (step state c).bind (fun next => run next text) :=
  rfl

theorem run_append (state : State) (first later : Text) :
    run state (first ++ later) =
      (run state first).bind (fun next => run next later) :=
  List.foldlM_append

/-! ## Strings -/

/-- A character that stands for itself in a string. -/
def IsPlain (c : Char) : Prop :=
  c ≠ '"' ∧ c ≠ '\\' ∧ 0x20 ≤ c.toNat

instance : DecidablePred IsPlain :=
  fun _ => inferInstanceAs (Decidable (_ ∧ _ ∧ _))

def Plain (text : Text) : Prop :=
  ∀ c ∈ text, IsPlain c

instance : DecidablePred Plain :=
  fun text => decidableForallMemText IsPlain text

theorem step_string_of_plain {c : Char} (hc : IsPlain c) (role : Role)
    (text : Text) (stack : List Frame) :
    step ⟨.string role text, stack⟩ c =
      some ⟨.string role (text ++ [c]), stack⟩ := by
  have hcontrol : ¬ c.toNat < 0x20 := by
    have hle := hc.2.2
    omega
  simp only [step, modeStep, if_neg hc.1, if_neg hc.2.1, if_neg hcontrol]

theorem run_string_of_plain {added : Text} (hadded : Plain added)
    (role : Role) (text : Text) (stack : List Frame) :
    run ⟨.string role text, stack⟩ added =
      some ⟨.string role (text ++ added), stack⟩ := by
  induction added generalizing text with
  | nil => rw [List.append_nil]; rfl
  | cons c added ih =>
      have hrest : Plain added := fun d hd =>
        hadded d (List.mem_cons_of_mem c hd)
      rw [run_cons, step_string_of_plain (hadded c List.mem_cons_self),
        Option.bind_some, ih hrest, List.append_assoc]
      rfl

/-! ## The text between two members -/

/-- What may stand behind a value or a name. -/
def isDelimiter (c : Char) : Bool :=
  isSpace c || ",:]\x7d".toList.contains c

theorem isSpace_of_isDelimiter {c : Char} (hc : isDelimiter c = false) :
    isSpace c = false := by
  cases hspace : isSpace c with
  | false => rfl
  | true => simp [isDelimiter, hspace] at hc

theorem afterValue_eq_none {c : Char} (hc : isDelimiter c = false)
    (value : Value) (stack : List Frame) :
    afterValue value stack c = none := by
  have hspace := isSpace_of_isDelimiter hc
  have hother : c ≠ ',' ∧ c ≠ ':' ∧ c ≠ ']' ∧ c ≠ '\x7d' := by
    simpa [isDelimiter, hspace] using hc
  cases stack with
  | nil => simp [afterValue, hspace]
  | cons frame rest =>
      cases frame with
      | arr items => simp [afterValue, hspace, hother]
      | obj members name => simp [afterValue, hspace, hother]

theorem run_colon_eq_none {c : Char} (hc : isDelimiter c = false)
    (members : List (Text × Value)) (name : Text) (stack : List Frame)
    (rest : Text) : run ⟨.colon members name, stack⟩ (c :: rest) = none := by
  have hspace := isSpace_of_isDelimiter hc
  have hcolon : c ≠ ':' := by
    intro heq
    rw [heq] at hc
    exact absurd hc (by decide)
  simp [run_cons, step, modeStep, hspace, hcolon]

/-- The text that closes a string and names the next member. -/
def nextMember (name : Text) : Text :=
  "\", \"".toList ++ name ++ "\":".toList

theorem run_nextMember {next : Text} (hnext : Plain next)
    (members : List (Text × Value)) (name text : Text) (stack : List Frame) :
    run ⟨.string .value text, .obj members name :: stack⟩ (nextMember next) =
      some ⟨.value, .obj (members ++ [(name, .str text)]) next :: stack⟩ := by
  have hopen : run ⟨.string .value text, .obj members name :: stack⟩
      "\", \"".toList =
      some ⟨.string (.name (members ++ [(name, .str text)])) [], stack⟩ :=
    rfl
  rw [nextMember, run_append, run_append, hopen, Option.bind_some,
    run_string_of_plain hnext, Option.bind_some]
  rfl

theorem step_literal_quote (word : Literal) (seen : ℕ)
    (stack : List Frame) : step ⟨.literal word seen, stack⟩ '"' = none := by
  have hquote : '"' ∉ word.text := by
    cases word with
    | null => decide
    | true => decide
    | false => decide
  have hother : word.text[seen]? ≠ some '"' := by
    intro hseen
    exact hquote (List.mem_of_getElem? hseen)
  simp only [step, modeStep, if_neg hother]

theorem afterValue_quote (value : Value) (stack : List Frame) :
    afterValue value stack '"' = none :=
  afterValue_eq_none rfl value stack

theorem step_number_quote (token : Text) (stack : List Frame) :
    step ⟨.number token, stack⟩ '"' = none := by
  have hquote : isNumberChar '"' = false := rfl
  simp only [step, modeStep, hquote, Bool.false_eq_true, if_false]
  cases numberOf? token with
  | none => rfl
  | some value => exact afterValue_quote value stack

/-- A quote is read only where a string starts, where it ends, and behind a
backslash. -/
theorem mode_of_step_quote {mode : Mode} {stack : List Frame} {next : State}
    (hstep : step ⟨mode, stack⟩ '"' = some next) :
    mode = .value ∨ (∃ members, mode = .name members) ∨
      (∃ role text, mode = .string role text) ∨
      ∃ role text, mode = .escape role text := by
  cases mode with
  | value => exact Or.inl rfl
  | name members => exact Or.inr (Or.inl ⟨members, rfl⟩)
  | colon members name => contradiction
  | string role text => exact Or.inr (Or.inr (Or.inl ⟨role, text, rfl⟩))
  | escape role text => exact Or.inr (Or.inr (Or.inr ⟨role, text, rfl⟩))
  | unicode role text high seen code => contradiction
  | pair role text high escaped =>
      cases escaped with
      | true => contradiction
      | false => contradiction
  | literal word seen =>
      rw [step_literal_quote] at hstep
      contradiction
  | number token =>
      rw [step_number_quote] at hstep
      contradiction
  | after value =>
      have hnone : step ⟨.after value, stack⟩ '"' = none :=
        afterValue_quote value stack
      rw [hnone] at hstep
      contradiction

theorem run_closeString_eq_none {c : Char} (hc : isDelimiter c = false)
    (role : Role) (text : Text) (stack : List Frame) (rest : Text) :
    run ⟨closeString role text, stack⟩ (c :: rest) = none := by
  cases role with
  | value =>
      have hnone : step ⟨.after (.str text), stack⟩ c = none :=
        afterValue_eq_none hc (.str text) stack
      rw [closeString, run_cons, hnone, Option.bind_none]
  | name members => exact run_colon_eq_none hc members text stack rest

/-- The text between two members is read as one only at the end of a string
that is the value of a member. -/
theorem eq_of_run_nextMember {c : Char} {name : Text} {state last : State}
    (hc : isDelimiter c = false) (hname : Plain (c :: name))
    (hrun : run state (nextMember (c :: name)) = some last) :
    ∃ members key text stack,
      state = ⟨.string .value text, .obj members key :: stack⟩ := by
  have hparts : nextMember (c :: name) =
      '"' :: ',' :: ' ' :: '"' :: c :: (name ++ "\":".toList) := rfl
  rcases state with ⟨mode, stack⟩
  cases hquote : step ⟨mode, stack⟩ '"' with
  | none =>
      rw [hparts, run_cons, hquote] at hrun
      contradiction
  | some next =>
      rcases mode_of_step_quote hquote with hmode | ⟨members, hmode⟩ |
        ⟨role, text, hmode⟩ | ⟨role, text, hmode⟩
      · -- the quote opens the string `, `, which the next one closes
        rw [hmode] at hrun
        have hnone := run_closeString_eq_none hc .value ", ".toList stack
          (name ++ "\":".toList)
        exact absurd (hrun.symm.trans hnone) (Option.some_ne_none last)
      · rw [hmode] at hrun
        have hnone := run_closeString_eq_none hc (.name members) ", ".toList
          stack (name ++ "\":".toList)
        exact absurd (hrun.symm.trans hnone) (Option.some_ne_none last)
      · rw [hmode] at hrun ⊢
        cases role with
        | name members => contradiction
        | value =>
            cases stack with
            | nil => contradiction
            | cons frame stack =>
                cases frame with
                | obj members key => exact ⟨members, key, text, stack, rfl⟩
                | arr items =>
                    -- the name is an item of the array: the colon is refused
                    have hopen : run ⟨.string .value text, .arr items :: stack⟩
                        "\", \"".toList = some ⟨.string .value [],
                          .arr (items ++ [.str text]) :: stack⟩ := rfl
                    rw [nextMember, run_append, run_append, hopen,
                      Option.bind_some, run_string_of_plain hname,
                      Option.bind_some] at hrun
                    contradiction
      · -- the quote is escaped, and the next one closes the string
        rw [hmode] at hrun
        have hnone := run_closeString_eq_none hc role
          (text ++ ['"'] ++ [','] ++ [' ']) stack (name ++ "\":".toList)
        exact absurd (hrun.symm.trans hnone) (Option.some_ne_none last)

/-- The end of an object whose last value is a string. -/
theorem eq_of_finish_closing {state : State} {value : Value}
    (hfinish : (run state "\"\x7d".toList).bind finish = some value) :
    ∃ members name text,
      state = ⟨.string .value text, [.obj members name]⟩ ∧
      value = .obj (members ++ [(name, .str text)]) := by
  have hparts : "\"\x7d".toList = ['"', '\x7d'] := rfl
  rcases state with ⟨mode, stack⟩
  cases hquote : step ⟨mode, stack⟩ '"' with
  | none =>
      rw [hparts, run_cons, hquote] at hfinish
      contradiction
  | some next =>
      rcases mode_of_step_quote hquote with hmode | ⟨members, hmode⟩ |
        ⟨role, text, hmode⟩ | ⟨role, text, hmode⟩
      · rw [hmode] at hfinish
        cases stack with
        | nil => contradiction
        | cons frame stack => contradiction
      · rw [hmode] at hfinish
        cases stack with
        | nil => contradiction
        | cons frame stack => contradiction
      · rw [hmode] at hfinish ⊢
        cases role with
        | name members => contradiction
        | value =>
            cases stack with
            | nil => contradiction
            | cons frame stack =>
                cases frame with
                | arr items => contradiction
                | obj members name =>
                    cases stack with
                    | cons frame stack => contradiction
                    | nil =>
                        exact ⟨members, name, text, rfl,
                          (Option.some.inj hfinish).symm⟩
      · rw [hmode] at hfinish
        cases stack with
        | nil => contradiction
        | cons frame stack => contradiction

/-! ## Integers -/

/-- An integer as every printer writes it. -/
def intText (value : ℤ) : Text := (toString value).toList

theorem intText_natCast (n : ℕ) : intText n = Nat.toDigits 10 n :=
  Nat.toList_repr

theorem intText_negSucc (n : ℕ) :
    intText (Int.negSucc n) = '-' :: Nat.toDigits 10 (n + 1) := by
  have hshown : toString (Int.negSucc n) = "-" ++ (n + 1).repr := rfl
  rw [intText, hshown, String.toList_append, Nat.toList_repr]
  rfl

theorem isDigit_of_mem_digits {n : ℕ} {c : Char}
    (hc : c ∈ Nat.toDigits 10 n) : c.isDigit = true :=
  Nat.isDigit_of_mem_toDigits (by decide) (by decide) hc

/-- No number but zero is written with a leading zero. -/
theorem digits_eq_of_head_zero (n : ℕ)
    (hhead : (Nat.toDigits 10 n).head? = some '0') :
    Nat.toDigits 10 n = ['0'] := by
  induction n using Nat.strong_induction_on with
  | _ n ih =>
      by_cases hlt : n < 10
      · have hone := Nat.toDigits_of_lt_base hlt
        rw [hone] at hhead ⊢
        exact congrArg (fun c => [c]) (Option.some.inj hhead)
      · have hle : 10 ≤ n := by omega
        have hmore := Nat.toDigits_of_base_le (by decide : 1 < 10) hle
        have hnonempty : Nat.toDigits 10 (n / 10) ≠ [] := Nat.toDigits_ne_nil
        rw [hmore, List.head?_append_of_ne_nil _ hnonempty] at hhead
        have hzero := ih (n / 10) (by omega) hhead
        have hpositive : n / 10 ≠ 0 := by omega
        have hvalue := congrArg (fun l => Nat.ofDigitChars 10 l 0) hzero
        simp only [Nat.ofDigitChars_ten_toDigits] at hvalue
        exact absurd hvalue hpositive

theorem natOf?_digits (n : ℕ) : natOf? (Nat.toDigits 10 n) = some n := by
  have hdigits : isDigits (Nat.toDigits 10 n) = true := by
    rw [isDigits, Bool.and_eq_true, Bool.not_eq_true', List.all_eq_true]
    exact ⟨List.isEmpty_eq_false_iff.mpr Nat.toDigits_ne_nil,
      fun c hc => isDigit_of_mem_digits hc⟩
  rw [natOf?, if_pos ⟨hdigits, digits_eq_of_head_zero n⟩,
    Nat.ofDigitChars_ten_toDigits]

theorem intOf?_of_isDigit {c : Char} (hc : c.isDigit = true) (token : Text) :
    intOf? (c :: token) =
      (natOf? (c :: token)).map (fun n : ℕ => (n : ℤ)) := by
  have hminus : c ≠ '-' := by
    intro heq
    rw [heq] at hc
    contradiction
  unfold intOf?
  split
  · rename_i heq
    exact absurd (List.cons.inj heq).1 hminus
  · rfl

theorem intOf?_intText (value : ℤ) : intOf? (intText value) = some value := by
  cases value with
  | ofNat n =>
      change intOf? (intText (n : ℤ)) = some (n : ℤ)
      rw [intText_natCast]
      cases hdigits : Nat.toDigits 10 n with
      | nil => exact absurd hdigits Nat.toDigits_ne_nil
      | cons c token =>
          have hc : c.isDigit = true := by
            apply @isDigit_of_mem_digits n
            rw [hdigits]
            exact List.mem_cons_self
          rw [intOf?_of_isDigit hc, ← hdigits, natOf?_digits]
          rfl
  | negSucc n =>
      rw [intText_negSucc, intOf?, natOf?_digits]
      rfl

theorem isNumberChar_of_mem_intText {value : ℤ} {c : Char}
    (hc : c ∈ intText value) : isNumberChar c = true := by
  have hdigit : ∀ n, c ∈ Nat.toDigits 10 n → isNumberChar c = true := by
    intro n hmem
    rw [isNumberChar, isDigit_of_mem_digits hmem, Bool.true_or]
  cases value with
  | ofNat n => exact hdigit n (intText_natCast n ▸ hc)
  | negSucc n =>
      rw [intText_negSucc] at hc
      rcases List.mem_cons.mp hc with hminus | hmem
      · rw [hminus]
        rfl
      · exact hdigit (n + 1) hmem

theorem run_number {added : Text}
    (hadded : ∀ c ∈ added, isNumberChar c = true) (token : Text)
    (stack : List Frame) :
    run ⟨.number token, stack⟩ added =
      some ⟨.number (token ++ added), stack⟩ := by
  induction added generalizing token with
  | nil => rw [List.append_nil]; rfl
  | cons c added ih =>
      have hc : step ⟨.number token, stack⟩ c =
          some ⟨.number (token ++ [c]), stack⟩ := by
        simp only [step, modeStep, hadded c List.mem_cons_self, if_true]
      rw [run_cons, hc, Option.bind_some,
        ih (fun d hd => hadded d (List.mem_cons_of_mem c hd)),
        List.append_assoc]
      rfl

theorem beginValue_of_number {c : Char} (hc : c = '-' ∨ c.isDigit = true)
    (stack : List Frame) :
    beginValue stack c = some ⟨.number [c], stack⟩ := by
  have hother : ∀ d, (d = '-' ∨ d.isDigit = true) = False → c ≠ d := by
    intro d hd heq
    rw [heq, hd] at hc
    exact hc
  have hspace : isSpace c = false := by
    simp [isSpace, hother ' ' (by decide), hother '\t' (by decide),
      hother '\n' (by decide), hother '\r' (by decide)]
  simp only [beginValue, hspace, Bool.false_eq_true, if_false,
    if_neg (hother '"' (by decide)), if_neg (hother '\x7b' (by decide)),
    if_neg (hother '[' (by decide)), if_neg (hother 'n' (by decide)),
    if_neg (hother 't' (by decide)), if_neg (hother 'f' (by decide)),
    if_pos hc]

theorem run_intText (value : ℤ) (stack : List Frame) :
    run ⟨.value, stack⟩ (intText value) =
      some ⟨.number (intText value), stack⟩ := by
  have hfirst : ∃ c token, intText value = c :: token ∧
      (c = '-' ∨ c.isDigit = true) := by
    cases value with
    | ofNat n =>
        cases hdigits : Nat.toDigits 10 n with
        | nil => exact absurd hdigits Nat.toDigits_ne_nil
        | cons c token =>
            have hc : c ∈ Nat.toDigits 10 n := by
              rw [hdigits]
              exact List.mem_cons_self
            exact ⟨c, token, (intText_natCast n).trans hdigits,
              Or.inr (isDigit_of_mem_digits hc)⟩
    | negSucc n => exact ⟨'-', _, intText_negSucc n, Or.inl rfl⟩
  rcases hfirst with ⟨c, token, htext, hc⟩
  have hrest : ∀ d ∈ token, isNumberChar d = true := by
    intro d hd
    apply @isNumberChar_of_mem_intText value
    rw [htext]
    exact List.mem_cons_of_mem c hd
  have hbegin : step ⟨.value, stack⟩ c = some ⟨.number [c], stack⟩ :=
    beginValue_of_number hc stack
  rw [htext, run_cons, hbegin, Option.bind_some, run_number hrest]
  rfl

theorem step_number_comma (value : ℤ) (stack : List Frame) :
    step ⟨.number (intText value), stack⟩ ',' =
      afterValue (.int value) stack ',' := by
  have hcomma : isNumberChar ',' = false := rfl
  simp only [step, modeStep, hcomma, Bool.false_eq_true, if_false, numberOf?,
    intOf?_intText]

end JsonText
