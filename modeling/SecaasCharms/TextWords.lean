import Mathlib.Data.List.TakeWhile
import SecaasCharms.TextLines

/-!
# Words and numerals of a text

`str.split` cuts a text at every run of whitespace, `grep` keeps the lines in
which a needle occurs, and `float` reads a numeral.  The words of a text are
the words of its lines, and a numeral is made of few characters.
-/

namespace TextWords

open TextLines

/-! ## Words -/

/-- The characters at which `str.split` cuts. -/
def whitespace : List Char :=
  ['\t', '\n', '\x0b', '\x0c', '\r', '\x1c', '\x1d', '\x1e', '\x1f', ' ',
    '\u0085', '\u00a0', '\u1680', '\u2000', '\u2001', '\u2002', '\u2003',
    '\u2004', '\u2005', '\u2006', '\u2007', '\u2008', '\u2009', '\u200a',
    '\u2028', '\u2029', '\u202f', '\u205f', '\u3000']

def isWhitespace (c : Char) : Bool := whitespace.contains c

def words (text : Text) : List Text :=
  (text.splitOnP isWhitespace).filter (fun word => word ≠ [])

structure IsWord (text : Text) : Prop where
  ne_nil : text ≠ []
  solid : ∀ c ∈ text, isWhitespace c = false

instance : DecidablePred IsWord := fun text =>
  decidable_of_iff (text ≠ [] ∧ ∀ c ∈ text, isWhitespace c = false)
    ⟨fun hword => ⟨hword.1, hword.2⟩, fun hword => ⟨hword.ne_nil, hword.solid⟩⟩

/-- A text of characters none of which is whitespace. -/
theorem isWord_of_forall {allowed : Char → Prop} {text : Text}
    (hspaces : ∀ d ∈ whitespace, ¬ allowed d) (hne : text ≠ [])
    (htext : ∀ c ∈ text, allowed c) : IsWord text := by
  constructor
  · exact hne
  · intro c hc
    cases hspace : isWhitespace c with
    | false => rfl
    | true =>
        exact absurd (htext c hc)
          (hspaces c (List.contains_iff_mem.mp hspace))

@[simp] theorem words_nil : words [] = [] := rfl

theorem words_append_cons (left right : Text) {c : Char}
    (hc : isWhitespace c = true) :
    words (left ++ c :: right) = words left ++ words right := by
  unfold words
  rw [List.splitOnP_append_cons left right hc, List.filter_append]

theorem words_cons {c : Char} (hc : isWhitespace c = true) (rest : Text) :
    words (c :: rest) = words rest :=
  words_append_cons [] rest hc

theorem words_of_isWord {text : Text} (htext : IsWord text) :
    words text = [text] := by
  unfold words
  rw [List.splitOnP_eq_singleton htext.solid]
  simp [htext.ne_nil]

/-- A word and the words behind it. -/
theorem words_word_append {word : Text} (hword : IsWord word) {c : Char}
    (hc : isWhitespace c = true) (rest : Text) :
    words (word ++ c :: rest) = word :: words rest := by
  rw [words_append_cons word rest hc, words_of_isWord hword]
  rfl

theorem words_append_of_trailing {left : Text} (hlast : left.getLast? = some ' ')
    (right : Text) : words (left ++ right) = words left ++ words right := by
  rcases List.getLast?_eq_some_iff.mp hlast with ⟨front, rfl⟩
  have hspace : isWhitespace ' ' = true := by decide
  rw [List.append_assoc, List.singleton_append,
    words_append_cons front right hspace, words_append_cons front [] hspace,
    words_nil, List.append_nil]

theorem words_unlines (lines : List Text) :
    words (unlines lines) = lines.flatMap words := by
  induction lines with
  | nil => rfl
  | cons line lines ih =>
      rw [unlines_cons, words_append_cons line _ (by decide), ih,
        List.flatMap_cons]

/-! ## Lines with a needle -/

/-- `grep needle` for a needle that is no pattern and not empty. -/
def grep (needle text : Text) : Text :=
  unlines ((text.splitOn '\n').filter (fun line => needle <:+: line))

theorem grep_unlines {needle : Text} (hneedle : needle ≠ [])
    {lines : List Text} (hlines : ∀ line ∈ lines, '\n' ∉ line) :
    grep needle (unlines lines) =
      unlines (lines.filter (fun line => needle <:+: line)) := by
  unfold grep
  rw [splitOn_unlines hlines, List.filter_append]
  simp [hneedle]

/-! ## Numerals -/

/-- Digits with single underscores between them, or nothing. -/
def isDigitGroup (part : Text) : Bool :=
  part.all (fun c => c.isDigit || c = '_') &&
    part.head? ≠ some '_' && part.getLast? ≠ some '_' &&
    ¬ "__".toList <:+: part

def groupValue (part : Text) : ℕ :=
  Nat.ofDigitChars 10 (part.filter (fun c => c ≠ '_')) 0

def groupLength (part : Text) : ℕ :=
  (part.filter (fun c => c ≠ '_')).length

def splitSign : Text → ℤ × Text
  | '-' :: rest => (-1, rest)
  | '+' :: rest => (1, rest)
  | rest => (1, rest)

/-- What stands from the letter of the exponent on. -/
def exponent? : Text → Option ℤ
  | [] => some 0
  | _ :: rest =>
      let (sign, part) := splitSign rest
      if part ≠ [] ∧ isDigitGroup part = true then
        some (sign * groupValue part)
      else none

/-- The value of a numeral with sign, fraction and exponent. -/
def decimal? (word : Text) : Option ℚ :=
  let (sign, rest) := splitSign word
  let (mantissa, power) := rest.span (fun c => c ≠ 'e' ∧ c ≠ 'E')
  let (whole, point) := mantissa.span (fun c => c ≠ '.')
  let fraction := point.drop 1
  if isDigitGroup whole = true ∧ isDigitGroup fraction = true ∧
      (whole ≠ [] ∨ fraction ≠ []) then
    (exponent? power).map (fun exponent =>
      sign * (groupValue whole + groupValue fraction / 10 ^ groupLength fraction)
        * (10 : ℚ) ^ exponent)
  else none

example : decimal? "-1_0.25e+2".toList = some (-1025) := by decide +kernel

example : decimal? "1.2.3".toList = none := by decide

def isNumeralChar (c : Char) : Bool :=
  c.isDigit || "+-._eE".toList.contains c

theorem isNumeralChar_of_digitGroup {part : Text}
    (hpart : isDigitGroup part = true) {c : Char} (hc : c ∈ part) :
    isNumeralChar c = true := by
  simp only [isDigitGroup, Bool.and_eq_true, List.all_eq_true] at hpart
  have hchar := hpart.1.1.1 c hc
  rw [Bool.or_eq_true, decide_eq_true_eq] at hchar
  cases hchar with
  | inl hdigit => simp [isNumeralChar, hdigit]
  | inr hunderscore =>
      rw [hunderscore]
      decide

theorem mem_splitSign {text : Text} {c : Char} (hc : c ∈ text) :
    isNumeralChar c = true ∨ c ∈ (splitSign text).2 := by
  unfold splitSign
  split
  · rcases List.mem_cons.mp hc with hsign | hrest
    · left
      rw [hsign]
      decide
    · exact Or.inr hrest
  · rcases List.mem_cons.mp hc with hsign | hrest
    · left
      rw [hsign]
      decide
    · exact Or.inr hrest
  · exact Or.inr hc

theorem isNumeralChar_of_exponent? {power : Text} {value : ℤ}
    (hvalue : exponent? power = some value)
    (hhead : ∀ c ∈ power.head?, isNumeralChar c = true) {c : Char}
    (hc : c ∈ power) : isNumeralChar c = true := by
  cases power with
  | nil => exact absurd hc List.not_mem_nil
  | cons letter rest =>
      rcases List.mem_cons.mp hc with hletter | hrest
      · rw [hletter]
        exact hhead letter rfl
      · simp only [exponent?] at hvalue
        split at hvalue
        · rename_i hpart
          rcases mem_splitSign hrest with hsign | hmem
          · exact hsign
          · exact isNumeralChar_of_digitGroup hpart.2 hmem
        · contradiction

/-- What a scan stops at fails its test. -/
theorem of_head?_dropWhile {p : Char → Bool} {text : Text} {c : Char}
    (hc : c ∈ (text.dropWhile p).head?) : p c = false := by
  have hstop := List.head?_dropWhile_not p text
  rw [Option.mem_def.mp hc] at hstop
  exact hstop

theorem mem_takeWhile_or_dropWhile (p : Char → Bool) {text : Text} {c : Char}
    (hc : c ∈ text) : c ∈ text.takeWhile p ∨ c ∈ text.dropWhile p := by
  rw [← List.mem_append, List.takeWhile_append_dropWhile]
  exact hc

theorem isNumeralChar_of_decimal? {word : Text} {value : ℚ}
    (hvalue : decimal? word = some value) {c : Char} (hc : c ∈ word) :
    isNumeralChar c = true := by
  rcases mem_splitSign hc with hsign | hrest
  · exact hsign
  unfold decimal? at hvalue
  simp only [List.span_eq_takeWhile_dropWhile] at hvalue
  generalize (splitSign word).2 = rest at hvalue hrest
  split at hvalue
  case isFalse => contradiction
  case isTrue hgroups =>
    rcases Option.map_eq_some_iff.mp hvalue with ⟨exponent, hexponent, _⟩
    cases mem_takeWhile_or_dropWhile
        (fun c => decide (c ≠ 'e' ∧ c ≠ 'E')) hrest with
    | inr hpower =>
        apply isNumeralChar_of_exponent? hexponent _ hpower
        intro letter hletter
        have hstop := of_head?_dropWhile hletter
        simp only [decide_eq_false_iff_not, not_and_or, not_not] at hstop
        cases hstop with
        | inl hlower => rw [hlower]; decide
        | inr hupper => rw [hupper]; decide
    | inl hmantissa =>
        generalize rest.takeWhile (fun c => decide (c ≠ 'e' ∧ c ≠ 'E')) =
          mantissa at hgroups hmantissa
        cases mem_takeWhile_or_dropWhile (fun c => decide (c ≠ '.'))
            hmantissa with
        | inl hwhole => exact isNumeralChar_of_digitGroup hgroups.1 hwhole
        | inr hpoint =>
            cases hparts : mantissa.dropWhile (fun c => decide (c ≠ '.')) with
            | nil =>
                rw [hparts] at hpoint
                exact absurd hpoint List.not_mem_nil
            | cons dot fraction =>
                have hdot : dot = '.' := by
                  have hstop := of_head?_dropWhile
                    (by rw [hparts]; exact rfl : dot ∈
                      (mantissa.dropWhile (fun c => decide (c ≠ '.'))).head?)
                  simpa using hstop
                rw [hparts] at hpoint hgroups
                rcases List.mem_cons.mp hpoint with hfirst | hfraction
                · rw [hfirst, hdot]
                  decide
                · exact isNumeralChar_of_digitGroup hgroups.2.1 hfraction

theorem decimal?_eq_none {word : Text} {c : Char} (hc : c ∈ word)
    (hnumeral : isNumeralChar c = false) : decimal? word = none := by
  cases hvalue : decimal? word with
  | none => rfl
  | some value =>
      rw [isNumeralChar_of_decimal? hvalue hc] at hnumeral
      contradiction

/-! ## Plain decimals -/

theorem isDigitGroup_of_digits {part : Text}
    (hpart : ∀ c ∈ part, c.isDigit = true) : isDigitGroup part = true := by
  have hunderscore : '_' ∉ part := by
    intro hmem
    exact absurd (hpart '_' hmem) (by decide)
  simp only [isDigitGroup, Bool.and_eq_true, List.all_eq_true,
    decide_eq_true_eq, Bool.or_eq_true]
  refine ⟨⟨⟨fun c hc => Or.inl (hpart c hc), ?_⟩, ?_⟩, ?_⟩
  · intro hhead
    exact hunderscore (List.mem_of_head? hhead)
  · intro hlast
    exact hunderscore (List.mem_of_getLast? hlast)
  · intro htwice
    exact hunderscore (htwice.subset (by decide))

theorem filter_underscore {part : Text}
    (hpart : ∀ c ∈ part, c.isDigit = true) :
    part.filter (fun c => c ≠ '_') = part := by
  apply List.filter_eq_self.mpr
  intro c hc
  apply decide_eq_true
  intro hunderscore
  have hdigit := hpart c hc
  rw [hunderscore] at hdigit
  exact absurd hdigit (by decide)

theorem span_of_stop {p : Char → Bool} {first : Text}
    (hfirst : ∀ c ∈ first, p c = true) {rest : Text}
    (hrest : ∀ c ∈ rest.head?, p c = false) :
    (first ++ rest).span p = (first, rest) := by
  rw [List.span_eq_takeWhile_dropWhile]
  cases rest with
  | nil =>
      have htake : first.takeWhile p = first :=
        List.takeWhile_eq_self_iff.mpr hfirst
      rw [List.append_nil, htake, List.dropWhile_eq_nil_iff.mpr hfirst]
  | cons c rest =>
      have hc := hrest c rfl
      rw [List.takeWhile_append_of_pos hfirst, List.dropWhile_append_of_pos
        hfirst, List.takeWhile_cons_of_neg (by simp [hc]),
        List.dropWhile_cons_of_neg (by simp [hc]), List.append_nil]

theorem splitSign_of_digit {c : Char} (hc : c.isDigit = true) (rest : Text) :
    splitSign (c :: rest) = (1, c :: rest) := by
  unfold splitSign
  split
  · rename_i heq
    rw [(List.cons.inj heq).1] at hc
    contradiction
  · rename_i heq
    rw [(List.cons.inj heq).1] at hc
    contradiction
  · rfl

/-- Digits, and perhaps a point and further digits, have the value they
show. -/
theorem decimal?_of_digits {whole fraction tail : Text} (hne : whole ≠ [])
    (hwhole : ∀ c ∈ whole, c.isDigit = true)
    (hfraction : ∀ c ∈ fraction, c.isDigit = true)
    (htail : tail = if fraction = [] then [] else '.' :: fraction) :
    decimal? (whole ++ tail) =
      some ((Nat.ofDigitChars 10 whole 0 : ℚ) +
        (Nat.ofDigitChars 10 fraction 0 : ℚ) / 10 ^ fraction.length) := by
  have hother : ∀ (d : Char), d.isDigit = false → ∀ c ∈ whole, c ≠ d := by
    intro d hd c hc heq
    have hdigit := hwhole c hc
    rw [heq, hd] at hdigit
    contradiction
  have hsign : splitSign (whole ++ tail) = (1, whole ++ tail) := by
    cases whole with
    | nil => contradiction
    | cons c whole =>
        exact splitSign_of_digit (hwhole c List.mem_cons_self) (whole ++ tail)
  have htailChar : ∀ c ∈ tail, c = '.' ∨ c.isDigit = true := by
    intro c hc
    rw [htail] at hc
    split at hc
    · exact absurd hc List.not_mem_nil
    · cases List.mem_cons.mp hc with
      | inl hdot => exact Or.inl hdot
      | inr hmem => exact Or.inr (hfraction c hmem)
  have hpower : (whole ++ tail).span (fun c => c ≠ 'e' ∧ c ≠ 'E') =
      (whole ++ tail, []) := by
    have hnone : ∀ c ∈ whole ++ tail,
        decide (c ≠ 'e' ∧ c ≠ 'E') = true := by
      intro c hc
      apply decide_eq_true
      have hchar : c = '.' ∨ c.isDigit = true := by
        cases List.mem_append.mp hc with
        | inl hmem => exact Or.inr (hwhole c hmem)
        | inr hmem => exact htailChar c hmem
      constructor
      · intro heq
        rw [heq] at hchar
        exact absurd hchar (by decide)
      · intro heq
        rw [heq] at hchar
        exact absurd hchar (by decide)
    have hspan := @span_of_stop _ _ hnone [] (by simp)
    rw [List.append_nil] at hspan
    exact hspan
  have hmantissa : (whole ++ tail).span (fun c => c ≠ '.') =
      (whole, tail) := by
    apply span_of_stop
    · intro c hc
      exact decide_eq_true (hother '.' (by decide) c hc)
    · intro c hc
      rw [htail] at hc
      split at hc
      · contradiction
      · rw [← Option.some.inj hc]
        decide
  have hdrop : tail.drop 1 = fraction := by
    rw [htail]
    split
    · rename_i hempty
      rw [hempty]
      rfl
    · rfl
  have hgroups : isDigitGroup whole = true ∧ isDigitGroup fraction = true ∧
      (whole ≠ [] ∨ fraction ≠ []) :=
    ⟨isDigitGroup_of_digits hwhole, isDigitGroup_of_digits hfraction,
      Or.inl hne⟩
  unfold decimal?
  simp only [hsign, hpower, hmantissa, hdrop, if_pos hgroups, exponent?,
    Option.map_some, groupValue, groupLength, filter_underscore hwhole,
    filter_underscore hfraction, Int.cast_one, one_mul, zpow_zero, mul_one]

end TextWords
