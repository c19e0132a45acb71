import Mathlib.Tactic

/-!
# Texts, their lines, and what a line-oriented program sees of them

A text is a list of characters.  Three readings of it occur in scripts that
exchange text with other programs: the lines of `str.splitlines`, whose
boundaries are ten different characters, the universal-newline reading of a
file, and the `\n`-separated lines of a filter such as `grep -o`.  The lemmas
say when these readings undo the writing of a list of lines.
-/

namespace TextLines

abbrev Text := List Char

/-- Deciding by the characters of the text, not by all characters. -/
instance (priority := high) decidableForallMemText (p : Char → Prop)
    [DecidablePred p] (text : Text) : Decidable (∀ c ∈ text, p c) :=
  List.decidableBAll p text

/-- A text all of whose characters pass a test. -/
structure Token (allowed : Char → Bool) where
  text : Text
  all_allowed : text.all allowed = true
  deriving DecidableEq

def Token.ofText? (allowed : Char → Bool) (text : Text) :
    Option (Token allowed) :=
  if h : text.all allowed = true then some ⟨text, h⟩ else none

theorem Token.ext_text {allowed : Char → Bool} {left right : Token allowed}
    (htext : left.text = right.text) : left = right := by
  cases left
  cases right
  simpa using htext

theorem Token.ofText?_eq_some {allowed : Char → Bool} {text : Text}
    {token : Token allowed} :
    Token.ofText? allowed text = some token ↔ token.text = text := by
  unfold Token.ofText?
  constructor
  · intro h
    split at h
    · simp only [Option.some.injEq] at h
      rw [← h]
    · contradiction
  · rintro rfl
    simp [token.all_allowed]

theorem Token.not_mem {allowed : Char → Bool} (token : Token allowed)
    {c : Char} (hc : allowed c = false) : c ∉ token.text := by
  intro hmem
  have hall := List.all_eq_true.mp token.all_allowed c hmem
  rw [hc] at hall
  contradiction

/-! ## Line boundaries -/

/-- The characters at which `str.splitlines` ends a line. -/
def lineBoundaries : List Char :=
  ['\n', '\r', '\x0b', '\x0c', '\x1c', '\x1d', '\x1e',
    '\u0085', '\u2028', '\u2029']

def isLineBoundary (c : Char) : Bool :=
  c ∈ lineBoundaries

theorem isLineBoundary_eq_false_of {allowed : Char → Bool}
    (hallowed : ∀ c ∈ lineBoundaries, allowed c = false) {c : Char}
    (hc : allowed c = true) : isLineBoundary c = false := by
  by_contra hboundary
  rw [Bool.not_eq_false] at hboundary
  have hfalse := hallowed c (of_decide_eq_true hboundary)
  rw [hc] at hfalse
  contradiction

def Unbroken (text : Text) : Prop :=
  ∀ c ∈ text, isLineBoundary c = false

instance (text : Text) : Decidable (Unbroken text) :=
  inferInstanceAs (Decidable (∀ c ∈ text, isLineBoundary c = false))

@[simp] theorem unbroken_cons (c : Char) (text : Text) :
    Unbroken (c :: text) ↔ isLineBoundary c = false ∧ Unbroken text := by
  simp [Unbroken]

@[simp] theorem unbroken_append (left right : Text) :
    Unbroken (left ++ right) ↔ Unbroken left ∧ Unbroken right := by
  simp only [Unbroken, List.mem_append, or_imp, forall_and]

theorem Unbroken.newline_not_mem {text : Text} (htext : Unbroken text) :
    '\n' ∉ text := by
  intro hmem
  have hboundary := htext '\n' hmem
  revert hboundary
  decide

theorem Unbroken.return_not_mem {text : Text} (htext : Unbroken text) :
    '\r' ∉ text := by
  intro hmem
  have hboundary := htext '\r' hmem
  revert hboundary
  decide

theorem Token.unbroken {allowed : Char → Bool} (token : Token allowed)
    (hallowed : ∀ c ∈ lineBoundaries, allowed c = false) :
    Unbroken token.text := by
  intro c hmem
  exact isLineBoundary_eq_false_of hallowed
    (List.all_eq_true.mp token.all_allowed c hmem)

/-- `str.splitlines(True)`: every line keeps its boundary. -/
def splitlinesKeep : Text → List Text
  | [] => []
  | '\r' :: '\n' :: rest => ['\r', '\n'] :: splitlinesKeep rest
  | c :: rest =>
      if isLineBoundary c then
        [c] :: splitlinesKeep rest
      else
        match splitlinesKeep rest with
        | [] => [[c]]
        | line :: lines => (c :: line) :: lines

/-- `str.splitlines()`: the lines without their boundaries. -/
def splitlines (text : Text) : List Text :=
  (splitlinesKeep text).map
    (fun line => line.takeWhile (fun c => !isLineBoundary c))

/-- Every line followed by one `\n`. -/
def unlines (lines : List Text) : Text :=
  lines.flatMap (fun line => line ++ ['\n'])

@[simp] theorem unlines_nil : unlines [] = [] := rfl

@[simp] theorem unlines_cons (line : Text) (lines : List Text) :
    unlines (line :: lines) = line ++ '\n' :: unlines lines := by
  simp [unlines]

theorem splitlinesKeep_cons_of_not_boundary {c : Char} (rest : Text)
    (hc : isLineBoundary c = false) :
    splitlinesKeep (c :: rest) =
      match splitlinesKeep rest with
      | [] => [[c]]
      | line :: lines => (c :: line) :: lines := by
  have hreturn : c ≠ '\r' := by
    rintro rfl
    revert hc
    decide
  rw [splitlinesKeep.eq_3 _ _ (by intro _ h; exact absurd h hreturn)]
  simp [hc]

theorem splitlinesKeep_newline (rest : Text) :
    splitlinesKeep ('\n' :: rest) = ['\n'] :: splitlinesKeep rest := by
  rw [splitlinesKeep.eq_3 _ _ (by intro _ h; exact absurd h (by decide))]
  rfl

theorem flatten_splitlinesKeep (text : Text) :
    (splitlinesKeep text).flatten = text := by
  fun_induction splitlinesKeep text with
  | case1 => rfl
  | case2 rest ih => simp [ih]
  | case3 c rest _ hc ih => simp [ih]
  | case4 c rest _ hc hnil ih =>
      rw [hnil] at ih
      simpa using ih
  | case5 c rest _ hc line lines hcons ih =>
      rw [hcons] at ih
      simpa using ih

theorem splitlinesKeep_eq_nil_iff {text : Text} :
    splitlinesKeep text = [] ↔ text = [] := by
  constructor
  · intro hnil
    rw [← flatten_splitlinesKeep text, hnil]
    rfl
  · rintro rfl
    rfl

theorem splitlinesKeep_cons_append_newline {c : Char} {left rest : Text}
    (hc : isLineBoundary c = false)
    (hleft : splitlinesKeep (left ++ '\n' :: rest) =
      splitlinesKeep (left ++ ['\n']) ++ splitlinesKeep rest) :
    splitlinesKeep (c :: left ++ '\n' :: rest) =
      splitlinesKeep (c :: left ++ ['\n']) ++ splitlinesKeep rest := by
  rw [List.cons_append, List.cons_append,
    splitlinesKeep_cons_of_not_boundary _ hc,
    splitlinesKeep_cons_of_not_boundary _ hc, hleft]
  cases hlines : splitlinesKeep (left ++ ['\n']) with
  | nil =>
      rw [splitlinesKeep_eq_nil_iff] at hlines
      simp at hlines
  | cons first others => rfl

theorem nil_not_mem_splitlinesKeep (text : Text) :
    [] ∉ splitlinesKeep text := by
  fun_induction splitlinesKeep text with
  | case1 => simp
  | case2 rest ih => simpa using ih
  | case3 c rest _ hc ih => simpa using ih
  | case4 c rest _ hc hnil ih => simp
  | case5 c rest _ hc line lines hcons ih =>
      rw [hcons] at ih
      simp only [List.mem_cons, not_or] at ih ⊢
      exact ⟨by simp, ih.2⟩

theorem splitlinesKeep_append_newline (left rest : Text) :
    splitlinesKeep (left ++ '\n' :: rest) =
      splitlinesKeep (left ++ ['\n']) ++ splitlinesKeep rest := by
  induction left using splitlinesKeep.induct with
  | case1 => 
      rw [List.nil_append, splitlinesKeep_newline]
      rfl
  | case2 left ih =>
      simp only [List.cons_append, splitlinesKeep]
      rw [ih]
  | case3 c left hnot hc ih =>
      by_cases hreturn : c = '\r' ∧ left = []
      · rw [hreturn.1, hreturn.2]
        rfl
      · have hstart : ∀ (tail more : Text), c = '\r' →
            left ++ '\n' :: more = '\n' :: tail → False := by
          intro tail more hc' heq
          cases left with
          | nil => exact hreturn ⟨hc', rfl⟩
          | cons d left =>
              rw [List.cons_append, List.cons.injEq] at heq
              exact hnot left hc' (by rw [heq.1])
        rw [List.cons_append, List.cons_append,
          splitlinesKeep.eq_3 _ _ (fun tail => hstart tail rest),
          splitlinesKeep.eq_3 _ _ (fun tail => hstart tail []),
          if_pos hc, if_pos hc, ih, List.cons_append]
  | case4 c left hnot hc hnil ih =>
      exact splitlinesKeep_cons_append_newline (by simpa using hc) ih
  | case5 c left hnot hc first others hcons ih =>
      exact splitlinesKeep_cons_append_newline (by simpa using hc) ih

theorem splitlinesKeep_line {line : Text} (hline : Unbroken line)
    (rest : Text) :
    splitlinesKeep (line ++ '\n' :: rest) =
      (line ++ ['\n']) :: splitlinesKeep rest := by
  induction line with
  | nil => exact splitlinesKeep_newline rest
  | cons c line ih =>
      rw [unbroken_cons] at hline
      rw [List.cons_append,
        splitlinesKeep_cons_of_not_boundary _ hline.1, ih hline.2]
      rfl

theorem splitlinesKeep_lastLine {line : Text} (hline : Unbroken line)
    (hne : line ≠ []) : splitlinesKeep line = [line] := by
  induction line with
  | nil => contradiction
  | cons c line ih =>
      rw [unbroken_cons] at hline
      rw [splitlinesKeep_cons_of_not_boundary _ hline.1]
      cases line with
      | nil => rfl
      | cons d line => rw [ih hline.2 (by simp)]

theorem takeWhile_line {line : Text} (hline : Unbroken line) :
    (line ++ ['\n']).takeWhile (fun c => !isLineBoundary c) = line := by
  rw [List.takeWhile_append_of_pos]
  · rw [List.takeWhile_cons_of_neg (by decide)]
    simp
  · intro c hmem
    simp [hline c hmem]

theorem splitlines_unlines {lines : List Text}
    (hlines : ∀ line ∈ lines, Unbroken line) :
    splitlines (unlines lines) = lines := by
  induction lines with
  | nil => rfl
  | cons line lines ih =>
      have hhead := hlines line (by simp)
      have htail := ih (fun other hmem => hlines other (by simp [hmem]))
      unfold splitlines at htail ⊢
      rw [unlines_cons, splitlinesKeep_line hhead, List.map_cons,
        takeWhile_line hhead, htail]

/-! ## Universal newlines -/

/-- Reading a file in text mode turns `\r\n` and a lone `\r` into `\n`. -/
def universalNewlines : Text → Text
  | [] => []
  | '\r' :: '\n' :: rest => '\n' :: universalNewlines rest
  | '\r' :: rest => '\n' :: universalNewlines rest
  | c :: rest => c :: universalNewlines rest

theorem universalNewlines_cons_of_ne {c : Char} (hc : c ≠ '\r')
    (rest : Text) :
    universalNewlines (c :: rest) = c :: universalNewlines rest := by
  rw [universalNewlines.eq_4]
  · intro _ h
    exact absurd h hc
  · intro h
    exact absurd h hc

theorem universalNewlines_of_return_not_mem {text : Text}
    (htext : '\r' ∉ text) : universalNewlines text = text := by
  induction text with
  | nil => rfl
  | cons c rest ih =>
      rw [List.mem_cons, not_or] at htext
      rw [universalNewlines_cons_of_ne (fun h => htext.1 h.symm),
        ih htext.2]

theorem universalNewlines_append {left : Text} (hleft : '\r' ∉ left)
    (right : Text) :
    universalNewlines (left ++ right) = left ++ universalNewlines right := by
  induction left with
  | nil => rfl
  | cons c left ih =>
      rw [List.mem_cons, not_or] at hleft
      rw [List.cons_append,
        universalNewlines_cons_of_ne (fun h => hleft.1 h.symm), ih hleft.2]
      rfl

theorem return_not_mem_universalNewlines (text : Text) :
    '\r' ∉ universalNewlines text := by
  fun_induction universalNewlines text with
  | case1 => simp
  | case2 rest ih => simpa using ih
  | case3 rest _ ih => simpa using ih
  | case4 c rest _ hc ih =>
      simp only [List.mem_cons, not_or]
      exact ⟨fun h => hc h.symm, ih⟩

@[simp] theorem universalNewlines_idem (text : Text) :
    universalNewlines (universalNewlines text) = universalNewlines text :=
  universalNewlines_of_return_not_mem
    (return_not_mem_universalNewlines text)

theorem universalNewlines_append_newline (left : Text) :
    ∃ body, ∀ rest, universalNewlines (left ++ '\n' :: rest) =
      body ++ '\n' :: universalNewlines rest := by
  induction left using universalNewlines.induct with
  | case1 => exact ⟨[], fun rest => rfl⟩
  | case2 left ih =>
      obtain ⟨body, hbody⟩ := ih
      refine ⟨'\n' :: body, ?_⟩
      intro rest
      rw [List.cons_append, List.cons_append, universalNewlines, hbody]
      rfl
  | case3 left hnot ih =>
      cases left with
      | nil => exact ⟨[], fun rest => rfl⟩
      | cons c left =>
          obtain ⟨body, hbody⟩ := ih
          refine ⟨'\n' :: body, ?_⟩
          intro rest
          have hstart : ∀ tail : Text,
              c :: left ++ '\n' :: rest = '\n' :: tail → False := by
            intro tail heq
            rw [List.cons_append, List.cons.injEq] at heq
            exact hnot left (by rw [heq.1])
          rw [List.cons_append, universalNewlines.eq_3 _ hstart, hbody]
          rfl
  | case4 c left hnot hc ih =>
      obtain ⟨body, hbody⟩ := ih
      refine ⟨c :: body, ?_⟩
      intro rest
      have hreturn : c ≠ '\r' := hc
      rw [List.cons_append, universalNewlines_cons_of_ne hreturn, hbody]
      rfl

/-! ## Occurrences -/

/-- An occurrence cannot straddle a character it does not contain. -/
theorem infix_append_cons_iff {needle left right : Text} {c : Char}
    (hc : c ∉ needle) :
    needle <:+: left ++ c :: right ↔ needle <:+: left ∨ needle <:+: right := by
  constructor
  · rintro ⟨before, after, heq⟩
    rw [List.append_assoc] at heq
    rcases List.append_eq_append_iff.mp heq with
      ⟨middle, hleft, hrest⟩ | ⟨middle, hbefore, hrest⟩
    · rcases List.append_eq_append_iff.mp hrest with
        ⟨tail, hmiddle, _⟩ | ⟨tail, hneedle, htail⟩
      · exact Or.inl ⟨before, tail, by rw [hleft, hmiddle]; simp⟩
      · cases tail with
        | nil =>
            rw [List.append_nil] at hneedle
            exact Or.inl ⟨before, [], by rw [hleft, hneedle]; simp⟩
        | cons d tail =>
            have hd : d = c := by simp_all
            exact absurd (by simp [hneedle, hd]) hc
    · cases middle with
      | nil =>
          cases needle with
          | nil => exact Or.inl (List.nil_infix)
          | cons d needle =>
              have hd : d = c := by simp_all
              exact absurd (by simp [hd]) hc
      | cons d middle =>
          simp only [List.cons_append, List.cons.injEq] at hrest
          exact Or.inr ⟨middle, after, by rw [hrest.2]; simp⟩
  · rintro (hleft | hright)
    · exact List.infix_append_of_infix_left hleft
    · exact List.infix_append_of_infix_right (List.infix_cons hright)

/-- A text without `\n` occurs in written lines only inside one of them. -/
theorem infix_unlines_iff {needle : Text} (hne : needle ≠ [])
    (hneedle : '\n' ∉ needle) (lines : List Text) :
    needle <:+: unlines lines ↔ ∃ line ∈ lines, needle <:+: line := by
  induction lines with
  | nil => simp [hne]
  | cons line lines ih =>
      rw [unlines_cons, infix_append_cons_iff hneedle, ih]
      simp

/-! ## A line filter -/

/-- Whether a text begins with a pattern; `none` stands for any
character. -/
def startsWithPattern : List (Option Char) → Text → Bool
  | [], _ => true
  | _ :: _, [] => false
  | none :: pattern, _ :: text => startsWithPattern pattern text
  | some c :: pattern, d :: text =>
      c == d && startsWithPattern pattern text

/-- What `grep -o` prints of a line for a pattern that ends in `.*`: the line
from the leftmost match on. -/
def grepLine (pattern : List (Option Char)) (line : Text) : Option Text :=
  line.tails.find? (startsWithPattern pattern)

def grepOnly (pattern : List (Option Char)) (text : Text) : Text :=
  unlines ((text.splitOn '\n').filterMap (grepLine pattern))

theorem grepLine_suffix {pattern : List (Option Char)} {line found : Text}
    (hfound : grepLine pattern line = some found) : found <:+ line :=
  (List.mem_tails found line).mp (List.mem_of_find?_eq_some hfound)

theorem splitOn_append_cons {separator : Char} {part : Text}
    (hpart : separator ∉ part) (rest : Text) :
    (part ++ separator :: rest).splitOn separator =
      part :: rest.splitOn separator := by
  have hne : ∀ c ∈ part, (c == separator) = false := by
    intro c hc
    apply beq_false_of_ne
    intro heq
    exact hpart (heq ▸ hc)
  rw [List.splitOn_eq_splitOnP, List.splitOn_eq_splitOnP]
  exact List.splitOnP_append_cons_of_forall_mem hne separator
    (beq_self_eq_true separator) rest

theorem splitOn_terminated {separator : Char} {parts : List Text}
    (hparts : ∀ part ∈ parts, separator ∉ part) {last : Text}
    (hlast : separator ∉ last) :
    (parts.flatMap (fun part => part ++ [separator]) ++ last).splitOn
        separator = parts ++ [last] := by
  have hjoin : parts.flatMap (fun part => part ++ [separator]) ++ last =
      [separator].intercalate (parts ++ [last]) := by
    induction parts with
    | nil => simp [List.intercalate]
    | cons part parts ih =>
        rw [List.flatMap_cons, List.append_assoc, List.append_assoc,
          ih (fun other hmem => hparts other (by simp [hmem]))]
        cases parts <;> simp [List.intercalate]
  rw [hjoin, List.splitOn_intercalate]
  · intro part hmem
    rw [List.mem_append, List.mem_singleton] at hmem
    rcases hmem with hmem | rfl
    · exact hparts part hmem
    · exact hlast
  · simp

theorem splitOn_unlines {lines : List Text}
    (hlines : ∀ line ∈ lines, '\n' ∉ line) :
    (unlines lines).splitOn '\n' = lines ++ [[]] := by
  have hsplit := splitOn_terminated hlines (List.not_mem_nil (a := '\n'))
  rw [List.append_nil] at hsplit
  exact hsplit

theorem mem_intercalate {c : Char} {separator : Text} {texts : List Text}
    (hc : c ∈ separator.intercalate texts) :
    c ∈ separator ∨ ∃ text ∈ texts, c ∈ text := by
  induction texts with
  | nil => simp [List.intercalate] at hc
  | cons text texts ih =>
      cases texts with
      | nil => exact Or.inr ⟨text, by simp, by simpa [List.intercalate] using hc⟩
      | cons next texts =>
          have hsplit :
              separator.intercalate (text :: next :: texts) =
                text ++ (separator ++
                  separator.intercalate (next :: texts)) := by
            simp [List.intercalate]
          rw [hsplit, List.mem_append, List.mem_append] at hc
          rcases hc with htext | hseparator | hrest
          · exact Or.inr ⟨text, by simp, htext⟩
          · exact Or.inl hseparator
          · rcases ih hrest with hseparator | ⟨other, hother, hmem⟩
            · exact Or.inl hseparator
            · exact Or.inr ⟨other, by simp [hother], hmem⟩

theorem subset_intercalate (separator : Text) {parts : List Text}
    {part : Text} (hpart : part ∈ parts) :
    part ⊆ separator.intercalate parts := by
  induction parts with
  | nil => exact absurd hpart List.not_mem_nil
  | cons first parts ih =>
      cases parts with
      | nil =>
          rw [List.mem_singleton] at hpart
          simp [hpart, List.intercalate]
      | cons second parts =>
          have hsplit : separator.intercalate (first :: second :: parts) =
              first ++ (separator ++
                separator.intercalate (second :: parts)) := by
            simp [List.intercalate]
          rw [hsplit]
          cases List.mem_cons.mp hpart with
          | inl hfirst =>
              rw [hfirst]
              exact List.subset_append_left _ _
          | inr hrest =>
              intro c hc
              exact List.mem_append_right _
                (List.mem_append_right _ (ih hrest hc))

theorem subset_of_mem_splitOn {separator : Char} {text part : Text}
    (hpart : part ∈ text.splitOn separator) : part ⊆ text := by
  have hsubset := subset_intercalate [separator] hpart
  rw [List.intercalate_splitOn] at hsubset
  exact hsubset

theorem splitOn_of_not_mem {separator : Char} {text : Text}
    (htext : separator ∉ text) : text.splitOn separator = [text] :=
  splitOn_terminated (fun _ hpart => absurd hpart List.not_mem_nil) htext

theorem not_mem_of_mem_splitOn {separator : Char} {text part : Text}
    (hpart : part ∈ text.splitOn separator) : separator ∉ part := by
  induction hlength : text.length using Nat.strong_induction_on
    generalizing text with
  | _ length ih =>
      by_cases hmem : separator ∈ text
      · rcases List.eq_append_cons_of_mem hmem with
          ⟨before, rest, hsplit, hbefore⟩
        rw [hsplit, splitOn_append_cons hbefore, List.mem_cons] at hpart
        cases hpart with
        | inl hfirst =>
            rw [hfirst]
            exact hbefore
        | inr hrest =>
            have hshorter : rest.length < length := by
              rw [← hlength, hsplit, List.length_append, List.length_cons]
              omega
            exact ih rest.length hshorter hrest rfl
      · rw [splitOn_of_not_mem hmem, List.mem_singleton] at hpart
        rw [hpart]
        exact hmem

theorem infix_grepOnly_unlines_iff {pattern : List (Option Char)}
    {needle : Text} (hne : needle ≠ []) (hneedle : '\n' ∉ needle)
    {lines : List Text} (hlines : ∀ line ∈ lines, '\n' ∉ line) :
    needle <:+: grepOnly pattern (unlines lines) ↔
      ∃ line ∈ lines, ∃ found, grepLine pattern line = some found ∧
        needle <:+: found := by
  unfold grepOnly
  rw [splitOn_unlines hlines, infix_unlines_iff hne hneedle]
  constructor
  · rintro ⟨found, hmem, hocc⟩
    obtain ⟨line, hline, hfound⟩ := List.mem_filterMap.mp hmem
    rw [List.mem_append, List.mem_singleton] at hline
    rcases hline with hline | rfl
    · exact ⟨line, hline, found, hfound, hocc⟩
    · have hsuffix := grepLine_suffix hfound
      rw [List.suffix_nil] at hsuffix
      subst found
      exact absurd (List.infix_nil.mp hocc) hne
  · rintro ⟨line, hline, found, hfound, hocc⟩
    exact ⟨found, List.mem_filterMap.mpr ⟨line, by simp [hline], hfound⟩, hocc⟩

/-! ## Tables by name -/

theorem lookup_of_mem {α : Type} {table : List (Text × α)}
    (hdistinct : (table.map Prod.fst).Nodup) {name : Text} {value : α}
    (hmem : (name, value) ∈ table) : table.lookup name = some value := by
  induction table with
  | nil => exact absurd hmem List.not_mem_nil
  | cons first table ih =>
      rw [List.map_cons, List.nodup_cons] at hdistinct
      rcases List.mem_cons.mp hmem with hfirst | hrest
      · rw [← hfirst, List.lookup_cons]
        simp
      · have hother : name ≠ first.1 := by
          intro heq
          apply hdistinct.1
          rw [← heq]
          exact List.mem_map.mpr ⟨(name, value), hrest, rfl⟩
        rw [List.lookup_cons, beq_false_of_ne hother]
        exact ih hdistinct.2 hrest

end TextLines
