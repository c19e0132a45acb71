import SecaasCharms.TextLines

/-!
# The lines a program gets when it iterates over a file

A file that is read line by line has one line boundary, `\n`, and every line
but the last one ends with it.  `LinesOf` describes such lists of lines; a
program that turns one such list into another and writes it back can be
studied on the lists alone.
-/

namespace FileLines

open TextLines

def readLines : Text → List Text
  | [] => []
  | c :: rest =>
      if c = '\n' then ['\n'] :: readLines rest
      else
        match readLines rest with
        | [] => [[c]]
        | line :: lines => (c :: line) :: lines

def Terminated (line : Text) : Prop :=
  ∃ body, '\n' ∉ body ∧ line = body ++ ['\n']

/-- Every line is terminated, and the last one may lack its `\n`. -/
def LinesOf : List Text → Prop
  | [] => True
  | line :: rest =>
      (Terminated line ∧ LinesOf rest) ∨
        (rest = [] ∧ line ≠ [] ∧ '\n' ∉ line)

theorem readLines_newline (rest : Text) :
    readLines ('\n' :: rest) = ['\n'] :: readLines rest := rfl

theorem readLines_cons_of_ne {c : Char} (hc : c ≠ '\n') (rest : Text) :
    readLines (c :: rest) =
      match readLines rest with
      | [] => [[c]]
      | line :: lines => (c :: line) :: lines := by
  rw [readLines, if_neg hc]

theorem flatten_readLines (text : Text) :
    (readLines text).flatten = text := by
  induction text with
  | nil => rfl
  | cons c rest ih =>
      by_cases hc : c = '\n'
      · rw [hc, readLines_newline, List.flatten_cons, ih]
        rfl
      · rw [readLines_cons_of_ne hc]
        cases hlines : readLines rest with
        | nil =>
            rw [hlines] at ih
            rw [← ih]
            rfl
        | cons line lines =>
            rw [hlines] at ih
            rw [← ih]
            rfl

theorem linesOf_readLines (text : Text) : LinesOf (readLines text) := by
  induction text with
  | nil => trivial
  | cons c rest ih =>
      by_cases hc : c = '\n'
      · rw [hc, readLines_newline]
        exact Or.inl ⟨⟨[], List.not_mem_nil, rfl⟩, ih⟩
      · have hnot : ∀ line : Text, '\n' ∉ line → '\n' ∉ c :: line := by
          intro line hline
          rw [List.mem_cons, not_or]
          exact ⟨fun h => hc h.symm, hline⟩
        rw [readLines_cons_of_ne hc]
        cases hlines : readLines rest with
        | nil => exact Or.inr ⟨rfl, by simp, hnot [] List.not_mem_nil⟩
        | cons line lines =>
            rw [hlines] at ih
            cases ih with
            | inl hterminated =>
                obtain ⟨⟨body, hbody, hline⟩, hrest⟩ := hterminated
                refine Or.inl ⟨⟨c :: body, hnot body hbody, ?_⟩, hrest⟩
                rw [hline, List.cons_append]
            | inr hlast =>
                exact Or.inr ⟨hlast.1, by simp, hnot line hlast.2.2⟩

theorem readLines_append {line : Text} (hline : Terminated line)
    (rest : Text) : readLines (line ++ rest) = line :: readLines rest := by
  obtain ⟨body, hbody, rfl⟩ := hline
  induction body with
  | nil => exact readLines_newline rest
  | cons c body ih =>
      rw [List.mem_cons, not_or] at hbody
      have hc : c ≠ '\n' := fun h => hbody.1 h.symm
      rw [List.cons_append, List.cons_append, readLines_cons_of_ne hc,
        ih hbody.2]

theorem readLines_of_newline_not_mem {line : Text} (hne : line ≠ [])
    (hline : '\n' ∉ line) : readLines line = [line] := by
  induction line with
  | nil => contradiction
  | cons c rest ih =>
      rw [List.mem_cons, not_or] at hline
      have hc : c ≠ '\n' := fun h => hline.1 h.symm
      rw [readLines_cons_of_ne hc]
      cases rest with
      | nil => rfl
      | cons d rest => rw [ih (by simp) hline.2]

/-- Lines that are written are the lines that are read. -/
theorem readLines_flatten {lines : List Text} (hlines : LinesOf lines) :
    readLines lines.flatten = lines := by
  induction lines with
  | nil => rfl
  | cons line rest ih =>
      rw [List.flatten_cons]
      cases hlines with
      | inl hterminated =>
          rw [readLines_append hterminated.1, ih hterminated.2]
      | inr hlast =>
          rw [hlast.1, List.flatten_nil, List.append_nil]
          exact readLines_of_newline_not_mem hlast.2.1 hlast.2.2

theorem readLines_append_lines {header : List Text}
    (hheader : ∀ line ∈ header, Terminated line) (rest : Text) :
    readLines (header.flatten ++ rest) = header ++ readLines rest := by
  induction header with
  | nil => rfl
  | cons line header ih =>
      rw [List.flatten_cons, List.append_assoc,
        readLines_append (hheader line (by simp)),
        ih (fun other hother => hheader other (by simp [hother]))]
      rfl

end FileLines
