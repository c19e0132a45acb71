import Mathlib.Data.List.TakeWhile
import SecaasCharms.TextLines

/-!
# A stack of lines in a text file

The abstract state is a list of pushed entries over a base text; popping
without entries takes the first line of the base.  A file represents a state
when it holds the entries, each with its `\n`, followed by the base.

A script pushes on such a file by writing the entry in front of what it read,
and pops by dropping the first of the lines it read.  Reading translates
newlines and knows ten line boundaries, so the file keeps representing the
stack only under the conditions proved here.
-/

namespace LineStack

open TextLines

/-! ## The abstract stack -/

def headLine (text : Text) : Text :=
  text.takeWhile (fun c => c != '\n') ++
    (text.dropWhile (fun c => c != '\n')).take 1

def afterLine (text : Text) : Text :=
  (text.dropWhile (fun c => c != '\n')).drop 1

structure Stack where
  entries : List Text
  base : Text

namespace Stack

def render (stack : Stack) : Text :=
  unlines stack.entries ++ stack.base

def push (entry : Text) (stack : Stack) : Stack :=
  ⟨entry :: stack.entries, stack.base⟩

def pop (stack : Stack) : Stack :=
  match stack.entries with
  | _ :: entries => ⟨entries, stack.base⟩
  | [] => ⟨[], afterLine stack.base⟩

def top (stack : Stack) : Text :=
  match stack.entries with
  | entry :: _ => entry ++ ['\n']
  | [] => headLine stack.base

theorem render_push (entry : Text) (stack : Stack) :
    (stack.push entry).render = entry ++ '\n' :: stack.render := by
  simp [push, render]

end Stack

theorem headLine_append_afterLine (text : Text) :
    headLine text ++ afterLine text = text := by
  unfold headLine afterLine
  rw [List.append_assoc, List.take_append_drop, List.takeWhile_append_dropWhile]

theorem eq_newline_of_dropWhile {text rest : Text} {c : Char}
    (hrest : text.dropWhile (fun c => c != '\n') = c :: rest) :
    c = '\n' := by
  have hhead := List.head?_dropWhile_not (fun c => c != '\n') text
  rw [hrest, List.head?_cons] at hhead
  simpa using hhead

theorem headLine_ends_or (text : Text) :
    (∃ line, headLine text = line ++ ['\n']) ∨ afterLine text = [] := by
  unfold headLine afterLine
  cases hrest : text.dropWhile (fun c => c != '\n') with
  | nil => exact Or.inr rfl
  | cons c rest =>
      have hc := eq_newline_of_dropWhile hrest
      rw [hc]
      exact Or.inl ⟨_, rfl⟩

namespace Stack

theorem top_append_render_pop (stack : Stack) :
    stack.top ++ stack.pop.render = stack.render := by
  unfold top pop render
  cases stack.entries with
  | nil => exact headLine_append_afterLine stack.base
  | cons entry entries =>
      rw [unlines_cons, List.append_assoc, List.append_assoc,
        List.singleton_append, List.cons_append]

theorem top_ends_or (stack : Stack) :
    (∃ line, stack.top = line ++ ['\n']) ∨ stack.pop.render = [] := by
  unfold top pop render
  cases stack.entries with
  | nil => exact headLine_ends_or stack.base
  | cons entry entries => exact Or.inl ⟨entry, rfl⟩

end Stack

/-! ## The operations on a file -/

/-- Read the text and write it back behind the entry. -/
def prepend (entry text : Text) : Text :=
  entry ++ '\n' :: universalNewlines text

/-- Read the lines and write them back without the first. -/
def dropFirst (text : Text) : Text :=
  ((splitlinesKeep (universalNewlines text)).drop 1).flatten

/-- The text is read as one line or as none. -/
def IsOneLine (text : Text) : Prop :=
  (splitlinesKeep (universalNewlines text)).length ≤ 1

instance (text : Text) : Decidable (IsOneLine text) :=
  inferInstanceAs (Decidable (_ ≤ _))

theorem universalNewlines_eq_self_iff {text : Text} :
    universalNewlines text = text ↔ '\r' ∉ text := by
  constructor
  · intro hsame
    rw [← hsame]
    exact return_not_mem_universalNewlines text
  · exact universalNewlines_of_return_not_mem

/-- Pushing is exact when reading translates nothing. -/
theorem prepend_eq_render_push_iff (entry : Text) (stack : Stack) :
    prepend entry stack.render = (stack.push entry).render ↔
      '\r' ∉ stack.render := by
  rw [Stack.render_push, ← universalNewlines_eq_self_iff]
  unfold prepend
  rw [List.append_cancel_left_eq, List.cons.injEq]
  exact and_iff_right rfl

theorem splitlinesKeep_universalNewlines_append {first rest : Text}
    (hfirst : (∃ line, first = line ++ ['\n']) ∨ rest = []) :
    splitlinesKeep (universalNewlines (first ++ rest)) =
      splitlinesKeep (universalNewlines first) ++
        splitlinesKeep (universalNewlines rest) := by
  cases hfirst with
  | inl hline =>
      obtain ⟨line, hline⟩ := hline
      obtain ⟨body, hbody⟩ := universalNewlines_append_newline line
      have hread : universalNewlines first = body ++ ['\n'] := by
        rw [hline]
        exact hbody []
      rw [hread, hline, List.append_assoc, List.singleton_append, hbody,
        splitlinesKeep_append_newline]
  | inr hrest =>
      rw [hrest, List.append_nil]
      exact (List.append_nil _).symm

/-- Dropping the first line removes exactly `first` when that is read as one
line and the rest is read as it is. -/
theorem dropFirst_append_eq_iff {first rest : Text}
    (hfirst : (∃ line, first = line ++ ['\n']) ∨ rest = []) :
    dropFirst (first ++ rest) = rest ↔ IsOneLine first ∧ '\r' ∉ rest := by
  have hdrop : dropFirst (first ++ rest) =
      ((splitlinesKeep (universalNewlines first) ++
        splitlinesKeep (universalNewlines rest)).drop 1).flatten := by
    unfold dropFirst
    rw [splitlinesKeep_universalNewlines_append hfirst]
  have hreturn : '\r' ∉ dropFirst (first ++ rest) := by
    intro hmem
    apply return_not_mem_universalNewlines (first ++ rest)
    rw [← flatten_splitlinesKeep (universalNewlines (first ++ rest))]
    exact (List.drop_sublist 1 _).flatten.subset hmem
  unfold IsOneLine
  cases hlines : splitlinesKeep (universalNewlines first) with
  | nil =>
      have hempty : rest = [] := by
        cases hfirst with
        | inr hrest => exact hrest
        | inl hline =>
            obtain ⟨line, hline⟩ := hline
            obtain ⟨body, hbody⟩ := universalNewlines_append_newline line
            have hread := hbody []
            rw [← hline, splitlinesKeep_eq_nil_iff.mp hlines] at hread
            simp at hread
      rw [hdrop, hlines, hempty]
      simp [universalNewlines, splitlinesKeep]
  | cons line others =>
      rw [hlines, List.cons_append, List.drop_one, List.tail_cons,
        List.flatten_append, flatten_splitlinesKeep] at hdrop
      constructor
      · intro hsame
        rw [hsame] at hreturn
        have hrest := universalNewlines_of_return_not_mem hreturn
        rw [hsame, hrest] at hdrop
        have hothers : others.flatten = [] := by
          have hlength := congrArg List.length hdrop
          rw [List.length_append] at hlength
          apply List.eq_nil_of_length_eq_zero
          omega
        have hnil : others = [] := by
          cases others with
          | nil => rfl
          | cons second others =>
              rw [List.flatten_cons, List.append_eq_nil_iff] at hothers
              have hmem : [] ∈ splitlinesKeep (universalNewlines first) := by
                rw [hlines, hothers.1]
                simp
              exact absurd hmem (nil_not_mem_splitlinesKeep _)
        rw [hnil]
        exact ⟨by simp, hreturn⟩
      · intro hcond
        have hnil : others = [] := by
          have hlength := hcond.1
          rw [List.length_cons] at hlength
          apply List.eq_nil_of_length_eq_zero
          omega
        rw [hdrop, hnil, universalNewlines_of_return_not_mem hcond.2]
        rfl

theorem dropFirst_eq_render_pop_iff (stack : Stack) :
    dropFirst stack.render = stack.pop.render ↔
      IsOneLine stack.top ∧ '\r' ∉ stack.pop.render := by
  rw [← stack.top_append_render_pop]
  exact dropFirst_append_eq_iff stack.top_ends_or

/-! ## Lines that are read as one -/

theorem isOneLine_of_unbroken {line : Text} (hline : Unbroken line) :
    IsOneLine (line ++ ['\n']) := by
  have hreturn : '\r' ∉ line ++ ['\n'] := by
    rw [List.mem_append, not_or]
    exact ⟨hline.return_not_mem, by decide⟩
  unfold IsOneLine
  rw [universalNewlines_of_return_not_mem hreturn,
    splitlinesKeep_line hline []]
  simp [splitlinesKeep]

theorem isOneLine_lastLine {line : Text} (hline : Unbroken line) :
    IsOneLine line := by
  unfold IsOneLine
  rw [universalNewlines_of_return_not_mem hline.return_not_mem]
  by_cases hempty : line = []
  · rw [hempty]
    simp [splitlinesKeep]
  · rw [splitlinesKeep_lastLine hline hempty]
    rfl

theorem isOneLine_headLine {text : Text}
    (htext : ∀ c ∈ text, isLineBoundary c = true → c = '\n') :
    IsOneLine (headLine text) := by
  have hline : Unbroken (text.takeWhile (fun c => c != '\n')) := by
    intro c hc
    have hne := List.mem_takeWhile_imp hc
    by_contra hboundary
    rw [Bool.not_eq_false] at hboundary
    have hnewline := htext c (List.takeWhile_subset _ hc) hboundary
    rw [hnewline] at hne
    simp at hne
  have hsplit : headLine text =
      text.takeWhile (fun c => c != '\n') ++
        (text.dropWhile (fun c => c != '\n')).take 1 := rfl
  cases hrest : text.dropWhile (fun c => c != '\n') with
  | nil =>
      rw [hsplit, hrest, List.take_nil, List.append_nil]
      exact isOneLine_lastLine hline
  | cons c rest =>
      have hc := eq_newline_of_dropWhile hrest
      rw [hsplit, hrest, hc]
      exact isOneLine_of_unbroken hline

/-! ## Stacks whose only line boundary is the newline -/

structure Stack.Plain (stack : Stack) : Prop where
  entries_unbroken : ∀ entry ∈ stack.entries, Unbroken entry
  base_newlines : ∀ c ∈ stack.base, isLineBoundary c = true → c = '\n'

namespace Stack

theorem Plain.push {stack : Stack} (hplain : stack.Plain) {entry : Text}
    (hentry : Unbroken entry) : (stack.push entry).Plain := by
  constructor
  · intro other hother
    cases List.mem_cons.mp hother with
    | inl hsame =>
        rw [hsame]
        exact hentry
    | inr hmem => exact hplain.entries_unbroken other hmem
  · exact hplain.base_newlines

theorem Plain.pop {stack : Stack} (hplain : stack.Plain) :
    stack.pop.Plain := by
  obtain ⟨entries, base⟩ := stack
  cases entries with
  | nil =>
      constructor
      · intro entry hentry
        exact absurd hentry List.not_mem_nil
      · intro c hc
        apply hplain.base_newlines c
        rw [← headLine_append_afterLine base]
        exact List.mem_append_right _ hc
  | cons entry entries =>
      constructor
      · intro other hother
        exact hplain.entries_unbroken other (List.mem_cons_of_mem _ hother)
      · exact hplain.base_newlines

theorem Plain.return_not_mem_render {stack : Stack} (hplain : stack.Plain) :
    '\r' ∉ stack.render := by
  intro hmem
  unfold render unlines at hmem
  rw [List.mem_append, List.mem_flatMap] at hmem
  cases hmem with
  | inl hentries =>
      obtain ⟨entry, hentry, hline⟩ := hentries
      rw [List.mem_append, List.mem_singleton] at hline
      have hnot := (hplain.entries_unbroken entry hentry).return_not_mem
      exact absurd (hline.resolve_left hnot) (by decide)
  | inr hbase =>
      exact absurd (hplain.base_newlines '\r' hbase rfl) (by decide)

theorem Plain.isOneLine_top {stack : Stack} (hplain : stack.Plain) :
    IsOneLine stack.top := by
  obtain ⟨entries, base⟩ := stack
  cases entries with
  | nil => exact isOneLine_headLine hplain.base_newlines
  | cons entry entries =>
      exact isOneLine_of_unbroken (hplain.entries_unbroken entry (by simp))

end Stack

end LineStack
