import SecaasCharms.TextLines

/-!
# What a charm action answers, and the files it edits

An action handler ends with `event.set_results`, with `event.fail`, or with
an exception that no handler catches, which ends the charm process.  Files
are read in text mode, which translates newlines, and written as they are.
-/

namespace SecaasCharms

open TextLines

inductive ActionResult where
  | results (fields : List (Text × Text))
  | failed (message : Text)
  | crashed
  deriving DecidableEq

/-- `event.set_results({"output": ...})`. -/
def ActionResult.output (text : Text) : ActionResult :=
  .results [("output".toList, text)]

def ActionResult.Succeeded : ActionResult → Prop
  | .results _ => True
  | .failed _ => False
  | .crashed => False

instance : (result : ActionResult) → Decidable result.Succeeded
  | .results _ => isTrue trivial
  | .failed _ => isFalse id
  | .crashed => isFalse id

@[simp] theorem ActionResult.output_inj {left right : Text} :
    ActionResult.output left = ActionResult.output right ↔ left = right := by
  simp [ActionResult.output]

@[simp] theorem ActionResult.output_ne_failed (text message : Text) :
    ActionResult.output text ≠ .failed message := by
  simp [ActionResult.output]

/-- Decimal digits of a number, as `str` and `%d` print them. -/
def digits (n : ℕ) : Text := Nat.toDigits 10 n

theorem isDigit_of_mem_digits {n : ℕ} {c : Char} (hc : c ∈ digits n) :
    c.isDigit = true :=
  Nat.isDigit_of_mem_toDigits (by decide) (by decide) hc

/-! ## Text files by path -/

abbrev Files := Text → Option Text

def Files.none : Files := fun _ => Option.none

/-- `open(path, "r+")` and `read()`. -/
def Files.read (files : Files) (path : Text) : Option Text :=
  (files path).map universalNewlines

/-- `open(path, "w+")` and `write(text)`. -/
def Files.write (files : Files) (path text : Text) : Files :=
  Function.update files path (some text)

theorem Files.read_of_some {files : Files} {path text : Text}
    (hfile : files path = some text) :
    files.read path = some (universalNewlines text) := by
  unfold Files.read
  rw [hfile]
  rfl

theorem Files.read_of_none {files : Files} {path : Text}
    (hfile : files path = Option.none) : files.read path = Option.none := by
  unfold Files.read
  rw [hfile]
  rfl

theorem Files.universalNewlines_of_read {files : Files} {path text : Text}
    (hread : files.read path = some text) : universalNewlines text = text := by
  unfold Files.read at hread
  obtain ⟨stored, _, rfl⟩ := Option.map_eq_some_iff.mp hread
  exact universalNewlines_idem stored

@[simp] theorem Files.write_self (files : Files) (path text : Text) :
    files.write path text path = some text :=
  Function.update_self _ _ _

theorem Files.write_of_ne (files : Files) {path other : Text}
    (hother : other ≠ path) (text : Text) :
    files.write path text other = files other :=
  Function.update_of_ne hother _ _

/-! ## Starting a command -/

/-- An argument that a process can be given: without a null character, and
within the 128 KiB, closing null byte included, of one argument. -/
def CanBeArgument (argument : Text) : Prop :=
  '\x00' ∉ argument ∧ (argument.map Char.utf8Size).sum < 131072

/-- What `subprocess.run` raises when `program` cannot be started with the
argument. -/
def startError (program argument : Text) : Option Text :=
  if argument.contains '\x00' then some "embedded null byte".toList
  else if 131072 ≤ (argument.map Char.utf8Size).sum then
    some ("[Errno 7] Argument list too long: '".toList ++ program ++
      "'".toList)
  else none

theorem startError_eq_none_iff (program argument : Text) :
    startError program argument = none ↔ CanBeArgument argument := by
  unfold startError CanBeArgument
  by_cases hnull : '\x00' ∈ argument
  · simp [hnull]
  · by_cases hlong : 131072 ≤ (argument.map Char.utf8Size).sum
    · simp [hnull, hlong]
    · simp [hnull, hlong, not_le.mp hlong]

theorem not_canBeArgument_of_startError {program argument exception : Text}
    (hraised : startError program argument = some exception) :
    ¬ CanBeArgument argument := by
  rw [← startError_eq_none_iff program, hraised]
  exact Option.some_ne_none exception

theorem sum_utf8Size_le (argument : Text) :
    (argument.map Char.utf8Size).sum ≤ 4 * argument.length := by
  induction argument with
  | nil => rfl
  | cons c argument ih =>
      have hsize := Char.utf8Size_le_four c
      rw [List.map_cons, List.sum_cons, List.length_cons]
      omega

def noSuchFile (path : Text) : Text :=
  "[Errno 2] No such file or directory: '".toList ++ path ++ "'".toList

end SecaasCharms
