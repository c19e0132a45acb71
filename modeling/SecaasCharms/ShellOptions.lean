import SecaasCharms.TextLines

/-!
# Options of a shell script

`getopts` reads the arguments of a script one option at a time.  Letters that
take no value may share one argument; the value of a letter that takes one is
the rest of its argument, or the next argument.  Unknown letters and missing
values are reported, and reading stops at the first argument that is no
option.
-/

namespace ShellOptions

open TextLines

/-- What a letter is to a script. -/
inductive Kind where
  | unknown
  | flag
  | value
  deriving DecidableEq

/-- The option string, behind the colon that asks for silent errors. -/
def Kind.ofString : Text → Char → Kind
  | [], _ => .unknown
  | known :: ':' :: letters, letter =>
      if letter = known then .value else Kind.ofString letters letter
  | known :: letters, letter =>
      if letter = known then .flag else Kind.ofString letters letter

/-- One round of the loop over the options. -/
inductive Reading where
  | flag (letter : Char)
  | value (letter : Char) (argument : Text)
  | invalid (letter : Char)
  | missing (letter : Char)
  deriving DecidableEq

variable (kind : Char → Kind)

/-- The letters of one argument, and the last one if its value is still to
come. -/
def readCluster : Text → List Reading × Option Char
  | [] => ([], none)
  | letter :: letters =>
      match kind letter with
      | .unknown =>
          (.invalid letter :: (readCluster letters).1, (readCluster letters).2)
      | .flag =>
          (.flag letter :: (readCluster letters).1, (readCluster letters).2)
      | .value =>
          if letters = [] then ([], some letter)
          else ([.value letter letters], none)

/-- The readings of all options and the arguments behind them.  A letter may
be waiting for its value. -/
def getoptsFrom : Option Char → List Text → List Reading × List Text
  | none, [] => ([], [])
  | some letter, [] => ([.missing letter], [])
  | some letter, argument :: arguments =>
      (.value letter argument :: (getoptsFrom none arguments).1,
        (getoptsFrom none arguments).2)
  | none, argument :: arguments =>
      match argument with
      | '-' :: letter :: letters =>
          if letter = '-' ∧ letters = [] then ([], arguments)
          else
            let cluster := readCluster kind (letter :: letters)
            (cluster.1 ++ (getoptsFrom cluster.2 arguments).1,
              (getoptsFrom cluster.2 arguments).2)
      | _ => ([], argument :: arguments)

def getopts (arguments : List Text) : List Reading × List Text :=
  getoptsFrom kind none arguments

/-! ## Reading what was written -/

/-- An option that the script knows, as it is meant. -/
inductive Reading.Known : Reading → Prop
  | flag {letter : Char} (hkind : kind letter = .flag)
      (hletter : letter ≠ '-') : Known (.flag letter)
  | value {letter : Char} (hkind : kind letter = .value)
      (hletter : letter ≠ '-') (argument : Text) :
      Known (.value letter argument)

/-- An option in arguments of its own. -/
def Reading.written : Reading → List Text
  | .flag letter => [['-', letter]]
  | .value letter argument => [['-', letter], argument]
  | .invalid letter => [['-', letter]]
  | .missing letter => [['-', letter]]

variable {kind}

theorem getopts_written {reading : Reading} (hknown : reading.Known kind)
    (arguments : List Text) :
    getopts kind (reading.written ++ arguments) =
      (reading :: (getopts kind arguments).1, (getopts kind arguments).2) := by
  cases hknown with
  | @flag letter hkind hletter =>
      have hdashes : ¬ (letter = '-' ∧ True) := fun hboth => hletter hboth.1
      simp only [getopts, Reading.written, List.singleton_append, getoptsFrom,
        if_neg hdashes, readCluster, hkind]
  | @value letter hkind hletter argument =>
      have hdashes : ¬ (letter = '-' ∧ True) := fun hboth => hletter hboth.1
      simp only [getopts, Reading.written, List.cons_append, List.nil_append,
        getoptsFrom, if_neg hdashes, readCluster, hkind, if_true]

/-- Options that are written one by one are read as they are meant, whatever
their values are and up to the first argument that is no option. -/
theorem getopts_of_known {readings : List Reading}
    (hknown : ∀ reading ∈ readings, reading.Known kind)
    (arguments : List Text) :
    getopts kind (readings.flatMap Reading.written ++ arguments) =
      (readings ++ (getopts kind arguments).1, (getopts kind arguments).2) := by
  induction readings with
  | nil => rfl
  | cons reading readings ih =>
      have hrest := ih (fun other hother =>
        hknown other (List.mem_cons_of_mem reading hother))
      rw [List.flatMap_cons, List.append_assoc,
        getopts_written (hknown reading List.mem_cons_self), hrest]
      rfl

end ShellOptions
