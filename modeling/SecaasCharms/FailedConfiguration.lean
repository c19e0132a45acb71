import SecaasCharms.AfPacketPass
import SecaasCharms.IdsService

/-!
# `start-configuration` that fails halfway

The suricata charm and the combined charm write the header before they query
the interfaces.  An attempt that fails at this query leaves its header behind;
every other failure leaves the file alone.
-/

namespace SecaasCharms

open TextLines
open FileLines
open StepRuns

/-! ## Attempts -/

/-- The common body of the two handlers.  The charms differ in the query for
the interface and in the text of the failure. -/
def configure (failure : Text → ActionResult)
    (hostname interface : Except Text Text) (files : Files) :
    Files × ActionResult :=
  match hostname.bind homeNetwork with
  | .error exception => (files, failure exception)
  | .ok output =>
      match files.read (confPath .suricata) with
      | none => (files, failure (noSuchFile (confPath .suricata)))
      | some content =>
          let written := SuricataCharm.homeNetLine output ++ '\n' :: content
          let files := files.write (confPath .suricata) written
          match interface with
          | .error exception => (files, failure exception)
          | .ok name =>
              ((files.write (confPath .suricata ++ ".bak".toList)
                  written).write (confPath .suricata)
                (inPlacePass name written),
                .output ("Start-configuration: Suricata service ".toList ++
                  "configured correctly".toList))

inductive Attempt where
  | suricata (hostname : Except Text Text) (nic : Except Text NicStatus)
  | ids (hostname interfaces : Except Text Text)

def Attempt.perform (files : Files) : Attempt → Files × ActionResult
  | .suricata hostname nic =>
      SuricataCharm.onStartConfigurationAction hostname nic files
  | .ids hostname interfaces =>
      IdsCharm.onStartConfigurationAction "suricata".toList hostname
        interfaces files

def attemptStep (files : Files) (attempt : Attempt) : Files :=
  (attempt.perform files).1

def Attempt.hostname : Attempt → Except Text Text
  | .suricata hostname _ => hostname
  | .ids hostname _ => hostname

def Attempt.interface : Attempt → Except Text Text
  | .suricata _ nic => nic.map (fun status => (selectInterface status).text)
  | .ids _ interfaces => interfaces.map (IdsCharm.lastInterface "".toList)

def Attempt.failure : Attempt → Text → ActionResult
  | .suricata _ _ => SuricataCharm.configurationFailed
  | .ids _ _ => IdsCharm.configurationFailed

theorem suricata_eq_configure (hostname : Except Text Text)
    (nic : Except Text NicStatus) (files : Files) :
    SuricataCharm.onStartConfigurationAction hostname nic files =
      configure SuricataCharm.configurationFailed hostname
        (nic.map (fun status => (selectInterface status).text)) files := by
  unfold SuricataCharm.onStartConfigurationAction configure
  cases hostname.bind homeNetwork with
  | error exception => rfl
  | ok output =>
      cases files.read (confPath .suricata) with
      | none => rfl
      | some content => cases nic <;> rfl

theorem ids_eq_configure (hostname interfaces : Except Text Text)
    (files : Files) :
    IdsCharm.configureSuricata hostname interfaces files =
      configure IdsCharm.configurationFailed hostname
        (interfaces.map (IdsCharm.lastInterface "".toList)) files := by
  unfold IdsCharm.configureSuricata configure
  cases hostname.bind homeNetwork with
  | error exception => rfl
  | ok output =>
      cases files.read (confPath .suricata) with
      | none => rfl
      | some content => cases interfaces <;> rfl

theorem Attempt.perform_eq (files : Files) (attempt : Attempt) :
    attempt.perform files =
      configure attempt.failure attempt.hostname attempt.interface files := by
  cases attempt with
  | suricata hostname nic => exact suricata_eq_configure hostname nic files
  | ids hostname interfaces => exact ids_eq_configure hostname interfaces files

/-! ## What a failure owes -/

def Fails (files : Files) (attempt : Attempt) : Prop :=
  ¬ (attempt.perform files).2.Succeeded

def FailsCleanly (files : Files) (attempt : Attempt) : Prop :=
  Fails files attempt →
    (attempt.perform files).1 (confPath .suricata) =
      files (confPath .suricata)

/-- The addresses or the file cannot be read, or the interfaces can. -/
def StopsBeforeWriting (files : Files) (attempt : Attempt) : Prop :=
  (∃ exception, attempt.hostname.bind homeNetwork = .error exception) ∨
    files (confPath .suricata) = none ∨
    ∃ name, attempt.interface = .ok name

/-! ## One attempt -/

theorem Attempt.failure_not_succeeded (attempt : Attempt) (exception : Text) :
    ¬ (attempt.failure exception).Succeeded := by
  cases attempt with
  | suricata hostname nic => exact id
  | ids hostname interfaces => exact id

theorem newline_not_mem_lastInterface (stdout : Text) :
    '\n' ∉ IdsCharm.lastInterface "".toList stdout := by
  have hlines : ∀ line ∈ stdout.splitOn '\n', '\n' ∉ line := by
    intro line hline
    exact not_mem_of_mem_splitOn hline
  have hinitial : '\n' ∉ "".toList := by decide
  unfold IdsCharm.lastInterface
  refine List.foldlRecOn (motive := fun name => '\n' ∉ name)
    (stdout.splitOn '\n') _ hinitial ?_
  intro interface hinterface line hline
  split
  · exact hlines line hline
  · exact hinterface

theorem Attempt.newline_not_mem {attempt : Attempt} {name : Text}
    (hname : attempt.interface = .ok name) : '\n' ∉ name := by
  cases attempt with
  | suricata hostname nic =>
      cases nic with
      | error exception => cases hname
      | ok status =>
          cases hname
          exact (selectInterface status).not_mem (by decide)
  | ids hostname interfaces =>
      cases interfaces with
      | error exception => cases hname
      | ok stdout =>
          cases hname
          exact newline_not_mem_lastInterface stdout

def lineCount (text : Text) : ℕ := (fileLines text).length

theorem readLines_append_newline (left right : Text) :
    readLines (left ++ '\n' :: right) =
      readLines (left ++ ['\n']) ++ readLines right := by
  induction left with
  | nil => rfl
  | cons c left ih =>
      by_cases hc : c = '\n'
      · rw [hc, List.cons_append, List.cons_append, readLines_newline,
          readLines_newline, ih, List.cons_append]
      · rw [List.cons_append, List.cons_append, readLines_cons_of_ne hc,
          readLines_cons_of_ne hc, ih]
        cases hlines : readLines (left ++ ['\n']) with
        | nil =>
            have htext := flatten_readLines (left ++ ['\n'])
            rw [hlines] at htext
            simp at htext
        | cons line lines => rfl

/-- A header adds the same number of lines to every text. -/
theorem lineCount_header (line : Text) :
    ∃ added, 0 < added ∧ ∀ text,
      lineCount (line ++ '\n' :: universalNewlines text) =
        added + lineCount text := by
  rcases universalNewlines_append_newline line with ⟨body, hbody⟩
  have hnonempty : readLines (body ++ ['\n']) ≠ [] := by
    intro hnil
    have htext := flatten_readLines (body ++ ['\n'])
    rw [hnil] at htext
    simp at htext
  have hpos := List.length_pos_of_ne_nil hnonempty
  refine ⟨(readLines (body ++ ['\n'])).length, hpos, ?_⟩
  intro text
  unfold lineCount fileLines
  rw [hbody, universalNewlines_idem, readLines_append_newline,
    List.length_append]

/-! ## What one attempt does to the file -/

section Configure

variable (failure : Text → ActionResult)
variable {hostname interface : Except Text Text} {files : Files}

theorem configure_of_no_addresses {exception : Text}
    (hcomputed : hostname.bind homeNetwork = .error exception) :
    configure failure hostname interface files =
      (files, failure exception) := by
  unfold configure
  rw [hcomputed]

theorem configure_of_no_file {output : List Text}
    (hcomputed : hostname.bind homeNetwork = .ok output)
    (hfile : files (confPath .suricata) = none) :
    configure failure hostname interface files =
      (files, failure (noSuchFile (confPath .suricata))) := by
  unfold configure
  rw [hcomputed, Files.read_of_none hfile]

theorem configure_of_no_interface {output : List Text}
    {text exception : Text}
    (hcomputed : hostname.bind homeNetwork = .ok output)
    (hfile : files (confPath .suricata) = some text)
    (hinterface : interface = .error exception) :
    configure failure hostname interface files =
      (files.write (confPath .suricata) (SuricataCharm.homeNetLine output ++
          '\n' :: universalNewlines text), failure exception) := by
  unfold configure
  rw [hcomputed, Files.read_of_some hfile, hinterface]

theorem configure_of_interface {output : List Text} {text name : Text}
    (hcomputed : hostname.bind homeNetwork = .ok output)
    (hfile : files (confPath .suricata) = some text)
    (hinterface : interface = .ok name) :
    (configure failure hostname interface files).2.Succeeded ∧
      (configure failure hostname interface files).1 (confPath .suricata) =
        some (inPlacePass name (SuricataCharm.homeNetLine output ++
          '\n' :: universalNewlines text)) := by
  unfold configure
  rw [hcomputed, Files.read_of_some hfile, hinterface]
  constructor
  · trivial
  · simp only [Files.write_self]

end Configure

theorem attempt_stops {files : Files} {attempt : Attempt}
    (hstops : StopsBeforeWriting files attempt)
    (hfails : Fails files attempt) :
    attemptStep files attempt (confPath .suricata) =
      files (confPath .suricata) := by
  unfold Fails at hfails
  unfold attemptStep
  rw [attempt.perform_eq] at hfails ⊢
  cases hcomputed : attempt.hostname.bind homeNetwork with
  | error exception =>
      rw [configure_of_no_addresses attempt.failure hcomputed]
  | ok output =>
      cases hfile : files (confPath .suricata) with
      | none =>
          rw [configure_of_no_file attempt.failure hcomputed hfile]
          exact hfile
      | some text =>
          rcases hstops with ⟨exception, herror⟩ | hnone | ⟨name, hname⟩
          · rw [hcomputed] at herror
            contradiction
          · rw [hfile] at hnone
            contradiction
          · have hdone :=
              configure_of_interface attempt.failure hcomputed hfile hname
            exact absurd hdone.1 hfails

/-- Otherwise the attempt fails and leaves its header in front of the
file. -/
theorem attempt_writes {files : Files} {attempt : Attempt}
    (hwrites : ¬ StopsBeforeWriting files attempt) :
    Fails files attempt ∧ ∃ text after,
      files (confPath .suricata) = some text ∧
        attemptStep files attempt (confPath .suricata) = some after ∧
        lineCount text < lineCount after := by
  unfold StopsBeforeWriting at hwrites
  rw [not_or, not_or] at hwrites
  unfold Fails attemptStep
  rw [attempt.perform_eq]
  cases hcomputed : attempt.hostname.bind homeNetwork with
  | error exception => exact absurd ⟨exception, hcomputed⟩ hwrites.1
  | ok output =>
      cases hfile : files (confPath .suricata) with
      | none => exact absurd hfile hwrites.2.1
      | some text =>
          cases hinterface : attempt.interface with
          | ok name => exact absurd ⟨name, hinterface⟩ hwrites.2.2
          | error exception =>
              rcases lineCount_header (SuricataCharm.homeNetLine output) with
                ⟨added, hadded, hcount⟩
              have hlonger := hcount text
              rw [configure_of_no_interface attempt.failure hcomputed hfile
                rfl]
              constructor
              · exact attempt.failure_not_succeeded exception
              · refine ⟨text, SuricataCharm.homeNetLine output ++
                  '\n' :: universalNewlines text, rfl, ?_, ?_⟩
                · simp only [Files.write_self]
                · omega

theorem failsCleanly_iff (files : Files) (attempt : Attempt) :
    FailsCleanly files attempt ↔ StopsBeforeWriting files attempt := by
  constructor
  · intro hclean
    by_contra hwrites
    rcases attempt_writes hwrites with
      ⟨hfails, text, after, hfile, hafter, hcount⟩
    have hsame : attemptStep files attempt (confPath .suricata) =
        some text := (hclean hfails).trans hfile
    rw [hafter, Option.some.injEq] at hsame
    rw [hsame] at hcount
    exact absurd hcount (Nat.lt_irrefl _)
  · intro hstops hfails
    exact attempt_stops hstops hfails

/-! ## Retries -/

theorem success_of_file {files : Files} {attempt : Attempt}
    (hsucceeds : ¬ Fails files attempt) :
    ∃ text output name, files (confPath .suricata) = some text ∧
      attempt.hostname.bind homeNetwork = .ok output ∧
      attempt.interface = .ok name := by
  unfold Fails at hsucceeds
  rw [not_not, attempt.perform_eq] at hsucceeds
  cases hcomputed : attempt.hostname.bind homeNetwork with
  | error exception =>
      rw [configure_of_no_addresses attempt.failure hcomputed] at hsucceeds
      exact absurd hsucceeds (attempt.failure_not_succeeded exception)
  | ok output =>
      cases hfile : files (confPath .suricata) with
      | none =>
          rw [configure_of_no_file attempt.failure hcomputed hfile]
            at hsucceeds
          exact absurd hsucceeds (attempt.failure_not_succeeded _)
      | some text =>
          cases hinterface : attempt.interface with
          | error exception =>
              rw [configure_of_no_interface attempt.failure hcomputed hfile
                hinterface] at hsucceeds
              exact absurd hsucceeds (attempt.failure_not_succeeded exception)
          | ok name => exact ⟨text, output, name, rfl, rfl, rfl⟩

/-- Failed attempts leave the file as it was, or make it longer once one of
them has written. -/
theorem run_of_failures {files : Files} {attempts : List Attempt}
    {text : Text} (hfile : files (confPath .suricata) = some text)
    (hfails : EveryStep attemptStep Fails files attempts) :
    ∃ after,
      run attemptStep files attempts (confPath .suricata) = some after ∧
        lineCount text ≤ lineCount after ∧
        (EveryStep attemptStep StopsBeforeWriting files attempts →
          after = text) ∧
        (¬ EveryStep attemptStep StopsBeforeWriting files attempts →
          lineCount text < lineCount after) := by
  induction attempts generalizing files text with
  | nil =>
      exact ⟨text, hfile, le_rfl, fun _ => rfl,
        fun hnone => absurd trivial hnone⟩
  | cons attempt attempts ih =>
      by_cases hstops : StopsBeforeWriting files attempt
      · have hkept := (attempt_stops hstops hfails.1).trans hfile
        rcases ih hkept hfails.2 with ⟨after, hafter, hle, hsame, hlonger⟩
        refine ⟨after, hafter, hle, fun hall => hsame hall.2, ?_⟩
        intro hsome
        apply hlonger
        intro hrest
        exact hsome ⟨hstops, hrest⟩
      · rcases attempt_writes hstops with
          ⟨_, old, next, hold, hnext, hcount⟩
        have htext : old = text := by
          rw [hfile, Option.some.injEq] at hold
          exact hold.symm
        rw [htext] at hcount
        rcases ih hnext hfails.2 with ⟨after, hafter, hle, _⟩
        have hlonger : lineCount text < lineCount after := by omega
        refine ⟨after, hafter, hlonger.le, ?_, fun _ => hlonger⟩
        intro hall
        exact absurd hall.1 hstops

/-- The lines of the configured file count those of the file before. -/
theorem readLines_configured {name : Text} (hname : '\n' ∉ name)
    (line : Text) :
    ∃ added, ∀ text,
      (readLines (inPlacePass name
        (line ++ '\n' :: universalNewlines text))).length =
          added + lineCount text := by
  rcases lineCount_header line with ⟨added, _, hcount⟩
  refine ⟨added, ?_⟩
  intro text
  have hlines : LinesOf (fileLines (line ++ '\n' :: universalNewlines text)) :=
    linesOf_readLines _
  rw [inPlacePass_eq, readLines_flatten
    (linesOf_afPacketLines_of_terminated hname false hlines),
    length_afPacketLines]
  exact hcount text

theorem retry_iff {files : Files} {attempts : List Attempt} {last : Attempt}
    (hfails : EveryStep attemptStep Fails files attempts)
    (hlast : ¬ Fails files last) :
    (last.perform (run attemptStep files attempts)).1 (confPath .suricata) =
        (last.perform files).1 (confPath .suricata) ↔
      EveryStep attemptStep StopsBeforeWriting files attempts := by
  rcases success_of_file hlast with
    ⟨text, output, name, hfile, hcomputed, hname⟩
  rcases run_of_failures hfile hfails with
    ⟨after, hafter, _, hsame, hlonger⟩
  have halone := (configure_of_interface last.failure hcomputed hfile
    hname).2
  have hretried := (configure_of_interface last.failure hcomputed hafter
    hname).2
  rw [last.perform_eq, last.perform_eq, halone, hretried,
    Option.some.injEq]
  constructor
  · intro heq
    by_contra hsome
    rcases readLines_configured (Attempt.newline_not_mem hname)
        (SuricataCharm.homeNetLine output) with ⟨added, hcount⟩
    have hlines := congrArg (fun content => (readLines content).length) heq
    simp only [hcount] at hlines
    have hstrict := hlonger hsome
    omega
  · intro hall
    rw [hsame hall]

/-- In every run of attempts, each failure leaves the file as it was, exactly
when each attempt stops before its first write or gets past the query; and
these are the runs of failures after which an attempt that succeeds writes
what it would have written alone. -/
theorem failsCleanly_of_run (files : Files) (attempts : List Attempt) :
    (EveryStep attemptStep FailsCleanly files attempts ↔
        EveryStep attemptStep StopsBeforeWriting files attempts) ∧
      (EveryStep attemptStep Fails files attempts →
        ∀ last, ¬ Fails files last →
          ((last.perform (run attemptStep files attempts)).1
                (confPath .suricata) =
              (last.perform files).1 (confPath .suricata) ↔
            EveryStep attemptStep StopsBeforeWriting files attempts)) := by
  constructor
  · exact everyStep_congr failsCleanly_iff files attempts
  · intro hfails last hlast
    exact retry_iff hfails hlast

/-- `getnic` raises after the header is written. -/
theorem not_failsCleanly_of_raising_getnic :
    ¬ EveryStep attemptStep FailsCleanly
      (Files.none.write (confPath .suricata) "af-packet:\n".toList)
      [.suricata (.ok "10.0.0.7 \n".toList)
        (.error "getnic failed".toList)] := by
  intro hall
  have hclean := hall.1 (by unfold Fails; decide)
  revert hclean
  decide

end SecaasCharms
