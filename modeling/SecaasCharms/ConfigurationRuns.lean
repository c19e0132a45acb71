import SecaasCharms.StartConfiguration
import SecaasCharms.StepRuns

/-!
# Repeated `start-configuration`

A call that computes the home network puts one more header in front of the
file, whatever stands there already; only a call that fails to compute it
leaves the file alone.
-/

namespace SecaasCharms

open TextLines
open FileLines
open StepRuns

/-! ## Calls -/

/-- The addresses of the host during a call, and the answer of `getnic`. -/
structure ConfigurationCall where
  addresses : List Address
  nic : Except Text NicStatus

def Engine.startConfiguration (engine : Engine) (call : ConfigurationCall)
    (files : Files) : Files × ActionResult :=
  match engine with
  | .snort =>
      SnortCharm.onStartConfigurationAction
        (.ok (hostnameOutput call.addresses)) files
  | .suricata =>
      SuricataCharm.onStartConfigurationAction
        (.ok (hostnameOutput call.addresses)) call.nic files

def configurationStep (engine : Engine) (files : Files)
    (call : ConfigurationCall) : Files :=
  (engine.startConfiguration call files).1

def ConfigurationCall.homeNet (call : ConfigurationCall) :
    Except Text (List Text) :=
  homeNetwork (hostnameOutput call.addresses)

def ConfigurationCall.Computes (call : ConfigurationCall) : Prop :=
  ∃ output, call.homeNet = .ok output

/-! ## The header -/

def headerLines : Engine → List Text → List Text
  | .snort, output => [SnortCharm.homeNetLine output ++ "\n".toList]
  | .suricata, output =>
      ["%YAML 1.1\n".toList, "---\n".toList, "\n".toList, "vars:\n".toList,
        "  address-groups:\n".toList,
        "    HOME_NET: \"[".toList ++ quotedList output ++ "]\"".toList ++
          "\n".toList]

theorem snort_headerLines (output : List Text) (content : Text) :
    SnortCharm.homeNetLine output ++ '\n' :: content =
      (headerLines .snort output).flatten ++ content := by
  unfold headerLines
  rw [List.flatten_singleton, List.append_assoc]
  rfl

theorem suricata_headerLines (output : List Text) (content : Text) :
    SuricataCharm.homeNetLine output ++ '\n' :: content =
      (headerLines .suricata output).flatten ++ content := by
  have hdashes : "---\n\n".toList = "---\n".toList ++ "\n".toList := by decide
  have hnewline : '\n' :: content = "\n".toList ++ content := rfl
  unfold headerLines SuricataCharm.homeNetLine
  rw [hnewline, hdashes]
  simp only [List.flatten_cons, List.flatten_nil, List.append_assoc,
    List.append_nil]

theorem quotedList_unbroken {output : List Text}
    (houtput : ∀ value ∈ output, Unbroken value) :
    Unbroken (quotedList output) := by
  intro c hc
  rcases mem_intercalate hc with hcomma | ⟨value, hvalue, hmem⟩
  · have hplain : Unbroken ",".toList := by decide
    exact hplain c hcomma
  · exact houtput value hvalue c hmem

theorem homeNetLine_unbroken {output : List Text}
    (houtput : ∀ value ∈ output, Unbroken value) :
    Unbroken (SnortCharm.homeNetLine output) := by
  unfold SnortCharm.homeNetLine
  rw [unbroken_append, unbroken_append]
  exact ⟨⟨by decide, quotedList_unbroken houtput⟩, by decide⟩

theorem entryLine_unbroken {output : List Text}
    (houtput : ∀ value ∈ output, Unbroken value) :
    Unbroken ("    HOME_NET: \"[".toList ++ quotedList output ++
      "]\"".toList) := by
  rw [unbroken_append, unbroken_append]
  exact ⟨⟨by decide, quotedList_unbroken houtput⟩, by decide⟩

theorem terminated_of_unbroken {line : Text} (hline : Unbroken line) :
    Terminated (line ++ "\n".toList) :=
  ⟨line, hline.newline_not_mem, rfl⟩

/-- A line of a header is an unbroken text and its newline. -/
theorem mem_headerLines {engine : Engine} {output : List Text}
    (houtput : ∀ value ∈ output, Unbroken value) {line : Text}
    (hline : line ∈ headerLines engine output) :
    ∃ body, Unbroken body ∧ line = body ++ "\n".toList := by
  cases engine with
  | snort =>
      rw [headerLines, List.mem_singleton] at hline
      exact ⟨_, homeNetLine_unbroken houtput, hline⟩
  | suricata =>
      simp only [headerLines, List.mem_cons, List.not_mem_nil,
        or_false] at hline
      rcases hline with rfl | rfl | rfl | rfl | rfl | rfl
      · exact ⟨"%YAML 1.1".toList, by decide, by decide⟩
      · exact ⟨"---".toList, by decide, by decide⟩
      · exact ⟨[], by decide, by decide⟩
      · exact ⟨"vars:".toList, by decide, by decide⟩
      · exact ⟨"  address-groups:".toList, by decide, by decide⟩
      · exact ⟨_, entryLine_unbroken houtput, rfl⟩

theorem headerLines_terminated (engine : Engine) {output : List Text}
    (houtput : ∀ value ∈ output, Unbroken value) :
    ∀ line ∈ headerLines engine output, Terminated line := by
  intro line hline
  obtain ⟨body, hbody, rfl⟩ := mem_headerLines houtput hline
  exact terminated_of_unbroken hbody

theorem return_not_mem_header (engine : Engine) {output : List Text}
    (houtput : ∀ value ∈ output, Unbroken value) :
    '\r' ∉ (headerLines engine output).flatten := by
  have hnewline : '\r' ∉ "\n".toList := by decide
  intro hmem
  obtain ⟨line, hheader, hreturn⟩ := List.mem_flatten.mp hmem
  obtain ⟨body, hbody, rfl⟩ := mem_headerLines houtput hheader
  rw [List.mem_append] at hreturn
  exact hreturn.elim hbody.return_not_mem hnewline

theorem headerLines_ne_afPacket (output : List Text) :
    ∀ line ∈ headerLines .suricata output,
      line ≠ "af-packet:\n".toList := by
  intro line hline
  simp only [headerLines, List.mem_cons, List.not_mem_nil, or_false] at hline
  rcases hline with rfl | rfl | rfl | rfl | rfl | rfl
  · decide
  · decide
  · decide
  · decide
  · decide
  · intro hsame
    have hhead : some ' ' = some 'a' := congrArg List.head? hsame
    exact absurd hhead (by decide)

theorem headerLines_ne_nil (engine : Engine) (output : List Text) :
    headerLines engine output ≠ [] := by
  cases engine <;> exact List.cons_ne_nil _ _

/-! ## The effect of a call on the text of the file -/

/-- What a call does to the rest of the file. -/
def secondPass : Engine → Except Text NicStatus → Text → Text
  | .snort, _, content => content
  | .suricata, .error _, content => content
  | .suricata, .ok status, content =>
      afPacketPass (selectInterface status).text content

theorem afPacketPass_append_header (interface : Text) {output : List Text}
    (houtput : ∀ value ∈ output, Unbroken value) (content : Text) :
    afPacketPass interface
        ((headerLines .suricata output).flatten ++ content) =
      (headerLines .suricata output).flatten ++
        afPacketPass interface content := by
  unfold afPacketPass
  rw [readLines_append_lines (headerLines_terminated .suricata houtput),
    afPacketLines_append_header interface (headerLines_ne_afPacket output),
    List.flatten_append]

theorem secondPass_header (engine : Engine) (nic : Except Text NicStatus)
    {output : List Text} (houtput : ∀ value ∈ output, Unbroken value)
    (rest : Text) :
    secondPass engine nic (universalNewlines
        ((headerLines engine output).flatten ++ rest)) =
      (headerLines engine output).flatten ++
        secondPass engine nic (universalNewlines rest) := by
  rw [universalNewlines_append (return_not_mem_header engine houtput)]
  cases engine with
  | snort => rfl
  | suricata =>
      cases nic with
      | error exception => rfl
      | ok status => exact afPacketPass_append_header _ houtput _

theorem length_readLines_secondPass (engine : Engine)
    (nic : Except Text NicStatus) (content : Text) :
    (readLines (secondPass engine nic content)).length =
      (readLines content).length := by
  cases engine with
  | snort => rfl
  | suricata =>
      cases nic with
      | error exception => rfl
      | ok status =>
          unfold secondPass
          rw [readLines_afPacketPass, length_afPacketLines]

theorem mem_afPacketLines {interface : Text} {change : Bool}
    {lines : List Text} {line : Text}
    (hline : line ∈ afPacketLines interface change lines) :
    line ∈ lines ∨
      line = "  - interface: ".toList ++ interface ++ "\n".toList := by
  induction lines generalizing change with
  | nil => exact absurd hline List.not_mem_nil
  | cons first lines ih =>
      have hkeep : ∀ flag,
          line ∈ first :: afPacketLines interface flag lines →
          line ∈ first :: lines ∨
            line = "  - interface: ".toList ++ interface ++
              "\n".toList := by
        intro flag hmem
        cases List.mem_cons.mp hmem with
        | inl hfirst =>
            rw [hfirst]
            exact Or.inl List.mem_cons_self
        | inr hrest => exact (ih hrest).imp_left (List.mem_cons_of_mem _)
      unfold afPacketLines at hline
      split at hline
      · exact hkeep true hline
      · split at hline
        · cases List.mem_cons.mp hline with
          | inl hfirst => exact Or.inr hfirst
          | inr hrest => exact (ih hrest).imp_left (List.mem_cons_of_mem _)
        · exact hkeep change hline

theorem return_not_mem_secondPass (engine : Engine)
    (nic : Except Text NicStatus) {content : Text}
    (hcontent : '\r' ∉ content) :
    '\r' ∉ secondPass engine nic content := by
  cases engine with
  | snort => exact hcontent
  | suricata =>
      cases nic with
      | error exception => exact hcontent
      | ok status =>
          intro hmem
          obtain ⟨line, hline, hreturn⟩ := List.mem_flatten.mp hmem
          cases mem_afPacketLines hline with
          | inl hold =>
              apply hcontent
              rw [← flatten_readLines content]
              exact List.mem_flatten.mpr ⟨line, hold, hreturn⟩
          | inr hnew =>
              have hname : '\r' ∉ (selectInterface status).text :=
                (selectInterface status).not_mem (by decide)
              have hlabel : '\r' ∉ "  - interface: ".toList := by decide
              have hnewline : '\r' ∉ "\n".toList := by decide
              rw [hnew, List.mem_append, List.mem_append] at hreturn
              exact (hreturn.elim (fun h => h.elim hlabel hname) hnewline)

/-- The file after a call, as a function of the file before it. -/
def ConfigurationCall.apply (engine : Engine) (text : Text)
    (call : ConfigurationCall) : Text :=
  match call.homeNet with
  | .error _ => text
  | .ok output =>
      (headerLines engine output).flatten ++
        secondPass engine call.nic (universalNewlines text)

theorem configurationStep_file (engine : Engine) {files : Files}
    {text : Text} (hfile : files (confPath engine) = some text)
    (call : ConfigurationCall) :
    configurationStep engine files call (confPath engine) =
      some (call.apply engine text) := by
  have hread := Files.read_of_some hfile
  unfold configurationStep Engine.startConfiguration ConfigurationCall.apply
  cases hcomputed : call.homeNet with
  | error exception =>
      unfold ConfigurationCall.homeNet at hcomputed
      cases engine with
      | snort =>
          simp only [SnortCharm.onStartConfigurationAction, Except.bind,
            hcomputed]
          exact hfile
      | suricata =>
          simp only [SuricataCharm.onStartConfigurationAction, Except.bind,
            hcomputed]
          exact hfile
  | ok output =>
      unfold ConfigurationCall.homeNet at hcomputed
      have houtput := homeNetwork_unbroken hcomputed
      cases engine with
      | snort =>
          simp only [SnortCharm.onStartConfigurationAction, Except.bind,
            hcomputed, hread]
          rw [Files.write_self, snort_headerLines]
          rfl
      | suricata =>
          have hwritten : universalNewlines
              (SuricataCharm.homeNetLine output ++
                '\n' :: universalNewlines text) =
              (headerLines .suricata output).flatten ++
                universalNewlines text := by
            rw [suricata_headerLines, universalNewlines_append
              (return_not_mem_header .suricata houtput),
              universalNewlines_idem]
          simp only [SuricataCharm.onStartConfigurationAction, Except.bind,
            hcomputed, hread]
          cases call.nic with
          | error exception =>
              simp only [Files.write_self, suricata_headerLines]
              rfl
          | ok status =>
              simp only [Files.write_self, hwritten]
              rw [afPacketPass_append_header _ houtput]
              rfl

/-! ## Convergence -/

theorem apply_of_not_computes (engine : Engine) (text : Text)
    {call : ConfigurationCall} (hcall : ¬ call.Computes) :
    call.apply engine text = text := by
  unfold ConfigurationCall.apply
  cases hcomputed : call.homeNet with
  | error exception => rfl
  | ok output => exact absurd ⟨output, hcomputed⟩ hcall

/-- A call that computes the home network leaves a header, then what the
second pass makes of the old text. -/
theorem apply_of_computes (engine : Engine) (text : Text)
    {call : ConfigurationCall} (hcall : call.Computes) :
    ∃ output, call.homeNet = .ok output ∧
      (∀ value ∈ output, Unbroken value) ∧
      call.apply engine text = (headerLines engine output).flatten ++
        secondPass engine call.nic (universalNewlines text) := by
  obtain ⟨output, hcomputed⟩ := hcall
  refine ⟨output, hcomputed, homeNetwork_unbroken hcomputed, ?_⟩
  unfold ConfigurationCall.apply
  rw [hcomputed]

theorem apply_eq_of_computes (engine : Engine) (text : Text)
    {call : ConfigurationCall} (hcall : call.Computes) :
    '\r' ∉ call.apply engine text ∧
      (readLines (universalNewlines text)).length <
        (readLines (call.apply engine text)).length := by
  obtain ⟨output, _, houtput, happly⟩ := apply_of_computes engine text hcall
  have hheader := return_not_mem_header engine houtput
  have hrest := return_not_mem_secondPass engine call.nic
    (return_not_mem_universalNewlines text)
  rw [happly]
  constructor
  · rw [List.mem_append, not_or]
    exact ⟨hheader, hrest⟩
  · have hpos := List.length_pos_iff.mpr (headerLines_ne_nil engine output)
    rw [readLines_append_lines (headerLines_terminated engine houtput),
      List.length_append, length_readLines_secondPass]
    omega

/-- Running under `first` and then under `second` is running under `second`
exactly when the home network is not computed under `first`. -/
theorem apply_apply_eq_iff (engine : Engine) (text : Text)
    (first second : ConfigurationCall) :
    second.apply engine (first.apply engine text) =
        second.apply engine text ↔
      ¬ first.Computes := by
  constructor
  · intro hsame hfirst
    obtain ⟨hreturn, hlonger⟩ := apply_eq_of_computes engine text hfirst
    have hread := universalNewlines_of_return_not_mem hreturn
    by_cases hsecond : second.Computes
    · obtain ⟨output, hcomputed, houtput, happly⟩ :=
        apply_of_computes engine text hsecond
      obtain ⟨again, hagain, _, happlyAgain⟩ :=
        apply_of_computes engine (first.apply engine text) hsecond
      have heq : again = output := by
        rw [hcomputed, Except.ok.injEq] at hagain
        exact hagain.symm
      rw [happly, happlyAgain, heq, hread, List.append_cancel_left_eq] at hsame
      have hlength :=
        congrArg (fun content => (readLines content).length) hsame
      simp only [length_readLines_secondPass] at hlength
      omega
    · rw [apply_of_not_computes engine _ hsecond,
        apply_of_not_computes engine _ hsecond] at hsame
      rw [hsame] at hread hlonger
      rw [hread] at hlonger
      omega
  · intro hfirst
    rw [apply_of_not_computes engine text hfirst]

/-! ## Definitions in the file -/

def isBlank (c : Char) : Bool := c == ' ' || c == '\t'

def wordEnds : Text → Bool
  | [] => true
  | c :: _ => isBlank c || c == '\n'

/-- The words stand at the head of the line, apart by blanks or tabs. -/
def startsWithWords : List Text → Text → Bool
  | [], _ => true
  | word :: words, line =>
      match line.dropPrefix? word with
      | none => false
      | some rest =>
          wordEnds rest && startsWithWords words (rest.dropWhile isBlank)

/-- A key of YAML may stand in quotes. -/
def spellings (key : Text) : List Text :=
  [key, "\"".toList ++ key ++ "\"".toList, "'".toList ++ key ++ "'".toList]

/-- The key stands at the head of the line, and the next thing is a colon. -/
def startsWithKey (key line : Text) : Bool :=
  (spellings key).any fun spelling =>
    match line.dropPrefix? spelling with
    | none => false
    | some rest => (rest.dropWhile isBlank).head? == some ':'

def indented (mark : Text → Bool) (line : Text) : Bool :=
  mark (line.dropWhile isBlank)

/-- The tests for the lines that define the home network. -/
def marks : Engine → List (Text → Bool)
  | .snort =>
      [indented (startsWithWords ["ipvar".toList, "HOME_NET".toList])]
  | .suricata =>
      [startsWithWords ["%YAML".toList, "1.1".toList],
        startsWithKey "vars".toList,
        indented (startsWithKey "HOME_NET".toList)]

/-- Each kind of defining line occurs once, as written for `output`. -/
def DefinesOnly (engine : Engine) (output : List Text) (text : Text) :
    Prop :=
  ∀ mark ∈ marks engine, ∃ line ∈ headerLines engine output,
    (readLines text).filter mark = [line]

def DefinesNothing (engine : Engine) (text : Text) : Prop :=
  ∀ mark ∈ marks engine, (readLines text).filter mark = []

def fixedHeader : List Text :=
  ["%YAML 1.1\n".toList, "---\n".toList, "\n".toList, "vars:\n".toList,
    "  address-groups:\n".toList]

def entryLine (output : List Text) : Text :=
  "    HOME_NET: \"[".toList ++ quotedList output ++ "]\"".toList ++
    "\n".toList

theorem marks_homeNetLine (output : List Text) :
    indented (startsWithWords ["ipvar".toList, "HOME_NET".toList])
      (SnortCharm.homeNetLine output ++ "\n".toList) = true :=
  rfl

/-- Of the tests for `suricata.yaml` the line with the networks passes the
last one only. -/
theorem marks_entryLine (output : List Text) :
    startsWithWords ["%YAML".toList, "1.1".toList] (entryLine output) =
        false ∧
      startsWithKey "vars".toList (entryLine output) = false ∧
      indented (startsWithKey "HOME_NET".toList) (entryLine output) = true :=
  ⟨rfl, rfl, rfl⟩

theorem marks_fixedHeader :
    fixedHeader.filter (startsWithWords ["%YAML".toList, "1.1".toList]) =
        ["%YAML 1.1\n".toList] ∧
      fixedHeader.filter (startsWithKey "vars".toList) =
        ["vars:\n".toList] ∧
      fixedHeader.filter (indented (startsWithKey "HOME_NET".toList)) = [] := by
  decide

theorem headerLines_filter (engine : Engine) (output : List Text) :
    ∀ mark ∈ marks engine, ∃ line ∈ headerLines engine output,
      (headerLines engine output).filter mark = [line] := by
  intro mark hmark
  cases engine with
  | snort =>
      rw [marks, List.mem_singleton] at hmark
      subst hmark
      refine ⟨_, List.mem_singleton_self _, ?_⟩
      exact List.filter_cons_of_pos (marks_homeNetLine output)
  | suricata =>
      have hheader : headerLines .suricata output =
          fixedHeader ++ [entryLine output] := rfl
      obtain ⟨hyaml, hvars, hentry⟩ := marks_entryLine output
      obtain ⟨hfixedYaml, hfixedVars, hfixedEntry⟩ := marks_fixedHeader
      simp only [marks, List.mem_cons, List.not_mem_nil, or_false] at hmark
      simp only [hheader, List.filter_append, List.filter_cons,
        List.filter_nil, List.mem_append, List.mem_singleton]
      rcases hmark with rfl | rfl | rfl
      · rw [hfixedYaml, hyaml]
        exact ⟨_, Or.inl (by decide), rfl⟩
      · rw [hfixedVars, hvars]
        exact ⟨_, Or.inl (by decide), rfl⟩
      · rw [hfixedEntry, hentry]
        exact ⟨_, Or.inr rfl, rfl⟩

/-! ## Exactly one definition -/

theorem filter_header_append (engine : Engine) {output : List Text}
    (houtput : ∀ value ∈ output, Unbroken value) (rest : Text)
    (mark : Text → Bool) :
    (readLines ((headerLines engine output).flatten ++ rest)).filter mark =
      (headerLines engine output).filter mark ++
        (readLines rest).filter mark := by
  rw [readLines_append_lines (headerLines_terminated engine houtput),
    List.filter_append]

theorem definesOnly_header_iff (engine : Engine) {output : List Text}
    (houtput : ∀ value ∈ output, Unbroken value) (rest : Text) :
    DefinesOnly engine output
        ((headerLines engine output).flatten ++ rest) ↔
      DefinesNothing engine rest := by
  unfold DefinesOnly DefinesNothing
  constructor
  · intro honly mark hmark
    obtain ⟨line, _, hline⟩ := honly mark hmark
    obtain ⟨own, _, hown⟩ := headerLines_filter engine output mark hmark
    rw [filter_header_append engine houtput, hown, List.singleton_append,
      List.cons.injEq] at hline
    exact hline.2
  · intro hnothing mark hmark
    obtain ⟨own, hmem, hown⟩ := headerLines_filter engine output mark hmark
    refine ⟨own, hmem, ?_⟩
    rw [filter_header_append engine houtput, hown, hnothing mark hmark,
      List.append_nil]

theorem not_definesNothing_header (engine : Engine) {output : List Text}
    (houtput : ∀ value ∈ output, Unbroken value) (rest : Text) :
    ¬ DefinesNothing engine
      ((headerLines engine output).flatten ++ rest) := by
  intro hnothing
  obtain ⟨mark, hmark⟩ : ∃ mark, mark ∈ marks engine := by
    cases engine <;> exact ⟨_, List.mem_cons_self⟩
  obtain ⟨own, _, hown⟩ := headerLines_filter engine output mark hmark
  have hempty := hnothing mark hmark
  rw [filter_header_append engine houtput, hown] at hempty
  exact List.cons_ne_nil _ _ hempty

/-- After any calls the text is the old one, if none computed the home
network, or begins with a header. -/
theorem run_apply_cases (engine : Engine) (text : Text)
    (calls : List ConfigurationCall) :
    ((∀ call ∈ calls, ¬ call.Computes) ∧
        run (ConfigurationCall.apply engine) text calls = text) ∨
      (¬ (∀ call ∈ calls, ¬ call.Computes) ∧
        ∃ output rest, (∀ value ∈ output, Unbroken value) ∧
          run (ConfigurationCall.apply engine) text calls =
            (headerLines engine output).flatten ++ rest) := by
  induction calls using List.reverseRecOn with
  | nil => exact Or.inl ⟨by simp, rfl⟩
  | append_singleton calls call ih =>
      rw [run_append, run_cons, run_nil]
      by_cases hcall : call.Computes
      · obtain ⟨output, _, houtput, happly⟩ := apply_of_computes engine
          (run (ConfigurationCall.apply engine) text calls) hcall
        refine Or.inr ⟨?_, output, _, houtput, happly⟩
        intro hnone
        exact hnone call (by simp) hcall
      · rw [apply_of_not_computes engine _ hcall]
        have hlast : (∀ other ∈ calls ++ [call], ¬ other.Computes) ↔
            ∀ other ∈ calls, ¬ other.Computes := by
          constructor
          · intro hall other hother
            exact hall other (List.mem_append_left _ hother)
          · intro hall other hother
            rw [List.mem_append, List.mem_singleton] at hother
            rcases hother with hold | rfl
            · exact hall other hold
            · exact hcall
        rw [hlast]
        exact ih

def ConfiguredBy (engine : Engine) (last : ConfigurationCall) (text : Text) :
    Prop :=
  ∃ output, last.homeNet = .ok output ∧ DefinesOnly engine output text

theorem configuredBy_run_iff (engine : Engine) (text : Text)
    (calls : List ConfigurationCall) (last : ConfigurationCall) :
    ConfiguredBy engine last
        (run (ConfigurationCall.apply engine) text (calls ++ [last])) ↔
      last.Computes ∧ (∀ call ∈ calls, ¬ call.Computes) ∧
        DefinesNothing engine
          (secondPass engine last.nic (universalNewlines text)) := by
  rw [run_append, run_cons, run_nil]
  by_cases hlast : last.Computes
  · obtain ⟨output, hcomputed, houtput, happly⟩ := apply_of_computes engine
      (run (ConfigurationCall.apply engine) text calls) hlast
    have hconfigured : ConfiguredBy engine last
        (last.apply engine
          (run (ConfigurationCall.apply engine) text calls)) ↔
        DefinesNothing engine (secondPass engine last.nic (universalNewlines
          (run (ConfigurationCall.apply engine) text calls))) := by
      rw [happly, ← definesOnly_header_iff engine houtput]
      constructor
      · intro h
        obtain ⟨found, hfound, honly⟩ := h
        rw [hcomputed, Except.ok.injEq] at hfound
        subst hfound
        exact honly
      · intro honly
        exact ⟨output, hcomputed, honly⟩
    rw [hconfigured]
    cases run_apply_cases engine text calls with
    | inl hsame =>
        rw [hsame.2]
        exact ⟨fun hnothing => ⟨hlast, hsame.1, hnothing⟩, fun h => h.2.2⟩
    | inr hheader =>
        obtain ⟨hsome, other, rest, hother, hrun⟩ := hheader
        rw [hrun, secondPass_header engine last.nic hother]
        constructor
        · intro hnothing
          exact absurd hnothing (not_definesNothing_header engine hother _)
        · intro h
          exact absurd h.2.1 hsome
  · constructor
    · intro h
      obtain ⟨output, hcomputed, _⟩ := h
      exact absurd ⟨output, hcomputed⟩ hlast
    · intro h
      exact absurd h.1 hlast

theorem run_configurationStep_file (engine : Engine) {files : Files}
    {text : Text} (hfile : files (confPath engine) = some text)
    (calls : List ConfigurationCall) :
    run (configurationStep engine) files calls (confPath engine) =
      some (run (ConfigurationCall.apply engine) text calls) := by
  have hany : EveryStep (configurationStep engine) (fun _ _ => True) files
      calls := EveryStep.of_forall (fun _ _ => trivial) _ _
  exact run_simulates
    (fun (files : Files) text => files (confPath engine) = some text)
    (fun _ _ call hrelated _ => configurationStep_file engine hrelated call)
    hfile hany

/-- For every file and all calls: a call followed by another one leaves the
file of the other one alone exactly when the first does not compute the home
network; and the file has the definitions of the last call and no others
exactly when this is the only call that computes it and the old text has no
definition left. -/
theorem startConfiguration_of_run (engine : Engine) (files : Files)
    (text : Text) (hfile : files (confPath engine) = some text) :
    (∀ first second : ConfigurationCall,
      run (configurationStep engine) files [first, second]
          (confPath engine) =
        run (configurationStep engine) files [second] (confPath engine) ↔
      ¬ first.Computes) ∧
    ∀ (calls : List ConfigurationCall) (last : ConfigurationCall),
      (∃ configured, ConfiguredBy engine last configured ∧
        run (configurationStep engine) files (calls ++ [last])
          (confPath engine) = some configured) ↔
      last.Computes ∧ (∀ call ∈ calls, ¬ call.Computes) ∧
        DefinesNothing engine
          (secondPass engine last.nic (universalNewlines text)) := by
  constructor
  · intro first second
    rw [run_configurationStep_file engine hfile,
      run_configurationStep_file engine hfile, Option.some.injEq]
    exact apply_apply_eq_iff engine text first second
  · intro calls last
    rw [run_configurationStep_file engine hfile,
      ← configuredBy_run_iff engine text calls last]
    constructor
    · intro h
      obtain ⟨configured, hconfigured, hrun⟩ := h
      rw [Option.some.injEq] at hrun
      rw [hrun]
      exact hconfigured
    · intro hconfigured
      exact ⟨_, hconfigured, rfl⟩

def hostCall : ConfigurationCall where
  addresses := [⟨"192.168.1.5".toList, by decide⟩]
  nic := .ok []

def shippedSnort : Files :=
  Files.none.write (confPath .snort) "ipvar HOME_NET any\n".toList

theorem startConfiguration_of_shipped_run :
    (∀ first second : ConfigurationCall,
      run (configurationStep .snort) shippedSnort [first, second]
          (confPath .snort) =
        run (configurationStep .snort) shippedSnort [second]
          (confPath .snort) ↔
      ¬ first.Computes) ∧
    ∀ (calls : List ConfigurationCall) (last : ConfigurationCall),
      (∃ configured, ConfiguredBy .snort last configured ∧
        run (configurationStep .snort) shippedSnort (calls ++ [last])
          (confPath .snort) = some configured) ↔
      last.Computes ∧ (∀ call ∈ calls, ¬ call.Computes) ∧
        DefinesNothing .snort (secondPass .snort last.nic
          (universalNewlines "ipvar HOME_NET any\n".toList)) :=
  startConfiguration_of_run .snort shippedSnort _ (Files.write_self _ _ _)

/-- On the shipped file one call leaves two definitions, and a second call
changes the file again. -/
theorem startConfiguration_repeats_header :
    (∀ configured,
      run (configurationStep .snort) shippedSnort [hostCall]
        (confPath .snort) = some configured →
      ¬ ConfiguredBy .snort hostCall configured) ∧
    run (configurationStep .snort) shippedSnort [hostCall, hostCall]
        (confPath .snort) ≠
      run (configurationStep .snort) shippedSnort [hostCall]
        (confPath .snort) := by
  have honce : run (configurationStep .snort) shippedSnort [hostCall]
      (confPath .snort) =
        some ("ipvar HOME_NET [192.168.1.0/24]\n".toList ++
          "ipvar HOME_NET any\n".toList) := by decide
  constructor
  · intro configured hrun hconfigured
    rw [honce, Option.some.injEq] at hrun
    obtain ⟨output, _, honly⟩ := hconfigured
    obtain ⟨line, _, hline⟩ := honly _ List.mem_cons_self
    have htwo := congrArg List.length hline
    rw [← hrun, List.length_singleton] at htwo
    revert htwo
    decide
  · decide

end SecaasCharms
