import SecaasCharms.FileLines
import SecaasCharms.HomeNetwork
import SecaasCharms.RulesFile

/-!
# `start-configuration` of the snort and the suricata charm

Both write a header with the home network in front of the configuration file
they find.  The suricata charm then goes over the file a second time and
replaces the line below each `af-packet:` by the interface it found.
-/

namespace SecaasCharms

open TextLines
open FileLines

def confPath : Engine → Text
  | .snort => "/etc/snort/etc/snort.conf".toList
  | .suricata => "/etc/suricata/suricata.yaml".toList

/-! ## The interface of the host -/

def isInterfaceChar (c : Char) : Bool :=
  !(c == '/' || c == ':' || c == ' ' || isLineBoundary c)

abbrev InterfaceName := Token isInterfaceChar

/-- What `getnic.ipaddr` returns: for each interface its attributes. -/
abbrev NicStatus := List (InterfaceName × List (Text × Text))

def nullInterface : InterfaceName := ⟨"null".toList, by decide⟩

/-- The loops over `status.items()`; the last interface that passes wins. -/
def selectInterface (status : NicStatus) : InterfaceName :=
  status.foldl (fun interface entry =>
    let attributeName := entry.1.text
    if entry.2.any (fun state =>
          state.1 = "state".toList ∧ state.2 = "UP".toList) ∧
        ("ens".toList <:+: attributeName ∨ "eth".toList <:+: attributeName ∨
          "eno".toList <:+: attributeName) ∧ attributeName.length < 6 then
      entry.1
    else interface) nullInterface

/-! ## The second pass -/

/-- The loop over the lines of `suricata.yaml`, with the flag `change`. -/
def afPacketLines (interface : Text) : Bool → List Text → List Text
  | _, [] => []
  | change, line :: lines =>
      if "af-packet:\n".toList = line then
        line :: afPacketLines interface true lines
      else if change = true then
        ("  - interface: ".toList ++ interface ++ "\n".toList) ::
          afPacketLines interface false lines
      else line :: afPacketLines interface change lines

def afPacketPass (interface content : Text) : Text :=
  (afPacketLines interface false (readLines content)).flatten

/-! ## The handlers -/

def quotedList (output : List Text) : Text :=
  ",".toList.intercalate output

namespace SnortCharm

def homeNetLine (output : List Text) : Text :=
  "ipvar HOME_NET [".toList ++ quotedList output ++ "]".toList

def configurationFailed (exception : Text) : ActionResult :=
  .failed ("Start-configuration: Snort service configuration failed ".toList ++
    "with the following exception: ".toList ++ exception)

/-- `_on_start_configuration_action`, given what `hostname -I` prints or the
exception of `subprocess.run`. -/
def onStartConfigurationAction (hostname : Except Text Text)
    (files : Files) : Files × ActionResult :=
  match hostname.bind homeNetwork with
  | .error exception => (files, configurationFailed exception)
  | .ok output =>
      let line := homeNetLine output
      match files.read (confPath .snort) with
      | none => (files, configurationFailed (noSuchFile (confPath .snort)))
      | some content =>
          (files.write (confPath .snort) (line ++ '\n' :: content),
            .output ("Start-configuration: Snort service configured ".toList ++
              "correctly".toList))

end SnortCharm

namespace SuricataCharm

def homeNetLine (output : List Text) : Text :=
  "%YAML 1.1\n".toList ++ "---\n\n".toList ++ "vars:\n".toList ++
    "  address-groups:\n".toList ++ "    HOME_NET: \"[".toList ++
    quotedList output ++ "]\"".toList

def configurationFailed (exception : Text) : ActionResult :=
  .failed ("Start-configuration: Suricata service configuration ".toList ++
    "failed with the following exception: ".toList ++ exception)

/-- `_on_start_configuration_action`, given also what `getnic` returns or
raises.  The second pass keeps the file it reads under the name with
`.bak`. -/
def onStartConfigurationAction (hostname : Except Text Text)
    (nic : Except Text NicStatus) (files : Files) : Files × ActionResult :=
  match hostname.bind homeNetwork with
  | .error exception => (files, configurationFailed exception)
  | .ok output =>
      let line := homeNetLine output
      match files.read (confPath .suricata) with
      | none => (files, configurationFailed (noSuchFile (confPath .suricata)))
      | some content =>
          let written := line ++ '\n' :: content
          let files := files.write (confPath .suricata) written
          match nic with
          | .error exception => (files, configurationFailed exception)
          | .ok status =>
              let interface := (selectInterface status).text
              let files := files.write
                (confPath .suricata ++ ".bak".toList) written
              (files.write (confPath .suricata)
                  (afPacketPass interface (universalNewlines written)),
                .output ("Start-configuration: Suricata service ".toList ++
                  "configured correctly".toList))

end SuricataCharm

/-! ## The second pass on lists of lines -/

theorem afPacketLines_append_header (interface : Text)
    {header : List Text} (hheader : ∀ line ∈ header,
      line ≠ "af-packet:\n".toList) (rest : List Text) :
    afPacketLines interface false (header ++ rest) =
      header ++ afPacketLines interface false rest := by
  induction header with
  | nil => rfl
  | cons line header ih =>
      have hline := hheader line List.mem_cons_self
      have hrest := ih
        (fun other hother => hheader other (List.mem_cons_of_mem _ hother))
      rw [List.cons_append, List.cons_append, ← hrest]
      exact (if_neg hline.symm).trans (if_neg Bool.false_ne_true)

theorem length_afPacketLines (interface : Text) (change : Bool)
    (lines : List Text) :
    (afPacketLines interface change lines).length = lines.length := by
  induction lines generalizing change with
  | nil => rfl
  | cons line lines ih =>
      unfold afPacketLines
      split
      · rw [List.length_cons, List.length_cons, ih]
      · split
        · rw [List.length_cons, List.length_cons, ih]
        · rw [List.length_cons, List.length_cons, ih]

theorem terminated_interfaceEntry {interface : Text}
    (hinterface : '\n' ∉ interface) :
    Terminated ("  - interface: ".toList ++ interface ++ "\n".toList) := by
  have hlabel : '\n' ∉ "  - interface: ".toList := by decide
  have hbody : '\n' ∉ "  - interface: ".toList ++ interface := by
    rw [List.mem_append, not_or]
    exact ⟨hlabel, hinterface⟩
  exact ⟨_, hbody, rfl⟩

theorem linesOf_afPacketLines_of_terminated {interface : Text}
    (hinterface : '\n' ∉ interface) (change : Bool) {lines : List Text}
    (hlines : LinesOf lines) :
    LinesOf (afPacketLines interface change lines) := by
  induction lines generalizing change with
  | nil => trivial
  | cons line lines ih =>
      have hrest : LinesOf lines := by
        cases hlines with
        | inl hterminated => exact hterminated.2
        | inr hlast =>
            rw [hlast.1]
            trivial
      have hnil : lines = [] →
          ∀ flag, afPacketLines interface flag lines = [] := by
        rintro rfl flag
        rfl
      have hkeep : ∀ flag, LinesOf
          (line :: afPacketLines interface flag lines) := by
        intro flag
        cases hlines with
        | inl hterminated => exact Or.inl ⟨hterminated.1, ih flag hrest⟩
        | inr hlast => exact Or.inr ⟨hnil hlast.1 flag, hlast.2⟩
      unfold afPacketLines
      split
      · exact hkeep true
      · split
        · exact Or.inl ⟨terminated_interfaceEntry hinterface, ih false hrest⟩
        · exact hkeep change

theorem linesOf_afPacketLines (interface : InterfaceName) (change : Bool)
    {lines : List Text} (hlines : LinesOf lines) :
    LinesOf (afPacketLines interface.text change lines) :=
  linesOf_afPacketLines_of_terminated (interface.not_mem (by decide)) change
    hlines

theorem readLines_afPacketPass (interface : InterfaceName) (content : Text) :
    readLines (afPacketPass interface.text content) =
      afPacketLines interface.text false (readLines content) :=
  readLines_flatten
    (linesOf_afPacketLines interface false (linesOf_readLines content))

end SecaasCharms
