import Mathlib.Data.List.Find
import SecaasCharms.AfPacketPass
import SecaasCharms.SnortService
import SecaasCharms.WireGuardCharm

/-!
# The interface that a service is set up on

Three charms look for an interface of the host and go on with a sentinel when
they find none.  Each search takes the first name, in some order of the
interfaces that are up, that passes a test on substrings and on the length;
whether that name is a real and a preferred one can be read off this list.
-/

namespace SecaasCharms

open TextLines

/-! ## Searching a list of names -/

def HasPrefix (prefixes : List Text) (name : Text) : Prop :=
  ∃ start ∈ prefixes, start <+: name

/-- An interface that is up, and one with a preferred name if there is one. -/
structure RealChoice (prefixes up : List Text) (used : Text) : Prop where
  real : used ∈ up
  preferred : (∃ name ∈ up, HasPrefix prefixes name) →
    HasPrefix prefixes used

/-- The first name that is accepted has a prefix, or no name has; or none is
accepted, and the sentinel is itself a name where none has a prefix. -/
def ChoosesWell (accepted : Text → Prop) (prefixes : List Text)
    (sentinel : Text) (order : List Text) : Prop :=
  (∃ before name after, order = before ++ name :: after ∧
      (∀ other ∈ before, ¬ accepted other) ∧ accepted name ∧
      (HasPrefix prefixes name ∨
        ∀ other ∈ order, ¬ HasPrefix prefixes other)) ∨
    ((∀ name ∈ order, ¬ accepted name) ∧ sentinel ∈ order ∧
      ∀ name ∈ order, ¬ HasPrefix prefixes name)

theorem realChoice_iff {prefixes up : List Text} {used : Text} :
    RealChoice prefixes up used ↔ used ∈ up ∧
      (HasPrefix prefixes used ∨ ∀ name ∈ up, ¬ HasPrefix prefixes name) := by
  constructor
  · intro hchoice
    by_cases hsome : ∃ name ∈ up, HasPrefix prefixes name
    · exact ⟨hchoice.real, Or.inl (hchoice.preferred hsome)⟩
    · refine ⟨hchoice.real, Or.inr ?_⟩
      intro name hname hprefix
      exact hsome ⟨name, hname, hprefix⟩
  · intro hchoice
    constructor
    · exact hchoice.1
    · intro hsome
      rcases hsome with ⟨name, hname, hprefix⟩
      cases hchoice.2 with
      | inl hused => exact hused
      | inr hnone => exact absurd hprefix (hnone name hname)

theorem find?_eq_some_iff {accepted : Text → Prop} [DecidablePred accepted]
    {order : List Text} {name : Text} :
    order.find? (fun other => accepted other) = some name ↔
      ∃ before after, order = before ++ name :: after ∧
        (∀ other ∈ before, ¬ accepted other) ∧ accepted name := by
  rw [List.find?_eq_some_iff_append]
  simp only [decide_eq_true_eq, Bool.not_eq_true', decide_eq_false_iff_not]
  constructor
  · intro hfound
    rcases hfound with ⟨haccepted, before, after, horder, hbefore⟩
    exact ⟨before, after, horder, hbefore, haccepted⟩
  · intro hfound
    rcases hfound with ⟨before, after, horder, hbefore, haccepted⟩
    exact ⟨haccepted, before, after, horder, hbefore⟩

theorem realChoice_find?_iff {accepted : Text → Prop}
    [DecidablePred accepted] {prefixes : List Text} {sentinel : Text}
    (hsentinel : ¬ HasPrefix prefixes sentinel) (order : List Text) :
    RealChoice prefixes order
        ((order.find? (fun name => accepted name)).getD sentinel) ↔
      ChoosesWell accepted prefixes sentinel order := by
  rw [realChoice_iff]
  cases hfound : order.find? (fun name => accepted name) with
  | none =>
      have hnone : ∀ name ∈ order, ¬ accepted name := by
        intro name hname haccepted
        have hother := List.find?_eq_none.mp hfound name hname
        exact hother (decide_eq_true haccepted)
      simp only [Option.getD_none]
      constructor
      · intro hchoice
        right
        exact ⟨hnone, hchoice.1, hchoice.2.resolve_left hsentinel⟩
      · intro hwell
        rcases hwell with ⟨before, name, after, horder, _, haccepted, _⟩ |
          ⟨_, hmem, hothers⟩
        · have hmem : name ∈ order := by simp [horder]
          exact absurd haccepted (hnone name hmem)
        · exact ⟨hmem, Or.inr hothers⟩
  | some name =>
      have hsplit := find?_eq_some_iff.mp hfound
      simp only [Option.getD_some]
      constructor
      · intro hchoice
        rcases hsplit with ⟨before, after, horder, hbefore, haccepted⟩
        left
        exact ⟨before, name, after, horder, hbefore, haccepted, hchoice.2⟩
      · intro hwell
        rcases hwell with
          ⟨before, other, after, horder, hbefore, haccepted, hothers⟩ |
          ⟨hnone, _⟩
        · have hother := find?_eq_some_iff.mpr
            ⟨before, after, horder, hbefore, haccepted⟩
          have hsame : name = other := by
            rw [hfound, Option.some.injEq] at hother
            exact hother
          rw [hsame]
          exact ⟨by simp [horder], hothers⟩
        · rcases hsplit with ⟨before, after, horder, _, haccepted⟩
          have hmem : name ∈ order := by simp [horder]
          exact absurd haccepted (hnone name hmem)

/-! ## The interfaces of the host -/

inductive OperState where
  | unknown
  | notPresent
  | down
  | lowerLayerDown
  | testing
  | dormant
  | up
  deriving DecidableEq

def OperState.text : OperState → Text
  | .unknown => "unknown".toList
  | .notPresent => "notpresent".toList
  | .down => "down".toList
  | .lowerLayerDown => "lowerlayerdown".toList
  | .testing => "testing".toList
  | .dormant => "dormant".toList
  | .up => "up".toList

/-- The directory `/sys/class/net` in the order of `ls`. -/
structure InterfaceTable where
  entries : List (InterfaceName × OperState)
  distinct : (entries.map Prod.fst).Nodup

def InterfaceTable.sysClassNet (table : InterfaceTable) :
    List (Text × Text) :=
  table.entries.map (fun entry =>
    (entry.1.text, entry.2.text ++ "\n".toList))

def InterfaceTable.up (table : InterfaceTable) : List Text :=
  (table.entries.filter (fun entry => entry.2 = .up)).map
    (fun entry => entry.1.text)

/-! ## `checkInterface` -/

def WireGuard.AcceptsInterface (interface : Text) : Prop :=
  ("en".toList <:+: interface ∨ "wl".toList <:+: interface ∨
      "eth".toList <:+: interface) ∧
    interface.length < 8 ∧
    ∃ current ∈ WireGuard.interfacePrefixes, current <:+: interface

instance : DecidablePred WireGuard.AcceptsInterface :=
  fun _ => inferInstanceAs (Decidable (_ ∧ _ ∧ _))

theorem OperState.text_eq_up_iff (state : OperState) :
    state.text = "up".toList ↔ state = .up := by
  cases state <;> decide

theorem OperState.newline_not_mem (state : OperState) :
    '\n' ∉ state.text := by
  cases state <;> decide

theorem InterfaceTable.distinct_names (table : InterfaceTable) :
    (table.sysClassNet.map Prod.fst).Nodup := by
  have hnames : table.sysClassNet.map Prod.fst =
      (table.entries.map Prod.fst).map Token.text := by
    simp [InterfaceTable.sysClassNet]
  rw [hnames]
  apply table.distinct.map
  intro left right heq
  exact Token.ext_text heq

/-- What `checkInterface` reads of an interface of the table. -/
theorem InterfaceTable.operstate_eq (table : InterfaceTable)
    {entry : InterfaceName × OperState} (hentry : entry ∈ table.entries) :
    ((((table.sysClassNet.lookup entry.1.text).getD []).splitOn
      '\n').head?).getD [] = entry.2.text := by
  have hmem : (entry.1.text, entry.2.text ++ "\n".toList) ∈
      table.sysClassNet := List.mem_map.mpr ⟨entry, hentry, rfl⟩
  have hsplit := splitOn_append_cons entry.2.newline_not_mem []
  rw [lookup_of_mem table.distinct_names hmem, Option.getD_some]
  exact congrArg (fun lines => (List.head? lines).getD []) hsplit

theorem WireGuard.checkInterface_table (table : InterfaceTable) :
    WireGuard.checkInterface WireGuard.interfacePrefixes
        (some table.sysClassNet) =
      some ((table.up.find? (fun name => WireGuard.AcceptsInterface name)).getD
        "-1".toList) := by
  have hunbroken : ∀ line ∈ table.sysClassNet.map Prod.fst, '\n' ∉ line := by
    intro line hline
    simp only [InterfaceTable.sysClassNet, List.map_map, List.mem_map] at hline
    rcases hline with ⟨entry, _, rfl⟩
    exact entry.1.not_mem (by decide)
  unfold WireGuard.checkInterface
  rw [Option.map_some]
  simp only
  have hempty : ¬ ("en".toList <:+: ([] : Text) ∨
      "wl".toList <:+: ([] : Text) ∨ "eth".toList <:+: ([] : Text)) := by
    decide
  have hnames : table.sysClassNet.map Prod.fst =
      table.entries.map (fun entry => entry.1.text) := by
    simp [InterfaceTable.sysClassNet]
  rw [splitOn_unlines hunbroken, List.find?_append]
  simp only [List.find?_cons, hempty, false_and, decide_false,
    List.find?_nil, Option.or_none]
  rw [hnames, List.find?_map]
  unfold InterfaceTable.up
  rw [List.find?_map, List.find?_filter]
  congr 3
  apply List.find?_congr
  intro entry hentry
  have hstate := table.operstate_eq hentry
  simp only [Function.comp_apply, hstate, OperState.text_eq_up_iff]
  apply decide_eq_decide.mpr
  rw [List.any_eq_true]
  simp only [decide_eq_true_eq]
  unfold WireGuard.AcceptsInterface
  constructor
  · intro haccepted
    rcases haccepted with ⟨hname, hlength, current, hcurrent, hinfix, hup⟩
    exact ⟨hup, hname, hlength, current, hcurrent, hinfix⟩
  · intro haccepted
    rcases haccepted with ⟨hup, hname, hlength, current, hcurrent, hinfix⟩
    exact ⟨hname, hlength, current, hcurrent, hinfix, hup⟩

/-! ## The loops over `getnic.ipaddr` -/

def upInterfaces (status : NicStatus) : List Text :=
  (status.filter (fun entry =>
    ("state".toList, "UP".toList) ∈ entry.2)).map (fun entry => entry.1.text)

def AcceptsNic (interface : Text) : Prop :=
  ("ens".toList <:+: interface ∨ "eth".toList <:+: interface ∨
      "eno".toList <:+: interface) ∧ interface.length < 6

instance : DecidablePred AcceptsNic :=
  fun _ => inferInstanceAs (Decidable (_ ∧ _))

def nicPrefixes : List Text := ["ens".toList, "eth".toList, "eno".toList]

/-- A loop that overwrites its variable keeps the last match. -/
theorem foldl_overwrite {α β : Type} (accepted : α → Prop)
    [DecidablePred accepted] (value : α → β) (initial : β)
    (items : List α) :
    items.foldl (fun last item => if accepted item then value item else last)
        initial =
      ((items.reverse.find? (fun item => accepted item)).map value).getD
        initial := by
  induction items using List.reverseRecOn with
  | nil => rfl
  | append_singleton items item ih =>
      rw [List.foldl_append, List.reverse_append]
      simp only [List.foldl_cons, List.foldl_nil, List.reverse_singleton,
        List.singleton_append, List.find?_cons]
      by_cases hitem : accepted item
      · simp [hitem]
      · simp [hitem, ih]

theorem any_state_up_iff (attributes : List (Text × Text)) :
    attributes.any (fun state =>
        state.1 = "state".toList ∧ state.2 = "UP".toList) = true ↔
      ("state".toList, "UP".toList) ∈ attributes := by
  rw [List.any_eq_true]
  constructor
  · intro hsome
    rcases hsome with ⟨state, hmem, hup⟩
    have hboth := of_decide_eq_true hup
    have hstate : state = ("state".toList, "UP".toList) :=
      Prod.ext hboth.1 hboth.2
    rw [← hstate]
    exact hmem
  · intro hmem
    exact ⟨_, hmem, decide_eq_true ⟨rfl, rfl⟩⟩

theorem selectInterface_eq (status : NicStatus) :
    (selectInterface status).text =
      ((upInterfaces status).reverse.find?
        (fun name => AcceptsNic name)).getD "null".toList := by
  unfold selectInterface
  simp only
  rw [foldl_overwrite]
  unfold upInterfaces
  rw [← List.map_reverse, List.find?_map, ← List.filter_reverse,
    List.find?_filter]
  have hsame : ∀ entry ∈ status.reverse,
      decide (entry.2.any (fun state =>
          state.1 = "state".toList ∧ state.2 = "UP".toList) = true ∧
        ("ens".toList <:+: entry.1.text ∨ "eth".toList <:+: entry.1.text ∨
          "eno".toList <:+: entry.1.text) ∧ entry.1.text.length < 6) =
      decide (decide (("state".toList, "UP".toList) ∈ entry.2) = true ∧
        ((fun name => decide (AcceptsNic name)) ∘
          (fun entry : InterfaceName × List (Text × Text) => entry.1.text))
            entry = true) := by
    intro entry _
    apply decide_eq_decide.mpr
    rw [any_state_up_iff]
    simp only [Function.comp_apply, decide_eq_true_eq]
    exact Iff.rfl
  rw [List.find?_congr hsame]
  cases status.reverse.find? _ with
  | none => rfl
  | some entry => rfl

/-! ## Setting up a service -/

/-- The rule that wg0.conf installs for an outgoing interface. -/
def masqueradeRule (interface : Text) : Text :=
  "iptables -A FORWARD -i %i -j ACCEPT; ".toList ++
    "iptables -A FORWARD -o %i -j ACCEPT; ".toList ++
    "iptables -t nat -A POSTROUTING -o ".toList ++ interface ++
    " -j MASQUERADE ".toList

/-- A success is a success on a real interface, and a preferred one is used
where there is one. -/
structure SetsUpOnReal (prefixes up : List Text) (result : ActionResult)
    (used : Text) : Prop where
  real : result.Succeeded → used ∈ up
  preferred : (∃ name ∈ up, HasPrefix prefixes name) →
    used ∈ up ∧ HasPrefix prefixes used

theorem setsUpOnReal_iff {prefixes up : List Text} {result : ActionResult}
    {used : Text} (hsucceeded : result.Succeeded) :
    SetsUpOnReal prefixes up result used ↔ RealChoice prefixes up used := by
  constructor
  · intro hsets
    exact ⟨hsets.real hsucceeded, fun hsome => (hsets.preferred hsome).2⟩
  · intro hchoice
    exact ⟨fun _ => hchoice.real,
      fun hsome => ⟨hchoice.real, hchoice.preferred hsome⟩⟩

theorem masqueradeRule_inj {left right : Text}
    (hsame : masqueradeRule left = masqueradeRule right) : left = right := by
  unfold masqueradeRule at hsame
  exact List.append_cancel_left (List.append_cancel_right hsame)

theorem initConfig_setsUpOnReal_iff (table : InterfaceTable)
    (host : WireGuard.Host) {answers : WireGuard.InitAnswers}
    (container : WireGuard.Container)
    (htable : answers.sysClassNet = some table.sysClassNet)
    (hdig : splitlines answers.dig ≠ []) :
    ∃ used,
      (WireGuard.onInitConfigAction host answers container).1.conf.postUp =
        some (masqueradeRule used) ∧
      (SetsUpOnReal WireGuard.interfacePrefixes table.up
          (WireGuard.onInitConfigAction host answers container).2 used ↔
        ChoosesWell WireGuard.AcceptsInterface WireGuard.interfacePrefixes
          "-1".toList table.up) := by
  have hcheck := WireGuard.checkInterface_table table
  have hsentinel : ¬ HasPrefix WireGuard.interfacePrefixes "-1".toList := by
    unfold HasPrefix
    decide
  rw [← htable] at hcheck
  rcases List.exists_cons_of_ne_nil hdig with ⟨publicIp, rest, hlines⟩
  have hhead : (splitlines answers.dig).head? = some publicIp := by
    rw [hlines]
    rfl
  have hkey : (WireGuard.generateKeys host answers.genkey
      container).privateKeyFile = some answers.genkey := rfl
  have hsucceeded :
      (WireGuard.onInitConfigAction host answers container).2.Succeeded := by
    unfold WireGuard.onInitConfigAction
    simp only [hcheck, hkey, hhead]
    trivial
  refine ⟨(table.up.find? (fun name => WireGuard.AcceptsInterface name)).getD
    "-1".toList, ?_, ?_⟩
  · unfold WireGuard.onInitConfigAction WireGuard.wgQuickUp
    simp only [hcheck, hkey, hhead]
    cases (WireGuard.generateKeys host answers.genkey container).wg0 with
    | none => rfl
    | some interface => rfl
  · rw [setsUpOnReal_iff hsucceeded]
    exact realChoice_find?_iff hsentinel table.up

theorem realChoice_selectInterface_iff (status : NicStatus) :
    RealChoice nicPrefixes (upInterfaces status)
        (selectInterface status).text ↔
      ChoosesWell AcceptsNic nicPrefixes "null".toList
        (upInterfaces status).reverse := by
  have hsentinel : ¬ HasPrefix nicPrefixes "null".toList := by
    unfold HasPrefix
    decide
  rw [← realChoice_find?_iff hsentinel, ← selectInterface_eq,
    realChoice_iff, realChoice_iff]
  simp only [List.mem_reverse]

theorem startService_setsUpOnReal_iff (status : NicStatus) :
    ∃ used, ∀ launch (host : SnortCharm.Host), ¬ host.SnortLive →
      (∀ command, ∃ added, launch command = .starts added) →
      ∃ added, launch (SnortCharm.snortCommand used) = .starts added ∧
        SnortCharm.onStartServiceAction (.ok status) launch .succeeds host =
          ({ processes := host.processes ++ added, filebeat := true },
            .output "Start: Snort service started successfully".toList) ∧
        (SetsUpOnReal nicPrefixes (upInterfaces status)
            (SnortCharm.onStartServiceAction (.ok status) launch .succeeds
              host).2 used ↔
          ChoosesWell AcceptsNic nicPrefixes "null".toList
            (upInterfaces status).reverse) := by
  refine ⟨(selectInterface status).text, ?_⟩
  intro launch host hdead hlaunch
  rcases hlaunch (SnortCharm.snortCommand (selectInterface status).text) with
    ⟨added, hadded⟩
  have hperformed :
      SnortCharm.onStartServiceAction (.ok status) launch .succeeds host =
        ({ processes := host.processes ++ added, filebeat := true },
          .output "Start: Snort service started successfully".toList) := by
    unfold SnortCharm.onStartServiceAction
    rw [if_neg hdead]
    simp only [hadded]
    rfl
  have hsucceeded : (SnortCharm.onStartServiceAction (.ok status) launch
      .succeeds host).2.Succeeded := by
    rw [hperformed]
    trivial
  refine ⟨added, hadded, hperformed, ?_⟩
  rw [setsUpOnReal_iff hsucceeded]
  exact realChoice_selectInterface_iff status

theorem startConfiguration_setsUpOnReal_iff (status : NicStatus) :
    ∃ used, ∀ addresses output files content,
      homeNetwork (hostnameOutput addresses) = .ok output →
      files (confPath .suricata) = some content →
      let performed := SuricataCharm.onStartConfigurationAction
        (.ok (hostnameOutput addresses)) (.ok status) files
      performed.1 (confPath .suricata) =
          some (inPlacePass used (SuricataCharm.homeNetLine output ++
            '\n' :: universalNewlines content)) ∧
        (SetsUpOnReal nicPrefixes (upInterfaces status) performed.2 used ↔
          ChoosesWell AcceptsNic nicPrefixes "null".toList
            (upInterfaces status).reverse) := by
  refine ⟨(selectInterface status).text, ?_⟩
  intro addresses output files content hcomputed hfile
  have hbind : (Except.ok (hostnameOutput addresses)).bind homeNetwork =
      .ok output := hcomputed
  have hread := Files.read_of_some hfile
  intro performed
  have hsucceeded : performed.2.Succeeded := by
    unfold performed SuricataCharm.onStartConfigurationAction
    rw [hbind, hread]
    trivial
  constructor
  · unfold performed SuricataCharm.onStartConfigurationAction
    rw [hbind, hread]
    simp only [Files.write_self]
    rfl
  · rw [setsUpOnReal_iff hsucceeded]
    exact realChoice_selectInterface_iff status

/-- In each of the three charms, all other steps succeeding, the interface that
the service is set up on is a real one, and a preferred one where there is
one, exactly when the search over the interfaces that are up chooses well. -/
theorem setsUpOnReal_of_charms (table : InterfaceTable)
    (status : NicStatus) :
    (∀ (host : WireGuard.Host) (answers : WireGuard.InitAnswers)
        (container : WireGuard.Container),
      answers.sysClassNet = some table.sysClassNet →
      splitlines answers.dig ≠ [] →
      ∃ used,
        (WireGuard.onInitConfigAction host answers container).1.conf.postUp =
          some (masqueradeRule used) ∧
        (SetsUpOnReal WireGuard.interfacePrefixes table.up
            (WireGuard.onInitConfigAction host answers container).2 used ↔
          ChoosesWell WireGuard.AcceptsInterface WireGuard.interfacePrefixes
            "-1".toList table.up)) ∧
    (∃ used, ∀ launch (host : SnortCharm.Host), ¬ host.SnortLive →
      (∀ command, ∃ added, launch command = .starts added) →
      ∃ added, launch (SnortCharm.snortCommand used) = .starts added ∧
        SnortCharm.onStartServiceAction (.ok status) launch .succeeds host =
          ({ processes := host.processes ++ added, filebeat := true },
            .output "Start: Snort service started successfully".toList) ∧
        (SetsUpOnReal nicPrefixes (upInterfaces status)
            (SnortCharm.onStartServiceAction (.ok status) launch .succeeds
              host).2 used ↔
          ChoosesWell AcceptsNic nicPrefixes "null".toList
            (upInterfaces status).reverse)) ∧
    (∃ used, ∀ addresses output files content,
      homeNetwork (hostnameOutput addresses) = .ok output →
      files (confPath .suricata) = some content →
      let performed := SuricataCharm.onStartConfigurationAction
        (.ok (hostnameOutput addresses)) (.ok status) files
      performed.1 (confPath .suricata) =
          some (inPlacePass used (SuricataCharm.homeNetLine output ++
            '\n' :: universalNewlines content)) ∧
        (SetsUpOnReal nicPrefixes (upInterfaces status) performed.2 used ↔
          ChoosesWell AcceptsNic nicPrefixes "null".toList
            (upInterfaces status).reverse)) := by
  refine ⟨?_, startService_setsUpOnReal_iff status,
    startConfiguration_setsUpOnReal_iff status⟩
  intro host answers container htable hdig
  exact initConfig_setsUpOnReal_iff table host container htable hdig

theorem setsUpOnReal_of_sample_table :
    let table : InterfaceTable :=
      ⟨[(⟨"eth0".toList, by decide⟩, .up)], by decide⟩
    let status : NicStatus :=
      [(⟨"eth0".toList, by decide⟩, [("state".toList, "UP".toList)])]
    let answers : WireGuard.InitAnswers :=
      { WireGuard.initAnswers with sysClassNet := some table.sysClassNet }
    let host : SnortCharm.Host := { processes := [], filebeat := false }
    let launch : List Text → SnortCharm.Launch := fun _ => .starts []
    let files : Files := fun path =>
      if path = confPath .suricata then some "af-packet:\n".toList else none
    (∃ used,
      (WireGuard.onInitConfigAction WireGuard.smallHost answers
          WireGuard.Container.fresh).1.conf.postUp =
        some (masqueradeRule used) ∧
      (SetsUpOnReal WireGuard.interfacePrefixes table.up
          (WireGuard.onInitConfigAction WireGuard.smallHost answers
            WireGuard.Container.fresh).2 used ↔
        ChoosesWell WireGuard.AcceptsInterface WireGuard.interfacePrefixes
          "-1".toList table.up)) ∧
    (∃ used,
      SetsUpOnReal nicPrefixes (upInterfaces status)
          (SnortCharm.onStartServiceAction (.ok status) launch .succeeds
            host).2 used ↔
        ChoosesWell AcceptsNic nicPrefixes "null".toList
          (upInterfaces status).reverse) ∧
    ∃ used,
      SetsUpOnReal nicPrefixes (upInterfaces status)
          (SuricataCharm.onStartConfigurationAction
            (.ok (hostnameOutput [])) (.ok status) files).2 used ↔
        ChoosesWell AcceptsNic nicPrefixes "null".toList
          (upInterfaces status).reverse := by
  intro table status answers host launch files
  have hdead : ¬ host.SnortLive := by
    intro hlive
    rcases hlive with ⟨process, hmem, _⟩
    exact absurd hmem List.not_mem_nil
  have hcharms := setsUpOnReal_of_charms table status
  refine ⟨hcharms.1 WireGuard.smallHost answers WireGuard.Container.fresh rfl
    (by decide), ?_, ?_⟩
  · rcases hcharms.2.1 with ⟨used, hused⟩
    rcases hused launch host hdead (fun _ => ⟨[], rfl⟩) with ⟨_, _, _, hiff⟩
    exact ⟨used, hiff⟩
  · rcases hcharms.2.2 with ⟨used, hused⟩
    exact ⟨used, (hused [] [] files "af-packet:\n".toList rfl rfl).2⟩

/-- The only interface that is up has nine letters. -/
theorem not_setsUpOnReal_of_long_name :
    let table : InterfaceTable :=
      ⟨[(⟨"enp0s31f6".toList, by decide⟩, .up)], by decide⟩
    let answers : WireGuard.InitAnswers :=
      { WireGuard.initAnswers with sysClassNet := some table.sysClassNet }
    let performed := WireGuard.onInitConfigAction WireGuard.smallHost answers
      WireGuard.Container.fresh
    ∀ used, performed.1.conf.postUp = some (masqueradeRule used) →
      ¬ SetsUpOnReal WireGuard.interfacePrefixes table.up performed.2
        used := by
  intro table answers performed used hused hsets
  have hsentinel : performed.1.conf.postUp =
      some (masqueradeRule "-1".toList) := by decide
  have hsucceeded : performed.2.Succeeded := by decide
  have hname : used = "-1".toList := by
    rw [hsentinel, Option.some.injEq] at hused
    exact (masqueradeRule_inj hused).symm
  have hreal := hsets.real hsucceeded
  rw [hname] at hreal
  revert hreal
  decide

end SecaasCharms
