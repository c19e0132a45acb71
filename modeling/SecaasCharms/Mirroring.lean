import Mathlib.Data.Finset.Basic
import SecaasCharms.CharmActions
import SecaasCharms.StepRuns

/-!
# Traffic mirroring of the iptnetflow charm

`start-mirroring` appends a TEE rule to two chains of the mangle table and
`stop-mirroring` deletes one, each by two commands whose exit codes nobody
reads.  When an action does what it reports is decided by the rules that are
there and by which commands iptables accepts.
-/

namespace SecaasCharms.IptnetflowCharm

open TextLines
open StepRuns

/-! ## The mangle table -/

def isGatewayChar (c : Char) : Bool :=
  c.isAlphanum || c == '.' || c == ':' || c == '-'

/-- A gateway address, which the shell hands on as it is written. -/
abbrev Gateway := Token isGatewayChar

inductive Rule where
  | foreign (text : Text)
  | tee (gateway : Gateway)
  deriving DecidableEq

inductive Hook where
  | prerouting
  | postrouting
  deriving DecidableEq

def Hook.text : Hook → Text
  | .prerouting => "PREROUTING".toList
  | .postrouting => "POSTROUTING".toList

abbrev Mangle := Hook → List Rule

inductive Flag where
  | append
  | delete

def Flag.text : Flag → Text
  | .append => "-A".toList
  | .delete => "-D".toList

def Flag.edit : Flag → Rule → List Rule → List Rule
  | .append, rule, chain => chain ++ [rule]
  | .delete, rule, chain => chain.erase rule

/-! ## The handlers -/

/-- `os.system`, which answers with the exit code. -/
inductive SystemCall where
  | raises (exception : Text)
  | exits (accepted : Bool)

def teeCommand (flag : Flag) (hook : Hook) (gateway : Gateway) : Text :=
  "iptables -t mangle ".toList ++ flag.text ++ " ".toList ++ hook.text ++
    " -j TEE --gateway ".toList ++ gateway.text

/-- A command that iptables does not accept has no effect; deleting a rule
that is not there is one. -/
def runTee (system : Text → SystemCall) (flag : Flag) (gateway : Gateway)
    (hook : Hook) (mangle : Mangle) : Except Text Mangle :=
  match system (teeCommand flag hook gateway) with
  | .raises exception => .error exception
  | .exits true =>
      .ok (Function.update mangle hook
        (flag.edit (.tee gateway) (mangle hook)))
  | .exits false => .ok mangle

def editTee (flag : Flag) (success failure : Text) (gateway : Gateway)
    (system : Text → SystemCall) (mangle : Mangle) : Mangle × ActionResult :=
  match runTee system flag gateway .prerouting mangle with
  | .error exception => (mangle, .failed (failure ++ exception))
  | .ok first =>
      match runTee system flag gateway .postrouting first with
      | .error exception => (first, .failed (failure ++ exception))
      | .ok both => (both, .output success)

def onStartMirroringAction : Gateway → (Text → SystemCall) → Mangle →
    Mangle × ActionResult :=
  editTee .append "Traffic mirroring process started successfully".toList
    ("Start traffic mirroring process failed with the following ".toList ++
      "exception: ".toList)

def onStopMirroringAction : Gateway → (Text → SystemCall) → Mangle →
    Mangle × ActionResult :=
  editTee .delete "Traffic mirroring process stopped successfully".toList
    ("Stop traffic mirroring process failed with the following ".toList ++
      "exception: ".toList)

inductive Event where
  | startMirroring (gateway : Gateway) (system : Text → SystemCall)
  | stopMirroring (gateway : Gateway) (system : Text → SystemCall)

def mirroringStep (mangle : Mangle) : Event → Mangle
  | .startMirroring gateway system =>
      (onStartMirroringAction gateway system mangle).1
  | .stopMirroring gateway system =>
      (onStopMirroringAction gateway system mangle).1

/-! ## What an action owes -/

def rulesFor (gateway : Gateway) (chain : List Rule) : ℕ :=
  chain.count (.tee gateway)

def otherRules (gateway : Gateway) (chain : List Rule) : List Rule :=
  chain.filter (fun rule => rule ≠ .tee gateway)

/-- A success leaves `wanted` rules for the gateway in both chains, and no
outcome touches another rule. -/
structure Mirrors (gateway : Gateway) (wanted : ℕ) (mangle : Mangle)
    (performed : Mangle × ActionResult) : Prop where
  success : performed.2.Succeeded →
    ∀ hook, rulesFor gateway (performed.1 hook) = wanted
  frame : ∀ hook,
    otherRules gateway (performed.1 hook) = otherRules gateway (mangle hook)

def StepMirrors (mangle : Mangle) : Event → Prop
  | .startMirroring gateway system =>
      Mirrors gateway 1 mangle (onStartMirroringAction gateway system mangle)
  | .stopMirroring gateway system =>
      Mirrors gateway 0 mangle (onStopMirroringAction gateway system mangle)

/-- How many rules must be there for a command to leave one, or none. -/
def Flag.Effective : Flag → Bool → ℕ → Prop
  | .append, true, rules => rules = 0
  | .append, false, rules => rules = 1
  | .delete, true, rules => rules ≤ 1
  | .delete, false, rules => rules = 0

/-- Unless one of the two commands raises, each finds as many rules as it
needs. -/
def TeeEffective (flag : Flag) (gateway : Gateway)
    (system : Text → SystemCall) (mangle : Mangle) : Prop :=
  ∀ accepted : Hook → Bool,
    (∀ hook, system (teeCommand flag hook gateway) =
      .exits (accepted hook)) →
    ∀ hook, flag.Effective (accepted hook) (rulesFor gateway (mangle hook))

def StepEffective (mangle : Mangle) : Event → Prop
  | .startMirroring gateway system =>
      TeeEffective .append gateway system mangle
  | .stopMirroring gateway system =>
      TeeEffective .delete gateway system mangle

def Flag.wanted : Flag → ℕ
  | .append => 1
  | .delete => 0

/-! ## One command -/

def Flag.editIf (flag : Flag) (accepted : Bool) (rule : Rule)
    (chain : List Rule) : List Rule :=
  if accepted = true then flag.edit rule chain else chain

theorem rulesFor_editIf (flag : Flag) (accepted : Bool) (gateway : Gateway)
    (chain : List Rule) :
    rulesFor gateway (flag.editIf accepted (.tee gateway) chain) =
        flag.wanted ↔
      flag.Effective accepted (rulesFor gateway chain) := by
  unfold rulesFor
  cases flag with
  | append =>
      cases accepted with
      | true => simp [Flag.editIf, Flag.edit, Flag.wanted, Flag.Effective]
      | false => simp [Flag.editIf, Flag.wanted, Flag.Effective]
  | delete =>
      cases accepted with
      | true =>
          simp only [Flag.editIf, Flag.edit, Flag.wanted, Flag.Effective,
            if_true, List.count_erase_self]
          omega
      | false => simp [Flag.editIf, Flag.wanted, Flag.Effective]

theorem rulesFor_editIf_of_ne (flag : Flag) (accepted : Bool)
    {gateway other : Gateway} (hother : other ≠ gateway)
    (chain : List Rule) :
    rulesFor other (flag.editIf accepted (.tee gateway) chain) =
      rulesFor other chain := by
  have hrule : Rule.tee other ≠ Rule.tee gateway := by
    intro heq
    exact hother (Rule.tee.inj heq)
  unfold rulesFor Flag.editIf
  split
  · cases flag with
    | append => simp [Flag.edit, hrule.symm]
    | delete => exact List.count_erase_of_ne hrule
  · rfl

theorem otherRules_editIf (flag : Flag) (accepted : Bool)
    (gateway : Gateway) (chain : List Rule) :
    otherRules gateway (flag.editIf accepted (.tee gateway) chain) =
      otherRules gateway chain := by
  unfold otherRules Flag.editIf
  split
  · cases flag with
    | append => simp [Flag.edit]
    | delete =>
        unfold Flag.edit
        rw [← List.erase_filter, List.erase_of_not_mem]
        simp
  · rfl

theorem runTee_of_exits {system : Text → SystemCall} {flag : Flag}
    {gateway : Gateway} {hook : Hook} {accepted : Bool}
    (hexits : system (teeCommand flag hook gateway) = .exits accepted)
    (mangle : Mangle) :
    runTee system flag gateway hook mangle =
      .ok (Function.update mangle hook
        (flag.editIf accepted (.tee gateway) (mangle hook))) := by
  unfold runTee
  rw [hexits]
  cases accepted with
  | true => rfl
  | false => simp [Flag.editIf]

theorem runTee_of_raises {system : Text → SystemCall} {flag : Flag}
    {gateway : Gateway} {hook : Hook} {exception : Text}
    (hraises : system (teeCommand flag hook gateway) = .raises exception)
    (mangle : Mangle) :
    runTee system flag gateway hook mangle = .error exception := by
  unfold runTee
  rw [hraises]

theorem otherRules_update (flag : Flag) (accepted : Bool)
    (gateway : Gateway) (hook target : Hook) (mangle : Mangle) :
    otherRules gateway
        (Function.update mangle hook
          (flag.editIf accepted (.tee gateway) (mangle hook)) target) =
      otherRules gateway (mangle target) := by
  by_cases htarget : target = hook
  · rw [htarget, Function.update_self, otherRules_editIf]
  · rw [Function.update_of_ne htarget]

/-! ## One action -/

section Action

variable (flag : Flag) (success failure : Text) (gateway : Gateway)
variable {system : Text → SystemCall} (mangle : Mangle)

/-- When no command raises, each chain is edited for itself. -/
theorem editTee_of_exits {accepted : Hook → Bool}
    (hexits : ∀ hook, system (teeCommand flag hook gateway) =
      .exits (accepted hook)) :
    editTee flag success failure gateway system mangle =
      (fun hook =>
          flag.editIf (accepted hook) (.tee gateway) (mangle hook),
        .output success) := by
  unfold editTee
  rw [runTee_of_exits (hexits .prerouting)]
  simp only
  rw [runTee_of_exits (hexits .postrouting)]
  simp only
  refine Prod.ext ?_ rfl
  funext hook
  cases hook with
  | prerouting => simp [Function.update]
  | postrouting => simp [Function.update]

theorem editTee_of_first_raises {exception : Text}
    (hfirst : system (teeCommand flag .prerouting gateway) =
      .raises exception) :
    editTee flag success failure gateway system mangle =
      (mangle, .failed (failure ++ exception)) := by
  unfold editTee
  rw [runTee_of_raises hfirst]

theorem editTee_of_second_raises {accepted : Bool} {exception : Text}
    (hfirst : system (teeCommand flag .prerouting gateway) =
      .exits accepted)
    (hsecond : system (teeCommand flag .postrouting gateway) =
      .raises exception) :
    editTee flag success failure gateway system mangle =
      (Function.update mangle .prerouting
          (flag.editIf accepted (.tee gateway) (mangle .prerouting)),
        .failed (failure ++ exception)) := by
  unfold editTee
  rw [runTee_of_exits hfirst]
  simp only
  rw [runTee_of_raises hsecond]

/-- Both commands come to an exit code, or one of them raises. -/
theorem systemCalls_cases (system : Text → SystemCall) :
    (∃ accepted : Hook → Bool, ∀ hook,
        system (teeCommand flag hook gateway) = .exits (accepted hook)) ∨
      ∃ hook exception,
        system (teeCommand flag hook gateway) = .raises exception := by
  by_cases hraises : ∃ hook exception,
      system (teeCommand flag hook gateway) = .raises exception
  · exact Or.inr hraises
  · left
    have hexits : ∀ hook, ∃ accepted,
        system (teeCommand flag hook gateway) = .exits accepted := by
      intro hook
      cases hcall : system (teeCommand flag hook gateway) with
      | raises exception => exact absurd ⟨hook, exception, hcall⟩ hraises
      | exits accepted => exact ⟨accepted, rfl⟩
    exact ⟨fun hook => (hexits hook).choose,
      fun hook => (hexits hook).choose_spec⟩

theorem editTee_of_raises {hook : Hook} {exception : Text}
    (hraises : system (teeCommand flag hook gateway) = .raises exception) :
    ¬ (editTee flag success failure gateway system mangle).2.Succeeded ∧
      ∀ target, otherRules gateway
          ((editTee flag success failure gateway system mangle).1 target) =
        otherRules gateway (mangle target) := by
  cases hfirst : system (teeCommand flag .prerouting gateway) with
  | raises first =>
      rw [editTee_of_first_raises flag success failure gateway mangle hfirst]
      exact ⟨id, fun _ => rfl⟩
  | exits accepted =>
      cases hook with
      | prerouting =>
          rw [hfirst] at hraises
          contradiction
      | postrouting =>
          rw [editTee_of_second_raises flag success failure gateway mangle
            hfirst hraises]
          exact ⟨id, fun target =>
            otherRules_update flag accepted gateway _ target mangle⟩

theorem mirrors_editTee_iff :
    Mirrors gateway flag.wanted mangle
        (editTee flag success failure gateway system mangle) ↔
      TeeEffective flag gateway system mangle := by
  rcases systemCalls_cases flag gateway system with
    ⟨accepted, hexits⟩ | ⟨hook, exception, hraises⟩
  · have hperformed :=
      editTee_of_exits flag success failure gateway mangle hexits
    rw [hperformed]
    constructor
    · intro hmirrors other hother hook
      have hsame : other hook = accepted hook := by
        have hcall := (hother hook).symm.trans (hexits hook)
        exact SystemCall.exits.inj hcall
      rw [hsame, ← rulesFor_editIf]
      exact hmirrors.success trivial hook
    · intro heffective
      constructor
      · intro _ hook
        rw [rulesFor_editIf]
        exact heffective accepted hexits hook
      · intro hook
        exact otherRules_editIf flag (accepted hook) gateway (mangle hook)
  · have hperformed :=
      editTee_of_raises flag success failure gateway mangle hraises
    constructor
    · intro _ accepted hexits
      have hcall := (hexits hook).symm.trans hraises
      contradiction
    · intro _
      constructor
      · intro hsucceeded
        exact absurd hsucceeded hperformed.1
      · exact hperformed.2

end Action

/-! ## Runs -/

/-- In any run of the two actions, from any chains, every action leaves what
it reports and nothing else changed exactly when every action meets as many
rules as its commands need. -/
theorem mirrors_of_run (mangle : Mangle) (events : List Event) :
    EveryStep mirroringStep StepMirrors mangle events ↔
      EveryStep mirroringStep StepEffective mangle events := by
  apply everyStep_congr
  intro state event
  cases event with
  | startMirroring gateway system =>
      exact mirrors_editTee_iff .append _ _ gateway state
  | stopMirroring gateway system =>
      exact mirrors_editTee_iff .delete _ _ gateway state

/-! ## The mirrored gateways -/

/-- Each chain holds one rule for every mirrored gateway and no other TEE
rule. -/
def Mirrored (mangle : Mangle) (mirrored : Finset Gateway) : Prop :=
  ∀ hook gateway,
    rulesFor gateway (mangle hook) = if gateway ∈ mirrored then 1 else 0

/-- A gateway is mirrored to twice, and the stop deletes one of the two rules
of each chain. -/
theorem not_mirrors_after_second_start :
    Mirrored (fun _ => [.foreign "-j MARK".toList]) ∅ ∧
      ¬ EveryStep mirroringStep StepMirrors
        (fun _ => [.foreign "-j MARK".toList])
        [.startMirroring ⟨"10.0.0.7".toList, by decide⟩ (fun _ => .exits true),
          .startMirroring ⟨"10.0.0.7".toList, by decide⟩
            (fun _ => .exits true),
          .stopMirroring ⟨"10.0.0.7".toList, by decide⟩
            (fun _ => .exits true)] := by
  constructor
  · intro hook gateway
    simp [rulesFor]
  · intro hall
    have hstop := hall.2.2.1
    have hnone := hstop.success trivial .prerouting
    exact absurd hnone (by decide)

def mirrorStep (mirrored : Finset Gateway) : Event → Finset Gateway
  | .startMirroring gateway _ => insert gateway mirrored
  | .stopMirroring gateway _ => mirrored.erase gateway

def Answered : Event → Prop
  | .startMirroring gateway system =>
      ∀ hook, ∃ accepted,
        system (teeCommand .append hook gateway) = .exits accepted
  | .stopMirroring gateway system =>
      ∀ hook, ∃ accepted,
        system (teeCommand .delete hook gateway) = .exits accepted

theorem mirrored_editTee {flag : Flag} {gateway : Gateway}
    {system : Text → SystemCall} {mangle : Mangle}
    {before after : Finset Gateway} (success failure : Text)
    (hbefore : Mirrored mangle before)
    (hwanted : flag.wanted = if gateway ∈ after then 1 else 0)
    (hothers : ∀ other, other ≠ gateway → (other ∈ after ↔ other ∈ before))
    (hanswered : ∀ hook, ∃ accepted,
      system (teeCommand flag hook gateway) = .exits accepted)
    (heffective : TeeEffective flag gateway system mangle) :
    Mirrored (editTee flag success failure gateway system mangle).1 after := by
  choose accepted hexits using hanswered
  have hperformed :=
    editTee_of_exits flag success failure gateway mangle hexits
  rw [hperformed]
  intro hook other
  by_cases hsame : other = gateway
  · rw [hsame, ← hwanted]
    exact (rulesFor_editIf flag (accepted hook) gateway (mangle hook)).mpr
      (heffective accepted hexits hook)
  · have hmember := hothers other hsame
    calc rulesFor other
          (flag.editIf (accepted hook) (.tee gateway) (mangle hook))
        = rulesFor other (mangle hook) :=
          rulesFor_editIf_of_ne flag (accepted hook) hsame (mangle hook)
      _ = if other ∈ before then 1 else 0 := hbefore hook other
      _ = if other ∈ after then 1 else 0 := by simp only [hmember]

/-- In a run of effective actions the two chains hold the same gateways: those
whose last action was a start. -/
theorem mirrored_of_run {mangle : Mangle} {mirrored : Finset Gateway}
    {events : List Event} (hmirrored : Mirrored mangle mirrored)
    (hanswered : ∀ event ∈ events, Answered event)
    (heffective : EveryStep mirroringStep StepEffective mangle events) :
    Mirrored (run mirroringStep mangle events)
      (run mirrorStep mirrored events) := by
  have hpermitted :=
    heffective.and (EveryStep.of_forall_mem hanswered mangle)
  apply run_simulates Mirrored _ hmirrored hpermitted
  intro state spec event hstate hstep
  cases event with
  | startMirroring gateway system =>
      apply mirrored_editTee _ _ hstate _ _ hstep.2 hstep.1
      · simp [Flag.wanted, mirrorStep]
      · intro other hother
        simp [mirrorStep, hother]
  | stopMirroring gateway system =>
      apply mirrored_editTee _ _ hstate _ _ hstep.2 hstep.1
      · simp [Flag.wanted, mirrorStep]
      · intro other hother
        simp [mirrorStep, hother]

end SecaasCharms.IptnetflowCharm
