import SecaasCharms.CharmActions
import SecaasCharms.LineStack
import SecaasCharms.StepRuns

/-!
# The rules file of the intrusion detection charms

`add-rule` and `del-rule` of the snort charm, of the suricata charm and, for
each engine, of the combined ids charm.  The file is meant to be a stack of
rules over the text it began with; the run theorem says exactly when it is.
-/

namespace SecaasCharms

open TextLines
open StepRuns
open LineStack

inductive Engine where
  | snort
  | suricata
  deriving DecidableEq

def rulesPath : Engine → Text
  | .snort => "/etc/snort/rules/local.rules".toList
  | .suricata => "/etc/suricata/rules/local.rules".toList

/-! ## The handlers -/

def addRule (path rule : Text) (files : Files) : Files × ActionResult :=
  match files.read path with
  | some content =>
      (files.write path (rule ++ '\n' :: content),
        .output "Add-rule: New rule inserted successfully".toList)
  | none =>
      (files, .failed
        ("Add-rule: Add-rule failed with the following exception: ".toList ++
          noSuchFile path))

def delRule (path : Text) (files : Files) : Files × ActionResult :=
  match files.read path with
  | some content =>
      (files.write path ((splitlinesKeep content).drop 1).flatten,
        .output "Del-rule: Last rule removed successfully".toList)
  | none =>
      (files, .failed
        ("Del-rule: Del-rule failed with the following exception: ".toList ++
          noSuchFile path))

namespace SnortCharm

def onAddRuleAction (rule : Text) : Files → Files × ActionResult :=
  addRule "/etc/snort/rules/local.rules".toList rule

def onDelRuleAction : Files → Files × ActionResult :=
  delRule "/etc/snort/rules/local.rules".toList

end SnortCharm

namespace SuricataCharm

def onAddRuleAction (rule : Text) : Files → Files × ActionResult :=
  addRule "/etc/suricata/rules/local.rules".toList rule

def onDelRuleAction : Files → Files × ActionResult :=
  delRule "/etc/suricata/rules/local.rules".toList

end SuricataCharm

namespace IdsCharm

def onAddRuleAction (rule service : Text) (files : Files) :
    Files × ActionResult :=
  if service = "suricata".toList then
    addRule "/etc/suricata/rules/local.rules".toList rule files
  else
    addRule "/etc/snort/rules/local.rules".toList rule files

def onDelRuleAction (service : Text) (files : Files) :
    Files × ActionResult :=
  if service = "suricata".toList then
    delRule "/etc/suricata/rules/local.rules".toList files
  else
    delRule "/etc/snort/rules/local.rules".toList files

/-- The engine that the test of these two handlers selects. -/
def rulesEngine (service : Text) : Engine :=
  if service = "suricata".toList then .suricata else .snort

theorem onAddRuleAction_eq (rule service : Text) (files : Files) :
    onAddRuleAction rule service files =
      addRule (rulesPath (rulesEngine service)) rule files := by
  unfold onAddRuleAction rulesEngine
  split <;> rfl

theorem onDelRuleAction_eq (service : Text) (files : Files) :
    onDelRuleAction service files =
      delRule (rulesPath (rulesEngine service)) files := by
  unfold onDelRuleAction rulesEngine
  split <;> rfl

end IdsCharm

/-! ## Runs of one charm -/

inductive Charm where
  | snort
  | suricata
  | ids
  deriving DecidableEq

inductive RuleAction where
  | add (rule : Text)
  | del

/-- A call of an action; only the ids charm has the parameter `service`. -/
structure RuleCall where
  service : Text
  action : RuleAction

def Charm.perform (charm : Charm) (call : RuleCall) (files : Files) :
    Files × ActionResult :=
  match charm, call.action with
  | .snort, .add rule => SnortCharm.onAddRuleAction rule files
  | .snort, .del => SnortCharm.onDelRuleAction files
  | .suricata, .add rule => SuricataCharm.onAddRuleAction rule files
  | .suricata, .del => SuricataCharm.onDelRuleAction files
  | .ids, .add rule => IdsCharm.onAddRuleAction rule call.service files
  | .ids, .del => IdsCharm.onDelRuleAction call.service files

def Charm.engineOf (charm : Charm) (call : RuleCall) : Engine :=
  match charm with
  | .snort => .snort
  | .suricata => .suricata
  | .ids => IdsCharm.rulesEngine call.service

def RuleAction.edit (action : RuleAction) (path : Text) (files : Files) :
    Files × ActionResult :=
  match action with
  | .add rule => addRule path rule files
  | .del => delRule path files

theorem Charm.perform_eq_edit (charm : Charm) (call : RuleCall)
    (files : Files) :
    charm.perform call files =
      call.action.edit (rulesPath (charm.engineOf call)) files := by
  obtain ⟨service, action⟩ := call
  cases charm with
  | snort => cases action <;> rfl
  | suricata => cases action <;> rfl
  | ids =>
      cases action with
      | add rule => exact IdsCharm.onAddRuleAction_eq rule service files
      | del => exact IdsCharm.onDelRuleAction_eq service files

def RuleAction.apply : RuleAction → Stack → Stack
  | .add rule => Stack.push rule
  | .del => Stack.pop

/-! ## The file against the stack -/

/-- One call on the files, and on the stack of the engine if the call is for
it. -/
def ruleStep (charm : Charm) (engine : Engine) (state : Files × Stack)
    (call : RuleCall) : Files × Stack :=
  ((charm.perform call state.1).1,
    if charm.engineOf call = engine then call.action.apply state.2
    else state.2)

def HoldsStack (engine : Engine) (state : Files × Stack) : Prop :=
  state.1 (rulesPath engine) = some state.2.render

/-- A call for the engine is harmless when it reads the kept part of the file
as it is, and, for `del-rule`, reads what it has to take off as one line. -/
def KeepsStack (charm : Charm) (engine : Engine) (state : Files × Stack)
    (call : RuleCall) : Prop :=
  charm.engineOf call = engine →
    match call.action with
    | .add _ => '\r' ∉ state.2.render
    | .del => IsOneLine state.2.top ∧ '\r' ∉ state.2.pop.render

theorem rulesPath_injective : Function.Injective rulesPath := by
  intro left right hsame
  cases left <;> cases right
  · rfl
  · revert hsame
    decide
  · revert hsame
    decide
  · rfl

theorem edit_of_ne (action : RuleAction) {path other : Text}
    (hother : other ≠ path) (files : Files) :
    (action.edit path files).1 other = files other := by
  cases action with
  | add rule =>
      unfold RuleAction.edit addRule
      cases files.read path with
      | none => rfl
      | some content => exact Files.write_of_ne files hother _
  | del =>
      unfold RuleAction.edit delRule
      cases files.read path with
      | none => rfl
      | some content => exact Files.write_of_ne files hother _

theorem edit_of_file (action : RuleAction) {path text : Text} {files : Files}
    (hfile : files path = some text) :
    (action.edit path files).1 path =
      some (match action with
        | .add rule => prepend rule text
        | .del => dropFirst text) := by
  have hread := Files.read_of_some hfile
  cases action with
  | add rule =>
      unfold RuleAction.edit addRule
      rw [hread]
      exact Files.write_self _ _ _
  | del =>
      unfold RuleAction.edit delRule
      rw [hread]
      exact Files.write_self _ _ _

/-- From a file that holds the stack, one call keeps it so exactly under its
condition. -/
theorem ruleStep_holdsStack_iff (charm : Charm) (engine : Engine)
    {state : Files × Stack} (hholds : HoldsStack engine state)
    (call : RuleCall) :
    HoldsStack engine (ruleStep charm engine state call) ↔
      KeepsStack charm engine state call := by
  unfold HoldsStack ruleStep KeepsStack
  rw [charm.perform_eq_edit]
  by_cases hengine : charm.engineOf call = engine
  · rw [hengine, edit_of_file call.action hholds]
    simp only [if_true, true_imp_iff, Option.some.injEq]
    cases call.action with
    | add rule => exact prepend_eq_render_push_iff rule state.2
    | del => exact dropFirst_eq_render_pop_iff state.2
  · have hpath : rulesPath engine ≠ rulesPath (charm.engineOf call) := by
      intro hsame
      exact hengine (rulesPath_injective hsame).symm
    rw [edit_of_ne call.action hpath]
    simp only [hengine, false_imp_iff, iff_true]
    exact hholds

/-- In every run of the rule actions of a charm, the rules file of an engine
holds the stack of its rules in every state exactly when every call met its
condition. -/
theorem rulesFile_of_run (charm : Charm) (engine : Engine) (files : Files)
    (original : Text) (calls : List RuleCall)
    (hfile : files (rulesPath engine) = some original) :
    EveryState (ruleStep charm engine) (HoldsStack engine)
        (files, ⟨[], original⟩) calls ↔
      EveryStep (ruleStep charm engine) (KeepsStack charm engine)
        (files, ⟨[], original⟩) calls := by
  have hinit : HoldsStack engine (files, ⟨[], original⟩) := hfile
  constructor
  · intro hstates
    have hany : EveryStep (ruleStep charm engine) (fun _ _ => True)
        (files, ⟨[], original⟩) calls :=
      EveryStep.of_forall (fun _ _ => trivial) _ _
    exact everyStep_of_everyState
      (fun _ call hholds _ hnext =>
        (ruleStep_holdsStack_iff charm engine hholds call).mp hnext)
      hany hstates
  · exact everyState_of_invariant
      (fun _ call hholds hkeeps =>
        (ruleStep_holdsStack_iff charm engine hholds call).mpr hkeeps)
      hinit

theorem rulesFile_of_small_run :
    let files := Files.none.write (rulesPath .snort)
      "# local rules\n".toList
    let calls : List RuleCall :=
      [⟨[], .add "alert icmp any any -> any any".toList⟩, ⟨[], .del⟩]
    EveryState (ruleStep .snort .snort) (HoldsStack .snort)
        (files, ⟨[], "# local rules\n".toList⟩) calls ↔
      EveryStep (ruleStep .snort .snort) (KeepsStack .snort .snort)
        (files, ⟨[], "# local rules\n".toList⟩) calls :=
  rulesFile_of_run .snort .snort _ _ _ (Files.write_self _ _ _)

theorem rulesFile_after_rule_of_two_lines :
    let files := Files.none.write (rulesPath .snort) []
    let calls : List RuleCall := [⟨[], .add "a\nb".toList⟩, ⟨[], .del⟩]
    ¬ EveryState (ruleStep .snort .snort) (HoldsStack .snort)
      (files, ⟨[], []⟩) calls := by
  intro files calls hstates
  have hlast := everyState_iff.mp hstates calls [] rfl
  revert hlast
  unfold HoldsStack
  decide

/-- Rules without line boundaries, over a text whose only boundary is `\n`,
are safe in every order. -/
theorem rulesFile_of_unbroken_rules (charm : Charm) (engine : Engine)
    (files : Files) (original : Text) (calls : List RuleCall)
    (hfile : files (rulesPath engine) = some original)
    (horiginal : ∀ c ∈ original, isLineBoundary c = true → c = '\n')
    (hrules : ∀ call ∈ calls, ∀ rule, call.action = .add rule →
      Unbroken rule) :
    HoldsStack engine
      (run (ruleStep charm engine) (files, ⟨[], original⟩) calls) := by
  have hinit : HoldsStack engine (files, ⟨[], original⟩) ∧
      (Stack.mk [] original).Plain :=
    ⟨hfile, by simp, horiginal⟩
  have hstep : ∀ (state : Files × Stack) (call : RuleCall),
      HoldsStack engine state ∧ state.2.Plain →
      (∀ rule, call.action = .add rule → Unbroken rule) →
      HoldsStack engine (ruleStep charm engine state call) ∧
        (ruleStep charm engine state call).2.Plain := by
    intro state call hstate hrule
    obtain ⟨hholds, hplain⟩ := hstate
    constructor
    · rw [ruleStep_holdsStack_iff charm engine hholds]
      intro _
      cases call.action with
      | add rule => exact hplain.return_not_mem_render
      | del => exact ⟨hplain.isOneLine_top, hplain.pop.return_not_mem_render⟩
    · unfold ruleStep
      split
      · cases haction : call.action with
        | add rule => exact hplain.push (hrule rule haction)
        | del => exact hplain.pop
      · exact hplain
  have hkept := run_invariant
    (fun state => HoldsStack engine state ∧ state.2.Plain) hstep hinit
    (EveryStep.of_forall_mem hrules _)
  exact hkept.1

end SecaasCharms
