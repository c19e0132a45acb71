import Mathlib.Data.List.Infix
import Mathlib.Tactic

/-!
# Trees of files and the scripts that change them

A tree is a table from paths to directories and files.  Each command changes
it at the path it names, above it or below it, and nowhere else.  A script
runs commands until one fails; what it keeps and what it establishes follow
from its commands.
-/

namespace FileTrees

variable {ν κ σ α : Type*}

/-! ## Scripts that end at the first failure -/

abbrev Script (σ : Type*) := σ → σ × Bool

namespace Script

def andThen (first second : Script σ) : Script σ := fun state =>
  if (first state).2 then second (first state).1
  else ((first state).1, false)

def forEach (command : α → Script σ) : List α → Script σ
  | [] => fun state => (state, true)
  | x :: rest => (command x).andThen (forEach command rest)

/-- However the script ends. -/
def Leads (Pre Post : σ → Prop) (script : Script σ) : Prop :=
  ∀ state, Pre state → Post (script state).1

def Keeps (Inv : σ → Prop) (script : Script σ) : Prop :=
  script.Leads Inv Inv

/-- If the script gets through. -/
def Establishes (Pre Post : σ → Prop) (script : Script σ) : Prop :=
  ∀ state, Pre state → (script state).2 = true → Post (script state).1

/-- If the first script fails, what it keeps has to be enough. -/
theorem Keeps.andThen_leads {Pre Post : σ → Prop} {first second : Script σ}
    (himplies : ∀ state, Pre state → Post state) (hfirst : Keeps Pre first)
    (hsecond : Leads Pre Post second) : Leads Pre Post (first.andThen second) := by
  intro state hstate
  unfold Script.andThen
  split
  · exact hsecond _ (hfirst _ hstate)
  · exact himplies _ (hfirst _ hstate)

theorem Keeps.andThen {Inv : σ → Prop} {first second : Script σ}
    (hfirst : Keeps Inv first) (hsecond : Keeps Inv second) :
    Keeps Inv (first.andThen second) :=
  hfirst.andThen_leads (fun _ hstate => hstate) hsecond

theorem Keeps.forEach {Inv : σ → Prop} {command : α → Script σ}
    {list : List α} (hcommand : ∀ x ∈ list, Keeps Inv (command x)) :
    Keeps Inv (forEach command list) := by
  induction list with
  | nil => exact fun _ hstate => hstate
  | cons x rest ih =>
      exact Keeps.andThen (hcommand x (by simp))
        (ih (fun y hy => hcommand y (by simp [hy])))

theorem Keeps.and {One Two : σ → Prop} {script : Script σ}
    (hone : Keeps One script) (htwo : Keeps Two script) :
    Keeps (fun state => One state ∧ Two state) script :=
  fun state hstate => ⟨hone state hstate.1, htwo state hstate.2⟩

/-- What stays as it is stays good. -/
theorem Keeps.of_eq {f : σ → α} {script : Script σ}
    (hkept : ∀ value, Keeps (fun state => f state = value) script)
    (P : α → Prop) : Keeps (fun state => P (f state)) script := by
  intro state hstate
  rw [hkept (f state) state rfl]
  exact hstate

theorem andThen_through {first second : Script σ} {state : σ}
    (hthrough : (first.andThen second state).2 = true) :
    (first state).2 = true ∧ (second (first state).1).2 = true ∧
      first.andThen second state = second (first state).1 := by
  unfold Script.andThen at hthrough ⊢
  split at hthrough
  next hfirst => exact ⟨hfirst, hthrough, if_pos hfirst⟩
  · contradiction

theorem Establishes.andThen_leads {Pre Mid Post : σ → Prop}
    {first second : Script σ} (hfirst : Establishes Pre Mid first)
    (hsecond : Leads Mid Post second) :
    Establishes Pre Post (first.andThen second) := by
  intro state hstate hthrough
  obtain ⟨hone, _, heq⟩ := andThen_through hthrough
  rw [heq]
  exact hsecond _ (hfirst _ hstate hone)

theorem Keeps.andThen_establishes {Pre Post : σ → Prop}
    {first second : Script σ} (hfirst : Keeps Pre first)
    (hsecond : Establishes Pre Post second) :
    Establishes Pre Post (first.andThen second) := by
  intro state hstate hthrough
  obtain ⟨_, htwo, heq⟩ := andThen_through hthrough
  rw [heq]
  exact hsecond _ (hfirst _ hstate) htwo

/-- A loop establishes what the command of one element establishes, if the
other elements' commands keep its assumption and its outcome. -/
theorem Establishes.forEach {Pre Post : σ → Prop} {command : α → Script σ}
    {list : List α} {x : α} (hnodup : list.Nodup) (hx : x ∈ list)
    (hpre : ∀ y ∈ list, y ≠ x → Keeps Pre (command y))
    (hpost : ∀ y ∈ list, y ≠ x → Keeps Post (command y))
    (hestablishes : Establishes Pre Post (command x)) :
    Establishes Pre Post (forEach command list) := by
  induction list with
  | nil => exact absurd hx List.not_mem_nil
  | cons first rest ih =>
      obtain ⟨hfirst, hrest⟩ := List.nodup_cons.mp hnodup
      rcases List.mem_cons.mp hx with rfl | hmem
      · refine Establishes.andThen_leads hestablishes (Keeps.forEach ?_)
        intro y hy
        exact hpost y (by simp [hy]) (fun heq => hfirst (heq ▸ hy))
      · have hne : first ≠ x := fun heq => hfirst (heq ▸ hmem)
        exact Keeps.andThen_establishes (hpre first (by simp) hne)
          (ih hrest hmem (fun y hy => hpre y (by simp [hy]))
            (fun y hy => hpost y (by simp [hy])))

/-- The script fails, and this holds where it stops. -/
def Breaks (Pre Post : σ → Prop) (script : Script σ) : Prop :=
  ∀ state, Pre state → (script state).2 = false ∧ Post (script state).1

theorem Breaks.andThen {Pre Post : σ → Prop} {first second : Script σ}
    (hfirst : Breaks Pre Post first) :
    Breaks Pre Post (first.andThen second) := by
  intro state hstate
  obtain ⟨hfails, hpost⟩ := hfirst state hstate
  simp only [Script.andThen, hfails, Bool.false_eq_true, if_false]
  exact ⟨trivial, hpost⟩

/-- A loop stops where the command of one element fails, if the others get
through until then. -/
theorem Breaks.forEach {Pre Post : σ → Prop} {command : α → Script σ}
    {list : List α} {x : α} (hx : x ∈ list)
    (hpre : ∀ y ∈ list, y ≠ x → ∀ state, Pre state →
      Pre (command y state).1 ∧ (command y state).2 = true)
    (hbreaks : Breaks Pre Post (command x)) :
    Breaks Pre Post (forEach command list) := by
  induction list with
  | nil => exact absurd hx List.not_mem_nil
  | cons first rest ih =>
      by_cases hsame : first = x
      · rw [Script.forEach, hsame]
        exact Breaks.andThen hbreaks
      · intro state hstate
        obtain ⟨hkept, hthrough⟩ := hpre first (by simp) hsame state hstate
        have hmem := (List.mem_cons.mp hx).resolve_left (Ne.symm hsame)
        simp only [Script.forEach, Script.andThen, hthrough, if_true]
        exact ih hmem (fun y hy => hpre y (by simp [hy])) _ hkept

end Script

/-! ## Paths -/

/-- Neither path lies on the way to the other. -/
def Apart (left right : List ν) : Prop :=
  ¬ left <+: right ∧ ¬ right <+: left

def Below (directory path : List ν) : Prop :=
  directory <+: path ∧ directory ≠ path

theorem Apart.ne {left right : List ν} (hapart : Apart left right) :
    left ≠ right := by
  rintro rfl
  exact hapart.1 (List.prefix_refl left)

theorem Apart.symm {left right : List ν} (hapart : Apart left right) :
    Apart right left :=
  ⟨hapart.2, hapart.1⟩

instance : Std.Symm (@Apart ν) :=
  ⟨fun _ _ hapart => hapart.symm⟩

/-- What lies below a path is apart from what is apart from it. -/
theorem Apart.append {left right : List ν} (hapart : Apart left right)
    (suffix : List ν) : Apart (left ++ suffix) right := by
  constructor
  · intro hleads
    exact hapart.1 ((List.prefix_append left suffix).trans hleads)
  · intro hleads
    rcases List.prefix_or_prefix_of_prefix hleads
      (List.prefix_append left suffix) with hright | hleft
    · exact hapart.2 hright
    · exact hapart.1 hleft

theorem Below.apart {directory other path : List ν}
    (hbelow : Below directory path) (hapart : Apart directory other) :
    Apart path other := by
  obtain ⟨suffix, rfl⟩ := hbelow.1
  exact hapart.append suffix

variable [DecidableEq ν]

instance (left right : List ν) : Decidable (Apart left right) :=
  inferInstanceAs (Decidable (¬ left <+: right ∧ ¬ right <+: left))

instance (directory path : List ν) : Decidable (Below directory path) :=
  inferInstanceAs (Decidable (directory <+: path ∧ directory ≠ path))

/-! ## Trees -/

inductive Node (κ : Type*) where
  | directory
  | file (content : κ)
  deriving DecidableEq

def Node.isFile : Node κ → Bool
  | .directory => false
  | .file _ => true

abbrev Tree (ν κ : Type*) := List (List ν × Node κ)

namespace Tree

def node? (tree : Tree ν κ) (path : List ν) : Option (Node κ) :=
  tree.lookup path

/-- `find directory -mindepth 1` prints something. -/
def Occupied (tree : Tree ν κ) (directory : List ν) : Prop :=
  ∃ entry ∈ tree, Below directory entry.1

instance (tree : Tree ν κ) (directory : List ν) :
    Decidable (tree.Occupied directory) :=
  inferInstanceAs (Decidable (∃ entry ∈ tree, Below directory entry.1))

def remove (tree : Tree ν κ) (path : List ν) : Tree ν κ :=
  tree.filter (fun entry => entry.1 ≠ path)

def put (tree : Tree ν κ) (path : List ν) (node : Node κ) : Tree ν κ :=
  (path, node) :: tree.remove path

theorem node?_cons (entry : List ν × Node κ) (tree : Tree ν κ)
    (path : List ν) :
    node? (entry :: tree) path =
      if path = entry.1 then some entry.2 else tree.node? path := by
  unfold node?
  rw [List.lookup_cons]
  split
  next heq => rw [if_pos (eq_of_beq heq)]
  next hne => rw [if_neg (ne_of_beq_false hne)]

/-- A filter by paths keeps or loses what is at a path. -/
theorem node?_filter (tree : Tree ν κ) (keep : List ν → Bool)
    (path : List ν) :
    node? (tree.filter (fun entry => keep entry.1)) path =
      if keep path then tree.node? path else none := by
  induction tree with
  | nil => simp [node?]
  | cons entry tree ih =>
      rw [node?_cons, List.filter_cons]
      by_cases hpath : path = entry.1
      · subst hpath
        by_cases hkeep : keep entry.1 = true
        · rw [if_pos hkeep, node?_cons, if_pos rfl, if_pos hkeep, if_pos rfl]
        · rw [if_neg hkeep, ih, if_neg hkeep, if_neg hkeep]
      · rw [if_neg hpath, ← ih]
        split
        · rw [node?_cons, if_neg hpath]
        · rfl

theorem node?_remove (tree : Tree ν κ) (path other : List ν) :
    (tree.remove path).node? other =
      if other = path then none else tree.node? other := by
  have hfilter := tree.node?_filter (fun kept => kept ≠ path) other
  simp only [ne_eq, decide_not, Bool.not_eq_true', decide_eq_false_iff_not,
    ite_not] at hfilter
  simpa [remove] using hfilter

theorem node?_remove_of_ne (tree : Tree ν κ) {path other : List ν}
    (hne : other ≠ path) :
    (tree.remove path).node? other = tree.node? other := by
  rw [node?_remove, if_neg hne]

@[simp] theorem node?_put_self (tree : Tree ν κ) (path : List ν)
    (node : Node κ) : (tree.put path node).node? path = some node := by
  rw [put, node?_cons, if_pos rfl]

theorem node?_put_of_ne (tree : Tree ν κ) {path other : List ν}
    (hne : other ≠ path) (node : Node κ) :
    (tree.put path node).node? other = tree.node? other := by
  rw [put, node?_cons, if_neg hne, tree.node?_remove_of_ne hne]

theorem node?_eq_none_iff {tree : Tree ν κ} {path : List ν} :
    tree.node? path = none ↔ ∀ entry ∈ tree, entry.1 ≠ path := by
  unfold node?
  rw [List.lookup_eq_none_iff]
  simp only [bne_iff_ne, ne_comm]

theorem occupied_iff {tree : Tree ν κ} {directory : List ν} :
    tree.Occupied directory ↔
      ∃ path, Below directory path ∧ tree.node? path ≠ none := by
  constructor
  · intro hoccupied
    obtain ⟨entry, hentry, hbelow⟩ := hoccupied
    refine ⟨entry.1, hbelow, ?_⟩
    intro hnone
    exact node?_eq_none_iff.mp hnone entry hentry rfl
  · intro hsome
    obtain ⟨path, hbelow, hnode⟩ := hsome
    by_contra hempty
    apply hnode
    rw [node?_eq_none_iff]
    intro entry hentry hpath
    exact hempty ⟨entry, hentry, by rw [hpath]; exact hbelow⟩

theorem node?_append (tree added : Tree ν κ) (path : List ν) :
    node? (tree ++ added) path = (tree.node? path).or (added.node? path) := by
  unfold node?
  exact List.lookup_append

/-! ## Commands -/

/-- `mkdir -p` along the prefixes of a path, from the root down; it ends at a
file. -/
def makeAll (tree : Tree ν κ) : List (List ν) → Tree ν κ
  | [] => tree
  | path :: rest =>
      match tree.node? path with
      | none => (tree.put path .directory).makeAll rest
      | some .directory => tree.makeAll rest
      | some (.file _) => tree

def makeDirectories (tree : Tree ν κ) (path : List ν) : Tree ν κ :=
  tree.makeAll path.inits

/-- A file stands on the way to the path. -/
def Blocked (tree : Tree ν κ) (path : List ν) : Prop :=
  ∃ above ∈ path.inits, above ≠ path ∧ (tree.node? above).any Node.isFile

instance (tree : Tree ν κ) (path : List ν) : Decidable (tree.Blocked path) :=
  inferInstanceAs (Decidable (∃ above ∈ path.inits,
    above ≠ path ∧ (tree.node? above).any Node.isFile))

/-- `cp` of one file.  A file is copied into a directory of that name. -/
def copyFile (tree : Tree ν κ) (path : List ν) (content : κ) :
    Option (Tree ν κ) :=
  if tree.Blocked path then none
  else
    match tree.node? path with
    | some .directory =>
        let inside := path ++ path.getLast?.toList
        match tree.node? inside with
        | some .directory => none
        | _ => some (tree.put inside (.file content))
    | _ => some (tree.put path (.file content))

/-- `cp -r` of many entries, which goes on after an error and reports it. -/
def merge : List (List ν × Node κ) → Script (Tree ν κ)
  | [], tree => (tree, true)
  | (path, node) :: rest, tree =>
      if tree.Blocked path then ((merge rest tree).1, false)
      else
        match tree.node? path, node with
        | some .directory, .directory => merge rest tree
        | some (.file _), .directory => ((merge rest tree).1, false)
        | some .directory, .file _ => ((merge rest tree).1, false)
        | _, _ => merge rest (tree.put path node)

def rename (tree : Tree ν κ) (source target : List ν) : Tree ν κ :=
  (tree.remove target).map fun entry =>
    if source <+: entry.1 then
      (target ++ entry.1.drop source.length, entry.2)
    else entry

/-- A move to a directory goes into it. -/
def moveTarget (tree : Tree ν κ) (source target : List ν) : List ν :=
  match tree.node? target with
  | some .directory => target ++ source.getLast?.toList
  | _ => target

/-- `mv -f`. -/
def move (tree : Tree ν κ) (source target : List ν) : Option (Tree ν κ) :=
  let target := tree.moveTarget source target
  match tree.node? source, tree.node? target with
  | some (.file _), some .directory => none
  | some .directory, some (.file _) => none
  | some .directory, some .directory =>
      if tree.Occupied target then none
      else some (tree.rename source target)
  | _, _ => some (tree.rename source target)

/-! ## What a command leaves alone -/

theorem node?_makeAll (tree : Tree ν κ) {paths : List (List ν)}
    {other : List ν} (hother : other ∉ paths) :
    (tree.makeAll paths).node? other = tree.node? other := by
  induction paths generalizing tree with
  | nil => rfl
  | cons path rest ih =>
      rw [List.mem_cons, not_or] at hother
      unfold makeAll
      split
      · rw [ih _ hother.2, tree.node?_put_of_ne hother.1]
      · exact ih _ hother.2
      · rfl

theorem node?_makeDirectories (tree : Tree ν κ) {path other : List ν}
    (hother : ¬ other <+: path) :
    (tree.makeDirectories path).node? other = tree.node? other :=
  tree.node?_makeAll (fun hmem => hother (List.mem_inits _ _ |>.mp hmem))

theorem node?_copyFile {tree next : Tree ν κ}
    {path other : List ν} {content : κ} (hapart : Apart path other)
    (hcopied : tree.copyFile path content = some next) :
    next.node? other = tree.node? other := by
  unfold copyFile at hcopied
  split at hcopied
  · contradiction
  · split at hcopied
    · simp only at hcopied
      split at hcopied
      · contradiction
      · rw [Option.some.injEq] at hcopied
        rw [← hcopied]
        exact tree.node?_put_of_ne
          (hapart.append path.getLast?.toList).symm.ne _
    · rw [Option.some.injEq] at hcopied
      rw [← hcopied]
      exact tree.node?_put_of_ne hapart.symm.ne _

theorem copyFile_self {tree next : Tree ν κ} {path : List ν}
    {content : κ} (hfile : tree.node? path ≠ some .directory)
    (hcopied : tree.copyFile path content = some next) :
    next.node? path = some (.file content) := by
  unfold copyFile at hcopied
  split at hcopied
  · contradiction
  · split at hcopied
    · contradiction
    · rw [Option.some.injEq] at hcopied
      rw [← hcopied, node?_put_self]

theorem node?_merge {entries : List (List ν × Node κ)}
    {other : List ν} (hother : ∀ entry ∈ entries, entry.1 ≠ other)
    (tree : Tree ν κ) :
    ((merge entries tree).1).node? other = tree.node? other := by
  induction entries generalizing tree with
  | nil => rfl
  | cons entry rest ih =>
      obtain ⟨path, node⟩ := entry
      have hne : path ≠ other := hother (path, node) (by simp)
      have hrest := ih (fun entry hmem => hother entry (by simp [hmem]))
      unfold merge
      split
      · exact hrest tree
      · split
        · exact hrest tree
        · exact hrest tree
        · exact hrest tree
        · rw [hrest, tree.node?_put_of_ne hne.symm]

theorem node?_map {tree : Tree ν κ} {path : List ν}
    {f : List ν × Node κ → List ν × Node κ}
    (hself : ∀ entry, entry.1 = path → f entry = entry)
    (hother : ∀ entry, (f entry).1 = path → entry.1 = path) :
    node? (tree.map f) path = tree.node? path := by
  induction tree with
  | nil => rfl
  | cons entry tree ih =>
      rw [List.map_cons, node?_cons, node?_cons, ih]
      by_cases hpath : entry.1 = path
      · rw [hself entry hpath]
      · have hmoved : (f entry).1 ≠ path := fun h => hpath (hother entry h)
        rw [if_neg (Ne.symm hmoved), if_neg (Ne.symm hpath)]

theorem node?_rename (tree : Tree ν κ) {source target other : List ν}
    (hsource : Apart source other) (htarget : Apart target other) :
    (tree.rename source target).node? other = tree.node? other := by
  unfold rename
  rw [node?_map]
  · exact tree.node?_remove_of_ne htarget.symm.ne
  · rintro entry rfl
    exact if_neg hsource.1
  · intro entry hentry
    split at hentry
    · exact absurd hentry (htarget.append _).ne
    · exact hentry

theorem node?_move {tree next : Tree ν κ} {source target other : List ν}
    (hsource : Apart source other) (htarget : Apart target other)
    (hmoved : tree.move source target = some next) :
    next.node? other = tree.node? other := by
  have hinside : Apart (tree.moveTarget source target) other := by
    unfold moveTarget
    split
    · exact htarget.append _
    · exact htarget
  have hrename : next = tree.rename source (tree.moveTarget source target) := by
    unfold move at hmoved
    simp only at hmoved
    split at hmoved
    · contradiction
    · contradiction
    · split at hmoved
      · contradiction
      · exact (Option.some.inj hmoved).symm
    · exact (Option.some.inj hmoved).symm
  rw [hrename]
  exact tree.node?_rename hsource hinside

end Tree

end FileTrees
