import Mathlib.Data.Fin.Tuple.Basic
import Mathlib.Logic.Equiv.Basic
import SecaasCharms.StepRuns
import SecaasCharms.WazuhUserFile

/-!
# The API users of the Wazuh manager

At every start of the container a script sets the password of the configured
API user, who is created if there is none of that name, and gives a random
password to each default user who is not the configured one.  The database of
users is behind the Wazuh framework, a parameter with the behaviour it
documents.  Over any number of starts the passwords follow a small
specification that forgets the random ones and remembers only that they are
good ones.
-/

namespace SecaasCharms.WazuhManager

open JsonText
open StepRuns
open TextLines

/-! ## Random passwords -/

def lowercase : List Char := "abcdefghijklmnopqrstuvwxyz".toList

def uppercase : List Char := "ABCDEFGHIJKLMNOPQRSTUVWXYZ".toList

def decimalDigits : List Char := "0123456789".toList

def specialChars : List Char := "@$!%*?&-_".toList

def alphabet : List Char :=
  uppercase ++ lowercase ++ decimalDigits ++ specialChars

/-- What `random` gives to one call of `disable_user`: eight choices from the
alphabet, one from each group, and an order. -/
structure Draw where
  choices : Fin 8 → Fin alphabet.length
  lower : Fin lowercase.length
  digit : Fin decimalDigits.length
  upper : Fin uppercase.length
  special : Fin specialChars.length
  order : Equiv.Perm (Fin (8 + 4))

def Draw.chars (draw : Draw) : Fin (8 + 4) → Char :=
  Fin.append (fun choice => alphabet.get (draw.choices choice))
    ![lowercase.get draw.lower, decimalDigits.get draw.digit,
      uppercase.get draw.upper, specialChars.get draw.special]

def Draw.password (draw : Draw) : Text :=
  List.ofFn (fun position => draw.chars (draw.order position))

/-- A password of twelve known characters with one from each group. -/
structure Strong (password : Text) : Prop where
  length_eq : password.length = 12
  mem_alphabet : ∀ c ∈ password, c ∈ alphabet
  lower : ∃ c ∈ password, c ∈ lowercase
  digit : ∃ c ∈ password, c ∈ decimalDigits
  upper : ∃ c ∈ password, c ∈ uppercase
  special : ∃ c ∈ password, c ∈ specialChars

theorem Draw.mem_password_iff (draw : Draw) (c : Char) :
    c ∈ draw.password ↔ ∃ position, draw.chars position = c := by
  unfold Draw.password
  rw [List.mem_ofFn]
  exact ⟨fun ⟨position, hc⟩ => ⟨draw.order position, hc⟩,
    fun ⟨position, hc⟩ => ⟨draw.order.symm position, by simpa using hc⟩⟩

theorem Draw.chars_group (draw : Draw) (group : Fin 4) :
    draw.chars (Fin.natAdd 8 group) =
      ![lowercase.get draw.lower, decimalDigits.get draw.digit,
        uppercase.get draw.upper, specialChars.get draw.special] group :=
  Fin.append_right _ _ group

theorem Draw.strong_password (draw : Draw) : Strong draw.password where
  length_eq := List.length_ofFn
  mem_alphabet c hc := by
    rcases (draw.mem_password_iff c).mp hc with ⟨position, rfl⟩
    refine Fin.addCases (fun choice => ?_) (fun group => ?_) position
    · have hchoice : draw.chars (Fin.castAdd 4 choice) =
          alphabet.get (draw.choices choice) := Fin.append_left _ _ choice
      rw [hchoice]
      exact List.get_mem _ _
    · rw [draw.chars_group]
      unfold alphabet
      fin_cases group
      · exact List.mem_append_left _ (List.mem_append_left _
          (List.mem_append_right _ (List.get_mem _ _)))
      · exact List.mem_append_left _ (List.mem_append_right _
          (List.get_mem _ _))
      · exact List.mem_append_left _ (List.mem_append_left _
          (List.mem_append_left _ (List.get_mem _ _)))
      · exact List.mem_append_right _ (List.get_mem _ _)
  lower := ⟨_, (draw.mem_password_iff _).mpr ⟨_, draw.chars_group 0⟩,
    List.get_mem _ _⟩
  digit := ⟨_, (draw.mem_password_iff _).mpr ⟨_, draw.chars_group 1⟩,
    List.get_mem _ _⟩
  upper := ⟨_, (draw.mem_password_iff _).mpr ⟨_, draw.chars_group 2⟩,
    List.get_mem _ _⟩
  special := ⟨_, (draw.mem_password_iff _).mpr ⟨_, draw.chars_group 3⟩,
    List.get_mem _ _⟩

/-! ## The framework -/

/-- What the script calls, over databases of type `δ` and ids of type `ι`.
`createRbacDb`, `createUser`, `updateUser` and `setUserRole` give the database
afterwards and whether they returned, `userId` and `roleId` look into what
`db_users` and `db_roles` give, and `other` is the whole script for a name or a
password that is no string. -/
structure Framework (δ ι : Type) where
  createRbacDb : δ → δ × Bool
  userId : δ → Text → Option ι
  roleId : δ → Text → Option ι
  createUser : Text → Text → δ → δ × Bool
  updateUser : ι → Text → δ → δ × Bool
  setUserRole : ι → ι → δ → δ × Bool
  other : Value → Value → δ → δ × Bool

/-- What is in a database, and which passwords the framework takes. -/
structure View (δ : Type) where
  password : δ → Text → Option Text
  accepts : Text → Bool

/-- The behaviour of the framework that the script relies on.  A database that
is there stays as it is, a password is taken or refused by its form, a user is
created under a new name and changed by its id, and a role changes nothing
else. -/
structure Framework.Documented {δ ι : Type} (framework : Framework δ ι)
    (view : View δ) : Prop where
  createRbacDb_eq : ∀ db, framework.createRbacDb db = (db, true)
  createUser_eq : ∀ db name password, framework.userId db name = none →
    view.accepts password = true → ∃ after id,
      framework.createUser name password db = (after, true) ∧
        framework.userId after =
          Function.update (framework.userId db) name (some id) ∧
        framework.roleId after = framework.roleId db ∧
        view.password after =
          Function.update (view.password db) name (some password)
  createUser_refused : ∀ db name password, view.accepts password = false →
    (framework.createUser name password db).2 = false
  updateUser_eq : ∀ db name id password, framework.userId db name = some id →
    view.accepts password = true → ∃ after,
      framework.updateUser id password db = (after, true) ∧
        framework.userId after = framework.userId db ∧
        view.password after =
          Function.update (view.password db) name (some password)
  updateUser_refused : ∀ db id password, view.accepts password = false →
    (framework.updateUser id password db).2 = false
  setUserRole_eq : ∀ db id role, ∃ after,
    framework.setUserRole id role db = (after, true) ∧
      framework.userId after = framework.userId db ∧
      view.password after = view.password db

/-! ## The script -/

section Script

variable {δ ι : Type} (framework : Framework δ ι)

def disableUser (draw : Draw) (id : ι) (db : δ) : δ × Bool :=
  framework.updateUser id draw.password db

def defaultUsers : List Text := ["wazuh".toList, "wazuh-wui".toList]

/-- The last loop, with the ids from before the first change.  A default user
that is missing raises `KeyError`. -/
def disableDefaults (initial : δ) (username : Text) (draws : Text → Draw) :
    List Text → δ → δ × Bool
  | [], db => (db, true)
  | name :: names, db =>
      if name = username then disableDefaults initial username draws names db
      else
        match framework.userId initial name with
        | none => (db, false)
        | some id =>
            match disableUser framework (draws name) id db with
            | (after, false) => (after, false)
            | (after, true) =>
                disableDefaults initial username draws names after

/-- The user gets the password, and a new one its role.  The flag is false
after an exception. -/
def configureUser (username password : Text) (db : δ) : δ × Bool :=
  match framework.userId db username with
  | some id => framework.updateUser id password db
  | none =>
      match framework.createUser username password db with
      | (created, false) => (created, false)
      | (created, true) =>
          match framework.userId created username,
              framework.roleId created "administrator".toList with
          | some id, some role => framework.setUserRole id role created
          | _, _ => (created, false)

/-- `create_user.py`, from the file that was read. -/
def createUserScript (username password : Text) (draws : Text → Draw)
    (db : δ) : δ × Bool :=
  match framework.createRbacDb db with
  | (initial, false) => (initial, false)
  | (initial, true) =>
      match configureUser framework username password initial with
      | (after, false) => (after, false)
      | (after, true) =>
          disableDefaults framework initial username draws defaultUsers after

/-- One start of the container. -/
structure Start where
  username : Text
  password : Text
  draws : Text → Draw

def Start.Configures (start : Start) : Prop :=
  start.username ≠ [] ∧ start.password ≠ []

instance : DecidablePred Start.Configures :=
  fun start => inferInstanceAs
    (Decidable (start.username ≠ [] ∧ start.password ≠ []))

/-- `function_create_custom_user`; the container ends if the script fails. -/
def createCustomUser (start : Start) (db : δ) : δ × Bool :=
  if start.Configures then
    match readUserFile (adminFile start.username start.password) with
    | none => (db, false)
    | some (.str username, .str password) =>
        createUserScript framework username password start.draws db
    | some (username, password) => framework.other username password db
  else (db, true)

end Script

section Documented

variable {δ ι : Type} {framework : Framework δ ι} {view : View δ}
variable (hframework : framework.Documented view)

include hframework

/-! ## What a start that gets through leaves -/

theorem accepts_of_updateUser {id : ι} {password : Text} {db : δ}
    (hthrough : (framework.updateUser id password db).2 = true) :
    view.accepts password = true := by
  cases haccepts : view.accepts password with
  | true => rfl
  | false =>
      rw [hframework.updateUser_refused db id password haccepts] at hthrough
      contradiction

theorem accepts_of_createUser {name password : Text} {db : δ}
    (hthrough : (framework.createUser name password db).2 = true) :
    view.accepts password = true := by
  cases haccepts : view.accepts password with
  | true => rfl
  | false =>
      rw [hframework.createUser_refused db name password haccepts] at hthrough
      contradiction

/-- Every name that was taken still has its id. -/
def KeepsIds (framework : Framework δ ι) (before after : δ) : Prop :=
  ∀ name id, framework.userId before name = some id →
    framework.userId after name = some id

theorem configureUser_of_known {username password : Text} {db : δ} {id : ι}
    (hid : framework.userId db username = some id)
    (haccepts : view.accepts password = true) :
    ∃ after, configureUser framework username password db = (after, true) ∧
      KeepsIds framework db after ∧
      view.password after =
        Function.update (view.password db) username (some password) := by
  obtain ⟨after, hupdate, hids, hpassword⟩ :=
    hframework.updateUser_eq db username id password hid haccepts
  refine ⟨after, ?_, ?_, hpassword⟩
  · rw [configureUser, hid]
    exact hupdate
  · intro name other hother
    rw [hids]
    exact hother

theorem configureUser_of_new {username password : Text} {db : δ} {role : ι}
    (hnew : framework.userId db username = none)
    (hrole : framework.roleId db "administrator".toList = some role)
    (haccepts : view.accepts password = true) :
    ∃ after, configureUser framework username password db = (after, true) ∧
      KeepsIds framework db after ∧
      view.password after =
        Function.update (view.password db) username (some password) := by
  obtain ⟨created, id, hcreate, hids, hroles, hpassword⟩ :=
    hframework.createUser_eq db username password hnew haccepts
  obtain ⟨after, hset, hidsAfter, hpasswordAfter⟩ :=
    hframework.setUserRole_eq created id role
  have hid : framework.userId created username = some id := by
    rw [hids, Function.update_self]
  refine ⟨after, ?_, ?_, hpasswordAfter.trans hpassword⟩
  · rw [configureUser, hnew]
    simp only [hcreate, hid, hroles, hrole, hset]
  · intro name other hother
    have hne : name ≠ username := by
      intro hname
      rw [hname, hnew] at hother
      contradiction
    rw [hidsAfter, hids, Function.update_of_ne hne]
    exact hother

theorem configureUser_through_iff (username password : Text) (db : δ) :
    (configureUser framework username password db).2 = true ↔
      view.accepts password = true ∧
        (framework.userId db username = none →
          framework.roleId db "administrator".toList ≠ none) := by
  cases hid : framework.userId db username with
  | some id =>
      constructor
      · intro hthrough
        rw [configureUser, hid] at hthrough
        exact ⟨accepts_of_updateUser hframework hthrough,
          fun hnone => by cases hnone⟩
      · rintro ⟨haccepts, -⟩
        obtain ⟨after, hafter, -⟩ :=
          configureUser_of_known hframework hid haccepts
        rw [hafter]
  | none =>
      constructor
      · intro hthrough
        rw [configureUser, hid] at hthrough
        rcases hcreated : framework.createUser username password db
          with ⟨created, returned⟩
        cases returned with
        | false =>
            simp only [hcreated] at hthrough
            contradiction
        | true =>
            have haccepts := accepts_of_createUser hframework
              (congrArg Prod.snd hcreated)
            obtain ⟨after, new, hcreate, -, hroles, -⟩ :=
              hframework.createUser_eq db username password hid haccepts
            have hsame : created = after :=
              congrArg Prod.fst (hcreated.symm.trans hcreate)
            refine ⟨haccepts, fun _ hrole => ?_⟩
            simp only [hcreated, hsame, hroles, hrole] at hthrough
            split at hthrough
            · contradiction
            · contradiction
      · rintro ⟨haccepts, hroles⟩
        obtain ⟨role, hrole⟩ := Option.ne_none_iff_exists'.mp (hroles rfl)
        obtain ⟨after, hafter, -⟩ :=
          configureUser_of_new hframework hid hrole haccepts
        rw [hafter]

theorem configureUser_spec {username password : Text} {db after : δ}
    (hthrough : configureUser framework username password db = (after, true)) :
    KeepsIds framework db after ∧
      view.password after =
        Function.update (view.password db) username (some password) := by
  have hconditions := (configureUser_through_iff hframework username password
    db).mp (congrArg Prod.snd hthrough)
  have hspec : ∃ last,
      configureUser framework username password db = (last, true) ∧
        KeepsIds framework db last ∧
        view.password last =
          Function.update (view.password db) username (some password) := by
    cases hid : framework.userId db username with
    | some id => exact configureUser_of_known hframework hid hconditions.1
    | none =>
        obtain ⟨role, hrole⟩ :=
          Option.ne_none_iff_exists'.mp (hconditions.2 hid)
        exact configureUser_of_new hframework hid hrole hconditions.1
  obtain ⟨last, hlast, hids, hpassword⟩ := hspec
  have hsame : after = last :=
    congrArg Prod.fst (hthrough.symm.trans hlast)
  rw [hsame]
  exact ⟨hids, hpassword⟩

theorem disableDefaults_spec {initial : δ} {username : Text}
    {draws : Text → Draw} {names : List Text} {db after : δ}
    (hids : KeepsIds framework initial db)
    (hthrough : disableDefaults framework initial username draws names db =
      (after, true)) (name : Text) :
    view.password after name =
      if name ∈ names ∧ name ≠ username then some (draws name).password
      else view.password db name := by
  induction names generalizing db with
  | nil =>
      cases hthrough
      simp
  | cons first names ih =>
      unfold disableDefaults at hthrough
      split_ifs at hthrough with husername
      · rw [ih hids hthrough]
        by_cases hname : name = username
        · simp [hname]
        · have hfirst : name ≠ first := fun h => hname (h.trans husername)
          simp [hname, hfirst]
      · cases hid : framework.userId initial first with
        | none =>
            simp only [hid] at hthrough
            cases hthrough
        | some id =>
            rcases hupdated : framework.updateUser id (draws first).password db
              with ⟨updated, returned⟩
            simp only [hid, disableUser, hupdated] at hthrough
            cases returned with
            | false => cases hthrough
            | true =>
                have haccepts := accepts_of_updateUser hframework
                  (congrArg Prod.snd hupdated)
                obtain ⟨last, hlast, hkept, hpassword⟩ :=
                  hframework.updateUser_eq db first id _ (hids first id hid)
                    haccepts
                have hsame : updated = last :=
                  congrArg Prod.fst (hupdated.symm.trans hlast)
                have hinitial : KeepsIds framework initial updated := by
                  intro other otherId hother
                  rw [hsame, hkept]
                  exact hids other otherId hother
                rw [ih hinitial hthrough, hsame, hpassword]
                by_cases hname : name = first
                · simp [hname, husername]
                · simp [hname]

theorem disableDefaults_through_iff
    (hstrong : ∀ password, Strong password → view.accepts password = true)
    {initial : δ} {username : Text} {draws : Text → Draw} (names : List Text)
    {db : δ} (hids : KeepsIds framework initial db) :
    (disableDefaults framework initial username draws names db).2 = true ↔
      ∀ name ∈ names, name ≠ username →
        framework.userId initial name ≠ none := by
  induction names generalizing db with
  | nil => simp [disableDefaults]
  | cons first names ih =>
      unfold disableDefaults
      rw [List.forall_mem_cons]
      split_ifs with hfirst
      · rw [ih hids, iff_and_self]
        exact fun _ hne => absurd hfirst hne
      · rw [forall_prop_of_true hfirst]
        cases hid : framework.userId initial first with
        | none => simp
        | some id =>
            obtain ⟨last, hlast, hkept, -⟩ :=
              hframework.updateUser_eq db first id (draws first).password
                (hids first id hid) (hstrong _ (draws first).strong_password)
            have hinitial : KeepsIds framework initial last := by
              intro other otherId hother
              rw [hkept]
              exact hids other otherId hother
            simp only [disableUser, hlast, ih hinitial]
            simp

/-- The script, once it gets through, has set the password of its user and
changed those of the other default users, and of nobody else. -/
theorem createUserScript_spec {username password : Text}
    {draws : Text → Draw} {db after : δ}
    (hthrough : createUserScript framework username password draws db =
      (after, true)) (name : Text) :
    view.password after name =
      if name = username then some password
      else if name ∈ defaultUsers then some (draws name).password
      else view.password db name := by
  unfold createUserScript at hthrough
  rw [hframework.createRbacDb_eq] at hthrough
  rcases hconfigured : configureUser framework username password db with
    ⟨configured, through⟩
  cases through with
  | false =>
      simp only [hconfigured] at hthrough
      cases hthrough
  | true =>
      simp only [hconfigured] at hthrough
      have hspec := configureUser_spec hframework hconfigured
      rw [disableDefaults_spec hframework hspec.1 hthrough, hspec.2]
      by_cases hname : name = username
      · simp [hname]
      · simp [hname]

/-! ## When a start gets through -/

theorem createUserScript_through_iff
    (hstrong : ∀ password, Strong password → view.accepts password = true)
    (username password : Text) (draws : Text → Draw) (db : δ) :
    (createUserScript framework username password draws db).2 = true ↔
      view.accepts password = true ∧
        (framework.userId db username = none →
          framework.roleId db "administrator".toList ≠ none) ∧
        ∀ name ∈ defaultUsers, name ≠ username →
          framework.userId db name ≠ none := by
  have hconfigured :=
    configureUser_through_iff hframework username password db
  rw [← and_assoc, ← hconfigured, createUserScript,
    hframework.createRbacDb_eq]
  rcases hresult : configureUser framework username password db
    with ⟨after, through⟩
  cases through with
  | false => simp [hresult]
  | true =>
      have hids := (configureUser_spec hframework hresult).1
      simp only [hresult, true_and]
      exact disableDefaults_through_iff hframework hstrong defaultUsers hids

/-- With a framework that takes strong passwords, a start gets through exactly
if the password that is read is taken, a new user can get its role, and the
other default users are there. -/
theorem createCustomUser_through_iff
    (hstrong : ∀ password, Strong password → view.accepts password = true)
    {start : Start} (hconfigures : start.Configures)
    {username password : Text}
    (hread : readUserFile (adminFile start.username start.password) =
      some (.str username, .str password)) (db : δ) :
    (createCustomUser framework start db).2 = true ↔
      view.accepts password = true ∧
        (framework.userId db username = none →
          framework.roleId db "administrator".toList ≠ none) ∧
        ∀ name ∈ defaultUsers, name ≠ username →
          framework.userId db name ≠ none := by
  rw [createCustomUser, if_pos hconfigures, hread]
  exact createUserScript_through_iff hframework hstrong username password
    start.draws db

end Documented

/-! ## Runs of starts -/

/-- What is known of a password: the text, or that it is a good one. -/
inductive Secret where
  | known (password : Text)
  | random

/-- The user that the script reads back, if the file gives two texts. -/
def Start.user? (start : Start) : Option (Text × Text) :=
  match readUserFile (adminFile start.username start.password) with
  | some (.str username, .str password) => some (username, password)
  | _ => none

/-- What a user with a password makes of the accounts. -/
def configured (username password : Text) (accounts : Text → Option Secret) :
    Text → Option Secret :=
  fun name =>
    if name = username then some (.known password)
    else if defaultUsers.contains name then some .random
    else accounts name

/-- The specification of one start. -/
def specStep (accounts : Text → Option Secret) (start : Start) :
    Text → Option Secret :=
  if start.Configures then
    match start.user? with
    | none => accounts
    | some (username, password) => configured username password accounts
  else accounts

def Secret.Fits : Option Secret → Option Text → Prop
  | none, password => password = none
  | some (.known text), password => password = some text
  | some .random, password => ∃ text, password = some text ∧ Strong text

section Runs

variable {δ ι : Type} (framework : Framework δ ι) (view : View δ)

def Follows (db : δ) (accounts : Text → Option Secret) : Prop :=
  ∀ name, Secret.Fits (accounts name) (view.password db name)

def startStep (db : δ) (start : Start) : δ :=
  (createCustomUser framework start db).1

/-- The start gets through, and the file of a user it configures gives two
texts. -/
def Through (db : δ) (start : Start) : Prop :=
  (start.Configures → start.user? ≠ none) ∧
    (createCustomUser framework start db).2 = true

variable {framework view} (hframework : framework.Documented view)

include hframework

theorem follows_startStep {db : δ} {accounts : Text → Option Secret}
    {start : Start} (hfollows : Follows view db accounts)
    (hthrough : Through framework db start) :
    Follows view (startStep framework db start)
      (specStep accounts start) := by
  rcases hthrough with ⟨hreads, hthrough⟩
  unfold createCustomUser at hthrough
  unfold startStep createCustomUser specStep
  split_ifs at hthrough ⊢ with hconfigures
  · have hread := hreads hconfigures
    unfold Start.user? at hread ⊢
    split at hread
    · rename_i username password hfile
      simp only [hfile] at hthrough ⊢
      rcases hscript : createUserScript framework username password
        start.draws db with ⟨after, through⟩
      rw [hscript] at hthrough
      have hspec := createUserScript_spec hframework
        (hscript.trans (congrArg (Prod.mk after) hthrough))
      intro name
      rw [hspec name, configured]
      simp only [List.contains_iff_mem]
      split_ifs
      · rfl
      · exact ⟨_, rfl, (start.draws name).strong_password⟩
      · exact hfollows name
    · exact absurd rfl hread
  · exact hfollows

/-- In every run of starts that get through, each user who was ever configured
has the password of the latest start that names it, unless it is a default
user and a later start named another one: then, as for every default user who
was never named, it is a strong random password.  Nobody else's changes. -/
theorem follows_of_run {db : δ} {accounts : Text → Option Secret}
    (hfollows : Follows view db accounts) {starts : List Start}
    (hthrough : EveryStep (startStep framework) (Through framework) db
      starts) :
    Follows view (run (startStep framework) db starts)
      (run specStep accounts starts) := by
  have hstep : ∀ (state : δ) (spec : Text → Option Secret) (start : Start),
      Follows view state spec → Through framework state start →
        Follows view (startStep framework state start)
          (specStep spec start) :=
    fun _ _ _ hrelated hpermitted =>
      follows_startStep hframework hrelated hpermitted
  exact run_simulates (Follows view) hstep hfollows hthrough

end Runs

/-! ## A manager as it is shipped -/

/-- Users under their names, whose ids are the names. -/
abbrev Accounts := Text → Option Text

def takes (password : Text) : Bool :=
  8 ≤ password.length ∧ password.length ≤ 64

def shippedFramework : Framework Accounts Text where
  createRbacDb db := (db, true)
  userId db name := (db name).map (fun _ => name)
  roleId _ role :=
    if role = "administrator".toList then some role else none
  createUser name password db :=
    if takes password ∧ db name = none then
      (Function.update db name (some password), true)
    else (db, false)
  updateUser id password db :=
    if takes password then
      (if db id = none then db else Function.update db id (some password), true)
    else (db, false)
  setUserRole _ _ db := (db, true)
  other _ _ db := (db, false)

def shippedView : View Accounts := ⟨id, takes⟩

theorem map_update_known {db : Accounts} {name password : Text} :
    (fun other => ((Function.update db name (some password)) other).map
        (fun _ => other)) =
      Function.update (fun other => (db other).map (fun _ => other)) name
        (some name) := by
  funext other
  by_cases hother : other = name
  · rw [hother, Function.update_self, Function.update_self]
    rfl
  · rw [Function.update_of_ne hother, Function.update_of_ne hother]

theorem documented_shippedFramework :
    shippedFramework.Documented shippedView where
  createRbacDb_eq _ := rfl
  createUser_eq db name password hnew haccepts := by
    have hfree : db name = none := Option.map_eq_none_iff.mp hnew
    refine ⟨Function.update db name (some password), name, ?_,
      map_update_known, rfl, rfl⟩
    exact if_pos ⟨haccepts, hfree⟩
  createUser_refused db name password hrefused := by
    have hnot : ¬ (takes password = true ∧ db name = none) := by
      rintro ⟨htakes, -⟩
      exact absurd (hrefused.symm.trans htakes) Bool.false_ne_true
    exact congrArg Prod.snd (if_neg hnot)
  updateUser_eq db name id password hid haccepts := by
    obtain ⟨before, hbefore, hname⟩ := Option.map_eq_some_iff.mp hid
    have hknown : ¬ db id = none := by
      rw [← hname, hbefore]
      exact Option.some_ne_none before
    have htakes : takes password = true := haccepts
    refine ⟨Function.update db name (some password), ?_, ?_, rfl⟩
    · show (if takes password then
          (if db id = none then db else Function.update db id (some password),
            true)
        else (db, false)) = _
      rw [if_pos htakes, if_neg hknown, hname]
    · show (fun other => ((Function.update db name (some password)) other).map
        (fun _ => other)) = _
      rw [map_update_known]
      funext other
      by_cases hother : other = name
      · rw [hother, Function.update_self]
        exact (hid.trans (congrArg some hname.symm)).symm
      · rw [Function.update_of_ne hother]
        rfl
  updateUser_refused db id password hrefused := by
    have hnot : ¬ takes password = true := by
      intro htakes
      exact absurd (hrefused.symm.trans htakes) Bool.false_ne_true
    exact congrArg Prod.snd (if_neg hnot)
  setUserRole_eq db _ _ := ⟨db, rfl, rfl, rfl⟩

def shippedUsers : Accounts := fun name =>
  if name = "wazuh".toList then some "wazuh".toList
  else if name = "wazuh-wui".toList then some "wazuh-wui".toList
  else none

def firstDraw : Draw where
  choices _ := ⟨0, by decide⟩
  lower := ⟨0, by decide⟩
  digit := ⟨0, by decide⟩
  upper := ⟨0, by decide⟩
  special := ⟨0, by decide⟩
  order := Equiv.refl _

def adminStart : Start :=
  ⟨"admin".toList, "secret-0A".toList, fun _ => firstDraw⟩

theorem readUserFile_adminStart :
    readUserFile (adminFile adminStart.username adminStart.password) =
      some (.str "admin".toList, .str "secret-0A".toList) :=
  readUserFile_of_plain (by decide) (by decide)

theorem accepts_of_strong {password : Text} (hpassword : Strong password) :
    shippedView.accepts password = true := by
  have hlength := hpassword.length_eq
  exact decide_eq_true ⟨by omega, by omega⟩

theorem createCustomUser_through_iff_admin :
    (createCustomUser shippedFramework adminStart shippedUsers).2 = true ↔
      shippedView.accepts "secret-0A".toList = true ∧
        (shippedFramework.userId shippedUsers "admin".toList = none →
          shippedFramework.roleId shippedUsers "administrator".toList ≠
            none) ∧
        ∀ name ∈ defaultUsers, name ≠ "admin".toList →
          shippedFramework.userId shippedUsers name ≠ none :=
  createCustomUser_through_iff documented_shippedFramework
    (fun _ => accepts_of_strong) (by decide) readUserFile_adminStart
    shippedUsers

theorem through_adminStart :
    Through shippedFramework shippedUsers adminStart := by
  constructor
  · intro _
    rw [Start.user?, readUserFile_adminStart]
    exact Option.some_ne_none _
  · have hconfigures : adminStart.Configures := by decide
    rw [createCustomUser, if_pos hconfigures, readUserFile_adminStart]
    exact (createUserScript_through_iff documented_shippedFramework
      (fun _ => accepts_of_strong) _ _ _ _).mpr (by decide)

theorem follows_of_run_admin :
    Follows shippedView
      (run (startStep shippedFramework) shippedUsers [adminStart])
      (run specStep (fun name => (shippedUsers name).map Secret.known)
        [adminStart]) := by
  refine @follows_of_run _ _ shippedFramework shippedView
    documented_shippedFramework shippedUsers _ ?_ [adminStart]
    ⟨through_adminStart, trivial⟩
  intro name
  show Secret.Fits ((shippedUsers name).map Secret.known) (shippedUsers name)
  cases shippedUsers name with
  | none => rfl
  | some password => rfl

end SecaasCharms.WazuhManager
