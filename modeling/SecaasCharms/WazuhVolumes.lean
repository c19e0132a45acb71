import SecaasCharms.FileTrees
import SecaasCharms.StepRuns
import SecaasCharms.TextLines

/-!
# The Wazuh manager's volumes over container starts

`permanent_data.sh` sets the files of the image aside while it is built, and
the start script `0-wazuh-init` brings them into the ten volumes of the
manager each time a container starts, with an image of the same or of another
version.  An empty volume is filled once; the files of `PERMANENT_DATA_EXCP`
are replaced at every start.  A container that is restarted in place has lost
what was set aside, and starts with an empty image.
-/

namespace SecaasCharms.WazuhVolumes

open TextLines
open StepRuns
open FileTrees

abbrev Path := List Text

abbrev Volumes := Tree Text Text

def path (text : String) : Path :=
  (text.toList.splitOn '/').filter (fun name => name ≠ [])

/-! ## `permanent_data.env` -/

def permanentData : List Path :=
  ["/var/ossec/api/configuration", "/var/ossec/etc", "/var/ossec/logs",
    "/var/ossec/queue", "/var/ossec/agentless", "/var/ossec/var/multigroups",
    "/var/ossec/integrations", "/var/ossec/active-response/bin",
    "/var/ossec/wodles", "/etc/filebeat"].map path

def within (directory : String) (names : List String) : List Path :=
  names.map (fun name => path directory ++ path name)

def permanentDataExcp : List Path :=
  within "/var/ossec/etc" ["internal_options.conf"] ++
  within "/var/ossec/integrations"
    ["pagerduty", "slack", "slack.py", "virustotal", "virustotal.py"] ++
  within "/var/ossec/active-response/bin"
    ["default-firewall-drop", "disable-account", "firewalld-drop",
      "firewall-drop", "host-deny", "ip-customblock", "ipfw",
      "kaspersky.py", "kaspersky", "npf", "wazuh-slack", "pf",
      "restart-wazuh", "restart.sh", "route-null"] ++
  within "/var/ossec/agentless"
    ["sshlogin.exp", "ssh_pixconfig_diff", "ssh_asa-fwsmconfig_diff",
      "ssh_integrity_check_bsd", "main.exp", "su.exp",
      "ssh_integrity_check_linux", "register_host.sh", "ssh_generic_diff",
      "ssh_foundry_diff", "ssh_nopass.exp", "ssh.exp"] ++
  within "/var/ossec/wodles"
    ["utils.py", "aws/aws-s3", "aws/aws-s3.py", "azure/azure-logs",
      "azure/azure-logs.py", "docker/DockerListener",
      "docker/DockerListener.py", "gcloud/gcloud", "gcloud/gcloud.py",
      "gcloud/integration.py", "gcloud/tools.py"]

def permanentDataDel : List Path :=
  ["/var/ossec/queue/db/.template.db"].map path

def permanentDataMove : List (Path × Path) :=
  [(path "/var/ossec/logs/ossec", path "/var/ossec/logs/wazuh"),
    (path "/var/ossec/queue/ossec", path "/var/ossec/queue/sockets")]

/-- `WAZUH_INSTALL_PATH`. -/
def installPath : Path := path "/var/ossec"

def sslmanagerKey : Path := path "/var/ossec/etc/sslmanager.key"

def sslmanagerCert : Path := path "/var/ossec/etc/sslmanager.cert"

def ossecConf : Path := path "/var/ossec/etc/ossec.conf"

/-- The paths that the start script handles one by one, beside the files of
`PERMANENT_DATA_EXCP`. -/
def handledPaths : List Path :=
  permanentDataDel ++ permanentDataMove.map Prod.fst ++
    permanentDataMove.map Prod.snd ++ [ossecConf]

theorem env_apart :
    permanentData.Pairwise Apart ∧ permanentDataExcp.Pairwise Apart ∧
      ∀ exclusionFile ∈ permanentDataExcp,
        ∀ other ∈ sslmanagerKey :: sslmanagerCert :: handledPaths,
          Apart other exclusionFile := by
  decide +kernel

/-! ## `permanent_data.sh` -/

/-- What is left to be copied when the exclusion files have been moved away. -/
def template (image : Volumes) : Volumes :=
  image.filter fun entry =>
    ¬ ∃ exclusionFile ∈ permanentDataExcp, exclusionFile <+: entry.1

/-! ## `0-wazuh-init` -/

/-- A file that a command writes, and whether the command then succeeds. -/
structure Written where
  text : Option Text
  succeeded : Bool

/-- One start of a container: the files under the permanent directories when
its image was built, its environment, and what its commands meet. -/
structure Start where
  image : Volumes
  autoEnrollment : Bool
  /-- The entries of `/wazuh-config-mount`, under the paths they go to. -/
  wazuhConfigMount : Option (List (Path × Node Text))
  /-- What the three calls of `sed` make of a configuration file. -/
  customized : Text → Text
  /-- `cp -a` to this directory ends halfway, after these paths. -/
  interrupted : Path → Option (Path → Bool)
  /-- `cp -p` to this file fails, and leaves this text there or nothing new. -/
  broken : Path → Option (Option Text)
  /-- `mv` or `rm` of this file fails. -/
  refused : Path → Bool
  genrsa : Written
  req : Written

def mountDirectory (start : Start) (permanentDir : Path) : Script Volumes :=
  fun volumes =>
    let dataTmp := (template start.image).filter
      (fun entry => Below permanentDir entry.1)
    if volumes.Occupied permanentDir then (volumes, true)
    else if dataTmp = [] then (volumes, true)
    else
      match start.interrupted permanentDir with
      | none => (volumes ++ dataTmp, true)
      | some copied =>
          (volumes ++ dataTmp.filter (fun entry => copied entry.1), false)

def mountPermanentData (start : Start) : Script Volumes :=
  Script.forEach (mountDirectory start) permanentData

def updateFile (start : Start) (exclusionFile : Path) : Script Volumes :=
  fun volumes =>
    match start.image.node? exclusionFile with
    | none => (volumes, true)
    | some node =>
        let volumes :=
          if volumes.node? exclusionFile.dropLast = none then
            volumes.makeDirectories exclusionFile.dropLast
          else volumes
        match node, start.broken exclusionFile with
        | .directory, _ => (volumes, false)
        | .file _, some left =>
            (((left.bind (volumes.copyFile exclusionFile)).getD volumes), false)
        | .file content, none =>
            match volumes.copyFile exclusionFile content with
            | none => (volumes, false)
            | some next => (next, true)

def applyExclusionData (start : Start) : Script Volumes :=
  Script.forEach (updateFile start) permanentDataExcp

def moveFile (start : Start) (movFile : Path × Path) : Script Volumes :=
  fun volumes =>
    if volumes.node? movFile.1 = none then (volumes, true)
    else if start.refused movFile.1 then (volumes, false)
    else
      match volumes.move movFile.1 movFile.2 with
      | none => (volumes, false)
      | some next => (next, true)

def moveDataFiles (start : Start) : Script Volumes :=
  Script.forEach (moveFile start) permanentDataMove

def removeFile (start : Start) (delFile : Path) : Script Volumes :=
  fun volumes =>
    match volumes.node? delFile with
    | none => (volumes, true)
    | some .directory => (volumes, false)
    | some (.file _) =>
        if start.refused delFile then (volumes, false)
        else (volumes.remove delFile, true)

def removeDataFiles (start : Start) : Script Volumes :=
  Script.forEach (removeFile start) permanentDataDel

def openssl (path : Path) (written : Written) : Script Volumes :=
  fun volumes =>
    ((written.text.map (fun text => volumes.put path (.file text))).getD volumes,
      written.succeeded)

def createOssecKeyCert (start : Start) : Script Volumes :=
  (openssl sslmanagerKey start.genrsa).andThen (openssl sslmanagerCert start.req)

/-- The certificate is made once, when there is no key yet. -/
def enroll (start : Start) : Script Volumes := fun volumes =>
  if start.autoEnrollment ∧ volumes.node? sslmanagerKey = none then
    createOssecKeyCert start volumes
  else (volumes, true)

/-- What `*` stands for leaves out the names in the mount that begin with a
dot, and what is below them. -/
def matchesGlob (path : Path) : Bool :=
  (path.drop installPath.length).head?.bind List.head? ≠ some '.'

/-- Where nothing matches, `cp` looks for a file named `*` and fails. -/
def mountFiles (start : Start) : Script Volumes := fun volumes =>
  match start.wazuhConfigMount with
  | none => (volumes, true)
  | some entries =>
      let matched := entries.filter (fun entry => matchesGlob entry.1)
      if matched = [] then (volumes, false)
      else
        Tree.merge (matched.filter fun entry =>
          ∃ permanentDir ∈ permanentData, Below permanentDir entry.1) volumes

/-- `set_custom_hostname`, `set_custom_cluster_key` and `set_custom_nodename`,
whose failures are ignored. -/
def setCustom (start : Start) : Script Volumes := fun volumes =>
  match volumes.node? ossecConf with
  | some (.file text) =>
      (volumes.put ossecConf (.file (start.customized text)), true)
  | _ => (volumes, true)

/-- `main` behind the two loops over the image's files. -/
def settle (start : Start) : Script Volumes :=
  (moveDataFiles start).andThen <|
    (removeDataFiles start).andThen <|
      (enroll start).andThen <| (mountFiles start).andThen <| setCustom start

def main (start : Start) : Script Volumes :=
  (mountPermanentData start).andThen <|
    (applyExclusionData start).andThen <| settle start

/-! ## Runs -/

/-- A container starts, or the manager or its users change a file. -/
inductive Event where
  | start (start : Start)
  | write (path : Path) (node : Node Text)
  | delete (path : Path)

def volumeStep (volumes : Volumes) : Event → Volumes
  | .start start => (main start volumes).1
  | .write path node => volumes.put path node
  | .delete path => volumes.remove path

/-! ## What a command leaves alone -/

theorem updateFile_node? (start : Start) {exclusionFile other : Path}
    (hapart : Apart exclusionFile other) (volumes : Volumes) :
    (updateFile start exclusionFile volumes).1.node? other =
      volumes.node? other := by
  have hdir : ¬ other <+: exclusionFile.dropLast := fun hleads =>
    hapart.2 (hleads.trans (List.dropLast_prefix exclusionFile))
  unfold updateFile
  split
  · rfl
  · have hmade : (if volumes.node? exclusionFile.dropLast = none then
        volumes.makeDirectories exclusionFile.dropLast
        else volumes).node? other = volumes.node? other := by
      split
      · exact volumes.node?_makeDirectories hdir
      · rfl
    generalize (if volumes.node? exclusionFile.dropLast = none then
      volumes.makeDirectories exclusionFile.dropLast else volumes) = made at *
    simp only
    split
    · exact hmade
    next left _ _ =>
      cases hcopied : left.bind (made.copyFile exclusionFile) with
      | none => exact hmade
      | some next =>
          obtain ⟨text, _, htext⟩ := Option.bind_eq_some_iff.mp hcopied
          exact (Tree.node?_copyFile hapart htext).trans hmade
    · split
      · exact hmade
      next hcopied => exact (Tree.node?_copyFile hapart hcopied).trans hmade

theorem moveFile_node? (start : Start) {movFile : Path × Path} {other : Path}
    (hsource : Apart movFile.1 other) (htarget : Apart movFile.2 other)
    (volumes : Volumes) :
    (moveFile start movFile volumes).1.node? other = volumes.node? other := by
  unfold moveFile
  split
  · rfl
  · split
    · rfl
    · split
      · rfl
      next hmoved => exact Tree.node?_move hsource htarget hmoved

theorem removeFile_node? (start : Start) {delFile other : Path}
    (hne : other ≠ delFile) (volumes : Volumes) :
    (removeFile start delFile volumes).1.node? other =
      volumes.node? other := by
  unfold removeFile
  split
  · rfl
  · rfl
  · split
    · rfl
    · exact volumes.node?_remove_of_ne hne

theorem openssl_node? {path other : Path} (hne : other ≠ path)
    (written : Written) (volumes : Volumes) :
    (openssl path written volumes).1.node? other = volumes.node? other := by
  unfold openssl
  cases written.text with
  | none => rfl
  | some text => exact volumes.node?_put_of_ne hne _

theorem setCustom_node? (start : Start) {other : Path}
    (hne : other ≠ ossecConf) (volumes : Volumes) :
    (setCustom start volumes).1.node? other = volumes.node? other := by
  unfold setCustom
  split
  · exact volumes.node?_put_of_ne hne _
  · rfl

/-- Nothing in `/wazuh-config-mount` is for this path. -/
def Start.Spares (start : Start) (path : Path) : Prop :=
  ∀ entries, start.wazuhConfigMount = some entries →
    ∀ entry ∈ entries, entry.1 ≠ path

theorem mountFiles_node? {start : Start} {other : Path}
    (hspares : start.Spares other) (volumes : Volumes) :
    (mountFiles start volumes).1.node? other = volumes.node? other := by
  unfold mountFiles
  split
  · rfl
  next entries hmount =>
    simp only
    split_ifs
    · rfl
    · apply Tree.node?_merge
      intro entry hentry
      have hmatched := List.mem_of_mem_filter hentry
      exact hspares entries hmount entry (List.mem_of_mem_filter hmatched)

/-! ## What `cp -a` brings -/

theorem dataTmp_node? (image : Volumes) (permanentDir path : Path)
    (keep : Path → Bool) :
    Tree.node? (((template image).filter
      (fun entry => Below permanentDir entry.1)).filter
        (fun entry => keep entry.1)) path =
      if Below permanentDir path ∧ keep path = true then
        (template image).node? path
      else none := by
  have hbelow := (template image).node?_filter
    (fun path => Below permanentDir path) path
  rw [Tree.node?_filter, hbelow]
  by_cases hkeep : keep path = true <;> simp [hkeep]

theorem dataTmp_eq_nil_iff (image : Volumes) (permanentDir : Path) :
    (template image).filter (fun entry => Below permanentDir entry.1) = [] ↔
      ¬ (template image).Occupied permanentDir := by
  simp [Tree.Occupied]

/-- An empty volume gets from the template what the copy reached. -/
theorem mountDirectory_lookup (start : Start) (permanentDir : Path)
    (volumes : Volumes) (path : Path) :
    (mountDirectory start permanentDir volumes).1.node? path =
      if ¬ volumes.Occupied permanentDir ∧ Below permanentDir path ∧
          (start.interrupted permanentDir).all (fun copied => copied path) then
        (volumes.node? path).or ((template start.image).node? path)
      else volumes.node? path := by
  unfold mountDirectory
  simp only [dataTmp_eq_nil_iff]
  by_cases hoccupied : volumes.Occupied permanentDir
  · simp [hoccupied]
  by_cases htemplate : (template start.image).Occupied permanentDir
  · cases hinterrupted : start.interrupted permanentDir with
    | none =>
        have hdata := dataTmp_node? start.image permanentDir path
          (fun _ => true)
        simp only [List.filter_true, and_true] at hdata
        by_cases hbelow : Below permanentDir path <;>
          simp [hoccupied, htemplate, Tree.node?_append, hdata, hbelow]
    | some copied =>
        have hdata := dataTmp_node? start.image permanentDir path copied
        simp only [hoccupied, htemplate, not_true_eq_false, if_false,
          Tree.node?_append, hdata, not_false_eq_true, Option.all_some,
          true_and]
        split
        · rfl
        · rw [Option.or_none]
  · have hnone : Below permanentDir path →
        (template start.image).node? path = none := by
      intro hbelow
      by_contra hsome
      exact htemplate (Tree.occupied_iff.mpr ⟨path, hbelow, hsome⟩)
    simp only [hoccupied, htemplate, if_false, not_false_eq_true, if_true,
      true_and]
    split
    next hkept => rw [hnone hkept.1, Option.or_none]
    · rfl

theorem mountDirectory_through_iff (start : Start) (permanentDir : Path)
    (volumes : Volumes) :
    (mountDirectory start permanentDir volumes).2 = true ↔
      volumes.Occupied permanentDir ∨
        ¬ (template start.image).Occupied permanentDir ∨
          start.interrupted permanentDir = none := by
  unfold mountDirectory
  simp only [dataTmp_eq_nil_iff]
  by_cases hoccupied : volumes.Occupied permanentDir
  · simp [hoccupied]
  by_cases htemplate : (template start.image).Occupied permanentDir
  · cases hinterrupted : start.interrupted permanentDir <;>
      simp [hoccupied, htemplate]
  · simp [hoccupied, htemplate]

/-- `cp -a` adds only what the template holds for the directory. -/
theorem mountDirectory_node? (start : Start) {permanentDir other : Path}
    (hother : Below permanentDir other →
      (template start.image).node? other = none)
    (volumes : Volumes) :
    (mountDirectory start permanentDir volumes).1.node? other =
      volumes.node? other := by
  rw [mountDirectory_lookup]
  split
  next hcopied => rw [hother hcopied.2.1, Option.or_none]
  · rfl

/-! ## What the script keeps -/

/-- The script treats the path like any other. -/
def Ordinary (path : Path) : Prop :=
  ∀ other ∈ permanentDataExcp ++ handledPaths, Apart other path

instance (path : Path) : Decidable (Ordinary path) :=
  inferInstanceAs (Decidable (∀ other ∈ permanentDataExcp ++ handledPaths,
    Apart other path))

theorem moveDataFiles_node? (start : Start) {path : Path}
    (hordinary : ∀ other ∈ handledPaths, Apart other path)
    (node : Option (Node Text)) :
    Script.Keeps (fun volumes : Volumes => volumes.node? path = node)
      (moveDataFiles start) := by
  apply Script.Keeps.forEach
  intro movFile hmem volumes hnode
  have hsource : movFile.1 ∈ handledPaths := by
    simp only [handledPaths, List.mem_append]
    exact Or.inl (Or.inl (Or.inr (List.mem_map_of_mem hmem)))
  have htarget : movFile.2 ∈ handledPaths := by
    simp only [handledPaths, List.mem_append]
    exact Or.inl (Or.inr (List.mem_map_of_mem hmem))
  rw [moveFile_node? start (hordinary _ hsource) (hordinary _ htarget)]
  exact hnode

theorem removeDataFiles_node? (start : Start) {path : Path}
    (hordinary : ∀ other ∈ handledPaths, Apart other path)
    (node : Option (Node Text)) :
    Script.Keeps (fun volumes : Volumes => volumes.node? path = node)
      (removeDataFiles start) := by
  apply Script.Keeps.forEach
  intro delFile hmem volumes hnode
  have hhandled : delFile ∈ handledPaths := by
    simp only [handledPaths, List.mem_append]
    exact Or.inl (Or.inl (Or.inl hmem))
  rw [removeFile_node? start (hordinary _ hhandled).symm.ne]
  exact hnode

theorem apart_of_mem {left right : Path} {paths : List Path}
    (hapart : paths.Pairwise Apart) (hleft : left ∈ paths)
    (hright : right ∈ paths) (hne : left ≠ right) : Apart left right :=
  hapart.forall hleft hright hne

theorem not_below_of_ne {permanentDir other path : Path}
    (hdir : permanentDir ∈ permanentData) (hother : other ∈ permanentData)
    (hne : other ≠ permanentDir) (hbelow : Below permanentDir path) :
    ¬ Below other path := by
  intro hpath
  have hapart := apart_of_mem env_apart.1 hdir hother hne.symm
  exact (hbelow.apart hapart).2 hpath.1

theorem createOssecKeyCert_node? (start : Start) {path : Path}
    (hkey : path ≠ sslmanagerKey) (hcert : path ≠ sslmanagerCert)
    (node : Option (Node Text)) :
    Script.Keeps (fun volumes : Volumes => volumes.node? path = node)
      (createOssecKeyCert start) := by
  apply Script.Keeps.andThen
  · intro volumes hnode
    rw [openssl_node? hkey]
    exact hnode
  · intro volumes hnode
    rw [openssl_node? hcert]
    exact hnode

/-- What `create_ossec_key_cert` writes. -/
def Certificate (path : Path) : Prop :=
  path = sslmanagerKey ∨ path = sslmanagerCert

instance : DecidablePred Certificate := fun path =>
  inferInstanceAs (Decidable (path = sslmanagerKey ∨ path = sslmanagerCert))

/-- A path for which no key or certificate is written: there is a key, or it
is neither of the two. -/
def Enrolled (path : Path) (volumes : Volumes) : Prop :=
  Certificate path → volumes.node? sslmanagerKey ≠ none

instance (path : Path) (volumes : Volumes) :
    Decidable (Enrolled path volumes) :=
  inferInstanceAs (Decidable (Certificate path →
    volumes.node? sslmanagerKey ≠ none))

/-- The certificate of an enrolled manager stays, and so does what is neither
its key nor its certificate. -/
theorem enroll_node? (start : Start) {path : Path} {volumes : Volumes}
    (henrolled : Enrolled path volumes) :
    (enroll start volumes).1.node? path = volumes.node? path := by
  unfold enroll
  split
  next hmissing =>
    have hother : ¬ Certificate path :=
      fun hpath => henrolled hpath hmissing.2
    exact createOssecKeyCert_node? start (fun hkey => hother (Or.inl hkey))
      (fun hcert => hother (Or.inr hcert)) _ volumes rfl
  · rfl

theorem mountFiles_setCustom_node? (start : Start) {path : Path}
    (hspares : start.Spares path)
    (hhandled : ∀ other ∈ handledPaths, Apart other path)
    (node : Option (Node Text)) :
    Script.Keeps (fun volumes : Volumes => volumes.node? path = node)
      ((mountFiles start).andThen (setCustom start)) := by
  have hconf : path ≠ ossecConf :=
    (hhandled _ (by simp [handledPaths])).symm.ne
  apply Script.Keeps.andThen
  · intro volumes hnode
    rw [mountFiles_node? hspares]
    exact hnode
  · intro volumes hnode
    rw [setCustom_node? start hconf]
    exact hnode

theorem ordinary_sslmanagerKey : Ordinary sslmanagerKey := by
  decide +kernel

theorem Ordinary.handled {path : Path} (hordinary : Ordinary path) :
    ∀ other ∈ handledPaths, Apart other path :=
  fun other hmem => hordinary other (List.mem_append_right _ hmem)

/-- What is at the path, and whether it is enrolled. -/
def Holds (path : Path) (node : Option (Node Text)) (volumes : Volumes) :
    Prop :=
  volumes.node? path = node ∧ Enrolled path volumes

/-- A command that changes neither the path nor the key. -/
theorem Holds.keeps {path : Path} {node : Option (Node Text)}
    {script : Script Volumes}
    (hpath : ∀ node, Script.Keeps
      (fun volumes : Volumes => volumes.node? path = node) script)
    (hkey : ∀ node, Script.Keeps
      (fun volumes : Volumes => volumes.node? sslmanagerKey = node) script) :
    Script.Keeps (Holds path node) script :=
  (hpath node).and (Script.Keeps.of_eq hkey
    (fun node => Certificate path → node ≠ none))

theorem settle_leads (start : Start) {path : Path}
    (hpath : ∀ other ∈ handledPaths, Apart other path)
    (hspares : start.Spares path) (node : Option (Node Text)) :
    Script.Leads (Holds path node)
      (fun volumes : Volumes => volumes.node? path = node)
      (settle start) := by
  have hkey := ordinary_sslmanagerKey.handled
  have hweaker : ∀ volumes, Holds path node volumes →
      volumes.node? path = node := fun _ hholds => hholds.1
  apply Script.Keeps.andThen_leads hweaker
    (Holds.keeps (moveDataFiles_node? start hpath)
      (moveDataFiles_node? start hkey))
  apply Script.Keeps.andThen_leads hweaker
    (Holds.keeps (removeDataFiles_node? start hpath)
      (removeDataFiles_node? start hkey))
  intro volumes hholds
  have hlast := mountFiles_setCustom_node? start hspares hpath node
  have henrolled := enroll_node? start hholds.2
  unfold Script.andThen
  split
  · exact hlast _ (henrolled.trans hholds.1)
  · exact henrolled.trans hholds.1

theorem applyExclusionData_node? (start : Start) {path : Path}
    (hordinary : Ordinary path) (node : Option (Node Text)) :
    Script.Keeps (fun volumes : Volumes => volumes.node? path = node)
      (applyExclusionData start) := by
  apply Script.Keeps.forEach
  intro exclusionFile hmem volumes hnode
  rw [updateFile_node? start (hordinary _ (List.mem_append_left _ hmem))]
  exact hnode

/-- An ordinary path in a volume. -/
structure InVolume (permanentDir path : Path) : Prop where
  permanent : permanentDir ∈ permanentData
  below : Below permanentDir path
  ordinary : Ordinary path

/-- Behind the first loop ordinary paths are left alone. -/
theorem InVolume.update_leads {permanentDir path : Path}
    (hpath : InVolume permanentDir path) {start : Start}
    (hspares : start.Spares path) (node : Option (Node Text)) :
    Script.Leads (Holds path node)
      (fun volumes : Volumes => volumes.node? path = node)
      ((applyExclusionData start).andThen (settle start)) :=
  Script.Keeps.andThen_leads (fun _ hholds => hholds.1)
    (Holds.keeps (applyExclusionData_node? start hpath.ordinary)
      (applyExclusionData_node? start ordinary_sslmanagerKey))
    (settle_leads start hpath.ordinary.handled hspares node)

/-- The key lies in the volume of the certificate. -/
theorem InVolume.sslmanagerKey {permanentDir path : Path}
    (hpath : InVolume permanentDir path) (hcertificate : Certificate path) :
    InVolume permanentDir sslmanagerKey := by
  have hbeside : ∀ dir ∈ permanentData, Below dir sslmanagerCert →
      Below dir WazuhVolumes.sslmanagerKey := by decide +kernel
  refine ⟨hpath.permanent, ?_, ordinary_sslmanagerKey⟩
  rcases hcertificate with rfl | rfl
  · exact hpath.below
  · exact hbeside _ hpath.permanent hpath.below

theorem InVolume.mountDirectory_node? {permanentDir path : Path}
    (hpath : InVolume permanentDir path) (start : Start) {other : Path}
    (hother : other ∈ permanentData) (hne : other ≠ permanentDir)
    (volumes : Volumes) :
    (mountDirectory start other volumes).1.node? path = volumes.node? path := by
  refine WazuhVolumes.mountDirectory_node? start (fun hbelow => ?_) volumes
  exact absurd hbelow (not_below_of_ne hpath.permanent hother hne hpath.below)

theorem occupied_mountDirectory (start : Start) (other : Path)
    {permanentDir : Path} {volumes : Volumes}
    (hoccupied : volumes.Occupied permanentDir) :
    (mountDirectory start other volumes).1.Occupied permanentDir := by
  obtain ⟨path, hbelow, hsome⟩ := Tree.occupied_iff.mp hoccupied
  obtain ⟨node, hnode⟩ := Option.ne_none_iff_exists'.mp hsome
  refine Tree.occupied_iff.mpr ⟨path, hbelow, ?_⟩
  rw [mountDirectory_lookup, hnode]
  split
  · exact Option.some_ne_none node
  · exact Option.some_ne_none node

/-- Into a volume that is not empty nothing is copied. -/
theorem InVolume.mountPermanentData_keeps {permanentDir path : Path}
    (hpath : InVolume permanentDir path) (start : Start)
    (node : Option (Node Text)) :
    Script.Keeps (fun volumes : Volumes =>
      volumes.Occupied permanentDir ∧ volumes.node? path = node)
      (mountPermanentData start) := by
  apply Script.Keeps.forEach
  intro other hother volumes hstate
  obtain ⟨hoccupied, hnode⟩ := hstate
  refine ⟨occupied_mountDirectory start other hoccupied, ?_⟩
  by_cases hsame : other = permanentDir
  · subst hsame
    simp only [mountDirectory_lookup, hoccupied, not_true_eq_false,
      false_and, if_false]
    exact hnode
  · rw [hpath.mountDirectory_node? start hother hsame]
    exact hnode

/-- A start leaves the ordinary paths of a volume that is not empty as they
are, whether a file is there or not, and however the start ends. -/
theorem InVolume.main_node? {permanentDir path : Path}
    (hpath : InVolume permanentDir path) {start : Start}
    (hspares : start.Spares path) {volumes : Volumes}
    (hoccupied : volumes.Occupied permanentDir)
    (henrolled : Enrolled path volumes) :
    (main start volumes).1.node? path = volumes.node? path := by
  have hmounted := hpath.mountPermanentData_keeps start _ volumes
    ⟨hoccupied, rfl⟩
  have hholds : Holds path (volumes.node? path)
      (mountPermanentData start volumes).1 := by
    refine ⟨hmounted.2, fun hcertificate => ?_⟩
    have hkey := (hpath.sslmanagerKey hcertificate).mountPermanentData_keeps
      start _ volumes ⟨hoccupied, rfl⟩
    rw [hkey.2]
    exact henrolled hcertificate
  unfold main Script.andThen
  split
  · exact hpath.update_leads hspares _ _ hholds
  · exact hmounted.2

/-! ## A small deployment -/

def etc : Path := path "/var/ossec/etc"

def localtime : Path := path "/var/ossec/etc/localtime"

def clientKeys : Path := path "/var/ossec/etc/client.keys"

def slack : Path := path "/var/ossec/integrations/slack"

def imageOf (version : Text) : Volumes :=
  [(localtime, .file []), (clientKeys, .file []), (slack, .file version)]

def smallStart (version : Text) : Start where
  image := imageOf version
  autoEnrollment := true
  wazuhConfigMount := none
  customized := id
  interrupted := fun _ => none
  broken := fun _ => none
  refused := fun _ => false
  genrsa := ⟨some ['k'], true⟩
  req := ⟨some ['c'], true⟩

theorem clientKeys_inVolume : InVolume etc clientKeys := by
  constructor <;> decide +kernel

theorem smallStart_spares (version : Text) (path : Path) :
    (smallStart version).Spares path := by
  intro entries hentries
  contradiction

end SecaasCharms.WazuhVolumes
