import SecaasCharms.WazuhVolumes

/-!
# Upgrades of the Wazuh manager

Over any run of container starts, with images of any versions, the two kinds
of files in the volumes have opposite histories: an ordinary file comes from
the first image that fills its volume and is left to its users while that
volume is in use, a file of `PERMANENT_DATA_EXCP` comes from the latest image
that has it.
-/

namespace SecaasCharms.WazuhVolumes

open TextLines
open StepRuns
open FileTrees

/-! ## What the users see of a volume in use -/

/-- What the manager and its users make of a path. -/
def recorded (path : Path) (node : Option (Node Text)) :
    Event → Option (Node Text)
  | .start _ => node
  | .write other written => if other = path then some written else node
  | .delete other => if other = path then none else node

/-- A start finds the volume in use and its mount leaves out the path; for the
key and the certificate there is a key. -/
def Event.InUse (permanentDir path : Path) (volumes : Volumes) : Event → Prop
  | .start init => volumes.Occupied permanentDir ∧ init.Spares path ∧
      Enrolled path volumes
  | .write _ _ => True
  | .delete _ => True

theorem volumeStep_node? (volumes : Volumes) (path : Path) {event : Event}
    (hwrites : ∀ start, event ≠ .start start) :
    (volumeStep volumes event).node? path =
      recorded path (volumes.node? path) event := by
  cases event with
  | start start => exact absurd rfl (hwrites start)
  | write other node =>
      simp only [volumeStep, recorded]
      split
      next hsame => rw [hsame, Tree.node?_put_self]
      next hother => exact volumes.node?_put_of_ne (Ne.symm hother) node
  | delete other =>
      simp only [volumeStep, recorded]
      split
      next hsame => rw [hsame, Tree.node?_remove, if_pos rfl]
      next hother => exact volumes.node?_remove_of_ne (Ne.symm hother)

theorem InVolume.recorded_step {permanentDir path : Path}
    (hpath : InVolume permanentDir path) {volumes : Volumes} {event : Event}
    (hused : event.InUse permanentDir path volumes) :
    (volumeStep volumes event).node? path =
      recorded path (volumes.node? path) event := by
  cases event with
  | start start =>
      obtain ⟨hoccupied, hspares, henrolled⟩ := hused
      exact hpath.main_node? hspares hoccupied henrolled
  | write other written => exact volumeStep_node? volumes path (by simp)
  | delete other => exact volumeStep_node? volumes path (by simp)

theorem InVolume.recorded_run {permanentDir path : Path}
    (hpath : InVolume permanentDir path) {volumes : Volumes}
    {node : Option (Node Text)} (hnode : volumes.node? path = node)
    {events : List Event}
    (hused : EveryStep volumeStep
      (fun volumes event => event.InUse permanentDir path volumes) volumes
      events) :
    (run volumeStep volumes events).node? path =
      run (recorded path) node events := by
  have hstep : ∀ (state : Volumes) (node : Option (Node Text)) (event : Event),
      state.node? path = node → event.InUse permanentDir path state →
        (volumeStep state event).node? path = recorded path node event := by
    rintro state node event rfl hevent
    exact hpath.recorded_step hevent
  exact run_simulates
    (fun (state : Volumes) node => state.node? path = node) hstep hnode hused

theorem template_node? (image : Volumes) (path : Path) :
    (template image).node? path =
      if ∃ exclusionFile ∈ permanentDataExcp, exclusionFile <+: path then none
      else image.node? path := by
  have hfilter := image.node?_filter (fun path =>
    ¬ ∃ exclusionFile ∈ permanentDataExcp, exclusionFile <+: path) path
  simp only [decide_eq_true_iff, ite_not] at hfilter
  exact hfilter

theorem Ordinary.template_node? {path : Path} (hordinary : Ordinary path)
    (image : Volumes) : (template image).node? path = image.node? path := by
  rw [WazuhVolumes.template_node?, if_neg]
  intro hexcluded
  obtain ⟨exclusionFile, hmem, hleads⟩ := hexcluded
  exact (hordinary _ (List.mem_append_left _ hmem)).1 hleads

theorem node?_of_not_occupied {volumes : Volumes} {permanentDir path : Path}
    (hempty : ¬ volumes.Occupied permanentDir)
    (hbelow : Below permanentDir path) : volumes.node? path = none := by
  by_contra hsome
  exact hempty (Tree.occupied_iff.mpr ⟨path, hbelow, hsome⟩)

theorem not_occupied_of_mountDirectory (start : Start)
    {permanentDir other : Path} (hapart : Apart other permanentDir)
    {volumes : Volumes} (hempty : ¬ volumes.Occupied permanentDir) :
    ¬ (mountDirectory start other volumes).1.Occupied permanentDir := by
  intro hoccupied
  obtain ⟨path, hbelow, hsome⟩ := Tree.occupied_iff.mp hoccupied
  apply hsome
  rw [mountDirectory_node? start (fun hother =>
    absurd hbelow.1 (hother.apart hapart).2) volumes]
  exact node?_of_not_occupied hempty hbelow

/-- What an empty volume holds of the image after the copy. -/
theorem InVolume.mountDirectory_fills {permanentDir path : Path}
    (hpath : InVolume permanentDir path) (start : Start) {volumes : Volumes}
    (hempty : ¬ volumes.Occupied permanentDir) :
    (mountDirectory start permanentDir volumes).1.node? path =
      if (start.interrupted permanentDir).all (fun copied => copied path) then
        start.image.node? path
      else none := by
  rw [mountDirectory_lookup, node?_of_not_occupied hempty hpath.below,
    hpath.ordinary.template_node?, Option.none_or]
  simp only [hempty, hpath.below, not_false_eq_true, true_and]

/-- After a copy that got through the volume has what the image has. -/
theorem InVolume.mountDirectory_image {permanentDir path : Path}
    (hpath : InVolume permanentDir path) {start : Start} {volumes : Volumes}
    (hempty : ¬ volumes.Occupied permanentDir)
    (hthrough : (mountDirectory start permanentDir volumes).2 = true) :
    (mountDirectory start permanentDir volumes).1.node? path =
      start.image.node? path := by
  rw [hpath.mountDirectory_fills start hempty]
  have hcopied := ((mountDirectory_through_iff start permanentDir volumes).mp
    hthrough).resolve_left hempty
  rcases hcopied with htemplate | hwhole
  · have hnone := node?_of_not_occupied htemplate hpath.below
    rw [hpath.ordinary.template_node?] at hnone
    rw [hnone, ite_self]
  · rw [hwhole]
    rfl

/-- The loop over the volumes fills an empty one from the image. -/
theorem InVolume.mountPermanentData_fills {permanentDir path : Path}
    (hpath : InVolume permanentDir path) (start : Start) :
    Script.Establishes (fun volumes => ¬ volumes.Occupied permanentDir)
      (fun volumes : Volumes => volumes.node? path = start.image.node? path)
      (mountPermanentData start) := by
  have hnodup : permanentData.Nodup :=
    env_apart.1.imp (fun hapart => hapart.ne)
  refine Script.Establishes.forEach hnodup hpath.permanent ?_ ?_ ?_
  · intro other hother hne volumes hempty
    exact not_occupied_of_mountDirectory start
      (apart_of_mem env_apart.1 hother hpath.permanent hne) hempty
  · intro other hother hne volumes hnode
    rw [hpath.mountDirectory_node? start hother hne]
    exact hnode
  · intro volumes hempty hthrough
    exact hpath.mountDirectory_image hempty hthrough

/-- The first start that gets through on an empty volume fills it. -/
theorem InVolume.main_fills {permanentDir path : Path}
    (hpath : InVolume permanentDir path) {start : Start}
    (hspares : start.Spares path) (henrolled : Enrolled path start.image) :
    Script.Establishes (fun volumes => ¬ volumes.Occupied permanentDir)
      (fun volumes => volumes.node? path = start.image.node? path)
      (main start) := by
  refine Script.Establishes.andThen_leads ?_
    (hpath.update_leads hspares (start.image.node? path))
  intro volumes hempty hthrough
  refine ⟨hpath.mountPermanentData_fills start volumes hempty hthrough, ?_⟩
  intro hcertificate
  rw [(hpath.sslmanagerKey hcertificate).mountPermanentData_fills start volumes
    hempty hthrough]
  exact henrolled hcertificate

/-- A copy that ends halfway ends the start, too. -/
theorem InVolume.main_halfway {permanentDir path : Path}
    (hpath : InVolume permanentDir path) {start : Start}
    {copied : Path → Bool}
    (hinterrupted : start.interrupted permanentDir = some copied)
    (hothers : ∀ other ∈ permanentData, other ≠ permanentDir →
      start.interrupted other = none)
    (hcopied : copied path = false)
    (hshipped : (template start.image).Occupied permanentDir) :
    Script.Breaks (fun volumes => ¬ volumes.Occupied permanentDir)
      (fun volumes : Volumes => volumes.node? path = none) (main start) := by
  apply Script.Breaks.andThen
  refine Script.Breaks.forEach hpath.permanent ?_ ?_
  · intro other hother hne volumes hempty
    exact ⟨not_occupied_of_mountDirectory start
      (apart_of_mem env_apart.1 hother hpath.permanent hne) hempty,
      (mountDirectory_through_iff start other volumes).mpr
        (Or.inr (Or.inr (hothers other hother hne)))⟩
  · intro volumes hempty
    constructor
    · rw [← Bool.not_eq_true, mountDirectory_through_iff, hinterrupted]
      simp [hempty, hshipped]
    · have hfilled := hpath.mountDirectory_fills start hempty
      rw [hinterrupted, Option.all_some, hcopied] at hfilled
      exact hfilled

/-- The copy of `/var/ossec/etc` ends after its first file. -/
def halfStart : Start :=
  { smallStart ['1'] with
    interrupted := fun permanentDir =>
      if permanentDir = etc then some (fun copied => copied = localtime)
      else none }

theorem template_exclusionFile (image : Volumes) {exclusionFile : Path}
    (hmem : exclusionFile ∈ permanentDataExcp) :
    (template image).node? exclusionFile = none := by
  rw [template_node?, if_pos ⟨exclusionFile, hmem, List.prefix_refl _⟩]

theorem exclusionFile_ne_nil {exclusionFile : Path}
    (hmem : exclusionFile ∈ permanentDataExcp) : exclusionFile ≠ [] := by
  intro hnil
  have hkey := env_apart.2.2 exclusionFile hmem sslmanagerKey (by simp)
  rw [hnil] at hkey
  exact hkey.2 List.nil_prefix

/-- When the command gets through, the file is the image's one if the image
has it, and what it was otherwise. -/
theorem updateFile_refreshes (start : Start) {exclusionFile : Path}
    (hne : exclusionFile ≠ []) {volumes : Volumes}
    (hfile : volumes.node? exclusionFile ≠ some .directory)
    (hthrough : (updateFile start exclusionFile volumes).2 = true) :
    (updateFile start exclusionFile volumes).1.node? exclusionFile =
      (start.image.node? exclusionFile).or (volumes.node? exclusionFile) ∧
    start.image.node? exclusionFile ≠ some .directory := by
  have hdir : ¬ exclusionFile <+: exclusionFile.dropLast := by
    intro hleads
    have hlength := hleads.length_le
    have hpos := List.length_pos_of_ne_nil hne
    rw [List.length_dropLast] at hlength
    omega
  unfold updateFile at hthrough ⊢
  cases himage : start.image.node? exclusionFile with
  | none => simp
  | some node =>
      rw [himage] at hthrough
      have hmade : (if volumes.node? exclusionFile.dropLast = none then
          volumes.makeDirectories exclusionFile.dropLast
          else volumes).node? exclusionFile = volumes.node? exclusionFile := by
        split
        · exact volumes.node?_makeDirectories hdir
        · rfl
      simp only at hthrough ⊢
      generalize (if volumes.node? exclusionFile.dropLast = none then
        volumes.makeDirectories exclusionFile.dropLast else volumes) = made
        at hthrough hmade ⊢
      cases node with
      | directory => contradiction
      | file content =>
          cases hbroken : start.broken exclusionFile with
          | some left => simp [hbroken] at hthrough
          | none =>
              simp only [hbroken] at hthrough ⊢
              cases hcopied : made.copyFile exclusionFile content with
              | none => simp [hcopied] at hthrough
              | some next =>
                  rw [← hmade] at hfile
                  simp only [Tree.copyFile_self hfile hcopied]
                  simp

/-- What the latest start, and the users since then, make of a file of
`PERMANENT_DATA_EXCP`. -/
def refreshed (exclusionFile : Path) (node : Option (Node Text))
    (event : Event) : Option (Node Text) :=
  match event with
  | .start start => (start.image.node? exclusionFile).or node
  | _ => recorded exclusionFile node event

/-- A start gets through and is not given the file in its mount; users put no
directory in the file's place. -/
def Event.Refreshes (exclusionFile : Path) (volumes : Volumes) : Event → Prop
  | .start init =>
      init.Spares exclusionFile ∧ (main init volumes).2 = true
  | .write other node => other = exclusionFile → node ≠ .directory
  | .delete _ => True

theorem main_refreshes (start : Start) {exclusionFile : Path}
    (hmem : exclusionFile ∈ permanentDataExcp)
    (hspares : start.Spares exclusionFile) (node : Option (Node Text)) :
    Script.Establishes
      (fun volumes : Volumes => volumes.node? exclusionFile = node ∧
        node ≠ some .directory)
      (fun volumes : Volumes => volumes.node? exclusionFile =
        (start.image.node? exclusionFile).or node ∧
        (start.image.node? exclusionFile).or node ≠ some .directory)
      (main start) := by
  have hhandled : ∀ other ∈ sslmanagerKey :: sslmanagerCert :: handledPaths,
      Apart other exclusionFile := env_apart.2.2 exclusionFile hmem
  have hkey : exclusionFile ≠ sslmanagerKey := (hhandled _ (by simp)).symm.ne
  have hcert : exclusionFile ≠ sslmanagerCert := (hhandled _ (by simp)).symm.ne
  have hothers : ∀ other ∈ handledPaths, Apart other exclusionFile :=
    fun other hother => hhandled other (by simp [hother])
  refine Script.Keeps.andThen_establishes ?_
    (@Script.Establishes.andThen_leads _ _
      (fun volumes : Volumes => volumes.node? exclusionFile =
        (start.image.node? exclusionFile).or node ∧
        (start.image.node? exclusionFile).or node ≠ some .directory)
      _ _ _ ?_ ?_)
  · apply Script.Keeps.forEach
    intro permanentDir _ volumes hstate
    rw [mountDirectory_node? start
      (fun _ => template_exclusionFile start.image hmem)]
    exact hstate
  · have hnodup : permanentDataExcp.Nodup :=
      env_apart.2.1.imp (fun hapart => hapart.ne)
    refine Script.Establishes.forEach hnodup hmem ?_ ?_ ?_
    · intro other hother hne volumes hstate
      rw [updateFile_node? start (apart_of_mem env_apart.2.1 hother hmem hne)]
      exact hstate
    · intro other hother hne volumes hstate
      rw [updateFile_node? start (apart_of_mem env_apart.2.1 hother hmem hne)]
      exact hstate
    · rintro volumes ⟨rfl, hfile⟩ hthrough
      obtain ⟨hnode, himage⟩ := updateFile_refreshes start
        (exclusionFile_ne_nil hmem) hfile hthrough
      refine ⟨hnode, ?_⟩
      cases hshipped : start.image.node? exclusionFile with
      | none => simpa using hfile
      | some shipped =>
          rw [hshipped] at himage
          simpa using himage
  · intro volumes hstate
    have hother : ¬ Certificate exclusionFile := not_or.mpr ⟨hkey, hcert⟩
    have hkept := settle_leads start hothers hspares _ volumes
      ⟨rfl, fun hcertificate => absurd hcertificate hother⟩
    rw [hkept]
    exact hstate

/-- In every run whose starts get through, a file of `PERMANENT_DATA_EXCP`
holds what the latest image that has it ships, unless users have changed it
since. -/
theorem exclusionFile_of_run (volumes : Volumes) (events : List Event)
    {exclusionFile : Path} (hmem : exclusionFile ∈ permanentDataExcp)
    (hfile : volumes.node? exclusionFile ≠ some .directory)
    (hrefreshes : EveryStep volumeStep
      (fun volumes event => event.Refreshes exclusionFile volumes)
      volumes events) :
    (run volumeStep volumes events).node? exclusionFile =
      run (refreshed exclusionFile) (volumes.node? exclusionFile) events := by
  have hstep : ∀ (state : Volumes) (node : Option (Node Text)) (event : Event),
      state.node? exclusionFile = node ∧ node ≠ some .directory →
      event.Refreshes exclusionFile state →
      (volumeStep state event).node? exclusionFile =
          refreshed exclusionFile node event ∧
        refreshed exclusionFile node event ≠ some .directory := by
    rintro state node event ⟨rfl, hnode⟩ hevent
    cases event with
    | start start =>
        exact main_refreshes start hmem hevent.1 _ state ⟨rfl, hnode⟩ hevent.2
    | write other written =>
        refine ⟨volumeStep_node? state exclusionFile (by simp), ?_⟩
        simp only [refreshed, recorded]
        split
        next hsame =>
          have hwritten := hevent hsame
          simpa using hwritten
        · exact hnode
    | delete other =>
        refine ⟨volumeStep_node? state exclusionFile (by simp), ?_⟩
        simp only [refreshed, recorded]
        split
        · simp
        · exact hnode
  exact (run_simulates
    (fun (state : Volumes) node =>
      state.node? exclusionFile = node ∧ node ≠ some .directory)
    hstep ⟨rfl, hfile⟩ hrefreshes).1

theorem exclusionFile_of_run_upgraded :
    (run volumeStep [] [.start (smallStart ['1']),
      .start (smallStart ['2'])]).node? slack =
      run (refreshed slack) (Tree.node? [] slack)
        [.start (smallStart ['1']), .start (smallStart ['2'])] :=
  exclusionFile_of_run [] _ (by decide +kernel) (by decide +kernel)
    ⟨⟨smallStart_spares _ _, by decide +kernel⟩,
      ⟨smallStart_spares _ _, by decide +kernel⟩, trivial⟩

end SecaasCharms.WazuhVolumes
