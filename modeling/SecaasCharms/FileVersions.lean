import SecaasCharms.StepRuns

/-!
# A file with backups

A program that rewrites a file may first move it to a backup under the current
time, and remove the backup again when the new file is the same.  Nothing that
was ever written is lost then, as long as no backup goes where another one
is.
-/

namespace FileVersions

variable {α τ : Type*} [DecidableEq α] [DecidableEq τ]

structure VersionedFile (α τ : Type*) where
  current : Option α
  backups : τ → Option α

/-- A new version, with or without the removal of an equal backup. -/
structure Replacement (α τ : Type*) where
  time : τ
  version : α
  tidy : Bool

def VersionedFile.replace (file : VersionedFile α τ)
    (replacement : Replacement α τ) : VersionedFile α τ where
  current := some replacement.version
  backups :=
    match file.current with
    | none => file.backups
    | some old =>
        Function.update file.backups replacement.time
          (if replacement.tidy = true ∧ old = replacement.version then none
            else some old)

/-- A version that is in place or in a backup. -/
def VersionedFile.Holds (file : VersionedFile α τ) (version : α) : Prop :=
  file.current = some version ∨ ∃ time, file.backups time = some version

def VersionedFile.FreeAt (file : VersionedFile α τ) (time : τ) : Prop :=
  file.backups time = none

variable {file : VersionedFile α τ} {replacement : Replacement α τ}

theorem VersionedFile.holds_of_holds_replace {version : α}
    (hholds : (file.replace replacement).Holds version) :
    version = replacement.version ∨ file.Holds version := by
  cases hholds with
  | inl hcurrent => exact Or.inl (Option.some.inj hcurrent).symm
  | inr hbackup =>
      rcases hbackup with ⟨time, htime⟩
      unfold VersionedFile.replace at htime
      cases hold : file.current with
      | none =>
          simp only [hold] at htime
          exact Or.inr (Or.inr ⟨time, htime⟩)
      | some old =>
          simp only [hold, Function.update_apply] at htime
          split_ifs at htime with hhere
          · exact Or.inr (Or.inl (hold.trans htime))
          · exact Or.inr (Or.inr ⟨time, htime⟩)

theorem VersionedFile.holds_replace (hfree : file.FreeAt replacement.time)
    {version : α} (hholds : file.Holds version) :
    (file.replace replacement).Holds version := by
  cases hholds with
  | inl hcurrent =>
      by_cases hsame : replacement.tidy = true ∧ version = replacement.version
      · exact Or.inl (congrArg some hsame.2.symm)
      · refine Or.inr ⟨replacement.time, ?_⟩
        simp only [VersionedFile.replace, hcurrent, Function.update_self,
          if_neg hsame]
  | inr hbackup =>
      rcases hbackup with ⟨time, htime⟩
      have hother : time ≠ replacement.time := by
        intro hsame
        rw [hsame, hfree] at htime
        cases htime
      refine Or.inr ⟨time, ?_⟩
      unfold VersionedFile.replace
      cases file.current with
      | none => exact htime
      | some old => exact (Function.update_of_ne hother _ _).trans htime

/-- A replacement adds the new version and loses none. -/
theorem VersionedFile.holds_replace_iff
    (hfree : file.FreeAt replacement.time) {version : α} :
    (file.replace replacement).Holds version ↔
      version = replacement.version ∨ file.Holds version := by
  constructor
  · exact VersionedFile.holds_of_holds_replace
  · intro hholds
    cases hholds with
    | inl hnew => exact Or.inl (congrArg some hnew.symm)
    | inr hold => exact VersionedFile.holds_replace hfree hold

/-- A tidy replacement by the same version changes nothing. -/
theorem VersionedFile.replace_self (hfree : file.FreeAt replacement.time)
    (htidy : replacement.tidy = true)
    (hsame : file.current = some replacement.version) :
    file.replace replacement = file := by
  have hbackups : Function.update file.backups replacement.time none =
      file.backups := by
    rw [← hfree, Function.update_eq_self]
  cases file
  simp only at hsame hbackups
  simp only [VersionedFile.replace, hsame, htidy, and_self, if_true, hbackups]

/-! ## Runs -/

variable {σ ε : Type*} {step : σ → ε → σ} {fileOf : σ → VersionedFile α τ}
variable {replaces : σ → ε → Option (Replacement α τ)}

open StepRuns

/-- Every step leaves the file alone or replaces it. -/
def Replaces (step : σ → ε → σ) (fileOf : σ → VersionedFile α τ)
    (replaces : σ → ε → Option (Replacement α τ)) : Prop :=
  ∀ state event, fileOf (step state event) =
    (replaces state event).elim (fileOf state) (fileOf state).replace

/-- The backup of a step goes where none is. -/
def Spares (fileOf : σ → VersionedFile α τ)
    (replaces : σ → ε → Option (Replacement α τ)) (state : σ) (event : ε) :
    Prop :=
  ∀ replacement ∈ replaces state event, (fileOf state).FreeAt replacement.time

/-- After a run the file holds what it held before and every version that a
step wrote. -/
theorem holds_run_iff (hreplaces : Replaces step fileOf replaces) {state : σ}
    {events : List ε} (hspares : EveryStep step (Spares fileOf replaces) state
      events) {version : α} :
    (fileOf (run step state events)).Holds version ↔
      (fileOf state).Holds version ∨
        ∃ before event after, events = before ++ event :: after ∧
          ∃ replacement ∈ replaces (run step state before) event,
            replacement.version = version := by
  induction events generalizing state with
  | nil => simp
  | cons first events ih =>
      have hfirst : (fileOf (step state first)).Holds version ↔
          (fileOf state).Holds version ∨
            ∃ replacement ∈ replaces state first,
              replacement.version = version := by
        rw [hreplaces]
        cases hwritten : replaces state first with
        | none => simp
        | some replacement =>
            have hfree := hspares.1 replacement hwritten
            rw [Option.elim_some, VersionedFile.holds_replace_iff hfree]
            simp [or_comm, eq_comm]
      rw [run_cons, ih hspares.2, hfirst, or_assoc]
      refine or_congr_right ?_
      constructor
      · rintro (hhere | ⟨before, event, after, hsplit, hlater⟩)
        · exact ⟨[], first, events, rfl, hhere⟩
        · exact ⟨first :: before, event, after, by rw [hsplit]; rfl, hlater⟩
      · rintro ⟨before, event, after, hsplit, hwritten⟩
        cases before with
        | nil =>
            simp only [List.nil_append, List.cons.injEq] at hsplit
            rw [← hsplit.1] at hwritten
            exact Or.inl hwritten
        | cons head before =>
            simp only [List.cons_append, List.cons.injEq] at hsplit
            rw [← hsplit.1] at hwritten
            exact Or.inr ⟨before, event, after, hsplit.2, hwritten⟩

end FileVersions
