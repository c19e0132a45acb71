import Mathlib.Data.List.Nodup
import Mathlib.Data.Set.Basic

/-!
# Lists to which an item is added at most once

Adding items behind a list keeps it and what it holds in place.  If each is
added only while it is not there yet, any number of additions amounts to one
list of new items, each of them once.
-/

namespace AppendOnce

variable {α : Type*}

/-- The second list is the first one with items of a given set behind it. -/
def Adds (allowed : Set α) (before after : List α) : Prop :=
  ∃ added, after = before ++ added ∧ ∀ item ∈ added, item ∈ allowed

/-- The second list is the first one with new items behind it, each of them
once and from a given set. -/
def AddsOnce (allowed : Set α) (before after : List α) : Prop :=
  ∃ added, after = before ++ added ∧ added.Nodup ∧
    ∀ item ∈ added, item ∉ before ∧ item ∈ allowed

variable {allowed : Set α} {before between after : List α}

theorem Adds.refl (items : List α) : Adds allowed items items :=
  ⟨[], (List.append_nil items).symm, by simp⟩

theorem Adds.trans (hfirst : Adds allowed before between)
    (hsecond : Adds allowed between after) : Adds allowed before after := by
  rcases hfirst with ⟨first, rfl, hfirst⟩
  rcases hsecond with ⟨second, rfl, hsecond⟩
  refine ⟨first ++ second, List.append_assoc _ _ _, ?_⟩
  intro item hmem
  cases List.mem_append.mp hmem with
  | inl hmem => exact hfirst item hmem
  | inr hmem => exact hsecond item hmem

theorem Adds.subset (hadds : Adds allowed before after) :
    before ⊆ after := by
  rcases hadds with ⟨added, rfl, -⟩
  exact List.subset_append_left before added

theorem adds_concat {item : α} (hallowed : item ∈ allowed) (items : List α) :
    Adds allowed items (items ++ [item]) :=
  ⟨[item], rfl, by simp [hallowed]⟩

theorem AddsOnce.refl (items : List α) : AddsOnce allowed items items :=
  ⟨[], (List.append_nil items).symm, List.nodup_nil, by simp⟩

theorem AddsOnce.trans (hfirst : AddsOnce allowed before between)
    (hsecond : AddsOnce allowed between after) :
    AddsOnce allowed before after := by
  rcases hfirst with ⟨first, rfl, hfirst, hnew⟩
  rcases hsecond with ⟨second, rfl, hsecond, hlater⟩
  refine ⟨first ++ second, List.append_assoc _ _ _, ?_, ?_⟩
  · refine List.nodup_append'.mpr ⟨hfirst, hsecond, ?_⟩
    intro item hmem hagain
    exact (hlater item hagain).1 (List.mem_append_right before hmem)
  · intro item hmem
    cases List.mem_append.mp hmem with
    | inl hmem => exact hnew item hmem
    | inr hmem =>
        exact ⟨fun hold => (hlater item hmem).1 (List.mem_append_left first hold),
          (hlater item hmem).2⟩

theorem addsOnce_concat {item : α} (hallowed : item ∈ allowed)
    {items : List α} (hnew : item ∉ items) :
    AddsOnce allowed items (items ++ [item]) :=
  ⟨[item], rfl, List.nodup_singleton item, by simp [hnew, hallowed]⟩

end AppendOnce
