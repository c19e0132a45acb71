import Mathlib.Data.List.Basic
import Mathlib.Logic.Function.Basic
import Mathlib.Tactic

/-!
# Leases from a finite pool

What an address allocator is for, without any word of how one works: each
client holds at most one address of an ordered pool and no address has two
holders.  Both facts are fields of the state, so every operation keeps them.
A grant moves the client to the first address nobody holds; when there is
none it changes nothing.
-/

namespace LeasePool

variable {κ α : Type*} {pool : List α}

@[ext]
structure Leases (κ : Type*) {α : Type*} (pool : List α) where
  addressOf : κ → Option α
  mem_pool : ∀ {client address}, addressOf client = some address →
    address ∈ pool
  exclusive : ∀ {client other address}, addressOf client = some address →
    addressOf other = some address → client = other

namespace Leases

def none (κ : Type*) (pool : List α) : Leases κ pool where
  addressOf := fun _ => Option.none
  mem_pool := by simp
  exclusive := by simp

def Held (leases : Leases κ pool) (address : α) : Prop :=
  ∃ client, leases.addressOf client = some address

open Classical in
noncomputable def lowestFree (leases : Leases κ pool) : Option α :=
  pool.find? (fun address => decide (¬ leases.Held address))

theorem lowestFree_eq_none_iff (leases : Leases κ pool) :
    leases.lowestFree = Option.none ↔
      ∀ address ∈ pool, leases.Held address := by
  simp [lowestFree]

theorem lowestFree_not_held {leases : Leases κ pool} {address : α}
    (hfree : leases.lowestFree = some address) : ¬ leases.Held address := by
  simpa using List.find?_some hfree

theorem lowestFree_mem {leases : Leases κ pool} {address : α}
    (hfree : leases.lowestFree = some address) : address ∈ pool :=
  List.mem_of_find?_eq_some hfree

theorem held_of_before_lowestFree {leases : Leases κ pool} {address : α}
    (hfree : leases.lowestFree = some address) :
    ∃ before after, pool = before ++ address :: after ∧
      ∀ earlier ∈ before, leases.Held earlier := by
  obtain ⟨_, before, after, hsplit, hbefore⟩ :=
    List.find?_eq_some_iff_append.mp hfree
  exact ⟨before, after, hsplit, by simpa using hbefore⟩

variable [DecidableEq κ]

/-- The client gives its address up and takes a free one. -/
def assign (leases : Leases κ pool) (client : κ) (address : α)
    (hmem : address ∈ pool) (hfree : ¬ leases.Held address) :
    Leases κ pool where
  addressOf := Function.update leases.addressOf client (some address)
  mem_pool := by
    intro other found hfound
    by_cases hother : other = client
    · subst other
      simp only [Function.update_self, Option.some.injEq] at hfound
      rwa [← hfound]
    · rw [Function.update_of_ne hother] at hfound
      exact leases.mem_pool hfound
  exclusive := by
    intro first second found hfirst hsecond
    by_cases hone : first = client <;> by_cases htwo : second = client
    · rw [hone, htwo]
    · subst first
      simp only [Function.update_self, Option.some.injEq] at hfirst
      rw [Function.update_of_ne htwo, ← hfirst] at hsecond
      exact absurd ⟨second, hsecond⟩ hfree
    · subst second
      simp only [Function.update_self, Option.some.injEq] at hsecond
      rw [Function.update_of_ne hone, ← hsecond] at hfirst
      exact absurd ⟨first, hfirst⟩ hfree
    · rw [Function.update_of_ne hone] at hfirst
      rw [Function.update_of_ne htwo] at hsecond
      exact leases.exclusive hfirst hsecond

noncomputable def grant (leases : Leases κ pool) (client : κ) :
    Leases κ pool :=
  match hfree : leases.lowestFree with
  | Option.none => leases
  | some address =>
      leases.assign client address (lowestFree_mem hfree)
        (lowestFree_not_held hfree)

def revoke (leases : Leases κ pool) (client : κ) :
    Leases κ pool where
  addressOf := Function.update leases.addressOf client Option.none
  mem_pool := by
    intro other found hfound
    by_cases hother : other = client
    · subst other
      simp at hfound
    · rw [Function.update_of_ne hother] at hfound
      exact leases.mem_pool hfound
  exclusive := by
    intro first second found hfirst hsecond
    by_cases hone : first = client
    · subst first
      simp at hfirst
    by_cases htwo : second = client
    · subst second
      simp at hsecond
    rw [Function.update_of_ne hone] at hfirst
    rw [Function.update_of_ne htwo] at hsecond
    exact leases.exclusive hfirst hsecond

theorem grant_of_exhausted {leases : Leases κ pool} (client : κ)
    (hfree : leases.lowestFree = Option.none) :
    leases.grant client = leases := by
  unfold grant
  split
  · rfl
  · simp_all

theorem grant_addressOf {leases : Leases κ pool} (client : κ) {address : α}
    (hfree : leases.lowestFree = some address) :
    (leases.grant client).addressOf =
      Function.update leases.addressOf client (some address) := by
  unfold grant
  split
  · simp_all
  · next found hfound =>
      rw [hfree, Option.some.injEq] at hfound
      subst found
      rfl

theorem grant_addressOf_of_ne (leases : Leases κ pool) {client other : κ}
    (hother : other ≠ client) :
    (leases.grant client).addressOf other = leases.addressOf other := by
  cases hfree : leases.lowestFree with
  | none => rw [grant_of_exhausted client hfree]
  | some address =>
      rw [grant_addressOf client hfree, Function.update_of_ne hother]

theorem revoke_addressOf_of_ne (leases : Leases κ pool) {client other : κ}
    (hother : other ≠ client) :
    (leases.revoke client).addressOf other = leases.addressOf other :=
  Function.update_of_ne hother _ _

theorem revoke_not_held {leases : Leases κ pool} {client : κ} {address : α}
    (hheld : leases.addressOf client = some address) :
    ¬ (leases.revoke client).Held address := by
  rintro ⟨other, hother⟩
  by_cases heq : other = client
  · subst other
    simp [revoke] at hother
  · rw [leases.revoke_addressOf_of_ne heq] at hother
    exact heq (leases.exclusive hother hheld)

end Leases

/-! ## Requests -/

inductive Request (κ : Type*) where
  | grant (client : κ)
  | revoke (client : κ)

def Request.client : Request κ → κ
  | .grant client => client
  | .revoke client => client

noncomputable def Leases.serve [DecidableEq κ] (leases : Leases κ pool) :
    Option (Request κ) → Leases κ pool
  | Option.none => leases
  | some (.grant client) => leases.grant client
  | some (.revoke client) => leases.revoke client

theorem Leases.serve_addressOf_of_not_named [DecidableEq κ] (leases : Leases κ pool)
    {request : Option (Request κ)} {other : κ}
    (hnamed : ∀ r, request = some r → r.client ≠ other) :
    (leases.serve request).addressOf other = leases.addressOf other := by
  cases request with
  | none => rfl
  | some request =>
      have hne := (hnamed request rfl).symm
      cases request with
      | grant client => exact leases.grant_addressOf_of_ne hne
      | revoke client => exact leases.revoke_addressOf_of_ne hne

end LeasePool
