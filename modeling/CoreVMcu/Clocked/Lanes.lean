import Mathlib.Algebra.Group.Nat.Defs
import Mathlib.Data.List.FinRange
import Mathlib.Data.List.Nodup
import Mathlib.Data.Option.Basic

/-!
# Vectors of flags

A bundle of `n` one-bit wires is a function `Fin n → Bool`.  An observer that
records which lanes are raised at an instant reads them from the lowest to the
highest lane.

An arbiter picks one of the lanes that request, and some lane whenever one
requests.  It may remember what it granted before and learns in every cycle
whether its grant was acknowledged.  A property of a design proved for every
arbiter holds for every order of arbitration.

The one-hot grant vector of an arbiter is the lane it picked, if any.
-/

namespace Clocked

variable {n : Nat}

/-- The raised lanes of a vector of flags, lowest first. -/
def raised (flags : Fin n → Bool) : List (Fin n) :=
  (List.finRange n).filter flags

@[simp] theorem mem_raised {flags : Fin n → Bool} {lane : Fin n} :
    lane ∈ raised flags ↔ flags lane = true := by
  simp [raised]

theorem raised_nodup (flags : Fin n → Bool) : (raised flags).Nodup :=
  (List.nodup_finRange n).filter _

/-- A lane is recorded once when it is raised and never otherwise. -/
theorem count_raised (flags : Fin n → Bool) (lane : Fin n) :
    (raised flags).count lane = (flags lane).toNat := by
  cases high : flags lane with
  | true => exact List.count_eq_one_of_mem (raised_nodup flags) (by simp [high])
  | false => exact List.count_eq_zero_of_not_mem (by simp [high])

/-- No lane is recorded when none is raised. -/
theorem raised_eq_nil {flags : Fin n → Bool}
    (low : ∀ lane, flags lane = false) : raised flags = [] := by
  simp [raised, low]

/-- Exactly one lane is recorded when it is the only one raised. -/
theorem raised_eq_singleton {flags : Fin n → Bool} {lane : Fin n}
    (high : flags lane = true)
    (only : ∀ other, flags other = true → other = lane) :
    raised flags = [lane] := by
  have members : ∀ other, other ∈ raised flags ↔ other = lane := by
    intro other
    rw [mem_raised]
    exact ⟨only other, fun equal => equal ▸ high⟩
  exact List.perm_singleton.mp
    ((List.perm_ext_iff_of_nodup (raised_nodup flags) (List.nodup_singleton lane)).mpr
      (by simpa using members))

/-! ## Arbiters -/

/-- An arbitration policy for `n` lanes together with the proof that it grants
requesting lanes only, and always grants one of them. -/
structure Arbiter (n : Nat) where
  State : Type
  init : State
  grant : State → (Fin n → Bool) → Option (Fin n)
  next : State → (Fin n → Bool) → Bool → State
  requested : ∀ {state req lane}, grant state req = some lane → req lane = true
  busy : ∀ {state req lane}, req lane = true → (grant state req).isSome = true

namespace Arbiter

variable {n : Nat} (arbiter : Arbiter n) {state : arbiter.State} {req : Fin n → Bool}

/-- Some lane is granted exactly when some lane requests. -/
theorem isSome_grant_iff :
    (arbiter.grant state req).isSome = true ↔ ∃ lane, req lane = true := by
  constructor
  · intro granted
    obtain ⟨lane, equal⟩ := Option.isSome_iff_exists.mp granted
    exact ⟨lane, arbiter.requested equal⟩
  · rintro ⟨lane, high⟩
    exact arbiter.busy high

end Arbiter

end Clocked
