import Mathlib.Order.Basic
import Mathlib.Order.Lattice
import Mathlib.Order.Defs.LinearOrder

/-! # Comparisons of floats

What the comparisons of floats have in common with an order, and what they have
not: a value that is not a number is different from itself.

* `FloatOrder`: the laws;
* `WithNaN`: the numbers of a linear order, and one value that is none.
-/

universe u

/-- The comparisons of floats. -/
class FloatOrder (F : Type u) [BEq F] [LT F] : Prop where
  lt_irrefl : ∀ x : F, ¬ x < x
  bne_of_lt : ∀ {x y : F}, x < y → (y != x) = true
  /-- What differs from itself differs from everything, and is not below it. -/
  bne_of_nan : ∀ {x : F}, (x != x) = true → ∀ y, (y != x) = true
  not_lt_of_nan : ∀ {x : F}, (x != x) = true → ∀ y, ¬ x < y

namespace FloatOrder

variable {F : Type u} [BEq F] [LT F] [FloatOrder F]

theorem not_lt_of_beq {x y : F} (h : (x == y) = true) : ¬ y < x := by
  intro hlt
  have hne := bne_of_lt hlt
  rw [bne, h] at hne
  cases hne

end FloatOrder

/-- Exact numbers. -/
instance {G : Type u} [LinearOrder G] [BEq G] [LawfulBEq G] : FloatOrder G where
  lt_irrefl := lt_irrefl
  bne_of_lt := fun h => bne_iff_ne.2 h.ne'
  bne_of_nan := fun h => absurd rfl (bne_iff_ne.1 h)
  not_lt_of_nan := fun h => absurd rfl (bne_iff_ne.1 h)

/-- A number, or not a number. -/
inductive WithNaN (G : Type u) where
  | nan
  | num (x : G)
deriving Repr

namespace WithNaN

variable {G : Type u}

instance [Zero G] : Zero (WithNaN G) := ⟨num 0⟩

instance [Add G] : Add (WithNaN G) where
  add
    | num x, num y => num (x + y)
    | _, _ => nan

instance [Sub G] : Sub (WithNaN G) where
  sub
    | num x, num y => num (x - y)
    | _, _ => nan

instance [BEq G] : BEq (WithNaN G) where
  beq
    | num x, num y => x == y
    | _, _ => false

instance [LT G] : LT (WithNaN G) where
  lt
    | num x, num y => x < y
    | _, _ => False

instance [LT G] [DecidableLT G] : DecidableLT (WithNaN G)
  | num x, num y => inferInstanceAs (Decidable (x < y))
  | nan, nan => inferInstanceAs (Decidable False)
  | nan, num _ => inferInstanceAs (Decidable False)
  | num _, nan => inferInstanceAs (Decidable False)

instance [LinearOrder G] [BEq G] [LawfulBEq G] : FloatOrder (WithNaN G) where
  lt_irrefl
    | nan => not_false
    | num x => lt_irrefl x
  bne_of_lt {x y} h := by
    cases x with
    | nan => cases h
    | num x =>
        cases y with
        | nan => cases h
        | num y => exact FloatOrder.bne_of_lt (F := G) h
  bne_of_nan {x} h y := by
    cases x with
    | nan => cases y <;> rfl
    | num x => exact absurd rfl (bne_iff_ne.1 (show (x != x) = true from h))
  not_lt_of_nan {x} h y := by
    cases x with
    | nan => cases y <;> exact not_false
    | num x => exact absurd rfl (bne_iff_ne.1 (show (x != x) = true from h))

end WithNaN
