import Mathlib.Data.Nat.Basic
import Mathlib.Tactic.Common

/-! # Attributes of pages

Memory is divided into pages of `pageSize` bytes, and every page has an
attribute (a protection). Attributes are set for all pages a range of bytes
touches.

* `InPages`: the pages of a range;
* `setPages`: an attribute for all of them;
* `setPages_setPages`: of two attributes the later one counts;
* `setPages_eq_self_iff`: when an attribute changes nothing.
-/

namespace Pages

universe u

/-- The bytes of a page. -/
def pageSize : ℕ := 4096

/-- The page of an address. -/
def pageOf (address : ℕ) : ℕ := address / pageSize

/-- A page between that of the first byte of a range and that of the last. -/
def InPages (address size page : ℕ) : Prop :=
  0 < size ∧ pageOf address ≤ page ∧ page ≤ pageOf (address + size - 1)

instance (address size page : ℕ) : Decidable (InPages address size page) :=
  inferInstanceAs (Decidable (_ ∧ _ ∧ _))

variable {α : Type u}

/-- All pages of the range get the attribute `a`. -/
def setPages (attributes : ℕ → α) (address size : ℕ) (a : α) : ℕ → α := fun page =>
  if InPages address size page then a else attributes page

theorem setPages_of_mem {attributes : ℕ → α} {address size page : ℕ} {a : α}
    (h : InPages address size page) : setPages attributes address size a page = a :=
  if_pos h

theorem setPages_of_not_mem {attributes : ℕ → α} {address size page : ℕ} {a : α}
    (h : ¬ InPages address size page) :
    setPages attributes address size a page = attributes page :=
  if_neg h

/-- Of two attributes for one range the later one counts. -/
@[simp] theorem setPages_setPages (attributes : ℕ → α) (address size : ℕ) (a a' : α) :
    setPages (setPages attributes address size a) address size a' =
      setPages attributes address size a' := by
  funext page
  by_cases h : InPages address size page
  · rw [setPages_of_mem h, setPages_of_mem h]
  · rw [setPages_of_not_mem h, setPages_of_not_mem h, setPages_of_not_mem h]

/-- Nothing changes exactly if all pages of the range have the attribute. -/
theorem setPages_eq_self_iff {attributes : ℕ → α} {address size : ℕ} {a : α} :
    setPages attributes address size a = attributes ↔
      ∀ page, InPages address size page → attributes page = a := by
  constructor
  · intro h page hpage
    rw [← h, setPages_of_mem hpage]
  · intro h
    funext page
    by_cases hpage : InPages address size page
    · rw [setPages_of_mem hpage, h page hpage]
    · exact setPages_of_not_mem hpage

end Pages
