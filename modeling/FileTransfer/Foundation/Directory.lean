import Mathlib.Algebra.Order.Group.Nat
import Mathlib.Logic.Function.Basic
import Mathlib.Tactic.Common

/-! Named files. A file that is open goes on after its name is removed, so a name is only a link
to the file; as long as no two names are of one file, this does not show. -/
namespace Directory

/-- The files have the numbers in the order in which they were made. -/
structure Disk (N B : Type*) where
  links : N → Option ℕ
  content : ℕ → B
  files : ℕ
  links_inj : ∀ {p q n}, links p = some n → links q = some n → p = q
  links_lt : ∀ {p n}, links p = some n → n < files

namespace Disk
variable {N B : Type*} (d : Disk N B)

/-- What is under a name. -/
def read (p : N) : Option B := (d.links p).map d.content

/-- Other content for a file, whether it still has a name or not. -/
def store (n : ℕ) (b : B) : Disk N B :=
  { d with content := Function.update d.content n b }

section Facts
variable {d} {p : N} {n : ℕ} {b : B}

theorem read_of_links (h : d.links p = some n) : d.read p = some (d.content n) := by
  unfold read
  rw [h, Option.map_some]

theorem read_eq_none : d.read p = none ↔ d.links p = none := Option.map_eq_none_iff

theorem store_self : d.store n (d.content n) = d := by
  unfold store
  simp only [Function.update_eq_self]

end Facts

section Change
variable [DecidableEq N]

/-- A new file under a name. -/
def make (p : N) (b : B) : Disk N B where
  links := Function.update d.links p (some d.files)
  content := Function.update d.content d.files b
  files := d.files + 1
  links_inj := by
    intro q q' n hq hq'
    rw [Function.update_apply] at hq hq'
    split_ifs at hq hq' with h h' h'
    · exact h.trans h'.symm
    · cases hq
      exact absurd (d.links_lt hq') (lt_irrefl _)
    · cases hq'
      exact absurd (d.links_lt hq) (lt_irrefl _)
    · exact d.links_inj hq hq'
  links_lt := by
    intro q n hq
    rw [Function.update_apply] at hq
    split_ifs at hq
    · cases hq
      exact Nat.lt_succ_self _
    · exact (d.links_lt hq).trans (Nat.lt_succ_self _)

def remove (p : N) : Disk N B where
  links := Function.update d.links p none
  content := d.content
  files := d.files
  links_inj := by
    intro q q' n hq hq'
    rw [Function.update_apply] at hq hq'
    split_ifs at hq hq'
    exact d.links_inj hq hq'
  links_lt := by
    intro q n hq
    rw [Function.update_apply] at hq
    split_ifs at hq
    exact d.links_lt hq

variable {d} {p : N} {n : ℕ} {b : B}

theorem read_make : (d.make p b).read = Function.update d.read p (some b) := by
  funext q
  unfold read make
  dsimp only
  rw [Function.update_apply, Function.update_apply]
  split_ifs
  · rw [Option.map_some, Function.update_self]
  · apply Option.map_congr
    intro n hn
    exact Function.update_of_ne (d.links_lt hn).ne _ _

theorem read_store (h : d.links p = some n) :
    (d.store n b).read = Function.update d.read p (some b) := by
  funext q
  rw [Function.update_apply]
  unfold read store
  dsimp only
  split_ifs with hq
  · rw [hq, h, Option.map_some, Function.update_self]
  · apply Option.map_congr
    intro m hm
    apply Function.update_of_ne
    rintro rfl
    exact hq (d.links_inj hm h)

theorem read_remove : (d.remove p).read = Function.update d.read p none := by
  funext q
  unfold read remove
  dsimp only
  rw [Function.update_apply, Function.update_apply]
  split_ifs
  · rfl
  · rfl

end Change
end Disk
end Directory
