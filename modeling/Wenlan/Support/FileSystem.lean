import Mathlib.Data.Option.Basic

/-!
# Directories of hard links

A file system as a program sees it that never follows symbolic links: names link to inodes,
inodes hold texts, and each operation is atomic.  `fresh` is above every inode in use and
`names` lists every name in use.  An operation that fails answers `none` and changes nothing.
-/

namespace Wenlan.Support.FileSystem

structure Files (P B : Type*) where
  link : P → Option Nat
  data : Nat → B
  fresh : Nat
  names : List P
  bounded : ∀ p i, link p = some i → i < fresh
  listed : ∀ p i, link p = some i → p ∈ names

namespace Files

variable {P B : Type*} [DecidableEq P] {fs fs' : Files P B} {p q : P} {i : Nat} {b : B}

def read (fs : Files P B) (p : P) : Option B :=
  (fs.link p).map fs.data

def setLink (fs : Files P B) (p : P) (i : Nat) (hi : i < fs.fresh) : Files P B where
  link := Function.update fs.link p (some i)
  data := fs.data
  fresh := fs.fresh
  names := p :: fs.names
  bounded := by
    intro q j h
    by_cases hq : q = p
    · rw [hq, Function.update_self, Option.some.injEq] at h
      omega
    · rw [Function.update_of_ne hq] at h
      exact fs.bounded q j h
  listed := by
    intro q j h
    by_cases hq : q = p
    · rw [hq]
      exact List.mem_cons_self
    · rw [Function.update_of_ne hq] at h
      exact List.mem_cons_of_mem _ (fs.listed q j h)

def unlink (fs : Files P B) (p : P) : Files P B where
  link := Function.update fs.link p none
  data := fs.data
  fresh := fs.fresh
  names := fs.names
  bounded := by
    intro q j h
    by_cases hq : q = p
    · rw [hq, Function.update_self] at h
      simp at h
    · rw [Function.update_of_ne hq] at h
      exact fs.bounded q j h
  listed := by
    intro q j h
    by_cases hq : q = p
    · rw [hq, Function.update_self] at h
      simp at h
    · rw [Function.update_of_ne hq] at h
      exact fs.listed q j h

/-- A new inode that no name links to yet. -/
def alloc (fs : Files P B) (b : B) : Files P B where
  link := fs.link
  data := Function.update fs.data fs.fresh b
  fresh := fs.fresh + 1
  names := fs.names
  bounded := fun p i h => Nat.lt_succ_of_lt (fs.bounded p i h)
  listed := fs.listed

/-- A write through an open handle: it reaches the inode wherever that is linked. -/
def store (fs : Files P B) (i : Nat) (b : B) : Files P B :=
  { fs with data := Function.update fs.data i b }

/-- `open` with `O_CREAT | O_EXCL`. -/
def createNew (fs : Files P B) (p : P) (b : B) : Option (Files P B) :=
  if fs.link p = none then some ((fs.alloc b).setLink p fs.fresh (Nat.lt_succ_self _)) else none

/-- `link`: the new name must be free. -/
def hardLink (fs : Files P B) (p q : P) : Option (Files P B) :=
  match h : fs.link p with
  | some i => if fs.link q = none then some (fs.setLink q i (fs.bounded p i h)) else none
  | none => none

/-- `rename`: what stood at the new name is replaced. -/
def rename (fs : Files P B) (p q : P) : Option (Files P B) :=
  match h : fs.link p with
  | some i => some ((fs.unlink p).setLink q i (fs.bounded p i h))
  | none => none

def remove (fs : Files P B) (p : P) : Option (Files P B) :=
  if fs.link p = none then none else some (fs.unlink p)

omit [DecidableEq P] in
@[simp] theorem store_link (fs : Files P B) (i : Nat) (b : B) : (fs.store i b).link = fs.link :=
  rfl

omit [DecidableEq P] in
@[simp] theorem store_data (fs : Files P B) (i : Nat) (b : B) :
    (fs.store i b).data = Function.update fs.data i b := rfl

omit [DecidableEq P] in
@[simp] theorem store_fresh (fs : Files P B) (i : Nat) (b : B) :
    (fs.store i b).fresh = fs.fresh := rfl

theorem createNew_eq_some (h : fs.createNew p b = some fs') :
    fs.link p = none ∧ fs'.link = Function.update fs.link p (some fs.fresh) ∧
      fs'.data = Function.update fs.data fs.fresh b ∧ fs'.fresh = fs.fresh + 1 := by
  unfold createNew at h
  split at h
  · rename_i hnone
    cases h
    exact ⟨hnone, rfl, rfl, rfl⟩
  · simp at h

theorem hardLink_eq_some (h : fs.hardLink p q = some fs') :
    ∃ i, fs.link p = some i ∧ fs.link q = none ∧
      fs'.link = Function.update fs.link q (some i) ∧ fs'.data = fs.data ∧
      fs'.fresh = fs.fresh := by
  unfold hardLink at h
  split at h
  · rename_i i hp
    split at h
    · rename_i hq
      cases h
      exact ⟨i, hp, hq, rfl, rfl, rfl⟩
    · simp at h
  · simp at h

theorem rename_eq_some (h : fs.rename p q = some fs') : ∃ i, fs.link p = some i ∧
      fs'.link = Function.update (Function.update fs.link p none) q (some i) ∧
      fs'.data = fs.data ∧ fs'.fresh = fs.fresh := by
  unfold rename at h
  split at h
  · rename_i i hp
    cases h
    exact ⟨i, hp, rfl, rfl, rfl⟩
  · simp at h

theorem remove_eq_some (h : fs.remove p = some fs') :
    fs.link p ≠ none ∧ fs'.link = Function.update fs.link p none ∧ fs'.data = fs.data ∧
      fs'.fresh = fs.fresh := by
  unfold remove at h
  split at h
  · simp at h
  · rename_i hp
    cases h
    exact ⟨hp, rfl, rfl, rfl⟩

omit [DecidableEq P] in
theorem read_eq_some : fs.read p = some b ↔ ∃ i, fs.link p = some i ∧ fs.data i = b := by
  rw [read, Option.map_eq_some_iff]

omit [DecidableEq P] in
theorem read_eq_none : fs.read p = none ↔ fs.link p = none := by
  rw [read, Option.map_eq_none_iff]

end Files

end Wenlan.Support.FileSystem
