import Mathlib.Logic.Function.Basic
import Mathlib.Tactic.Common

/-! A file of equal pages: positioned writes, truncation, and the file a cut sequence of
effects leaves behind. A page that was never written, or lies past the end, reads blank. -/

namespace DurableContext

/-- A file as its pages; nothing past the end is remembered. -/
structure Disk (β : Type) [Inhabited β] where
  block : Nat → β
  size : Nat
  zeroed : ∀ page, size ≤ page → block page = default

/-- What a program does to a file, one system call at a time. -/
inductive Effect (β : Type) where
  | pwrite (page : Nat) (block : β)
  | ftruncate (pages : Nat)

namespace Disk

variable {β : Type} [Inhabited β]

def empty : Disk β := ⟨fun _ => default, 0, fun _ _ => rfl⟩

def pread (disk : Disk β) (page : Nat) : β := disk.block page

def pwrite (disk : Disk β) (page : Nat) (block : β) : Disk β where
  block := fun other => if other = page then block else disk.block other
  size := max disk.size (page + 1)
  zeroed := by
    intro other beyond
    have different : other ≠ page := by omega
    have past : disk.size ≤ other := by omega
    simp [different, disk.zeroed other past]

def ftruncate (disk : Disk β) (pages : Nat) : Disk β where
  block := fun other => if other < pages then disk.block other else default
  size := pages
  zeroed := by
    intro other beyond
    simp [Nat.not_lt.mpr beyond]

def apply (disk : Disk β) : Effect β → Disk β
  | .pwrite page block => disk.pwrite page block
  | .ftruncate pages => disk.ftruncate pages

def replay (disk : Disk β) (effects : List (Effect β)) : Disk β := effects.foldl apply disk

@[simp] theorem pread_pwrite (disk : Disk β) (page other : Nat) (block : β) :
    (disk.pwrite page block).pread other = if other = page then block else disk.pread other := rfl

@[simp] theorem size_pwrite (disk : Disk β) (page : Nat) (block : β) :
    (disk.pwrite page block).size = max disk.size (page + 1) := rfl

@[simp] theorem pread_ftruncate (disk : Disk β) (pages other : Nat) :
    (disk.ftruncate pages).pread other = if other < pages then disk.pread other else default := rfl

@[simp] theorem size_ftruncate (disk : Disk β) (pages : Nat) :
    (disk.ftruncate pages).size = pages := rfl

theorem pread_past (disk : Disk β) {page : Nat} (past : disk.size ≤ page) :
    disk.pread page = default := disk.zeroed page past

@[simp] theorem replay_nil (disk : Disk β) : disk.replay [] = disk := rfl

@[simp] theorem replay_cons (disk : Disk β) (effect : Effect β) (effects : List (Effect β)) :
    disk.replay (effect :: effects) = (disk.apply effect).replay effects := rfl

theorem replay_append (disk : Disk β) (before after : List (Effect β)) :
    disk.replay (before ++ after) = (disk.replay before).replay after := by
  simp [replay, List.foldl_append]

theorem pread_replay_other {disk : Disk β} {effects : List (Effect β)} {page : Nat}
    (apart : ∀ effect ∈ effects, ∃ written block, effect = .pwrite written block ∧ written ≠ page) :
    (disk.replay effects).pread page = disk.pread page := by
  induction effects generalizing disk with
  | nil => rfl
  | cons effect rest ih =>
      obtain ⟨written, block, rfl, different⟩ := apart effect (by simp)
      rw [replay_cons, ih fun later member => apart later (List.mem_cons_of_mem _ member)]
      simp [apply, different.symm]

/-- A relation between files that every single effect keeps holds after any cut of the effects. -/
theorem replay_induction {keeps : Disk β → Prop} {effects : List (Effect β)} {disk : Disk β}
    (start : keeps disk)
    (step : ∀ effect ∈ effects, ∀ middle, keeps middle → keeps (middle.apply effect)) :
    keeps (disk.replay effects) := by
  induction effects generalizing disk with
  | nil => exact start
  | cons effect rest ih =>
      rw [replay_cons]
      exact ih (step effect (by simp) disk start)
        fun later member => step later (List.mem_cons_of_mem _ member)

end Disk
end DurableContext
