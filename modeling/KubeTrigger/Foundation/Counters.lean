import Mathlib.Data.List.AList

/-!
# Counts per key

A Go `map[K]int` used as a table of counts: reading a missing key gives zero, `m[k]++` adds
one and `delete(m, k)` resets the key.  The count of a key after a history of such touches
is the number of increments of that key since it was last reset (`sinceReset`).
-/

namespace KubeTrigger
namespace Foundation

/-- Counts per key; a key that is not in the list counts zero. -/
abbrev Counts (α : Type) := AList (fun _ : α => Nat)

namespace Counts

variable {α : Type} [DecidableEq α]

/-- `m[a]`. -/
def get (m : Counts α) (a : α) : Nat :=
  (m.lookup a).getD 0

/-- `m[a]++`. -/
def incr (m : Counts α) (a : α) : Counts α :=
  m.insert a (m.get a + 1)

/-- `delete(m, a)`. -/
def reset (m : Counts α) (a : α) : Counts α :=
  m.erase a

@[simp] theorem get_empty (a : α) : (∅ : Counts α).get a = 0 := by
  simp [get, AList.lookup_empty]

@[simp] theorem get_incr (m : Counts α) (a b : α) :
    (m.incr a).get b = if b = a then m.get b + 1 else m.get b := by
  unfold incr get
  by_cases hb : b = a
  · subst hb
    simp [AList.lookup_insert]
  · simp [AList.lookup_insert_ne hb, hb]

@[simp] theorem get_reset (m : Counts α) (a b : α) :
    (m.reset a).get b = if b = a then 0 else m.get b := by
  unfold reset get
  by_cases hb : b = a
  · subst hb
    simp [AList.lookup_erase]
  · simp [AList.lookup_erase_ne hb, hb]

end Counts

/-!
## Histories of touches
-/

/-- A touch of one key: an increment or a reset. -/
inductive Touch (α : Type)
  | incr (a : α)
  | reset (a : α)
deriving DecidableEq

variable {α : Type} [DecidableEq α]

/-- The increments of `a` since its last reset in the history `h`, oldest touch first. -/
def sinceReset (h : List (Touch α)) (a : α) : Nat :=
  ((h.reverse.takeWhile (fun x => x != Touch.reset a)).filter (fun x => x == Touch.incr a)).length

@[simp] theorem sinceReset_nil (a : α) : sinceReset ([] : List (Touch α)) a = 0 := rfl

theorem sinceReset_incr (h : List (Touch α)) (a b : α) :
    sinceReset (h ++ [Touch.incr b]) a = if a = b then sinceReset h a + 1 else sinceReset h a := by
  unfold sinceReset
  have hne : (Touch.incr b != Touch.reset a) = true := by
    simp
  rw [List.reverse_append, List.reverse_singleton, List.singleton_append,
    List.takeWhile_cons_of_pos (p := fun x => x != Touch.reset a) hne, List.filter_cons]
  by_cases hab : a = b
  · subst hab
    simp
  · have hb : (Touch.incr b == Touch.incr a) = false := by
      simp [Ne.symm hab]
    simp [hb, hab]

theorem sinceReset_reset (h : List (Touch α)) (a b : α) :
    sinceReset (h ++ [Touch.reset b]) a = if a = b then 0 else sinceReset h a := by
  unfold sinceReset
  rw [List.reverse_append, List.reverse_singleton, List.singleton_append]
  by_cases hab : a = b
  · -- the history ends with the reset of `a`
    subst hab
    simp
  · have hne : (Touch.reset b != Touch.reset a) = true := by
      simp [Ne.symm hab]
    rw [List.takeWhile_cons_of_pos (p := fun x => x != Touch.reset a) hne, List.filter_cons]
    simp [hab]

end Foundation
end KubeTrigger
