import Mathlib.Data.List.Range
import Mathlib.Data.List.Nodup
import Mathlib.Order.MinMax
import Mathlib.Algebra.Group.Int.Defs
import Mathlib.Algebra.GroupWithZero.Nat

/-!
# Chunks of a range of integers

`Ico a b` lists the integers from `a` up to `b`, `b` excluded.  Split into chunks of `k`
consecutive integers, the last one cut at `n`, the range `0 .. n` has `(n + k - 1) / k`
chunks, and the chunks taken in order give the range back.
-/

namespace KubeTrigger
namespace Foundation

/-- The integers `a, a + 1, ..., b - 1`. -/
def Ico (a b : Int) : List Int :=
  (List.range (b - a).toNat).map (fun i : Nat => a + i)

@[simp] theorem mem_Ico {a b x : Int} : x ∈ Ico a b ↔ a ≤ x ∧ x < b := by
  simp only [Ico, List.mem_map, List.mem_range]
  constructor
  · rintro ⟨i, hi, rfl⟩
    omega
  · rintro ⟨hax, hxb⟩
    exact ⟨(x - a).toNat, by omega, by omega⟩

@[simp] theorem length_Ico (a b : Int) : (Ico a b).length = (b - a).toNat := by
  simp [Ico]

theorem nodup_Ico (a b : Int) : (Ico a b).Nodup := by
  unfold Ico
  apply List.Nodup.map
  · intro i j h
    simp only at h
    omega
  · exact List.nodup_range

theorem Ico_eq_nil {a b : Int} (h : b ≤ a) : Ico a b = [] := by
  rw [← List.length_eq_zero_iff, length_Ico]
  omega

theorem Ico_eq_cons {a b : Int} (h : a < b) : Ico a b = a :: Ico (a + 1) b := by
  unfold Ico
  have hlen : (b - a).toNat = (b - (a + 1)).toNat + 1 := by omega
  rw [hlen, List.range_succ_eq_map]
  simp only [List.map_cons, List.map_map]
  congr 1
  · simp
  · apply List.map_congr_left
    intro i _
    simp only [Function.comp_apply]
    omega

theorem Ico_append {a b c : Int} (hab : a ≤ b) (hbc : b ≤ c) : Ico a b ++ Ico b c = Ico a c := by
  unfold Ico
  have hlen : (c - a).toNat = (b - a).toNat + (c - b).toNat := by omega
  rw [hlen, List.range_add, List.map_append, List.map_map]
  congr 1
  apply List.map_congr_left
  intro i _
  simp only [Function.comp_apply]
  omega

/-!
## Chunks
-/

/-- The `c`-th chunk of `0 .. n` in chunks of `k`. -/
def chunk (n k c : Int) : List Int :=
  Ico (c * k) (min (c * k + k) n)

/-- The first `m` chunks cover `0 .. min (m * k) n`. -/
theorem flatMap_chunk (n : Int) {k : Int} (hk : 0 < k) (m : Nat) :
    (List.range m).flatMap (fun c : Nat => chunk n k c) = Ico 0 (min (m * k) n) := by
  induction m with
  | zero =>
      rw [Ico_eq_nil (by simp)]
      rfl
  | succ m ih =>
      rw [List.range_succ, List.flatMap_append, ih, List.flatMap_singleton]
      unfold chunk
      have hm : (0 : Int) ≤ m * k := Int.mul_nonneg (Int.natCast_nonneg m) (Int.le_of_lt hk)
      by_cases hle : (m : Int) * k ≤ n
      · -- the chunk starts where the covered range ends
        rw [min_eq_left hle, Ico_append hm (le_min (by omega) hle)]
        congr 1
        push_cast
        rw [Int.add_mul, Int.one_mul]
      · -- the range is covered already and the chunk is empty
        have hn : min ((m : Int) * k) n = n := min_eq_right (by omega)
        rw [hn, Ico_eq_nil (a := (m : Int) * k) (by omega), List.append_nil]
        congr 1
        push_cast
        rw [Int.add_mul, Int.one_mul]
        exact (min_eq_right (by omega)).symm

/-- `(n + k - 1) / k` chunks of `k` reach `n`. -/
theorem le_ceilDiv_mul {n k : Int} (hk : 0 < k) : n ≤ (n + k - 1) / k * k := by
  have hdiv := Int.emod_add_mul_ediv (n + k - 1) k
  have hmod := Int.emod_lt_of_pos (n + k - 1) hk
  rw [Int.mul_comm] at hdiv
  generalize (n + k - 1) / k * k = t at *
  omega

/-- The chunks of `0 .. n` cover it. -/
theorem flatMap_chunk_ceilDiv {n k : Int} (hn : 0 ≤ n) (hk : 0 < k) :
    (List.range ((n + k - 1) / k).toNat).flatMap (fun c : Nat => chunk n k c) = Ico 0 n := by
  rw [flatMap_chunk n hk]
  have hq : (0 : Int) ≤ (n + k - 1) / k := Int.ediv_nonneg (by omega) (Int.le_of_lt hk)
  rw [Int.toNat_of_nonneg hq, min_eq_right (le_ceilDiv_mul hk)]

/-!
## Shares of the work

Work handed out to slots (a list of shares, one per slot), counted as a whole: replacing the
share of one slot changes the counts by the two shares.
-/

theorem count_flatMap_set {α β : Type} [BEq β] (f : α -> List β) (x : β) (b : α) :
    forall {l : List α} {i : Nat} {a : α}, l[i]? = some a ->
      ((l.set i b).flatMap f).count x + (f a).count x =
        (l.flatMap f).count x + (f b).count x := by
  intro l
  induction l with
  | nil =>
      intro i a h
      simp at h
  | cons y rest ih =>
      intro i a h
      cases i with
      | zero =>
          simp only [List.getElem?_cons_zero, Option.some.injEq] at h
          subst h
          simp only [List.set_cons_zero, List.flatMap_cons, List.count_append]
          omega
      | succ i =>
          simp only [List.getElem?_cons_succ] at h
          have hrest := ih h
          simp only [List.set_cons_succ, List.flatMap_cons, List.count_append]
          omega

theorem sum_map_set {α : Type} (f : α -> Nat) (b : α) :
    forall {l : List α} {i : Nat} {a : α}, l[i]? = some a ->
      ((l.set i b).map f).sum + f a = (l.map f).sum + f b := by
  intro l
  induction l with
  | nil =>
      intro i a h
      simp at h
  | cons y rest ih =>
      intro i a h
      cases i with
      | zero =>
          simp only [List.getElem?_cons_zero, Option.some.injEq] at h
          subst h
          simp only [List.set_cons_zero, List.map_cons, List.sum_cons]
          omega
      | succ i =>
          simp only [List.getElem?_cons_succ] at h
          have hrest := ih h
          simp only [List.set_cons_succ, List.map_cons, List.sum_cons]
          omega

/-- A slot of the list after `set` holds the new share or what it held before. -/
theorem getElem?_set_eq_some {α : Type} {l : List α} {i j : Nat} {a b : α}
    (h : (l.set i a)[j]? = some b) : (j = i ∧ b = a) ∨ l[j]? = some b := by
  rw [List.getElem?_set] at h
  split at h
  · rename_i hij
    split at h
    · exact Or.inl ⟨hij.symm, (Option.some.inj h).symm⟩
    · cases h
  · exact Or.inr h

end Foundation
end KubeTrigger
