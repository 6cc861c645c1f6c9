import Mathlib.Data.List.Basic

/-!
# Binary heaps over a heap interface

The algorithms of a binary heap kept in a slice, written against an interface of five
methods in the style of Go's `container/heap`: the container tells its length, compares
and exchanges two positions, appends an element and removes the last one.  `up` and
`down` sift an element towards the root and towards the leaves; `push`, `pop`, `fix`
and `init` are built from them exactly as the interface's users call them.

The interface may do bookkeeping of its own in `swap`, `push` and `pop` (an element may
record its position, say).  A lawful interface has a view as a list on which `swap`
exchanges two positions, `push` appends and `pop` removes the last element.  Over a
lawful interface the heap operations only permute the view: this module proves that every
count over the view is kept by the sifts, grows by one with `push`, and that `pop` returns
the element that was at the root.
-/

namespace KubeTrigger
namespace Foundation

variable {α : Type}

/-- Exchange the elements at positions `i` and `j`; a list with either position out of
range is left as it is. -/
def swapAt (l : List α) (i j : Nat) : List α :=
  match l[i]?, l[j]? with
  | some a, some b => (l.set i b).set j a
  | _, _ => l

theorem swapAt_of_lt {l : List α} {i j : Nat} (hi : i < l.length) (hj : j < l.length) :
    swapAt l i j = (l.set i l[j]).set j l[i] := by
  simp [swapAt, List.getElem?_eq_getElem hi, List.getElem?_eq_getElem hj]

@[simp] theorem length_swapAt (l : List α) (i j : Nat) : (swapAt l i j).length = l.length := by
  unfold swapAt
  split <;> simp

theorem countP_swapAt (p : α -> Bool) (l : List α) (i j : Nat) :
    (swapAt l i j).countP p = l.countP p := by
  unfold swapAt
  split
  · rename_i a b ha hb
    obtain ⟨hi, rfl⟩ := List.getElem?_eq_some_iff.mp ha
    obtain ⟨hj, rfl⟩ := List.getElem?_eq_some_iff.mp hb
    have hj' : j < (l.set i l[j]).length := by
      rw [List.length_set]
      exact hj
    have hle := List.boole_getElem_le_countP (p := p) hi
    rw [List.countP_set hj', List.countP_set hi]
    simp only [List.getElem_set, ite_self]
    cases hpi : p l[i] <;> cases hpj : p l[j] <;>
      simp only [hpi, if_true, if_false, Bool.false_eq_true] at hle ⊢ <;> omega
  · rfl

theorem getElem?_swapAt_of_ne (l : List α) {i j k : Nat} (hki : k ≠ i) (hkj : k ≠ j) :
    (swapAt l i j)[k]? = l[k]? := by
  unfold swapAt
  split
  · rw [List.getElem?_set_ne (Ne.symm hkj), List.getElem?_set_ne (Ne.symm hki)]
  · rfl

theorem getElem?_swapAt_right {l : List α} {i j : Nat} (hi : i < l.length)
    (hj : j < l.length) : (swapAt l i j)[j]? = l[i]? := by
  rw [swapAt_of_lt hi hj, List.getElem?_set_self (by simpa using hj),
    List.getElem?_eq_getElem hi]

/-!
## The interface and its laws
-/

/-- The methods the heap algorithms call on their container. -/
structure HeapInterface (heap elem : Type) where
  len : heap -> Nat
  less : heap -> Nat -> Nat -> Bool
  swap : heap -> Nat -> Nat -> heap
  push : heap -> elem -> heap
  pop : heap -> heap × elem

/-- A view of the container as a list on which the methods act as a slice's would. -/
structure HeapInterface.Lawful {heap elem val : Type} (I : HeapInterface heap elem)
    (view : heap -> List val) (f : elem -> val) : Prop where
  len_eq : forall s, I.len s = (view s).length
  view_swap : forall s i j, i < I.len s -> j < I.len s ->
    view (I.swap s i j) = swapAt (view s) i j
  view_push : forall s x, view (I.push s x) = view s ++ [f x]
  view_pop : forall s, 0 < I.len s -> view (I.pop s).1 ++ [f (I.pop s).2] = view s

namespace Heap

variable {heap elem : Type} (I : HeapInterface heap elem)

/-- Move the element at `j` towards the root while it is less than its parent. -/
def up (s : heap) (j : Nat) : heap :=
  -- the parent of `j`; it equals `j` only at the root
  if (j - 1) / 2 = j then s
  else if I.less s j ((j - 1) / 2) then up (I.swap s ((j - 1) / 2) j) ((j - 1) / 2)
  else s
termination_by j
decreasing_by omega

/-- The child of `i` that `down` compares with: the right one when it is in range and
less than the left one. -/
def smallerChild (s : heap) (i n : Nat) : Nat :=
  let j1 := 2 * i + 1
  if j1 + 1 < n && I.less s (j1 + 1) j1 then j1 + 1 else j1

theorem smallerChild_bounds {s : heap} {i n : Nat} (h1 : ¬ n ≤ 2 * i + 1) :
    i < smallerChild I s i n ∧ smallerChild I s i n < n := by
  simp only [smallerChild]
  split
  · rename_i hc
    simp only [Bool.and_eq_true, decide_eq_true_eq] at hc
    omega
  · omega

/-- Move the element at `i` towards the leaves of the first `n` positions while a child
is less than it; the result carries the position where the element stopped. -/
def downFrom (s : heap) (i n : Nat) : heap × Nat :=
  if n ≤ 2 * i + 1 then (s, i)
  else if I.less s (smallerChild I s i n) i then
    downFrom (I.swap s i (smallerChild I s i n)) (smallerChild I s i n) n
  else (s, i)
termination_by n - i
decreasing_by
  have hb := smallerChild_bounds I (s := s) (by assumption)
  omega

/-- `down` reports whether the element moved at all. -/
def down (s : heap) (i0 n : Nat) : heap × Bool :=
  let r := downFrom I s i0 n
  (r.1, decide (r.2 > i0))

/-- Append an element and sift it up. -/
def push (s : heap) (x : elem) : heap :=
  let s' := I.push s x
  up I s' (I.len s' - 1)

/-- Move the root to the end, restore the heap on the rest, and remove the last element. -/
def pop (s : heap) : heap × elem :=
  let n := I.len s - 1
  let s' := I.swap s 0 n
  I.pop (down I s' 0 n).1

/-- Restore the heap after the element at `i` changed. -/
def fix (s : heap) (i : Nat) : heap :=
  let r := down I s i (I.len s)
  if r.2 then r.1 else up I r.1 i

/-- Establish the heap by sifting down every inner position, the last one first. -/
def init (s : heap) : heap :=
  let n := I.len s
  (List.range (n / 2)).reverse.foldl (fun acc i => (down I acc i n).1) s

/-!
## The operations permute the view

Over a lawful interface every sift is a sequence of in-range swaps, so the length and
every count over the view stay as they were; `down` on the first `n` positions leaves
the positions from `n` on alone, which is what makes `pop` hand out the old root.
-/

section Lawful

variable {val : Type} {I} {view : heap -> List val} {f : elem -> val}

theorem len_swap (hI : I.Lawful view f) {s : heap} {i j : Nat} (hi : i < I.len s)
    (hj : j < I.len s) : I.len (I.swap s i j) = I.len s := by
  rw [hI.len_eq, hI.len_eq s, hI.view_swap s i j hi hj, length_swapAt]

theorem countP_swap (hI : I.Lawful view f) (p : val -> Bool) {s : heap} {i j : Nat}
    (hi : i < I.len s) (hj : j < I.len s) :
    (view (I.swap s i j)).countP p = (view s).countP p := by
  rw [hI.view_swap s i j hi hj, countP_swapAt]

theorem up_spec (hI : I.Lawful view f) (p : val -> Bool) :
    forall (s : heap) (j : Nat), j < I.len s ->
      I.len (up I s j) = I.len s ∧ (view (up I s j)).countP p = (view s).countP p := by
  intro s j hj
  induction s, j using up.induct I with
  | case1 s j hij =>
      rw [up, if_pos hij]
      exact ⟨rfl, rfl⟩
  | case2 s j hij hless ih =>
      rw [up, if_neg hij, if_pos hless]
      have hi : (j - 1) / 2 < I.len s := by omega
      have hlen := len_swap hI hi hj
      obtain ⟨h1, h2⟩ := ih (by omega)
      exact ⟨h1.trans hlen, h2.trans (countP_swap hI p hi hj)⟩
  | case3 s j hij hless =>
      rw [up, if_neg hij, if_neg hless]
      exact ⟨rfl, rfl⟩

theorem downFrom_spec (hI : I.Lawful view f) (p : val -> Bool) :
    forall (s : heap) (i n : Nat), n ≤ I.len s ->
      I.len (downFrom I s i n).1 = I.len s ∧
        (view (downFrom I s i n).1).countP p = (view s).countP p ∧
        forall k, n ≤ k -> (view (downFrom I s i n).1)[k]? = (view s)[k]? := by
  intro s i n hn
  induction s, i using downFrom.induct I n with
  | case1 s i hstop =>
      rw [downFrom, if_pos hstop]
      exact ⟨rfl, rfl, fun _ _ => rfl⟩
  | case2 s i hgo hless ih =>
      rw [downFrom, if_neg hgo, if_pos hless]
      have hb := smallerChild_bounds I (s := s) hgo
      have hi : i < I.len s := by omega
      have hj : smallerChild I s i n < I.len s := by omega
      have hlen := len_swap hI hi hj
      obtain ⟨h1, h2, h3⟩ := ih (by omega)
      refine ⟨h1.trans hlen, h2.trans (countP_swap hI p hi hj), ?_⟩
      intro k hk
      rw [h3 k hk, hI.view_swap s i _ hi hj]
      exact getElem?_swapAt_of_ne _ (by omega) (by omega)
  | case3 s i hgo hless =>
      rw [downFrom, if_neg hgo, if_neg hless]
      exact ⟨rfl, rfl, fun _ _ => rfl⟩

theorem fix_spec (hI : I.Lawful view f) (p : val -> Bool) {s : heap} {i : Nat}
    (hi : i < I.len s) :
    I.len (fix I s i) = I.len s ∧ (view (fix I s i)).countP p = (view s).countP p := by
  obtain ⟨h1, h2, -⟩ := downFrom_spec hI p s i (I.len s) (Nat.le_refl _)
  simp only [fix, down]
  by_cases hm : (downFrom I s i (I.len s)).2 > i
  · simp only [hm, decide_true, if_true]
    exact ⟨h1, h2⟩
  · simp only [hm, decide_false, Bool.false_eq_true, if_false]
    obtain ⟨h3, h4⟩ := up_spec hI p (downFrom I s i (I.len s)).1 i (by omega)
    exact ⟨h3.trans h1, h4.trans h2⟩

theorem push_spec (hI : I.Lawful view f) (p : val -> Bool) (s : heap) (x : elem) :
    I.len (push I s x) = I.len s + 1 ∧
      (view (push I s x)).countP p =
        (view s).countP p + (if p (f x) then 1 else 0) := by
  have hlen : I.len (I.push s x) = I.len s + 1 := by
    rw [hI.len_eq, hI.len_eq s, hI.view_push]
    simp
  obtain ⟨h1, h2⟩ := up_spec hI p (I.push s x) (I.len (I.push s x) - 1) (by omega)
  unfold push
  refine ⟨h1.trans hlen, ?_⟩
  rw [h2, hI.view_push, List.countP_append]
  simp [List.countP_cons]

/-- `pop` hands out the element at the root and removes exactly one element. -/
theorem pop_spec (hI : I.Lawful view f) (p : val -> Bool) {s : heap} (h0 : 0 < I.len s) :
    (view s)[0]? = some (f (pop I s).2) ∧ I.len (pop I s).1 + 1 = I.len s ∧
      (view (pop I s).1).countP p + (if p (f (pop I s).2) then 1 else 0) =
        (view s).countP p := by
  have hn : I.len s - 1 < I.len s := by omega
  have hz : 0 < I.len s := h0
  have hlen1 := len_swap hI hz hn
  obtain ⟨h1, h2, h3⟩ := downFrom_spec hI p (I.swap s 0 (I.len s - 1)) 0 (I.len s - 1)
    (by omega)
  -- after the swap the old root sits at the last position, which `down` leaves alone
  have hroot : (view (downFrom I (I.swap s 0 (I.len s - 1)) 0 (I.len s - 1)).1)[I.len s - 1]? =
      (view s)[0]? := by
    rw [h3 _ (Nat.le_refl _), hI.view_swap s 0 _ hz hn]
    rw [hI.len_eq] at hz hn ⊢
    exact getElem?_swapAt_right hz hn
  have hpos : 0 < I.len (downFrom I (I.swap s 0 (I.len s - 1)) 0 (I.len s - 1)).1 := by
    omega
  have hpop := hI.view_pop _ hpos
  unfold pop down
  simp only
  set d := (downFrom I (I.swap s 0 (I.len s - 1)) 0 (I.len s - 1)).1 with hd
  have hlast : (view d)[I.len s - 1]? = some (f (I.pop d).2) := by
    have hl : (view (I.pop d).1).length = I.len s - 1 := by
      have hlen2 := congrArg List.length hpop
      rw [List.length_append, List.length_singleton, ← hI.len_eq d, h1, hlen1] at hlen2
      omega
    rw [← hpop, ← hl, List.getElem?_concat_length]
  refine ⟨?_, ?_, ?_⟩
  · rw [← hroot, hlast]
  · have hlen2 := congrArg List.length hpop
    rw [List.length_append, List.length_singleton, ← hI.len_eq d, ← hI.len_eq, h1, hlen1]
      at hlen2
    exact hlen2
  · have hc := congrArg (List.countP p) hpop
    rw [List.countP_append, h2, countP_swap hI p hz hn] at hc
    simpa [List.countP_cons] using hc

end Lawful

/-!
## What the sifts leave alone

A function of the container that no `swap` changes is not changed by the sifts either;
with `push` and `pop` keeping it too, no heap operation changes it.  The element store
behind a heap of references is such a function when `swap` only rewrites bookkeeping.
-/

section Frame

variable {β : Type} {I} (g : heap -> β)

theorem up_frame (hg : forall s i j, g (I.swap s i j) = g s) :
    forall (s : heap) (j : Nat), g (up I s j) = g s := by
  intro s j
  induction s, j using up.induct I with
  | case1 s j hij =>
      rw [up, if_pos hij]
  | case2 s j hij hless ih =>
      rw [up, if_neg hij, if_pos hless, ih, hg]
  | case3 s j hij hless =>
      rw [up, if_neg hij, if_neg hless]

theorem downFrom_frame (hg : forall s i j, g (I.swap s i j) = g s) :
    forall (s : heap) (i n : Nat), g (downFrom I s i n).1 = g s := by
  intro s i n
  induction s, i using downFrom.induct I n with
  | case1 s i hstop =>
      rw [downFrom, if_pos hstop]
  | case2 s i hgo hless ih =>
      rw [downFrom, if_neg hgo, if_pos hless, ih, hg]
  | case3 s i hgo hless =>
      rw [downFrom, if_neg hgo, if_neg hless]

theorem fix_frame (hg : forall s i j, g (I.swap s i j) = g s) (s : heap) (i : Nat) :
    g (fix I s i) = g s := by
  simp only [fix, down]
  by_cases hm : (downFrom I s i (I.len s)).2 > i
  · simp only [hm, decide_true, if_true]
    exact downFrom_frame g hg s i (I.len s)
  · simp only [hm, decide_false, Bool.false_eq_true, if_false]
    rw [up_frame g hg, downFrom_frame g hg]

theorem push_frame (hg : forall s i j, g (I.swap s i j) = g s)
    (hpush : forall s x, g (I.push s x) = g s) (s : heap) (x : elem) :
    g (push I s x) = g s := by
  simp only [push]
  rw [up_frame g hg, hpush]

theorem pop_frame (hg : forall s i j, g (I.swap s i j) = g s)
    (hpop : forall s, g (I.pop s).1 = g s) (s : heap) : g (pop I s).1 = g s := by
  simp only [pop, down]
  rw [hpop, downFrom_frame g hg, hg]

end Frame

end Heap

end Foundation
end KubeTrigger
