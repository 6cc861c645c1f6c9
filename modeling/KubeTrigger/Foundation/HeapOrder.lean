import Mathlib.Order.Lattice
import KubeTrigger.Foundation.Heap

/-!
# The order of a binary heap

`Foundation.Heap` shows that the heap operations only permute their container.  This module
shows that they keep it ordered.  The interface is keyed: it compares two positions by the
keys a view assigns them, in a linear order, on the containers a predicate `wf` admits, and
its swaps keep `wf` and exchange the two keys.  The keys form a heap when every position's
key is at or after its parent's; `push`, `pop`, and `fix` after a key moved towards the root
keep the heap.

The sifts are proved with the invariants of a sift with a moving position, over lists of
keys.  For `up` at `j`: every position but `j` is in order with its parent, and `j`'s
parent is in order with `j`'s children.  For `downFrom` at `i` on the first `n` positions:
every position whose parent is not `i` is in order, and `i`'s parent is in order with `i`'s
children.  One swap moves the invariant to the parent or to the smaller child; where the sift
stops, the invariant gives the heap.
-/

namespace KubeTrigger
namespace Foundation

variable {α β : Type}

theorem getElem?_swapAt {l : List α} {i j : Nat} (hi : i < l.length) (hj : j < l.length)
    (k : Nat) :
    (swapAt l i j)[k]? = if k = j then l[i]? else if k = i then l[j]? else l[k]? := by
  rw [swapAt_of_lt hi hj]
  by_cases hkj : k = j
  · subst hkj
    rw [if_pos rfl, List.getElem?_set_self (by simpa using hj), List.getElem?_eq_getElem hi]
  · rw [if_neg hkj, List.getElem?_set_ne (Ne.symm hkj)]
    by_cases hki : k = i
    · subst hki
      rw [if_pos rfl, List.getElem?_set_self hi, List.getElem?_eq_getElem hj]
    · rw [if_neg hki, List.getElem?_set_ne (Ne.symm hki)]

theorem map_swapAt (f : α -> β) (l : List α) (i j : Nat) :
    (swapAt l i j).map f = swapAt (l.map f) i j := by
  unfold swapAt
  rw [List.getElem?_map, List.getElem?_map]
  cases l[i]? with
  | none => rfl
  | some a =>
      cases l[j]? with
      | none => rfl
      | some b => simp only [Option.map_some, List.map_set]

theorem lt_length_of_getElem? {l : List α} {k : Nat} {a : α} (h : l[k]? = some a) :
    k < l.length :=
  (List.getElem?_eq_some_iff.mp h).1

/-!
## Heaps of keys
-/

section Order

variable [LinearOrder β]

/-- The first `n` keys form a heap. -/
def IsHeapUpTo (l : List β) (n : Nat) : Prop :=
  forall k a b, 0 < k -> k < n -> l[(k - 1) / 2]? = some a -> l[k]? = some b -> a ≤ b

/-- Every key is at or after its parent's. -/
def IsHeap (l : List β) : Prop :=
  forall k a b, 0 < k -> l[(k - 1) / 2]? = some a -> l[k]? = some b -> a ≤ b

/-- What `up` needs at the moving position `j`. -/
structure UpOrder (l : List β) (j : Nat) : Prop where
  except : forall k a b, 0 < k -> k ≠ j -> l[(k - 1) / 2]? = some a -> l[k]? = some b -> a ≤ b
  grand : 0 < j -> forall c a b, 0 < c -> (c - 1) / 2 = j -> l[(j - 1) / 2]? = some a ->
    l[c]? = some b -> a ≤ b

/-- What `downFrom` needs at the moving position `i`, on the first `n` positions. -/
structure DownOrder (l : List β) (i n : Nat) : Prop where
  except : forall k a b, 0 < k -> k < n -> (k - 1) / 2 ≠ i -> l[(k - 1) / 2]? = some a ->
    l[k]? = some b -> a ≤ b
  grand : 0 < i -> forall c a b, 0 < c -> c < n -> (c - 1) / 2 = i -> l[(i - 1) / 2]? = some a ->
    l[c]? = some b -> a ≤ b

/-- In a heap the key at the root is at or before every key. -/
theorem IsHeap.root_le {l : List β} (h : IsHeap l) {r : β} (hr : l[0]? = some r) :
    forall (k : Nat) b, l[k]? = some b -> r ≤ b := by
  -- induction on a bound, through the parents down to the root
  suffices hbound : forall n (k : Nat) b, k < n -> l[k]? = some b -> r ≤ b from
    fun k b hb => hbound (k + 1) k b (Nat.lt_succ_self k) hb
  intro n
  induction n with
  | zero => intro k b hk; omega
  | succ n ih =>
      intro k b hk hb
      by_cases hk0 : k = 0
      · subst hk0
        rw [hr] at hb
        cases hb
        exact le_refl r
      · have hkl := lt_length_of_getElem? hb
        obtain ⟨a, ha⟩ : exists a, l[(k - 1) / 2]? = some a :=
          ⟨_, List.getElem?_eq_getElem (by omega)⟩
        exact le_trans (ih _ a (by omega) ha) (h k a b (by omega) ha hb)

theorem UpOrder.isHeap {l : List β} {j : Nat} (ho : UpOrder l j)
    (hstop : 0 < j -> forall a b, l[(j - 1) / 2]? = some a -> l[j]? = some b -> a ≤ b) :
    IsHeap l := by
  intro k a b hk ha hb
  by_cases hkj : k = j
  · subst hkj
    exact hstop hk a b ha hb
  · exact ho.except k a b hk hkj ha hb

/-- A swap of `j` with its parent when `j`'s key is before its parent's moves the invariant
of `up` to the parent. -/
theorem UpOrder.swap {l : List β} {j : Nat} {x y : β} (ho : UpOrder l j) (hj0 : 0 < j)
    (hx : l[j]? = some x) (hy : l[(j - 1) / 2]? = some y) (hlt : x < y) :
    UpOrder (swapAt l ((j - 1) / 2) j) ((j - 1) / 2) := by
  have hjl := lt_length_of_getElem? hx
  have hpj : (j - 1) / 2 < j := by omega
  have hsw := getElem?_swapAt (l := l) (by omega : (j - 1) / 2 < l.length) hjl
  constructor
  · intro k a b hk hkp ha hb
    rw [hsw] at ha hb
    by_cases hkj : k = j
    · -- the pair of `j` and its parent, exchanged
      subst hkj
      rw [if_pos rfl, hy] at hb
      rw [if_neg (Nat.ne_of_lt hpj), if_pos rfl, hx] at ha
      cases ha
      cases hb
      exact le_of_lt hlt
    · rw [if_neg hkj, if_neg hkp] at hb
      by_cases hpk : (k - 1) / 2 = j
      · -- a child of `j`: below the old parent's key by the invariant's bridge
        rw [if_pos hpk, hy] at ha
        cases ha
        exact ho.grand hj0 k y b hk hpk hy hb
      · rw [if_neg hpk] at ha
        by_cases hsib : (k - 1) / 2 = (j - 1) / 2
        · -- a sibling of `j`: below the parent's old key, so below `j`'s key
          rw [if_pos hsib, hx] at ha
          cases ha
          have hyb : y ≤ b := ho.except k y b hk hkj (by rw [hsib]; exact hy) hb
          exact le_of_lt (lt_of_lt_of_le hlt hyb)
        · rw [if_neg hsib] at ha
          exact ho.except k a b hk hkj ha hb
  · intro hp0 c a b hc hcp ha hb
    have hgp : ((j - 1) / 2 - 1) / 2 < (j - 1) / 2 := by omega
    rw [hsw, if_neg (by omega), if_neg (Nat.ne_of_lt hgp)] at ha
    have hay : a ≤ y := ho.except _ a y hp0 (Nat.ne_of_lt hpj) ha hy
    rw [hsw] at hb
    by_cases hcj : c = j
    · rw [if_pos hcj, hy] at hb
      cases hb
      exact hay
    · rw [if_neg hcj, if_neg (by omega)] at hb
      exact le_trans hay (ho.except c y b hc hcj (by rw [hcp]; exact hy) hb)

theorem DownOrder.isHeapUpTo {l : List β} {i n : Nat} (ho : DownOrder l i n)
    (hstop : forall c a b, 0 < c -> c < n -> (c - 1) / 2 = i -> l[i]? = some a ->
      l[c]? = some b -> a ≤ b) :
    IsHeapUpTo l n := by
  intro k a b hk hkn ha hb
  by_cases hpi : (k - 1) / 2 = i
  · rw [hpi] at ha
    exact hstop k a b hk hkn hpi ha hb
  · exact ho.except k a b hk hkn hpi ha hb

/-- A swap of `i` with its child `c` whose key is before `i`'s and at or before every other
child's moves the invariant of `downFrom` to `c`. -/
theorem DownOrder.swap {l : List β} {i n c : Nat} {x y : β} (ho : DownOrder l i n)
    (hc0 : 0 < c) (hcn : c < n) (hci : (c - 1) / 2 = i) (hx : l[c]? = some x)
    (hy : l[i]? = some y) (hlt : x < y)
    (hmin : forall d z, 0 < d -> d < n -> (d - 1) / 2 = i -> l[d]? = some z -> x ≤ z) :
    DownOrder (swapAt l i c) c n := by
  have hcl := lt_length_of_getElem? hx
  have hic : i < c := by omega
  have hsw := getElem?_swapAt (l := l) (by omega : i < l.length) hcl
  constructor
  · intro k a b hk hkn hkc ha hb
    rw [hsw] at ha hb
    by_cases hkc' : k = c
    · -- the pair of `i` and `c`, exchanged
      subst hkc'
      rw [if_pos rfl, hy] at hb
      rw [hci, if_neg (Nat.ne_of_lt hic), if_pos rfl, hx] at ha
      cases ha
      cases hb
      exact le_of_lt hlt
    · rw [if_neg hkc'] at hb
      by_cases hki : k = i
      · -- `i` itself, now holding `c`'s key: at or after `i`'s parent by the bridge
        subst hki
        rw [if_pos rfl, hx] at hb
        cases hb
        rw [if_neg (by omega), if_neg (by omega)] at ha
        exact ho.grand hk c a x hc0 hcn hci ha hx
      · rw [if_neg hki] at hb
        rw [if_neg hkc] at ha
        by_cases hpi : (k - 1) / 2 = i
        · -- a sibling of `c`: at or after the smaller child's key
          rw [if_pos hpi, hx] at ha
          cases ha
          exact hmin k b hk hkn hpi hb
        · rw [if_neg hpi] at ha
          exact ho.except k a b hk hkn hpi ha hb
  · intro _ d a b hd hdn hdc ha hb
    rw [hsw, hci, if_neg (Nat.ne_of_lt hic), if_pos rfl, hx] at ha
    cases ha
    rw [hsw, if_neg (by omega), if_neg (by omega)] at hb
    exact ho.except d x b hd hdn (by rw [hdc]; exact Nat.ne_of_gt hic) (by rw [hdc]; exact hx) hb

theorem isHeap_nil : IsHeap ([] : List β) := by
  intro k a b _ _ hb
  cases hb

/-- A key appended to a heap is out of order at most with its parent. -/
theorem IsHeap.upOrder_append {l : List β} (h : IsHeap l) (x : β) :
    UpOrder (l ++ [x]) l.length := by
  constructor
  · intro k a b hk hkn ha hb
    have hkl : k < l.length := by
      have := lt_length_of_getElem? hb
      simp only [List.length_append, List.length_singleton] at this
      omega
    rw [List.getElem?_append_left (by omega)] at ha
    rw [List.getElem?_append_left hkl] at hb
    exact h k a b hk ha hb
  · -- the new position has no children in range
    intro _ c a b _ hcp _ hb
    have hcl := lt_length_of_getElem? hb
    simp only [List.length_append, List.length_singleton] at hcl
    omega

/-- Lowering the key at `i` leaves a heap in order everywhere but at `i`. -/
theorem IsHeap.upOrder_set {l : List β} (h : IsHeap l) {i : Nat} {a r : β}
    (ha : l[i]? = some a) (hr : r ≤ a) : UpOrder (l.set i r) i := by
  have hil := lt_length_of_getElem? ha
  have hset : forall k, (l.set i r)[k]? = if k = i then some r else l[k]? := by
    intro k
    by_cases hki : k = i
    · subst hki
      rw [if_pos rfl, List.getElem?_set_self hil]
    · rw [if_neg hki, List.getElem?_set_ne (Ne.symm hki)]
  constructor
  · intro k x b hk hki hx hb
    rw [hset, if_neg hki] at hb
    rw [hset] at hx
    by_cases hpi : (k - 1) / 2 = i
    · rw [if_pos hpi] at hx
      cases hx
      exact le_trans hr (h k a b hk (by rw [hpi]; exact ha) hb)
    · rw [if_neg hpi] at hx
      exact h k x b hk hx hb
  · intro hi0 c x b hc hci hx hb
    rw [hset, if_neg (by omega)] at hx
    rw [hset, if_neg (by omega)] at hb
    exact le_trans (h i x a hi0 hx ha) (h c a b hc (by rw [hci]; exact ha) hb)

/-- With the last key swapped to the root, the first `n - 1` keys are out of order at most
below the root. -/
theorem IsHeap.downOrder_swapLast {l : List β} (h : IsHeap l) (h0 : 0 < l.length) :
    DownOrder (swapAt l 0 (l.length - 1)) 0 (l.length - 1) := by
  have hsw := getElem?_swapAt (l := l) h0 (by omega : l.length - 1 < l.length)
  constructor
  · -- neither the position nor its parent is one of the two swapped
    intro k a b hk hkn hp ha hb
    rw [hsw, if_neg (by omega), if_neg hp] at ha
    rw [hsw, if_neg (by omega), if_neg (by omega)] at hb
    exact h k a b hk ha hb
  · intro h0
    omega

theorem IsHeapUpTo.dropLast {l : List β} (h : IsHeapUpTo l (l.length - 1)) :
    IsHeap l.dropLast := by
  intro k a b hk ha hb
  rw [List.getElem?_dropLast] at ha hb
  by_cases hkn : k < l.length - 1
  · rw [if_pos hkn] at hb
    rw [if_pos (by omega)] at ha
    exact h k a b hk hkn ha hb
  · rw [if_neg hkn] at hb
    cases hb

end Order

/-!
## A keyed interface

The interface compares two positions by their keys, on the containers `wf` admits; its
swaps keep `wf` and exchange the keys.  Over such an interface every sift is a sequence of
swaps that move the invariants above, so the operations of `Heap` keep the keys a heap.
-/

section Keyed

variable [LinearOrder β] {heap elem : Type}

/-- The keys of the positions order the interface's comparisons. -/
structure HeapInterface.Keyed (I : HeapInterface heap elem) (wf : heap -> Prop)
    (keys : heap -> List β) : Prop where
  len_eq : forall s, wf s -> I.len s = (keys s).length
  less_iff : forall s i j a b, wf s -> (keys s)[i]? = some a -> (keys s)[j]? = some b ->
    (I.less s i j = true ↔ a < b)
  wf_swap : forall s i j, wf s -> i < I.len s -> j < I.len s -> wf (I.swap s i j)
  keys_swap : forall s i j, wf s -> i < I.len s -> j < I.len s ->
    keys (I.swap s i j) = swapAt (keys s) i j

variable {I : HeapInterface heap elem} {wf : heap -> Prop} {keys : heap -> List β}

namespace HeapInterface.Keyed

theorem len_swap (hK : I.Keyed wf keys) {s : heap} {i j : Nat} (hw : wf s)
    (hi : i < I.len s) (hj : j < I.len s) : I.len (I.swap s i j) = I.len s := by
  rw [hK.len_eq _ (hK.wf_swap s i j hw hi hj), hK.keys_swap s i j hw hi hj, length_swapAt,
    hK.len_eq s hw]

theorem key_exists (hK : I.Keyed wf keys) {s : heap} {i : Nat} (hw : wf s)
    (hi : i < I.len s) : exists a, (keys s)[i]? = some a :=
  ⟨_, List.getElem?_eq_getElem (by rw [← hK.len_eq s hw]; exact hi)⟩

theorem lt_of_less (hK : I.Keyed wf keys) {s : heap} {i j : Nat} {a b : β} (hw : wf s)
    (ha : (keys s)[i]? = some a) (hb : (keys s)[j]? = some b) (h : I.less s i j = true) :
    a < b :=
  (hK.less_iff s i j a b hw ha hb).mp h

theorem le_of_not_less (hK : I.Keyed wf keys) {s : heap} {i j : Nat} {a b : β} (hw : wf s)
    (ha : (keys s)[i]? = some a) (hb : (keys s)[j]? = some b) (h : ¬ I.less s i j = true) :
    b ≤ a :=
  not_lt.mp (fun hlt => h ((hK.less_iff s i j a b hw ha hb).mpr hlt))

end HeapInterface.Keyed

namespace Heap

theorem smallerChild_cases (I : HeapInterface heap elem) (s : heap) (i n : Nat) :
    smallerChild I s i n = 2 * i + 1 ∨ smallerChild I s i n = 2 * i + 1 + 1 := by
  simp only [smallerChild]
  split
  · right
    rfl
  · left
    rfl

/-- The key at the smaller child is at or before the key of every child in range. -/
theorem smallerChild_le (hK : I.Keyed wf keys) {s : heap} {i n : Nat} (hw : wf s) {x : β}
    (hx : (keys s)[smallerChild I s i n]? = some x) :
    forall d z, 0 < d -> d < n -> (d - 1) / 2 = i -> (keys s)[d]? = some z -> x ≤ z := by
  intro d z hd hdn hdi hz
  have hchild : d = 2 * i + 1 ∨ d = 2 * i + 1 + 1 := by omega
  simp only [smallerChild] at hx
  split at hx
  · -- the right child is in range and before the left one
    rename_i hc
    simp only [Bool.and_eq_true, decide_eq_true_eq] at hc
    rcases hchild with rfl | rfl
    · exact le_of_lt (hK.lt_of_less hw hx hz hc.2)
    · obtain rfl : x = z := Option.some.inj (hx.symm.trans hz)
      exact le_refl x
  · rename_i hc
    rcases hchild with rfl | rfl
    · obtain rfl : x = z := Option.some.inj (hx.symm.trans hz)
      exact le_refl x
    · have hnl : ¬ I.less s (2 * i + 1 + 1) (2 * i + 1) = true := by
        intro hl
        exact hc (by simp only [Bool.and_eq_true, decide_eq_true_eq]; exact ⟨hdn, hl⟩)
      exact hK.le_of_not_less hw hz hx hnl

theorem up_heap (hK : I.Keyed wf keys) :
    forall (s : heap) (j : Nat), wf s -> j < I.len s -> UpOrder (keys s) j ->
      wf (up I s j) ∧ I.len (up I s j) = I.len s ∧ IsHeap (keys (up I s j)) := by
  intro s j hw hj ho
  induction s, j using up.induct I with
  | case1 s j hij =>
      -- `j` is the root
      rw [up, if_pos hij]
      exact ⟨hw, rfl, ho.isHeap (fun hj0 => absurd hij (by omega))⟩
  | case2 s j hij hless ih =>
      rw [up, if_neg hij, if_pos hless]
      have hp : (j - 1) / 2 < I.len s := by omega
      obtain ⟨x, hx⟩ := hK.key_exists hw hj
      obtain ⟨y, hy⟩ := hK.key_exists hw hp
      have hlen := hK.len_swap hw hp hj
      have ho' : UpOrder (keys (I.swap s ((j - 1) / 2) j)) ((j - 1) / 2) := by
        rw [hK.keys_swap s _ _ hw hp hj]
        exact ho.swap (by omega) hx hy (hK.lt_of_less hw hx hy hless)
      obtain ⟨h1, h2, h3⟩ := ih (hK.wf_swap s _ _ hw hp hj) (by omega) ho'
      exact ⟨h1, h2.trans hlen, h3⟩
  | case3 s j hij hless =>
      -- `j`'s key is at or after its parent's
      rw [up, if_neg hij, if_neg hless]
      exact ⟨hw, rfl, ho.isHeap (fun _ a b ha hb => hK.le_of_not_less hw hb ha hless)⟩

theorem downFrom_heap (hK : I.Keyed wf keys) :
    forall (s : heap) (i n : Nat), wf s -> n ≤ I.len s -> DownOrder (keys s) i n ->
      wf (downFrom I s i n).1 ∧ I.len (downFrom I s i n).1 = I.len s ∧
        IsHeapUpTo (keys (downFrom I s i n).1) n ∧
        forall k, n ≤ k -> (keys (downFrom I s i n).1)[k]? = (keys s)[k]? := by
  intro s i n hw hn ho
  induction s, i using downFrom.induct I n with
  | case1 s i hstop =>
      -- `i` has no child among the first `n` positions
      rw [downFrom, if_pos hstop]
      exact ⟨hw, rfl, ho.isHeapUpTo (fun c a b hc hcn hci => by omega), fun _ _ => rfl⟩
  | case2 s i hgo hless ih =>
      rw [downFrom, if_neg hgo, if_pos hless]
      have hb := smallerChild_bounds I (s := s) hgo
      have hi : i < I.len s := by omega
      have hc : smallerChild I s i n < I.len s := by omega
      have hci : (smallerChild I s i n - 1) / 2 = i := by
        rcases smallerChild_cases I s i n with h | h <;> omega
      obtain ⟨x, hx⟩ := hK.key_exists hw hc
      obtain ⟨y, hy⟩ := hK.key_exists hw hi
      have hlen := hK.len_swap hw hi hc
      have hsw := hK.keys_swap s _ _ hw hi hc
      have ho' : DownOrder (keys (I.swap s i (smallerChild I s i n))) (smallerChild I s i n) n := by
        rw [hsw]
        exact ho.swap (by omega) hb.2 hci hx hy (hK.lt_of_less hw hx hy hless)
          (smallerChild_le hK hw hx)
      obtain ⟨h1, h2, h3, h4⟩ := ih (hK.wf_swap s _ _ hw hi hc) (by omega) ho'
      refine ⟨h1, h2.trans hlen, h3, fun k hk => ?_⟩
      rw [h4 k hk, hsw]
      exact getElem?_swapAt_of_ne _ (by omega) (by omega)
  | case3 s i hgo hless =>
      rw [downFrom, if_neg hgo, if_neg hless]
      refine ⟨hw, rfl, ho.isHeapUpTo ?_, fun _ _ => rfl⟩
      -- `i`'s key is at or before the smaller child's, which is at or before the other's
      intro c a b hc hcn hci ha hb
      have hbd := smallerChild_bounds I (s := s) hgo
      obtain ⟨x, hx⟩ := hK.key_exists hw (by omega : smallerChild I s i n < I.len s)
      exact le_trans (hK.le_of_not_less hw hx ha hless) (smallerChild_le hK hw hx c b hc hcn hci hb)

/-- `downFrom` leaves alone a position whose key is at or before its children's. -/
theorem downFrom_of_ordered (hK : I.Keyed wf keys) {s : heap} {i n : Nat} (hw : wf s)
    (hn : n ≤ I.len s)
    (hle : forall c a b, 0 < c -> c < n -> (c - 1) / 2 = i -> (keys s)[i]? = some a ->
      (keys s)[c]? = some b -> a ≤ b) :
    downFrom I s i n = (s, i) := by
  rw [downFrom]
  by_cases hgo : n ≤ 2 * i + 1
  · rw [if_pos hgo]
  · have hb := smallerChild_bounds I (s := s) hgo
    have hci : (smallerChild I s i n - 1) / 2 = i := by
      rcases smallerChild_cases I s i n with h | h <;> omega
    obtain ⟨x, hx⟩ := hK.key_exists hw (by omega : smallerChild I s i n < I.len s)
    obtain ⟨y, hy⟩ := hK.key_exists hw (by omega : i < I.len s)
    have hyx : y ≤ x := hle _ y x (by omega) hb.2 hci hy hx
    rw [if_neg hgo, if_neg (fun hless => not_lt.mpr hyx (hK.lt_of_less hw hx hy hless))]

/-- `fix` after the key at `i` moved towards the root: `down` stops at once and `up`
restores the heap. -/
theorem fix_heap (hK : I.Keyed wf keys) {s : heap} {i : Nat} (hw : wf s) (hi : i < I.len s)
    (ho : UpOrder (keys s) i) :
    wf (fix I s i) ∧ I.len (fix I s i) = I.len s ∧ IsHeap (keys (fix I s i)) := by
  have hd : downFrom I s i (I.len s) = (s, i) :=
    downFrom_of_ordered hK hw (Nat.le_refl _)
      (fun c a b hc _ hci ha hb => ho.except c a b hc (by omega) (by rw [hci]; exact ha) hb)
  simp only [fix, down, hd, gt_iff_lt, Nat.lt_irrefl, decide_false, Bool.false_eq_true,
    if_false]
  exact up_heap hK s i hw hi ho

theorem push_heap (hK : I.Keyed wf keys) {s : heap} {x : elem} {k : β}
    (hw : wf (I.push s x)) (hkeys : keys (I.push s x) = keys s ++ [k]) (hh : IsHeap (keys s)) :
    wf (push I s x) ∧ IsHeap (keys (push I s x)) := by
  have hlen : I.len (I.push s x) = (keys s).length + 1 := by
    rw [hK.len_eq _ hw, hkeys, List.length_append, List.length_singleton]
  have ho : UpOrder (keys (I.push s x)) (I.len (I.push s x) - 1) := by
    rw [hkeys, hlen, Nat.add_sub_cancel]
    exact hh.upOrder_append k
  obtain ⟨h1, -, h3⟩ := up_heap hK (I.push s x) _ hw (by omega) ho
  exact ⟨h1, h3⟩

/-- `pop` over an interface whose `Pop` drops the last key. -/
theorem pop_heap (hK : I.Keyed wf keys)
    (hpop : forall s, wf s -> 0 < I.len s -> wf (I.pop s).1 ∧ keys (I.pop s).1 = (keys s).dropLast)
    {s : heap} (hw : wf s) (h0 : 0 < I.len s) (hh : IsHeap (keys s)) :
    wf (pop I s).1 ∧ IsHeap (keys (pop I s).1) := by
  have hn : I.len s - 1 < I.len s := by omega
  have hlen := hK.len_eq s hw
  have hlen1 := hK.len_swap hw h0 hn
  have ho : DownOrder (keys (I.swap s 0 (I.len s - 1))) 0 (I.len s - 1) := by
    rw [hK.keys_swap s 0 _ hw h0 hn, hlen]
    exact hh.downOrder_swapLast (by omega)
  obtain ⟨hw2, hlen2, hh2, -⟩ :=
    downFrom_heap hK _ 0 (I.len s - 1) (hK.wf_swap s 0 _ hw h0 hn) (by omega) ho
  obtain ⟨hw3, hk3⟩ := hpop _ hw2 (by omega)
  simp only [pop, down]
  refine ⟨hw3, ?_⟩
  rw [hk3]
  apply IsHeapUpTo.dropLast
  rw [← hK.len_eq _ hw2, hlen2, hlen1]
  exact hh2

end Heap

end Keyed

end Foundation
end KubeTrigger
