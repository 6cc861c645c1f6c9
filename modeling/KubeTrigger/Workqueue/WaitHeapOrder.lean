import Mathlib.Data.Int.Order.Basic
import KubeTrigger.Foundation.HeapOrder
import KubeTrigger.Workqueue.WaitingLoop

/-!
# The waiting heap as a keyed heap

`Less` compares the `readyAt` of the objects at two positions of the slice, and `Swap`,
`Push` and `Pop` write the objects' `index` fields.  On a slice whose objects all record
their positions (`Indexed`) the interface is keyed by the list of those `readyAt`s, so the
order results of `Foundation.HeapOrder` hold of `heap.Push`, `heap.Pop` and `heap.Fix` over
it; and `Swap`, `Push` and `Pop` keep every object's `index` at its position.
-/

namespace KubeTrigger
namespace Workqueue

open Foundation

variable {t : Type}

namespace WaitHeap

/-!
## Objects by address
-/

theorem obj_modify (h : WaitHeap t) (q p : Nat) (g : WaitFor t -> WaitFor t) :
    ({ h with objects := h.objects.modify q g } : WaitHeap t).obj p =
      if q = p then (h.obj p).map g else h.obj p := by
  unfold obj
  rw [List.getElem?_modify]
  by_cases hqp : q = p
  · simp [hqp]
  · simp [hqp]

theorem obj_setIndex (h : WaitHeap t) (q p : Nat) (i : Int) :
    (h.setIndex q i).obj p =
      if q = p then (h.obj p).map (fun o => { o with index := i }) else h.obj p :=
  obj_modify h q p _

theorem obj_setReadyAt (h : WaitHeap t) (q p : Nat) (r : Int) :
    (h.setReadyAt q r).obj p =
      if q = p then (h.obj p).map (fun o => { o with readyAt := r }) else h.obj p :=
  obj_modify h q p _

@[simp] theorem obj_with_pq (h : WaitHeap t) (l : List Nat) (p : Nat) :
    ({ h with pq := l } : WaitHeap t).obj p = h.obj p :=
  rfl

theorem obj_pushRef (h : WaitHeap t) (p q : Nat) :
    (h.pushRef p).obj q = (h.setIndex p h.pq.length).obj q :=
  rfl

@[simp] theorem pq_pushRef (h : WaitHeap t) (p : Nat) : (h.pushRef p).pq = h.pq ++ [p] :=
  rfl

@[simp] theorem pq_setIndex (h : WaitHeap t) (p : Nat) (i : Int) : (h.setIndex p i).pq = h.pq :=
  rfl

@[simp] theorem pq_setReadyAt (h : WaitHeap t) (p : Nat) (r : Int) :
    (h.setReadyAt p r).pq = h.pq :=
  rfl

theorem lt_of_obj {h : WaitHeap t} {p : Nat} {o : WaitFor t} (ho : h.obj p = some o) :
    p < h.objects.length :=
  lt_length_of_getElem? ho

/-- The objects of a new entry appended: the old addresses keep their objects. -/
theorem obj_append_of_lt (h : WaitHeap t) (e : WaitFor t) {q : Nat} (hq : q < h.objects.length) :
    ({ h with objects := h.objects ++ [e] } : WaitHeap t).obj q = h.obj q :=
  List.getElem?_append_left hq

theorem obj_append_self (h : WaitHeap t) (e : WaitFor t) :
    ({ h with objects := h.objects ++ [e] } : WaitHeap t).obj h.objects.length = some e :=
  List.getElem?_concat_length

/-- The `readyAt` of the objects, by address. -/
def readyAtOf (h : WaitHeap t) : List Int :=
  h.objects.map WaitFor.readyAt

/-- The `readyAt` of the object at each position of the slice: what `Less` compares. -/
def readyAts (h : WaitHeap t) : List Int :=
  h.pq.map (fun p => h.readyAtOf.getD p 0)

@[simp] theorem readyAtOf_setIndex (h : WaitHeap t) (p : Nat) (i : Int) :
    (h.setIndex p i).readyAtOf = h.readyAtOf :=
  map_modify_of_forall WaitFor.readyAt h.objects p (fun _ => rfl)

@[simp] theorem readyAtOf_with_pq (h : WaitHeap t) (l : List Nat) :
    ({ h with pq := l } : WaitHeap t).readyAtOf = h.readyAtOf :=
  rfl

theorem readyAtOf_of_obj {h : WaitHeap t} {p : Nat} {o : WaitFor t} (ho : h.obj p = some o) :
    h.readyAtOf[p]? = some o.readyAt := by
  unfold readyAtOf
  unfold obj at ho
  rw [List.getElem?_map, ho]
  rfl

theorem getD_readyAtOf (h : WaitHeap t) (p : Nat) :
    h.readyAtOf.getD p 0 = ((h.obj p).map WaitFor.readyAt).getD 0 := by
  rw [List.getD_eq_getElem?_getD]
  unfold readyAtOf obj
  rw [List.getElem?_map]

/-- The key at a position holding the address of an object. -/
theorem readyAts_getElem? {h : WaitHeap t} {i p : Nat} {o : WaitFor t} (hi : h.pq[i]? = some p)
    (ho : h.obj p = some o) : h.readyAts[i]? = some o.readyAt := by
  unfold readyAts
  rw [List.getElem?_map, hi, Option.map_some, getD_readyAtOf, ho]
  rfl

theorem readyAtOf_swap (h : WaitHeap t) (i j : Nat) : (h.swap i j).readyAtOf = h.readyAtOf := by
  unfold swap
  dsimp only
  split
  · rw [readyAtOf_setIndex, readyAtOf_setIndex]
    rfl
  · rfl

theorem readyAtOf_pushRef (h : WaitHeap t) (p : Nat) : (h.pushRef p).readyAtOf = h.readyAtOf :=
  readyAtOf_setIndex h p _

theorem readyAtOf_popRef (h : WaitHeap t) : (h.popRef).1.readyAtOf = h.readyAtOf := by
  unfold popRef
  split
  · exact readyAtOf_setIndex h _ _
  · rfl

theorem readyAtOf_fix (h : WaitHeap t) (i : Nat) :
    (Heap.fix interface h i).readyAtOf = h.readyAtOf :=
  Heap.fix_frame readyAtOf readyAtOf_swap h i

theorem readyAtOf_push (h : WaitHeap t) (p : Nat) :
    (Heap.push interface h p).readyAtOf = h.readyAtOf :=
  Heap.push_frame readyAtOf readyAtOf_swap readyAtOf_pushRef h p

theorem readyAtOf_pop (h : WaitHeap t) : (Heap.pop interface h).1.readyAtOf = h.readyAtOf :=
  Heap.pop_frame readyAtOf readyAtOf_swap readyAtOf_popRef h

theorem readyAts_swap (h : WaitHeap t) (i j : Nat) :
    (h.swap i j).readyAts = swapAt h.readyAts i j := by
  unfold readyAts
  rw [pq_swap, readyAtOf_swap, map_swapAt]

/-!
## Every object records its position
-/

/-- Every address in the slice refers to an object whose `index` is its position. -/
def Indexed (h : WaitHeap t) : Prop :=
  forall (i : Nat) p, h.pq[i]? = some p -> exists o, h.obj p = some o ∧ o.index = i

theorem indexed_empty : (empty : WaitHeap t).Indexed := by
  intro i p hp
  cases hp

namespace Indexed

variable {h : WaitHeap t}

/-- An address sits at one position only. -/
theorem pos_eq (hI : h.Indexed) {i j p : Nat} (hi : h.pq[i]? = some p) (hj : h.pq[j]? = some p) :
    i = j := by
  obtain ⟨o, ho, hoi⟩ := hI i p hi
  obtain ⟨o', ho', hoj⟩ := hI j p hj
  rw [ho] at ho'
  cases ho'
  omega

theorem nodup (hI : h.Indexed) : h.pq.Nodup := by
  rw [List.nodup_iff_getElem?_ne_getElem?]
  intro i j hij hj heq
  obtain ⟨p, hp⟩ : exists p, h.pq[j]? = some p := ⟨_, List.getElem?_eq_getElem hj⟩
  have := hI.pos_eq (heq.trans hp) hp
  omega

theorem obj_of_mem (hI : h.Indexed) {p : Nat} (hp : p ∈ h.pq) : exists o, h.obj p = some o := by
  obtain ⟨i, hi⟩ := List.mem_iff_getElem?.mp hp
  obtain ⟨o, ho, -⟩ := hI i p hi
  exact ⟨o, ho⟩

theorem bounded (hI : h.Indexed) : h.Bounded := by
  intro p hp
  obtain ⟨o, ho⟩ := hI.obj_of_mem hp
  have hlt := lt_of_obj ho
  simpa [dataOf] using hlt

/-- The key at a position is the `readyAt` of the object `at?` finds there. -/
theorem at?_of_readyAts (hI : h.Indexed) {i : Nat} {a : Int} (ha : h.readyAts[i]? = some a) :
    exists o, h.at? i = some o ∧ o.readyAt = a := by
  cases hp : h.pq[i]? with
  | none =>
      unfold readyAts at ha
      rw [List.getElem?_map, hp] at ha
      cases ha
  | some p =>
      obtain ⟨o, ho, -⟩ := hI i p hp
      refine ⟨o, by rw [at?, hp]; exact ho, ?_⟩
      rw [readyAts_getElem? hp ho] at ha
      exact Option.some.inj ha

end Indexed

/-- `Swap` moves the two addresses and records their new positions in their objects. -/
theorem obj_swap (h : WaitHeap t) {i j a b : Nat} (ha : h.pq[j]? = some a)
    (hb : h.pq[i]? = some b) (hi : i < h.len) (hj : j < h.len) (p : Nat) :
    (h.swap i j).obj p =
      if b = p then (h.obj p).map (fun o => { o with index := j })
      else if a = p then (h.obj p).map (fun o => { o with index := i })
      else h.obj p := by
  have hsw := getElem?_swapAt (l := h.pq) hi hj
  have hai : (swapAt h.pq i j)[i]? = some a := by
    rw [hsw]
    by_cases hij : i = j
    · subst hij
      rw [if_pos rfl]
      exact ha
    · rw [if_neg hij, if_pos rfl]
      exact ha
  have hbj : (swapAt h.pq i j)[j]? = some b := by
    rw [hsw, if_pos rfl]
    exact hb
  simp only [swap, hai, hbj, obj_setIndex, obj_with_pq]
  by_cases hbp : b = p
  · -- the address that moved to `j` was written last
    subst hbp
    by_cases hab : a = b
    · subst hab
      simp only [if_true]
      cases h.obj a <;> rfl
    · simp [hab]
  · simp only [hbp, if_false]

theorem Indexed.swap {h : WaitHeap t} (hI : h.Indexed) {i j : Nat} (hi : i < h.len)
    (hj : j < h.len) : (h.swap i j).Indexed := by
  obtain ⟨a, ha⟩ : exists a, h.pq[j]? = some a := ⟨_, List.getElem?_eq_getElem hj⟩
  obtain ⟨b, hb⟩ : exists b, h.pq[i]? = some b := ⟨_, List.getElem?_eq_getElem hi⟩
  intro k q hk
  rw [pq_swap, getElem?_swapAt hi hj] at hk
  rw [obj_swap h ha hb hi hj]
  by_cases hkj : k = j
  · -- the address from `i` now at `j`
    subst hkj
    rw [if_pos rfl, hb] at hk
    have hq : q = b := (Option.some.inj hk).symm
    subst hq
    obtain ⟨o, ho, -⟩ := hI i q hb
    rw [if_pos rfl, ho]
    exact ⟨_, rfl, rfl⟩
  · rw [if_neg hkj] at hk
    by_cases hki : k = i
    · -- the address from `j` now at `i`
      subst hki
      rw [if_pos rfl, ha] at hk
      have hq : q = a := (Option.some.inj hk).symm
      subst hq
      have hbq : b ≠ q := fun hbq => hkj (hI.pos_eq hb (hbq ▸ ha))
      obtain ⟨o, ho, -⟩ := hI j q ha
      rw [if_neg hbq, if_pos rfl, ho]
      exact ⟨_, rfl, rfl⟩
    · rw [if_neg hki] at hk
      have hbq : b ≠ q := fun hbq => hki (hI.pos_eq hk (hbq ▸ hb))
      have haq : a ≠ q := fun haq => hkj (hI.pos_eq hk (haq ▸ ha))
      rw [if_neg hbq, if_neg haq]
      exact hI k q hk

theorem popRef_eq {h : WaitHeap t} {p : Nat} (hp : h.pq.getLast? = some p) :
    h.popRef = ({ h.setIndex p (-1) with pq := h.pq.dropLast }, p) := by
  unfold popRef
  rw [hp]

theorem Indexed.popRef {h : WaitHeap t} (hI : h.Indexed) : (h.popRef).1.Indexed := by
  cases hp : h.pq.getLast? with
  | none =>
      unfold WaitHeap.popRef
      rw [hp]
      exact hI
  | some p =>
      rw [popRef_eq hp]
      rw [List.getLast?_eq_getElem?] at hp
      intro k q hk
      change h.pq.dropLast[k]? = some q at hk
      rw [List.getElem?_dropLast] at hk
      split at hk
      · -- every address left is not the one removed
        rename_i hkn
        have hpq : p ≠ q := by
          intro hpq
          subst hpq
          have := hI.pos_eq hk hp
          omega
        obtain ⟨o, ho, hoi⟩ := hI k q hk
        rw [obj_with_pq, obj_setIndex, if_neg hpq]
        exact ⟨o, ho, hoi⟩
      · cases hk

theorem readyAts_popRef (h : WaitHeap t) : (h.popRef).1.readyAts = h.readyAts.dropLast := by
  cases hp : h.pq.getLast? with
  | none =>
      have hnil : h.pq = [] := List.getLast?_eq_none_iff.mp hp
      unfold WaitHeap.popRef readyAts
      rw [hp, hnil]
      rfl
  | some p =>
      rw [popRef_eq hp]
      unfold readyAts
      rw [readyAtOf_with_pq, readyAtOf_setIndex, List.map_dropLast]

/-- The slice of a heap with a new object appended and pushed at its address. -/
theorem Indexed.pushNew {h : WaitHeap t} (hI : h.Indexed) (e : WaitFor t) :
    (({ h with objects := h.objects ++ [e] } : WaitHeap t).pushRef h.objects.length).Indexed := by
  intro k q hk
  change (h.pq ++ [h.objects.length])[k]? = some q at hk
  rw [obj_pushRef, obj_setIndex]
  by_cases hkl : k < h.pq.length
  · rw [List.getElem?_append_left hkl] at hk
    obtain ⟨o, ho, hoi⟩ := hI k q hk
    have hq := lt_of_obj ho
    rw [if_neg (by omega), obj_append_of_lt h e hq]
    exact ⟨o, ho, hoi⟩
  · -- the new address, at the last position
    have hkn : k = h.pq.length := by
      have := lt_length_of_getElem? hk
      simp only [List.length_append, List.length_singleton] at this
      omega
    subst hkn
    rw [List.getElem?_concat_length] at hk
    cases hk
    rw [if_pos rfl, obj_append_self]
    exact ⟨_, rfl, rfl⟩

theorem readyAts_pushRef (h : WaitHeap t) (p : Nat) :
    (h.pushRef p).readyAts = h.readyAts ++ [h.readyAtOf.getD p 0] := by
  unfold readyAts
  rw [pq_pushRef, readyAtOf_pushRef, List.map_append]
  rfl

/-- Appending an object leaves the keys of the slice alone. -/
theorem readyAts_append {h : WaitHeap t} (hI : h.Indexed) (e : WaitFor t) :
    ({ h with objects := h.objects ++ [e] } : WaitHeap t).readyAts = h.readyAts := by
  unfold readyAts
  apply List.map_congr_left
  intro q hq
  obtain ⟨o, ho⟩ := hI.obj_of_mem hq
  rw [getD_readyAtOf, getD_readyAtOf, obj_append_of_lt h e (lt_of_obj ho)]

theorem readyAts_pushNew {h : WaitHeap t} (hI : h.Indexed) (e : WaitFor t) :
    (({ h with objects := h.objects ++ [e] } : WaitHeap t).pushRef h.objects.length).readyAts =
      h.readyAts ++ [e.readyAt] := by
  rw [readyAts_pushRef, readyAts_append hI e, getD_readyAtOf, obj_append_self]
  rfl

/-- `waitForPriorityQueue` on indexed slices is keyed by the `readyAt`s. -/
theorem interface_keyed :
    (interface : HeapInterface (WaitHeap t) Nat).Keyed Indexed readyAts where
  len_eq s _ := (List.length_map ..).symm
  less_iff s i j a b hI ha hb := by
    obtain ⟨o, hoi, hoa⟩ := hI.at?_of_readyAts ha
    obtain ⟨o', hoj, hob⟩ := hI.at?_of_readyAts hb
    show s.less i j = true ↔ a < b
    simp only [less, hoi, hoj, decide_eq_true_eq]
    rw [hoa, hob]
  wf_swap s i j hI hi hj := hI.swap hi hj
  keys_swap s i j _ _ _ := readyAts_swap s i j

end WaitHeap

end Workqueue
end KubeTrigger
