import KubeTrigger.Foundation.Run
import KubeTrigger.Workqueue.WaitHeapOrder
import KubeTrigger.Workqueue.DelayingQueue
import KubeTrigger.Workqueue.IndexerDelayingQueue

/-!
# The waiting heap keeps its representation

The waiting loops keep `waitingEntryByData` beside their heap: `insert` looks a request's data
up in it to reach the queued object, and the loop deletes a popped object's data from it.
The representation invariant `Rep` says that the slice is a min-heap by `readyAt`, that every
object in it records its position, and that the map sends each data to the one address in the
slice whose object carries it, with no other entries.  `insert` and the loop's pop keep it, in
any order from the empty heap on; and `insert` leaves the request's data in the heap once,
at the earlier of the time it waited for and the request's.
-/

namespace KubeTrigger
namespace Workqueue

open Foundation

variable {t : Type}

namespace WaitHeap

theorem obj_of_dataOf {h : WaitHeap t} {p : Nat} {d : t} (hd : h.dataOf[p]? = some d) :
    exists o, h.obj p = some o ∧ o.data = d := by
  unfold dataOf at hd
  rw [List.getElem?_map] at hd
  cases ho : h.objects[p]? with
  | none =>
      rw [ho] at hd
      cases hd
  | some o =>
      rw [ho] at hd
      exact ⟨o, ho, Option.some.inj hd⟩

theorem fixAt_natCast (h : WaitHeap t) (i : Nat) : h.fixAt i = Heap.fix interface h i := by
  unfold fixAt
  rw [if_neg (by omega), Int.toNat_natCast]

theorem Indexed.setReadyAt {h : WaitHeap t} (hI : h.Indexed) (p : Nat) (r : Int) :
    (h.setReadyAt p r).Indexed := by
  intro k q hk
  obtain ⟨o, ho, hoi⟩ := hI k q hk
  rw [obj_setReadyAt]
  split
  · rw [ho]
    exact ⟨_, rfl, hoi⟩
  · exact ⟨o, ho, hoi⟩

/-- Writing the `readyAt` of the object at position `i` sets the key at `i`. -/
theorem readyAts_setReadyAt {h : WaitHeap t} (hI : h.Indexed) {i p : Nat}
    (hi : h.pq[i]? = some p) (r : Int) : (h.setReadyAt p r).readyAts = h.readyAts.set i r := by
  obtain ⟨o, ho, -⟩ := hI i p hi
  apply List.ext_getElem?
  intro k
  rw [List.getElem?_set]
  by_cases hik : i = k
  · subst hik
    have hlen : i < h.readyAts.length := by
      simpa [readyAts] using lt_length_of_getElem? hi
    rw [if_pos rfl, if_pos hlen]
    exact readyAts_getElem? (h := h.setReadyAt p r) hi
      (by rw [obj_setReadyAt, if_pos rfl, ho]; rfl)
  · rw [if_neg hik]
    cases hk : h.pq[k]? with
    | none =>
        unfold readyAts
        rw [List.getElem?_map, List.getElem?_map, pq_setReadyAt, hk]
        rfl
    | some q =>
        -- another position holds another address, whose object keeps its time
        have hpq : p ≠ q := fun hpq => hik (hI.pos_eq hi (hpq ▸ hk))
        obtain ⟨o', ho', -⟩ := hI k q hk
        rw [readyAts_getElem? hk ho', readyAts_getElem? (h := h.setReadyAt p r) hk
          (by rw [obj_setReadyAt, if_neg hpq]; exact ho')]

/-- The time written into the object at `p` is its `readyAt`. -/
theorem readyAtOf_setReadyAt_self {h : WaitHeap t} {p : Nat} {o : WaitFor t}
    (ho : h.obj p = some o) (r : Int) : (h.setReadyAt p r).readyAtOf[p]? = some r :=
  readyAtOf_of_obj (o := { o with readyAt := r }) (by rw [obj_setReadyAt, if_pos rfl, ho]; rfl)

/-- `Pop` takes the root's address out of a slice without repeats and keeps the others. -/
theorem mem_pop_iff {h : WaitHeap t} (hn : h.pq.Nodup) (h0 : 0 < h.len) (a : Nat) :
    a ∈ (Heap.pop interface h).1.pq ↔ a ∈ h.pq ∧ a ≠ (Heap.pop interface h).2 := by
  obtain ⟨-, -, h3⟩ := Heap.pop_spec interface_lawful (fun x => x == a) h0
  have hc : h.pq.countP (fun x => x == a) ≤ 1 := List.nodup_iff_count_le_one.mp hn a
  have hcount : (Heap.pop interface h).1.pq.countP (fun x => x == a) +
      (if (Heap.pop interface h).2 = a then 1 else 0) = h.pq.countP (fun x => x == a) := by
    simpa using h3
  rw [← List.count_pos_iff, ← List.count_pos_iff]
  show 0 < List.countP _ _ ↔ 0 < List.countP _ _ ∧ _
  by_cases hra : (Heap.pop interface h).2 = a
  · rw [if_pos hra] at hcount
    constructor
    · intro _
      omega
    · rintro ⟨-, hne⟩
      exact absurd hra.symm hne
  · rw [if_neg hra] at hcount
    constructor
    · intro hpos
      exact ⟨by omega, fun hh => hra hh.symm⟩
    · rintro ⟨hpos, -⟩
      omega

variable [DecidableEq t]

/-!
## The representation invariant
-/

/-- The slice is a heap by `readyAt`, every object records its position, and
`waitingEntryByData` sends each data to the one address in the slice carrying it. -/
structure Rep (h : WaitHeap t) (knownEntries : AList (fun _ : t => Nat)) : Prop where
  heap : IsHeap h.readyAts
  indexed : h.Indexed
  known : forall d p, knownEntries.lookup d = some p ↔ p ∈ h.pq ∧ h.dataOf[p]? = some d

theorem rep_empty : Rep (empty : WaitHeap t) ∅ where
  heap := isHeap_nil
  indexed := indexed_empty
  known d p := by
    rw [AList.lookup_empty]
    simp [empty]

namespace Rep

variable {h : WaitHeap t} {m : AList (fun _ : t => Nat)}

/-- Two addresses in the slice whose objects carry the same data are one. -/
theorem unique (hr : Rep h m) {p q : Nat} {d : t} (hp : p ∈ h.pq) (hq : q ∈ h.pq)
    (hpd : h.dataOf[p]? = some d) (hqd : h.dataOf[q]? = some d) : p = q :=
  Option.some.inj (((hr.known d p).mpr ⟨hp, hpd⟩).symm.trans ((hr.known d q).mpr ⟨hq, hqd⟩))

/-- An object in the slice carrying data the map sends to `p` is at `p`. -/
theorem eq_of_carries (hr : Rep h m) {d : t} {p q : Nat} {o : WaitFor t}
    (hl : m.lookup d = some p) (hq : q ∈ h.pq) (ho : h.obj q = some o) (hod : o.data = d) :
    q = p := by
  have hqd := dataOf_of_obj ho
  rw [hod] at hqd
  exact Option.some.inj (((hr.known d q).mpr ⟨hq, hqd⟩).symm.trans hl)

/-- No object in the slice carries data the map has no entry for. -/
theorem not_carried (hr : Rep h m) {d : t} (hl : m.lookup d = none) {q : Nat} (hq : q ∈ h.pq)
    (hqd : h.dataOf[q]? = some d) : False := by
  rw [(hr.known d q).mpr ⟨hq, hqd⟩] at hl
  cases hl

theorem count_eq_one (hr : Rep h m) {d : t} {p : Nat} (hl : m.lookup d = some p) :
    h.count d = 1 := by
  obtain ⟨hp, hpd⟩ := (hr.known d p).mp hl
  -- the addresses carrying `d` are `p` alone
  have hc : h.pq.countP (fun q => h.dataOf[q]? == some d) = h.pq.count p := by
    unfold List.count
    apply List.countP_congr
    intro q hq
    simp only [beq_iff_eq]
    constructor
    · intro hqd
      exact hr.unique hq hp hqd hpd
    · rintro rfl
      exact hpd
  unfold count
  rw [hc, hr.indexed.nodup.count, if_pos hp]

theorem count_eq_zero (hr : Rep h m) {d : t} (hl : m.lookup d = none) : h.count d = 0 := by
  unfold count
  rw [List.countP_eq_zero]
  intro q hq hqd
  simp only [beq_iff_eq] at hqd
  exact hr.not_carried hl hq hqd

/-- The object at the root waits for the earliest time in the heap. -/
theorem root_le (hr : Rep h m) {p0 q : Nat} {o o' : WaitFor t} (hp0 : h.pq[0]? = some p0)
    (ho : h.obj p0 = some o) (hq : q ∈ h.pq) (ho' : h.obj q = some o') :
    o.readyAt ≤ o'.readyAt := by
  obtain ⟨k, hk⟩ := List.mem_iff_getElem?.mp hq
  exact hr.heap.root_le (readyAts_getElem? hp0 ho) k _ (readyAts_getElem? hk ho')

/-- `heap.Pop` hands out an object at or before every object it leaves in the heap. -/
theorem pop_le (hr : Rep h m) (h0 : 0 < h.len) {e : WaitFor t}
    (he : (Heap.pop interface h).1.obj (Heap.pop interface h).2 = some e) {q : Nat}
    {o' : WaitFor t} (hq : q ∈ (Heap.pop interface h).1.pq)
    (ho' : (Heap.pop interface h).1.obj q = some o') : e.readyAt ≤ o'.readyAt := by
  obtain ⟨hroot, -, -⟩ := Heap.pop_spec interface_lawful (fun _ => true) h0
  -- `Pop` rewrites only `index` fields, so both objects keep their time
  have hre : h.readyAtOf[(Heap.pop interface h).2]? = some e.readyAt := by
    rw [← readyAtOf_pop]
    exact readyAtOf_of_obj he
  have hrq : h.readyAtOf[q]? = some o'.readyAt := by
    rw [← readyAtOf_pop]
    exact readyAtOf_of_obj ho'
  obtain ⟨o0, ho0⟩ := hr.indexed.obj_of_mem (root_mem_pop h0)
  obtain ⟨o1, ho1⟩ := hr.indexed.obj_of_mem (mem_of_mem_pop h0 hq)
  rw [readyAtOf_of_obj ho0] at hre
  rw [readyAtOf_of_obj ho1] at hrq
  rw [← Option.some.inj hre, ← Option.some.inj hrq]
  exact hr.root_le hroot ho0 (mem_of_mem_pop h0 hq) ho1

/-- The object the map reaches through an entry sits in the slice at its recorded index. -/
theorem index_of_lookup (hr : Rep h m) {d : t} {p : Nat} {ex : WaitFor t}
    (hl : m.lookup d = some p) (hex : h.obj p = some ex) :
    exists i : Nat, h.pq[i]? = some p ∧ ex.index = i := by
  obtain ⟨hp, -⟩ := (hr.known d p).mp hl
  obtain ⟨i, hi⟩ := List.mem_iff_getElem?.mp hp
  obtain ⟨o, ho, hoi⟩ := hr.indexed i p hi
  rw [hex] at ho
  cases ho
  exact ⟨i, hi, hoi⟩

end Rep

/-!
## `insert`
-/

/-- `insert` lowers the time of the queued object for the data, leaves everything alone, or
pushes a new object and records it in the map. -/
theorem insert_cases (h : WaitHeap t) (m : AList (fun _ : t => Nat)) (e : WaitFor t) :
    (exists p ex, m.lookup e.data = some p ∧ h.obj p = some ex ∧ e.readyAt < ex.readyAt ∧
        h.insert m e = ((h.setReadyAt p e.readyAt).fixAt ex.index, m)) ∨
      (exists p, m.lookup e.data = some p ∧
        (forall ex, h.obj p = some ex -> ex.readyAt ≤ e.readyAt) ∧ h.insert m e = (h, m)) ∨
      (m.lookup e.data = none ∧
        h.insert m e = (Heap.push interface { h with objects := h.objects ++ [e] }
          h.objects.length, m.insert e.data h.objects.length)) := by
  cases hl : m.lookup e.data with
  | none =>
      refine Or.inr (Or.inr ⟨rfl, ?_⟩)
      simp only [WaitHeap.insert, hl]
  | some p =>
      cases hex : h.obj p with
      | none =>
          have hnone : forall ex, h.obj p = some ex -> ex.readyAt ≤ e.readyAt := by
            intro ex' hex'
            rw [hex] at hex'
            cases hex'
          refine Or.inr (Or.inl ⟨p, rfl, hnone, ?_⟩)
          simp only [WaitHeap.insert, hl, hex]
      | some ex =>
          by_cases hlt : e.readyAt < ex.readyAt
          · refine Or.inl ⟨p, ex, rfl, hex, hlt, ?_⟩
            simp [WaitHeap.insert, hl, hex, hlt]
          · have hle : forall ex', h.obj p = some ex' -> ex'.readyAt ≤ e.readyAt := by
              intro ex' hex'
              rw [hex] at hex'
              cases hex'
              exact Int.not_lt.mp hlt
            refine Or.inr (Or.inl ⟨p, rfl, hle, ?_⟩)
            simp [WaitHeap.insert, hl, hex, hlt]

namespace Rep

variable {h : WaitHeap t} {m : AList (fun _ : t => Nat)}

/-- The decrease-key branch of `insert`: the queued object gets the earlier time and
`heap.Fix` at its recorded index moves it towards the root. -/
theorem decrease (hr : Rep h m) {d : t} {p : Nat} {ex : WaitFor t} {r : Int}
    (hl : m.lookup d = some p) (hex : h.obj p = some ex) (hlt : r < ex.readyAt) :
    Rep ((h.setReadyAt p r).fixAt ex.index) m := by
  obtain ⟨i, hi, hidx⟩ := hr.index_of_lookup hl hex
  rw [hidx, fixAt_natCast]
  have ho : UpOrder (h.setReadyAt p r).readyAts i := by
    rw [readyAts_setReadyAt hr.indexed hi]
    exact hr.heap.upOrder_set (readyAts_getElem? hi hex) (le_of_lt hlt)
  obtain ⟨hw, -, hh⟩ := Heap.fix_heap interface_keyed (hr.indexed.setReadyAt p r)
    (lt_length_of_getElem? hi) ho
  refine ⟨hh, hw, fun d' q => ?_⟩
  rw [hr.known d' q, mem_fix, dataOf_fix, dataOf_setReadyAt, pq_setReadyAt]

/-- The push branch of `insert`: a new object at a new address, recorded in the map. -/
theorem pushNew (hr : Rep h m) {e : WaitFor t} (hl : m.lookup e.data = none) :
    Rep (Heap.push interface { h with objects := h.objects ++ [e] } h.objects.length)
      (m.insert e.data h.objects.length) := by
  obtain ⟨hw, hh⟩ := Heap.push_heap interface_keyed (hr.indexed.pushNew e)
    (by rw [readyAts_append hr.indexed e]; exact readyAts_pushNew hr.indexed e)
    (by rw [readyAts_append hr.indexed e]; exact hr.heap)
  refine ⟨hh, hw, fun d q => ?_⟩
  have hdata : ({ h with objects := h.objects ++ [e] } : WaitHeap t).dataOf =
      h.dataOf ++ [e.data] := by
    simp [dataOf]
  have hlen : h.dataOf.length = h.objects.length := by
    simp [dataOf]
  have hold : forall q, q ∈ h.pq -> (h.dataOf ++ [e.data])[q]? = h.dataOf[q]? :=
    fun q hq => List.getElem?_append_left (hr.indexed.bounded q hq)
  rw [mem_push, dataOf_push, hdata]
  by_cases hd : d = e.data
  · -- the entry's data now has the new address
    subst hd
    rw [AList.lookup_insert]
    constructor
    · intro hq
      cases hq
      refine ⟨Or.inr rfl, ?_⟩
      rw [← hlen]
      exact List.getElem?_concat_length
    · rintro ⟨hq | hq, hqd⟩
      · rw [hold q hq] at hqd
        exact absurd hqd (fun hqd => hr.not_carried hl hq hqd)
      · rw [hq]
  · rw [AList.lookup_insert_ne hd, hr.known d q]
    constructor
    · rintro ⟨hq, hqd⟩
      exact ⟨Or.inl hq, by rw [hold q hq]; exact hqd⟩
    · rintro ⟨hq | hq, hqd⟩
      · exact ⟨hq, by rw [← hold q hq]; exact hqd⟩
      · -- the new address carries the entry's data, not `d`
        subst hq
        rw [← hlen, List.getElem?_concat_length] at hqd
        exact absurd (Option.some.inj hqd).symm hd

theorem insert (hr : Rep h m) (e : WaitFor t) : Rep (h.insert m e).1 (h.insert m e).2 := by
  rcases insert_cases h m e with ⟨p, ex, hl, hex, hlt, heq⟩ | ⟨p, hl, -, heq⟩ | ⟨hl, heq⟩
  · rw [heq]
    exact hr.decrease hl hex hlt
  · rw [heq]
    exact hr
  · rw [heq]
    exact hr.pushNew hl

/-- The loop's pop: `heap.Pop`, then the popped data is deleted from the map. -/
theorem pop (hr : Rep h m) (h0 : 0 < h.len) {e : WaitFor t}
    (he : (Heap.pop interface h).1.obj (Heap.pop interface h).2 = some e) :
    Rep (Heap.pop interface h).1 (m.erase e.data) := by
  obtain ⟨hw, hh⟩ := Heap.pop_heap interface_keyed
    (fun s hI _ => ⟨hI.popRef, readyAts_popRef s⟩) hr.indexed h0 hr.heap
  refine ⟨hh, hw, fun d q => ?_⟩
  have hroot := root_mem_pop h0
  have hed : h.dataOf[(Heap.pop interface h).2]? = some e.data := by
    rw [← dataOf_pop]
    exact dataOf_of_obj he
  rw [dataOf_pop, mem_pop_iff hr.indexed.nodup h0]
  by_cases hd : d = e.data
  · -- the popped address was the only one carrying the data
    subst hd
    rw [AList.lookup_erase]
    constructor
    · intro hn
      cases hn
    · rintro ⟨⟨hq, hne⟩, hqd⟩
      exact absurd (hr.unique hq hroot hqd hed) hne
  · rw [AList.lookup_erase_ne hd, hr.known d q]
    constructor
    · rintro ⟨hq, hqd⟩
      refine ⟨⟨hq, fun hqr => hd ?_⟩, hqd⟩
      rw [hqr, hed] at hqd
      exact (Option.some.inj hqd).symm
    · rintro ⟨⟨hq, -⟩, hqd⟩
      exact ⟨hq, hqd⟩

end Rep

/-!
## What `insert` promises
-/

/-- After `insert` of `entry` the heap holds the entry's data once, at the earlier of the
time an object for it waited for before and the entry's, or at the entry's time if none
did. -/
structure Inserted (h h' : WaitHeap t) (entry : WaitFor t) : Prop where
  once : h'.count entry.data = 1
  merged : forall p o p' o', p ∈ h.pq -> h.obj p = some o -> o.data = entry.data ->
    p' ∈ h'.pq -> h'.obj p' = some o' -> o'.data = entry.data ->
    o'.readyAt = min o.readyAt entry.readyAt
  fresh : (forall p o, p ∈ h.pq -> h.obj p = some o -> o.data ≠ entry.data) ->
    forall p' o', p' ∈ h'.pq -> h'.obj p' = some o' -> o'.data = entry.data ->
      o'.readyAt = entry.readyAt

namespace Rep

variable {h : WaitHeap t} {m : AList (fun _ : t => Nat)}

/-- The decrease-key branch: the queued object gets the entry's earlier time. -/
theorem inserted_decrease (hr : Rep h m) {e : WaitFor t} {p : Nat} {ex : WaitFor t}
    (hl : m.lookup e.data = some p) (hex : h.obj p = some ex) (hlt : e.readyAt < ex.readyAt) :
    Inserted h ((h.setReadyAt p e.readyAt).fixAt ex.index) e := by
  obtain ⟨hp, hpd⟩ := (hr.known _ p).mp hl
  obtain ⟨i, hi, hidx⟩ := hr.index_of_lookup hl hex
  have hexd : ex.data = e.data := by
    rw [dataOf_of_obj hex] at hpd
    exact Option.some.inj hpd
  rw [hidx, fixAt_natCast]
  refine ⟨?_, ?_, ?_⟩
  · rw [← fixAt_natCast, count_fixAt, count_setReadyAt]
    exact hr.count_eq_one hl
  · intro p0 o0 p' o' hp0 ho0 ho0d hp' ho' ho'd
    have hp0p := hr.eq_of_carries hl hp0 ho0 ho0d
    subst hp0p
    rw [hex] at ho0
    cases ho0
    -- the object found after the fix carries the data, so it is the queued one
    have hp'h : p' ∈ h.pq := (mem_fix (h.setReadyAt p0 e.readyAt) i p').mp hp'
    have hp'd : h.dataOf[p']? = some e.data := by
      rw [← dataOf_setReadyAt h p0 e.readyAt, ← dataOf_fix _ i, dataOf_of_obj ho', ho'd]
    have hp'p := hr.unique hp'h hp hp'd hpd
    subst hp'p
    have hra := readyAtOf_of_obj ho'
    rw [readyAtOf_fix, readyAtOf_setReadyAt_self hex] at hra
    rw [← Option.some.inj hra, min_eq_right (le_of_lt hlt)]
  · intro hnone
    exact absurd hexd (hnone p ex hp hex)

/-- The branch that keeps the queued object, whose time is at or before the entry's. -/
theorem inserted_keep (hr : Rep h m) {e : WaitFor t} {p : Nat} (hl : m.lookup e.data = some p)
    (hle : forall ex, h.obj p = some ex -> ex.readyAt ≤ e.readyAt) : Inserted h h e := by
  obtain ⟨hp, hpd⟩ := (hr.known _ p).mp hl
  obtain ⟨ex, hex, hexd⟩ := obj_of_dataOf hpd
  refine ⟨hr.count_eq_one hl, ?_, ?_⟩
  · intro p0 o0 p' o' hp0 ho0 ho0d hp' ho' ho'd
    have hp0p := hr.eq_of_carries hl hp0 ho0 ho0d
    have hp'p := hr.eq_of_carries hl hp' ho' ho'd
    subst hp0p hp'p
    rw [ho0] at ho'
    cases ho'
    rw [min_eq_left (hle o0 ho0)]
  · intro hnone
    exact absurd hexd (hnone p ex hp hex)

/-- The push branch: a new object with the entry's time. -/
theorem inserted_pushNew (hr : Rep h m) {e : WaitFor t} (hl : m.lookup e.data = none) :
    Inserted h (Heap.push interface { h with objects := h.objects ++ [e] } h.objects.length) e := by
  have hb := hr.indexed.bounded
  have hdata : ({ h with objects := h.objects ++ [e] } : WaitHeap t).dataOf =
      h.dataOf ++ [e.data] := by
    simp [dataOf]
  refine ⟨?_, ?_, ?_⟩
  · rw [count_push hb, hr.count_eq_zero hl, if_pos rfl]
  · intro p0 o0 _ _ hp0 ho0 ho0d
    have hp0d := dataOf_of_obj ho0
    rw [ho0d] at hp0d
    exact absurd hp0d (fun hd => hr.not_carried hl hp0 hd)
  · intro _ p' o' hp' ho' ho'd
    rcases (mem_push _ _ p').mp hp' with hold | hnew
    · -- an old address would carry data the map has no entry for
      have hd := dataOf_of_obj ho'
      rw [dataOf_push, ho'd, hdata, List.getElem?_append_left (hb p' hold)] at hd
      exact absurd hd (fun hd => hr.not_carried hl hold hd)
    · subst hnew
      have hra := readyAtOf_of_obj ho'
      rw [readyAtOf_push, readyAtOf_of_obj (obj_append_self h e)] at hra
      exact (Option.some.inj hra).symm

theorem inserted (hr : Rep h m) (e : WaitFor t) : Inserted h (h.insert m e).1 e := by
  rcases insert_cases h m e with ⟨p, ex, hl, hex, hlt, heq⟩ | ⟨p, hl, hle, heq⟩ | ⟨hl, heq⟩
  · rw [heq]
    exact hr.inserted_decrease hl hex hlt
  · rw [heq]
    exact hr.inserted_keep hl hle
  · rw [heq]
    exact hr.inserted_pushNew hl

end Rep

/-!
## Runs of the loops' calls

The waiting loops touch the heap and `waitingEntryByData` through two calls only: `insert`
of a received request, and `heap.Pop` of the root followed by the deletion of its data from
the map, while `Len() > 0`.  Every run of these calls from the empty heap, in any order and
with any requests, keeps the representation invariant.
-/

/-- The calls of the waiting loops on the heap and `waitingEntryByData`. -/
inductive Op (t : Type)
  | insert (entry : WaitFor t)
  | pop

/-- One call; a pop is taken on a non-empty heap. -/
def step (s : WaitHeap t × AList (fun _ : t => Nat)) :
    Op t -> Option (WaitHeap t × AList (fun _ : t => Nat))
  | Op.insert entry => some (s.1.insert s.2 entry)
  | Op.pop =>
      if 0 < s.1.len then
        let popped := Heap.pop interface s.1
        match popped.1.obj popped.2 with
        | some e => some (popped.1, s.2.erase e.data)
        | none => none
      else none

theorem step_eq_some {s s' : WaitHeap t × AList (fun _ : t => Nat)} {op : Op t}
    (hs : step s op = some s') :
    (exists entry, op = Op.insert entry ∧ s' = s.1.insert s.2 entry) ∨
      (op = Op.pop ∧ 0 < s.1.len ∧ exists e,
        (Heap.pop interface s.1).1.obj (Heap.pop interface s.1).2 = some e ∧
        s' = ((Heap.pop interface s.1).1, s.2.erase e.data)) := by
  cases op with
  | insert entry =>
      simp only [step, Option.some.injEq] at hs
      exact Or.inl ⟨entry, rfl, hs.symm⟩
  | pop =>
      simp only [step] at hs
      split at hs
      · rename_i h0
        split at hs
        · rename_i e he
          cases hs
          exact Or.inr ⟨rfl, h0, e, he, rfl⟩
        · cases hs
      · cases hs

theorem step_rep {s s' : WaitHeap t × AList (fun _ : t => Nat)} {op : Op t}
    (hr : Rep s.1 s.2) (hs : step s op = some s') : Rep s'.1 s'.2 := by
  rcases step_eq_some hs with ⟨entry, -, rfl⟩ | ⟨-, h0, e, he, rfl⟩
  · exact hr.insert entry
  · exact hr.pop h0 he

theorem rep_of_reachable {s : WaitHeap t × AList (fun _ : t => Nat)}
    (hs : Reachable step (empty, ∅) s) : Rep s.1 s.2 :=
  Preserves.reachable (P := fun s => Rep s.1 s.2) (fun _ _ _ _ hr hstep => step_rep hr hstep)
    rep_empty hs

theorem reachable_heap_rep {s : WaitHeap t × AList (fun _ : t => Nat)}
    (hs : Reachable step (empty, ∅) s) :
    IsHeap s.1.readyAts ∧ s.1.Indexed ∧
      (forall d p, s.2.lookup d = some p ↔ p ∈ s.1.pq ∧ s.1.dataOf[p]? = some d) ∧
      (forall p q d, p ∈ s.1.pq -> q ∈ s.1.pq -> s.1.dataOf[p]? = some d ->
        s.1.dataOf[q]? = some d -> p = q) ∧
      forall e, Inserted s.1 (s.1.insert s.2 e).1 e := by
  have hr := rep_of_reachable hs
  exact ⟨hr.heap, hr.indexed, hr.known, fun p q d hp hq hpd hqd => hr.unique hp hq hpd hqd,
    hr.inserted⟩

/-- Requests for `0` at `10`, for `1` at `5` and for `0` again at `3`, which moves `0` to the
root; then a pop. -/
def mergeTrace : List (Op Nat) :=
  [Op.insert ⟨0, 10, 0⟩, Op.insert ⟨1, 5, 0⟩, Op.insert ⟨0, 3, 0⟩, Op.pop]

theorem reachable_heap_rep_merge :
    let s := (run step (empty, ∅) mergeTrace).getD (empty, ∅)
    IsHeap s.1.readyAts ∧ s.1.Indexed ∧
      (forall d p, s.2.lookup d = some p ↔ p ∈ s.1.pq ∧ s.1.dataOf[p]? = some d) ∧
      (forall p q d, p ∈ s.1.pq -> q ∈ s.1.pq -> s.1.dataOf[p]? = some d ->
        s.1.dataOf[q]? = some d -> p = q) ∧
      forall e, Inserted s.1 (s.1.insert s.2 e).1 e :=
  reachable_heap_rep (Reachable.of_isSome (by decide +kernel))

end WaitHeap

/-!
## The loop makes these calls

A step of `waitingLoop` either leaves the heap and the map alone or makes one of the calls
above, so both loops keep the invariant along their runs.
-/

namespace WaitingLoop

variable [DecidableEq t] {l : WaitingLoop t} {a : LoopAction} {ch : List (WaitFor t)}
  {start now : Int} {shuttingDown stopClosed : Bool} {r : Result t}

theorem step_heapCalls (hs : l.step a ch start now shuttingDown stopClosed = some r) :
    (r.loop.heap = l.heap ∧ r.loop.byData = l.byData) ∨
      exists op, WaitHeap.step (l.heap, l.byData) op = some (r.loop.heap, r.loop.byData) := by
  rcases step_cases_byData hs with ⟨hh, hb, -, -⟩ | ⟨h0, hh, -, e, he, hb, -⟩ |
    ⟨entry, rest, pc, -, rfl⟩
  · exact Or.inl ⟨hh, hb⟩
  · refine Or.inr ⟨WaitHeap.Op.pop, ?_⟩
    rw [hh, hb]
    simp [WaitHeap.step, h0, he]
  · unfold receiveEntry
    split
    · exact Or.inr ⟨WaitHeap.Op.insert entry, rfl⟩
    · exact Or.inl ⟨rfl, rfl⟩

theorem step_rep (hr : WaitHeap.Rep l.heap l.byData)
    (hs : l.step a ch start now shuttingDown stopClosed = some r) :
    WaitHeap.Rep r.loop.heap r.loop.byData := by
  rcases step_heapCalls hs with ⟨hh, hb⟩ | ⟨op, hop⟩
  · rw [hh, hb]
    exact hr
  · exact WaitHeap.step_rep (s := (l.heap, l.byData)) hr hop

theorem rep_new (start : Int) :
    WaitHeap.Rep (new start : WaitingLoop t).heap (new start : WaitingLoop t).byData :=
  WaitHeap.rep_empty

end WaitingLoop

/-!
## Along the queues' runs

In both delaying queues only the goroutine's own steps change its state, so the invariant
holds in every reachable state of either queue.
-/

namespace DelayingQueue

variable [DecidableEq t]

theorem step_loop {q q' : DelayingQueue t} {op : Op t} (h : q.step op = some q') :
    q'.loop = q.loop ∨
      exists a r, q.loop.step a q.waitingForAddCh q.start q.clock q.queue.shuttingDown
        q.stopClosed = some r ∧ q'.loop = r.loop := by
  cases op with
  | addAfter item duration =>
      simp only [step, Option.some.injEq] at h
      subst h
      left
      unfold addAfter
      split
      · rfl
      · split <;> rfl
  | send i =>
      simp only [step, send] at h
      split at h
      · split at h
        · cases h
          exact Or.inl rfl
        · cases h
      · cases h
  | abandon i =>
      simp only [step, abandon] at h
      split at h
      · split at h
        · cases h
          exact Or.inl rfl
        · cases h
      · cases h
  | loop a =>
      simp only [step] at h
      split at h
      · cases h
      · rename_i r hr
        refine Or.inr ⟨a, r, hr, ?_⟩
        split at h <;> cases h <;> rfl
  | get =>
      simp only [step] at h
      split at h
      · cases h
        exact Or.inl rfl
      · cases h
  | done item =>
      simp only [step, Option.some.injEq] at h
      subst h
      exact Or.inl rfl
  | shutDown =>
      simp only [step, Option.some.injEq] at h
      subst h
      left
      unfold shutDown
      split <;> rfl
  | tick d =>
      simp only [step, Option.some.injEq] at h
      subst h
      exact Or.inl rfl

theorem loop_rep {start : Int} {q : DelayingQueue t} (hq : Reachable step (new start) q) :
    WaitHeap.Rep q.loop.heap q.loop.byData := by
  have hpres : Preserves step (fun _ => True)
      (fun q : DelayingQueue t => WaitHeap.Rep q.loop.heap q.loop.byData) := by
    intro s op s' _ hr hs
    rcases step_loop hs with hl | ⟨a, r, hr', hl⟩
    · rw [hl]
      exact hr
    · rw [hl]
      exact WaitingLoop.step_rep hr hr'
  exact hpres.reachable (WaitingLoop.rep_new start) hq

end DelayingQueue

namespace Indexer

variable {K α : Type} [DecidableEq K] {keyFunc : α -> Option K}
  {compared : α -> Option (α -> Bool)}

theorem push_loop (q : Indexer K α) (key : K) : (q.push key).loop = q.loop := by
  rcases push_cases q key with h | ⟨-, -, -, h⟩ <;> rw [h]

omit [DecidableEq K] in
theorem startAddAfter_loop (q : Indexer K α) (item : α) (delay : Int) :
    (q.startAddAfter keyFunc item delay).loop = q.loop := by
  unfold startAddAfter
  split <;> rfl

theorem step_loop {q q' : Indexer K α} {op : Op α} (h : q.step keyFunc compared op = some q') :
    q'.loop = q.loop ∨
      exists a r, q.loop.step a q.waitingForAddCh q.start q.clock q.shuttingDown
        q.stopClosed = some r ∧ q'.loop = r.loop := by
  cases op with
  | add item =>
      rw [add_eq_some h]
      exact Or.inl (startAddAfter_loop q item 0)
  | addAfter item delay =>
      simp only [step, Option.some.injEq] at h
      subst h
      exact Or.inl (startAddAfter_loop q item delay)
  | lock i =>
      -- the critical section writes only the waiting entries and the metrics
      obtain ⟨c, -, -, hcases⟩ := lock_eq_some h
      obtain ⟨known', m', hr, -⟩ := addAfterLocked_fields compared q c.item c.key c.readAt
      left
      rcases hcases with ⟨-, rfl⟩ | ⟨-, rfl⟩ <;> rw [hr]
  | afterLock i =>
      obtain ⟨c, -, -, ⟨-, rfl⟩ | ⟨-, rfl⟩⟩ := afterLock_eq_some h
      · exact Or.inl (push_loop _ c.key)
      · exact Or.inl rfl
  | send i =>
      obtain ⟨c, -, -, -, rfl⟩ := send_eq_some h
      exact Or.inl rfl
  | abandon i =>
      obtain ⟨c, -, -, -, rfl⟩ := abandon_eq_some h
      exact Or.inl rfl
  | get =>
      rcases get_eq_some h with ⟨-, -, rfl⟩ | ⟨key, rest, entry, -, -, rfl⟩ | ⟨key, rest, -, -, rfl⟩
      · exact Or.inl rfl
      · exact Or.inl rfl
      · exact Or.inl rfl
  | done i =>
      obtain ⟨item, -, ⟨-, rfl⟩ | ⟨key, -, rfl⟩⟩ := done_eq_some h
      · exact Or.inl rfl
      · exact Or.inl rfl
  | loop a =>
      obtain ⟨r, hr, ⟨-, rfl⟩ | ⟨key, -, rfl⟩⟩ := loop_eq_some h
      · exact Or.inr ⟨a, r, hr, rfl⟩
      · exact Or.inr ⟨a, r, hr, push_loop _ key⟩
  | shutDown =>
      simp only [step, Option.some.injEq] at h
      subst h
      left
      unfold shutDownOnce
      split <;> rfl
  | shutDownWithDrain =>
      simp only [step, Option.some.injEq] at h
      subst h
      left
      unfold shutDownOnce
      split <;> rfl
  | tick d =>
      simp only [step, Option.some.injEq] at h
      subst h
      exact Or.inl rfl

theorem loop_rep {now : Int} {q : Indexer K α} (hq : Reachable (step keyFunc compared) (new now) q) :
    WaitHeap.Rep q.loop.heap q.loop.byData := by
  have hpres : Preserves (step keyFunc compared) (fun _ => True)
      (fun q : Indexer K α => WaitHeap.Rep q.loop.heap q.loop.byData) := by
    intro s op s' _ hr hs
    rcases step_loop hs with hl | ⟨a, r, hr', hl⟩
    · rw [hl]
      exact hr
    · rw [hl]
      exact WaitingLoop.step_rep hr hr'
  exact hpres.reachable (WaitingLoop.rep_new now) hq

end Indexer

end Workqueue
end KubeTrigger
