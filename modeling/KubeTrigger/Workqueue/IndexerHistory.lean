import KubeTrigger.Workqueue.IndexerInvariant

/-!
# The newest version wins

`indexerDelayingQueue` keeps one waiting entry per key.  Its `AddAfter` merges a new item
into the waiting entry when the entry's item is `LessOrEqual` to it, and turns an item away
when no entry is waiting and the item processing for the key is not `LessOrEqual` to it.
Read over a run's log (`report`), this says: when `LessOrEqual` is a total preorder on the
items of a key `k`, every `Get` of `k` hands out an item that came in since the previous
`Get` of `k`, and every item that came in since then and got past the shutdown check and
the processing item is `LessOrEqual` to it.

The invariant behind it (`History`) ties the item waiting for `k` and the item processing
for `k` to the window of the log since the last `Get` of `k`.
-/

namespace KubeTrigger
namespace Workqueue
namespace Indexer

open Foundation

variable {K α : Type}

/-!
## The order on the items of a key
-/

/-- `LessOrEqual` is a total preorder on the items of key `k`; by totality each of them
implements `Compared`. -/
structure TotalPreorderOn (keyFunc : α -> Option K) (compared : α -> Option (α -> Bool))
    (k : K) : Prop where
  total : forall a b, keyFunc a = some k -> keyFunc b = some k ->
    lessOrEqual compared a b = true ∨ lessOrEqual compared b a = true
  trans : forall a b c, keyFunc a = some k -> keyFunc b = some k -> keyFunc c = some k ->
    lessOrEqual compared a b = true -> lessOrEqual compared b c = true ->
      lessOrEqual compared a c = true

section Order

variable {keyFunc : α -> Option K} {compared : α -> Option (α -> Bool)} {k : K}

theorem TotalPreorderOn.refl (hk : TotalPreorderOn keyFunc compared k) {a : α}
    (ha : keyFunc a = some k) : lessOrEqual compared a a = true := by
  rcases hk.total a a ha ha with h | h <;> exact h

theorem TotalPreorderOn.le_of_not_le (hk : TotalPreorderOn keyFunc compared k) {a b : α}
    (ha : keyFunc a = some k) (hb : keyFunc b = some k)
    (hab : lessOrEqual compared a b = false) : lessOrEqual compared b a = true := by
  rcases hk.total a b ha hb with h | h
  · rw [hab] at h
    cases h
  · exact h

end Order

/-!
## The history invariant
-/

section History

variable (keyFunc : α -> Option K) (compared : α -> Option (α -> Bool)) (k : K)

/-- What the window since the last `Get` of `k` says about the item `w` waiting for `k` and
the item `p` processing for it. -/
structure History (w p : Option α) (win : List (Event K α)) : Prop where
  events_key : forall y pr o, Event.locked k y pr o ∈ win ->
    keyFunc y = some k ∧ forall x, pr = some x -> keyFunc x = some k
  processing_key : forall x, p = some x -> keyFunc x = some k
  stored : forall d, w = some d -> exists pr o, Event.locked k d pr o ∈ win ∧ o.stores = true
  newest : forall d, w = some d -> forall y pr o, Event.locked k y pr o ∈ win ->
    o.passes = true -> lessOrEqual compared y d = true
  above_processing : forall d x, w = some d -> p = some x -> lessOrEqual compared x d = true
  idle : w = none -> forall y pr o, Event.locked k y pr o ∈ win -> o.passes = false
  raised : forall y x o, Event.locked k y (some x) o ∈ win -> o.stores = true ->
    lessOrEqual compared x y = true

theorem history_empty : History keyFunc compared k none none ([] : List (Event K α)) := by
  constructor
  · intro y pr o h
    cases h
  · intro x h
    cases h
  · intro d h
    cases h
  · intro d h
    cases h
  · intro d x h
    cases h
  · intro _ y pr o h
    cases h
  · intro y x o h
    cases h

variable {keyFunc compared k}

theorem History.waiting_key {w p : Option α} {win : List (Event K α)}
    (h : History keyFunc compared k w p win) {d : α} (hd : w = some d) : keyFunc d = some k := by
  obtain ⟨pr, o, hm, -⟩ := h.stored d hd
  exact (h.events_key d pr o hm).1

theorem mem_append_of_other {win : List (Event K α)} {e : Event K α} {k : K} {y : α}
    {pr : Option α} {o : LockOutcome} (hm : Event.locked k y pr o ∈ win ++ [e])
    (he : forall y pr o, e ≠ Event.locked k y pr o) : Event.locked k y pr o ∈ win := by
  rcases List.mem_append.mp hm with hm | hm
  · exact hm
  · rw [List.mem_singleton] at hm
    exact absurd hm.symm (he y pr o)

/-- An event that is not a critical section for `k` changes nothing. -/
theorem History.append_other {w p : Option α} {win : List (Event K α)}
    (h : History keyFunc compared k w p win) {e : Event K α}
    (he : forall y pr o, e ≠ Event.locked k y pr o) :
    History keyFunc compared k w p (win ++ [e]) := by
  constructor
  · intro y pr o hm
    exact h.events_key y pr o (mem_append_of_other hm he)
  · exact h.processing_key
  · intro d hd
    obtain ⟨pr, o, hm, hs⟩ := h.stored d hd
    exact ⟨pr, o, List.mem_append_left _ hm, hs⟩
  · intro d hd y pr o hm
    exact h.newest d hd y pr o (mem_append_of_other hm he)
  · exact h.above_processing
  · intro hw y pr o hm
    exact h.idle hw y pr o (mem_append_of_other hm he)
  · intro y x o hm
    exact h.raised y x o (mem_append_of_other hm he)

/-- `Done` of the item processing for `k`. -/
theorem History.drop_processing {w p : Option α} {win : List (Event K α)}
    (h : History keyFunc compared k w p win) : History keyFunc compared k w none win := by
  constructor
  · exact h.events_key
  · intro x hx
    cases hx
  · exact h.stored
  · exact h.newest
  · intro d x _ hx
    cases hx
  · exact h.idle
  · exact h.raised

/-- `Get` of `k` moves the waiting item to processing and opens a new window. -/
theorem History.got {p : Option α} {win : List (Event K α)} {d : α}
    (h : History keyFunc compared k (some d) p win) :
    History keyFunc compared k none (some d) [] := by
  constructor
  · intro y pr o hm
    cases hm
  · intro x hx
    cases hx
    exact h.waiting_key rfl
  · intro d' hd
    cases hd
  · intro d' hd
    cases hd
  · intro d' x hd
    cases hd
  · intro _ y pr o hm
    cases hm
  · intro y x o hm
    cases hm

/-!
### The critical section of `AddAfter` for `k`

One lemma per outcome.  `p` is the item processing for `k`, which the event records.
-/

section Lock

variable {w p : Option α} {win : List (Event K α)} {y : α}

/-- A critical section in the extended window is an old one or the new one. -/
theorem mem_append_locked {o : LockOutcome} {y' : α} {pr : Option α} {o' : LockOutcome}
    (hm : Event.locked k y' pr o' ∈ win ++ [Event.locked k y p o]) :
    (Event.locked k y' pr o' ∈ win) ∨ (y' = y ∧ pr = p ∧ o' = o) := by
  rcases List.mem_append.mp hm with hm | hm
  · exact Or.inl hm
  · rw [List.mem_singleton] at hm
    cases hm
    exact Or.inr ⟨rfl, rfl, rfl⟩

theorem History.lock_events_key (h : History keyFunc compared k w p win)
    (hy : keyFunc y = some k) (o : LockOutcome) :
    forall y' pr o', Event.locked k y' pr o' ∈ win ++ [Event.locked k y p o] ->
      keyFunc y' = some k ∧ forall x, pr = some x -> keyFunc x = some k := by
  intro y' pr o' hm
  rcases mem_append_locked hm with hm | ⟨rfl, rfl, rfl⟩
  · exact h.events_key y' pr o' hm
  · exact ⟨hy, h.processing_key⟩

/-- A shutting-down queue ignores the item. -/
theorem History.lock_ignored (h : History keyFunc compared k w p win)
    (hy : keyFunc y = some k) :
    History keyFunc compared k w p (win ++ [Event.locked k y p LockOutcome.ignored]) := by
  constructor
  · exact h.lock_events_key hy _
  · exact h.processing_key
  · intro d hd
    obtain ⟨pr, o, hm, hs⟩ := h.stored d hd
    exact ⟨pr, o, List.mem_append_left _ hm, hs⟩
  · intro d hd y' pr o hm ho
    rcases mem_append_locked hm with hm | ⟨rfl, rfl, rfl⟩
    · exact h.newest d hd y' pr o hm ho
    · cases ho
  · exact h.above_processing
  · intro hw y' pr o hm
    rcases mem_append_locked hm with hm | ⟨rfl, rfl, rfl⟩
    · exact h.idle hw y' pr o hm
    · rfl
  · intro y' x o hm ho
    rcases mem_append_locked hm with hm | ⟨rfl, rfl, rfl⟩
    · exact h.raised y' x o hm ho
    · cases ho

/-- The processing item turns the item away; nothing was waiting. -/
theorem History.lock_rejected (h : History keyFunc compared k none p win)
    (hy : keyFunc y = some k) :
    History keyFunc compared k none p (win ++ [Event.locked k y p LockOutcome.rejected]) := by
  constructor
  · exact h.lock_events_key hy _
  · exact h.processing_key
  · intro d hd
    cases hd
  · intro d hd
    cases hd
  · intro d x hd
    cases hd
  · intro _ y' pr o hm
    rcases mem_append_locked hm with hm | ⟨rfl, rfl, rfl⟩
    · exact h.idle rfl y' pr o hm
    · rfl
  · intro y' x o hm ho
    rcases mem_append_locked hm with hm | ⟨rfl, rfl, rfl⟩
    · exact h.raised y' x o hm ho
    · cases ho

/-- The waiting item `d` is not `LessOrEqual` to the new one and stays; by totality the new
item is below it. -/
theorem History.lock_kept (hk : TotalPreorderOn keyFunc compared k) {d : α}
    (h : History keyFunc compared k (some d) p win) (hy : keyFunc y = some k)
    (hle : lessOrEqual compared d y = false) :
    History keyFunc compared k (some d) p (win ++ [Event.locked k y p LockOutcome.kept]) := by
  constructor
  · exact h.lock_events_key hy _
  · exact h.processing_key
  · intro d' hd
    obtain ⟨pr, o, hm, hs⟩ := h.stored d' hd
    exact ⟨pr, o, List.mem_append_left _ hm, hs⟩
  · intro d' hd y' pr o hm ho
    cases hd
    rcases mem_append_locked hm with hm | ⟨rfl, rfl, rfl⟩
    · exact h.newest d rfl y' pr o hm ho
    · exact hk.le_of_not_le (h.waiting_key rfl) hy hle
  · exact h.above_processing
  · intro hw
    cases hw
  · intro y' x o hm ho
    rcases mem_append_locked hm with hm | ⟨rfl, rfl, rfl⟩
    · exact h.raised y' x o hm ho
    · cases ho

/-- The waiting item `d` is `LessOrEqual` to the new one, which replaces it. -/
theorem History.lock_replaced (hk : TotalPreorderOn keyFunc compared k) {d : α}
    (h : History keyFunc compared k (some d) p win) (hy : keyFunc y = some k)
    (hle : lessOrEqual compared d y = true) :
    History keyFunc compared k (some y) p
      (win ++ [Event.locked k y p LockOutcome.replaced]) := by
  have hd : keyFunc d = some k := h.waiting_key rfl
  constructor
  · exact h.lock_events_key hy _
  · exact h.processing_key
  · intro d' hd'
    cases hd'
    exact ⟨p, LockOutcome.replaced, List.mem_append_right _ (List.mem_singleton_self _), rfl⟩
  · intro d' hd' y' pr o hm ho
    cases hd'
    rcases mem_append_locked hm with hm | ⟨rfl, rfl, rfl⟩
    · have hy' : keyFunc y' = some k := (h.events_key y' pr o hm).1
      exact hk.trans y' d y hy' hd hy (h.newest d rfl y' pr o hm ho) hle
    · exact hk.refl hy
  · intro d' x hd' hx
    cases hd'
    have hxk : keyFunc x = some k := h.processing_key x hx
    exact hk.trans x d y hxk hd hy (h.above_processing d x rfl hx) hle
  · intro hw
    cases hw
  · intro y' x o hm ho
    rcases mem_append_locked hm with hm | ⟨rfl, hx, rfl⟩
    · exact h.raised y' x o hm ho
    · have hxk : keyFunc x = some k := h.processing_key x hx.symm
      exact hk.trans x d y' hxk hd hy (h.above_processing d x rfl hx.symm) hle

/-- Nothing was waiting and the processing item, if any, is `LessOrEqual` to the new item,
which becomes the waiting item. -/
theorem History.lock_inserted (hk : TotalPreorderOn keyFunc compared k)
    (h : History keyFunc compared k none p win) (hy : keyFunc y = some k)
    (hp : forall x, p = some x -> lessOrEqual compared x y = true) :
    History keyFunc compared k (some y) p
      (win ++ [Event.locked k y p LockOutcome.inserted]) := by
  constructor
  · exact h.lock_events_key hy _
  · exact h.processing_key
  · intro d' hd'
    cases hd'
    exact ⟨p, LockOutcome.inserted, List.mem_append_right _ (List.mem_singleton_self _), rfl⟩
  · intro d' hd' y' pr o hm ho
    cases hd'
    rcases mem_append_locked hm with hm | ⟨rfl, rfl, rfl⟩
    · -- nothing in the window got past the checks while no item was waiting
      rw [h.idle rfl y' pr o hm] at ho
      cases ho
    · exact hk.refl hy
  · intro d' x hd' hx
    cases hd'
    exact hp x hx
  · intro hw
    cases hw
  · intro y' x o hm ho
    rcases mem_append_locked hm with hm | ⟨rfl, hx, rfl⟩
    · exact h.raised y' x o hm ho
    · exact hp x hx.symm

end Lock

end History

/-!
## The window since the last `Get` of a key
-/

variable [DecidableEq K]

/-- Extend a window by one event; a `Get` of `k` opens a new one. -/
def windowStep (k : K) (win : List (Event K α)) : Event K α -> List (Event K α)
  | Event.got key item => if key = k then [] else win ++ [Event.got key item]
  | e => win ++ [e]

/-- The events of a log after its last `Get` of `k`. -/
def window (k : K) (log : List (Event K α)) : List (Event K α) :=
  log.foldl (windowStep k) []

theorem window_append (k : K) (log evs : List (Event K α)) :
    window k (log ++ evs) = evs.foldl (windowStep k) (window k log) := by
  unfold window
  rw [List.foldl_append]

theorem window_append_got (k : K) (log : List (Event K α)) (x : α) :
    window k (log ++ [Event.got k x]) = [] := by
  rw [window_append]
  simp [windowStep]

/-- An event that is not a critical section for `k` and not a `Get` of `k` is appended. -/
theorem window_append_other (k : K) (log : List (Event K α)) (e : Event K α)
    (he : forall x, e ≠ Event.got k x) :
    window k (log ++ [e]) = window k log ++ [e] := by
  rw [window_append]
  cases e with
  | locked key item pr o => rfl
  | got key item =>
      have hk : key ≠ k := by
        rintro rfl
        exact he item rfl
      simp [windowStep, hk]

section Steps

variable {keyFunc : α -> Option K} {compared : α -> Option (α -> Bool)} {k : K}

/-- An item that the processing item of its key does not turn away is above it. -/
theorem TotalPreorderOn.le_of_not_rejects (hk : TotalPreorderOn keyFunc compared k)
    {q : Indexer K α} {item x : α} (hp : q.processingData k = some x)
    (hx : keyFunc x = some k) (hr : rejects compared q k item = false) :
    lessOrEqual compared x item = true := by
  have hrefl := hk.refl hx
  unfold processingData at hp
  unfold rejects at hr
  cases hl : q.processingEntries.lookup k with
  | none =>
      rw [hl] at hp
      cases hp
  | some pe =>
      rw [hl] at hp hr
      cases hp
      dsimp only at hr
      unfold lessOrEqual at hrefl ⊢
      cases hc : compared pe.data with
      | none =>
          rw [hc] at hrefl
          cases hrefl
      | some le =>
          rw [hc] at hr
          simpa using hr

theorem LockOutcome.passes_of_stores {o : LockOutcome} (h : o.stores = true) :
    o.passes = true := by
  cases o <;> first | rfl | cases h

theorem LockOutcome.passes_iff (o : LockOutcome) :
    o.passes = true ↔ o ≠ LockOutcome.ignored ∧ o ≠ LockOutcome.rejected := by
  cases o <;> simp [LockOutcome.passes]

/-- The outcome of a critical section and what the state it ran in looked like. -/
theorem lockOutcome_cases (compared : α -> Option (α -> Bool)) (q : Indexer K α) (key : K)
    (item : α) :
    q.lockOutcome compared key item = LockOutcome.ignored ∨
      (exists d, q.waitingData key = some d ∧
        ((lessOrEqual compared d item = false ∧
            q.lockOutcome compared key item = LockOutcome.kept) ∨
          (lessOrEqual compared d item = true ∧
            q.lockOutcome compared key item = LockOutcome.replaced))) ∨
      (q.waitingData key = none ∧
        ((rejects compared q key item = true ∧
            q.lockOutcome compared key item = LockOutcome.rejected) ∨
          (rejects compared q key item = false ∧
            q.lockOutcome compared key item = LockOutcome.inserted))) := by
  unfold lockOutcome waitingData
  by_cases hs : q.shuttingDown = true
  · left
    rw [if_pos hs]
  right
  rw [if_neg hs]
  cases hl : q.knownPrepareEntries.lookup key with
  | some waitItem =>
      left
      refine ⟨waitItem.data, rfl, ?_⟩
      dsimp only
      cases hle : lessOrEqual compared waitItem.data item
      · exact Or.inl ⟨rfl, rfl⟩
      · exact Or.inr ⟨rfl, rfl⟩
  | none =>
      right
      refine ⟨rfl, ?_⟩
      cases hr : rejects compared q key item
      · exact Or.inr ⟨rfl, rfl⟩
      · exact Or.inl ⟨rfl, rfl⟩

end Steps

variable (keyFunc : α -> Option K) (compared : α -> Option (α -> Bool)) (k : K)

/-- The history invariant of key `k` for a state and its log. -/
def HistoryOf (q : Indexer K α) (log : List (Event K α)) : Prop :=
  History keyFunc compared k (q.waitingData k) (q.processingData k) (window k log)

/-- A `Get` of `k` handing out `x` after a window `win`: `x` came in during the window, every
item of the window that got past the checks is `LessOrEqual` to it, and every item stored
while an item was processing is above that item, and so is `x`. -/
def NewestIn (x : α) (win : List (Event K α)) : Prop :=
  (exists pr o, Event.locked k x pr o ∈ win ∧ o.stores = true) ∧
    (forall y pr o, Event.locked k y pr o ∈ win -> o.passes = true ->
      lessOrEqual compared y x = true) ∧
    (forall y p o, Event.locked k y (some p) o ∈ win -> o.stores = true ->
      lessOrEqual compared p y = true ∧ lessOrEqual compared p x = true)

/-- Every `Get` of `k` in the log handed out the newest item of its window. -/
def GetsNewest (log : List (Event K α)) : Prop :=
  forall i x, log[i]? = some (Event.got k x) -> NewestIn compared k x (window k (log.take i))

section Steps

variable {keyFunc compared k}

omit [DecidableEq K] in
theorem History.newestIn (hk : TotalPreorderOn keyFunc compared k) {p : Option α}
    {win : List (Event K α)} {x : α} (h : History keyFunc compared k (some x) p win) :
    NewestIn compared k x win := by
  have hx : keyFunc x = some k := h.waiting_key rfl
  refine ⟨h.stored x rfl, h.newest x rfl, ?_⟩
  intro y p' o hm ho
  have hyx : lessOrEqual compared y x = true :=
    h.newest x rfl y (some p') o hm (LockOutcome.passes_of_stores ho)
  have hpy : lessOrEqual compared p' y = true := h.raised y p' o hm ho
  obtain ⟨hy, hpk⟩ := h.events_key y (some p') o hm
  exact ⟨hpy, hk.trans p' y x (hpk p' rfl) hy hx hpy hyx⟩

theorem HistoryOf.frame {q q' : Indexer K α} {log : List (Event K α)}
    (h : HistoryOf keyFunc compared k q log) (hw : q'.waitingData k = q.waitingData k)
    (hp : q'.processingData k = q.processingData k) :
    HistoryOf keyFunc compared k q' log := by
  unfold HistoryOf
  rw [hw, hp]
  exact h

theorem HistoryOf.frame_entries {q q' : Indexer K α} {log : List (Event K α)}
    (h : HistoryOf keyFunc compared k q log)
    (hw : q'.knownPrepareEntries = q.knownPrepareEntries)
    (hp : q'.processingEntries = q.processingEntries) :
    HistoryOf keyFunc compared k q' log := by
  refine h.frame ?_ ?_
  · unfold waitingData
    rw [hw]
  · unfold processingData
    rw [hp]

omit [DecidableEq K] in
theorem startAddAfter_entries (keyFunc : α -> Option K) (q : Indexer K α) (item : α) (delay : Int) :
    (q.startAddAfter keyFunc item delay).knownPrepareEntries = q.knownPrepareEntries ∧
      (q.startAddAfter keyFunc item delay).processingEntries = q.processingEntries := by
  unfold startAddAfter
  cases keyFunc item <;> exact ⟨rfl, rfl⟩

omit [DecidableEq K] in
theorem shutDownOnce_entries (q : Indexer K α) (drain : Bool) :
    (q.shutDownOnce drain).knownPrepareEntries = q.knownPrepareEntries ∧
      (q.shutDownOnce drain).processingEntries = q.processingEntries := by
  unfold Indexer.shutDownOnce
  split <;> exact ⟨rfl, rfl⟩

/-- The critical section of `AddAfter` for an item of some key, with the event it reports. -/
theorem HistoryOf.addAfterLocked (hk : TotalPreorderOn keyFunc compared k)
    {q : Indexer K α} {log : List (Event K α)} (h : HistoryOf keyFunc compared k q log)
    {item : α} {key : K} (hkey : keyFunc item = some key) (readAt : Int) :
    HistoryOf keyFunc compared k (q.addAfterLocked compared item key readAt).1
      (log ++ [Event.locked key item (q.processingData key)
        (q.lockOutcome compared key item)]) := by
  obtain ⟨known', m', hq', hother, -, -⟩ := addAfterLocked_fields compared q item key readAt
  have hp : (q.addAfterLocked compared item key readAt).1.processingData k =
      q.processingData k := by
    rw [hq']
    rfl
  unfold HistoryOf
  rw [window_append_other k log _ (fun x he => by cases he), hp]
  by_cases hk' : key = k
  · subst hk'
    rw [waitingData_addAfterLocked]
    have hh : History keyFunc compared key (q.waitingData key) (q.processingData key)
        (window key log) := h
    rcases lockOutcome_cases compared q key item with
      ho | ⟨d, hw, ⟨hle, ho⟩ | ⟨hle, ho⟩⟩ | ⟨hw, ⟨hr, ho⟩ | ⟨hr, ho⟩⟩
    · rw [ho]
      exact hh.lock_ignored hkey
    · rw [ho, hw]
      rw [hw] at hh
      exact hh.lock_kept hk hkey hle
    · rw [ho]
      rw [hw] at hh
      exact hh.lock_replaced hk hkey hle
    · rw [ho, hw]
      rw [hw] at hh
      exact hh.lock_rejected hkey
    · rw [ho]
      rw [hw] at hh
      refine hh.lock_inserted hk hkey ?_
      intro x hx
      exact hk.le_of_not_rejects hx (hh.processing_key x hx) hr
  · have hw : (q.addAfterLocked compared item key readAt).1.waitingData k = q.waitingData k := by
      unfold waitingData
      rw [hq']
      exact congrArg (Option.map WaitEntry.data) (hother k (Ne.symm hk'))
    rw [hw]
    refine h.append_other ?_
    intro y pr o he
    cases he
    exact hk' rfl

theorem historyOf_new (now : Int) : HistoryOf keyFunc compared k (new now) [] :=
  history_empty keyFunc compared k

/-- Every step keeps the history invariant of `k`, the log growing by what the step
reports. -/
theorem HistoryOf.step (hk : TotalPreorderOn keyFunc compared k) {q q' : Indexer K α}
    {log : List (Event K α)} {op : Op α} (hv : Inv keyFunc q)
    (h : HistoryOf keyFunc compared k q log) (hs : q.step keyFunc compared op = some q') :
    HistoryOf keyFunc compared k q' (log ++ report compared q op) := by
  cases op with
  | add item =>
      have hr : report compared q (Op.add item) = [] := rfl
      rw [hr, List.append_nil]
      rw [add_eq_some hs]
      obtain ⟨hw, hp⟩ := startAddAfter_entries keyFunc q item 0
      exact h.frame_entries hw hp
  | addAfter item delay =>
      have hr : report compared q (Op.addAfter item delay) = [] := rfl
      rw [hr, List.append_nil]
      simp only [Indexer.step] at hs
      cases hs
      obtain ⟨hw, hp⟩ := startAddAfter_entries keyFunc q item delay
      exact h.frame_entries hw hp
  | lock i =>
      obtain ⟨c, hci, hph, hcases⟩ := lock_eq_some hs
      have hr : report compared q (Op.lock i) =
          [Event.locked c.key c.item (q.processingData c.key)
            (q.lockOutcome compared c.key c.item)] := by
        simp only [report, hci, if_pos hph]
      have hl := h.addAfterLocked hk (hv.calls_key c (List.mem_of_getElem? hci)) c.readAt
      rw [hr]
      rcases hcases with ⟨-, rfl⟩ | ⟨-, rfl⟩
      · exact hl.frame rfl rfl
      · exact hl.frame rfl rfl
  | afterLock i =>
      have hr : report compared q (Op.afterLock i) = [] := rfl
      rw [hr, List.append_nil]
      obtain ⟨c, -, -, ⟨-, rfl⟩ | ⟨-, rfl⟩⟩ := afterLock_eq_some hs
      · obtain ⟨hw, hp⟩ := push_entries { q with calls := q.calls.eraseIdx i } c.key
        exact h.frame_entries hw hp
      · exact h.frame rfl rfl
  | send i =>
      have hr : report compared q (Op.send i) = [] := rfl
      rw [hr, List.append_nil]
      obtain ⟨c, -, -, -, rfl⟩ := send_eq_some hs
      exact h.frame rfl rfl
  | abandon i =>
      have hr : report compared q (Op.abandon i) = [] := rfl
      rw [hr, List.append_nil]
      obtain ⟨c, -, -, -, rfl⟩ := abandon_eq_some hs
      exact h.frame rfl rfl
  | get =>
      rcases get_eq_some hs with ⟨hq, -, hq'⟩ | ⟨key, rest, entry, hq, hl, rfl⟩ |
        ⟨key, rest, hq, hl, rfl⟩
      · have hr : report compared q Op.get = [] := by
          simp only [report, hq]
        rw [hr, List.append_nil, hq']
        exact h
      · have hr : report compared q Op.get = [Event.got key entry.data] := by
          simp only [report, hq, hl]
        rw [hr]
        unfold HistoryOf
        by_cases hk' : key = k
        · -- the `Get` of `k`: its item moves to processing and a new window opens
          subst hk'
          have hw : q.waitingData key = some entry.data := by
            unfold waitingData
            rw [hl]
            rfl
          have hh : History keyFunc compared key (some entry.data) (q.processingData key)
              (window key log) := by
            rw [← hw]
            exact h
          rw [window_append_got]
          have hw' : (q.knownPrepareEntries.erase key).lookup key = none :=
            AList.lookup_erase key q.knownPrepareEntries
          have hp' : (q.processingEntries.insert key entry).lookup key = some entry :=
            AList.lookup_insert q.processingEntries
          unfold waitingData processingData
          rw [hw', hp']
          exact hh.got
        · rw [window_append_other k log _ (fun x he => by cases he; exact hk' rfl)]
          have hw' : (q.knownPrepareEntries.erase key).lookup k = q.knownPrepareEntries.lookup k :=
            AList.lookup_erase_ne (Ne.symm hk')
          have hp' : (q.processingEntries.insert key entry).lookup k =
              q.processingEntries.lookup k :=
            AList.lookup_insert_ne (Ne.symm hk')
          have hh : HistoryOf keyFunc compared k q log := h
          unfold HistoryOf waitingData processingData at hh
          unfold waitingData processingData
          rw [hw', hp']
          exact hh.append_other (fun y pr o he => by cases he)
      · have hr : report compared q Op.get = [] := by
          simp only [report, hq, hl]
        rw [hr, List.append_nil]
        exact h.frame rfl rfl
  | done i =>
      have hr : report compared q (Op.done i) = [] := rfl
      rw [hr, List.append_nil]
      obtain ⟨item, -, ⟨-, rfl⟩ | ⟨key, -, rfl⟩⟩ := done_eq_some hs
      · exact h.frame rfl rfl
      · have hw : q.waitingData k = q.waitingData k := rfl
        by_cases hk' : key = k
        · -- `Done` of the item processing for `k`
          subst hk'
          have hh : HistoryOf keyFunc compared key q log := h
          unfold HistoryOf at hh ⊢
          have hp' : (q.processingEntries.erase key).lookup key = none :=
            AList.lookup_erase key q.processingEntries
          unfold processingData
          rw [hp']
          exact hh.drop_processing
        · refine h.frame hw ?_
          unfold processingData
          rw [AList.lookup_erase_ne (Ne.symm hk')]
  | loop a =>
      have hr : report compared q (Op.loop a) = [] := rfl
      rw [hr, List.append_nil]
      obtain ⟨r, -, ⟨-, rfl⟩ | ⟨key, -, rfl⟩⟩ := loop_eq_some hs
      · exact h.frame rfl rfl
      · obtain ⟨hw, hp⟩ := push_entries { q with loop := r.loop, waitingForAddCh := r.channel } key
        exact h.frame_entries hw hp
  | shutDown =>
      have hr : report compared q Op.shutDown = [] := rfl
      rw [hr, List.append_nil]
      simp only [Indexer.step] at hs
      cases hs
      obtain ⟨hw, hp⟩ := shutDownOnce_entries q false
      exact h.frame_entries hw hp
  | shutDownWithDrain =>
      have hr : report compared q Op.shutDownWithDrain = [] := rfl
      rw [hr, List.append_nil]
      simp only [Indexer.step] at hs
      cases hs
      obtain ⟨hw, hp⟩ := shutDownOnce_entries q true
      exact h.frame_entries hw hp
  | tick d =>
      have hr : report compared q (Op.tick d) = [] := rfl
      rw [hr, List.append_nil]
      simp only [Indexer.step] at hs
      cases hs
      exact h.frame rfl rfl

/-- A step reports at most one `Get`, and it hands out the item waiting for its key. -/
theorem report_got {q : Indexer K α} {op : Op α} {j : Nat} {key : K} {x : α}
    (h : (report compared q op)[j]? = some (Event.got key x)) :
    j = 0 ∧ q.waitingData key = some x := by
  cases op
  case lock i =>
    simp only [report] at h
    split at h
    · split at h
      · cases j <;> simp at h
      · simp at h
    · simp at h
  case get =>
    simp only [report] at h
    split at h
    · split at h
      · rename_i entry hl
        cases j with
        | zero =>
            simp only [List.getElem?_cons_zero, Option.some.injEq, Event.got.injEq] at h
            obtain ⟨rfl, rfl⟩ := h
            refine ⟨rfl, ?_⟩
            unfold waitingData
            rw [hl]
            rfl
        | succ j => simp at h
      · simp at h
    · simp at h
  all_goals simp [report] at h

theorem GetsNewest.step (hk : TotalPreorderOn keyFunc compared k) {q : Indexer K α}
    {log : List (Event K α)} {op : Op α} (h : HistoryOf keyFunc compared k q log)
    (hg : GetsNewest compared k log) : GetsNewest compared k (log ++ report compared q op) := by
  intro i x hi
  by_cases hlt : i < log.length
  · rw [List.getElem?_append_left hlt] at hi
    rw [List.take_append_of_le_length (Nat.le_of_lt hlt)]
    exact hg i x hi
  · rw [List.getElem?_append_right (Nat.le_of_not_lt hlt)] at hi
    obtain ⟨hi0, hw⟩ := report_got hi
    have hil : i = log.length := by omega
    rw [hil, List.take_left]
    unfold HistoryOf at h
    rw [hw] at h
    exact h.newestIn hk

/-- Along every run from a new queue, the invariant, the history of `k` and the law of the
`Get`s of `k` hold. -/
theorem history_runLog (hk : TotalPreorderOn keyFunc compared k) {now : Int}
    {ls : List (Op α)} {q : Indexer K α} {log : List (Event K α)}
    (hrun : runLog (step keyFunc compared) (report compared) (new now) ls = some (q, log)) :
    Inv keyFunc q ∧ HistoryOf keyFunc compared k q log ∧ GetsNewest compared k log := by
  have hpres : Preserves (logStep (step keyFunc compared) (report compared)) (fun _ => True)
      (fun s => Inv keyFunc s.1 ∧ HistoryOf keyFunc compared k s.1 s.2 ∧
        GetsNewest compared k s.2) := by
    rintro ⟨q0, log0⟩ op ⟨q1, log1⟩ - ⟨hv, hh, hg⟩ hs
    obtain ⟨hstep, rfl⟩ := logStep_eq_some hs
    exact ⟨hv.step hstep, hh.step hk hv hstep, hg.step hk hh⟩
  have hinit : Inv keyFunc (new now : Indexer K α) ∧
      HistoryOf keyFunc compared k (new now) [] ∧ GetsNewest compared k [] :=
    ⟨inv_new keyFunc now, historyOf_new now, fun i x hi => by simp at hi⟩
  exact hpres.run (fun _ _ => trivial) hinit hrun

/-- Newest version wins: a `Get` that hands out `x` for `k` hands out an item stored since
the previous `Get` of `k`; every item that came in for `k` since then and was neither
ignored nor rejected is `LessOrEqual` to `x`; and an item stored while an item `p` was
processing for `k` is above `p`, and so is `x`. -/
theorem get_hands_out_newest (hk : TotalPreorderOn keyFunc compared k) {now : Int}
    {ls : List (Op α)} {q : Indexer K α} {pre post : List (Event K α)} {x : α}
    (hrun : runLog (step keyFunc compared) (report compared) (new now) ls =
      some (q, pre ++ Event.got k x :: post)) :
    (exists pr o, Event.locked k x pr o ∈ window k pre ∧ o.stores = true) ∧
      (forall y pr o, Event.locked k y pr o ∈ window k pre -> o ≠ LockOutcome.ignored ->
        o ≠ LockOutcome.rejected -> lessOrEqual compared y x = true) ∧
      (forall y p o, Event.locked k y (some p) o ∈ window k pre -> o.stores = true ->
        lessOrEqual compared p y = true ∧ lessOrEqual compared p x = true) := by
  obtain ⟨-, -, hg⟩ := history_runLog hk hrun
  have hi : (pre ++ Event.got k x :: post)[pre.length]? = some (Event.got k x) := by
    simp
  have hn := hg pre.length x hi
  rw [List.take_left] at hn
  obtain ⟨hstored, hnewest, hraised⟩ := hn
  refine ⟨hstored, ?_, hraised⟩
  intro y pr o hm hig hrej
  exact hnewest y pr o hm ((LockOutcome.passes_iff o).mpr ⟨hig, hrej⟩)

end Steps

/-- The items of the version test: a name, which is the key, and a resource version, which
`LessOrEqual` compares. -/
def versionKey (a : Nat × Nat) : Option Nat :=
  some a.1

def versionCompared (a : Nat × Nat) : Option (Nat × Nat -> Bool) :=
  some (fun b => decide (a.2 ≤ b.2))

theorem versionPreorder (k : Nat) : TotalPreorderOn versionKey versionCompared k := by
  constructor
  · intro a b _ _
    simp only [lessOrEqual, versionCompared, decide_eq_true_eq]
    omega
  · intro a b c _ _ _ hab hbc
    simp only [lessOrEqual, versionCompared, decide_eq_true_eq] at hab hbc ⊢
    omega

/-- The version test: version 111 is added and taken; while it processes it is added again
after a second; after its `Done` version 112 comes in and is taken. -/
def versionTrace : List (Op (Nat × Nat)) :=
  [Op.add (0, 111), Op.lock 0, Op.tick 1, Op.afterLock 0, Op.get, Op.addAfter (0, 111) 1,
    Op.lock 0, Op.afterLock 0, Op.done 0, Op.add (0, 112), Op.lock 1, Op.tick 1, Op.afterLock 1,
    Op.get]

theorem get_hands_out_newest_version :
    let pre := [Event.locked 0 (0, 111) none LockOutcome.inserted, Event.got 0 (0, 111),
      Event.locked 0 (0, 111) (some (0, 111)) LockOutcome.inserted,
      Event.locked 0 (0, 112) none LockOutcome.replaced]
    (exists pr o, Event.locked 0 (0, 112) pr o ∈ window 0 pre ∧ o.stores = true) ∧
      (forall y pr o, Event.locked 0 y pr o ∈ window 0 pre -> o ≠ LockOutcome.ignored ->
        o ≠ LockOutcome.rejected -> lessOrEqual versionCompared y (0, 112) = true) ∧
      (forall y p o, Event.locked 0 y (some p) o ∈ window 0 pre -> o.stores = true ->
        lessOrEqual versionCompared p y = true ∧
          lessOrEqual versionCompared p (0, 112) = true) := by
  obtain ⟨t, ht⟩ := runLog_of_map_snd
    (show (runLog (step versionKey versionCompared) (report versionCompared) (new 0)
      versionTrace).map Prod.snd =
        some ([Event.locked 0 (0, 111) none LockOutcome.inserted, Event.got 0 (0, 111),
          Event.locked 0 (0, 111) (some (0, 111)) LockOutcome.inserted,
          Event.locked 0 (0, 112) none LockOutcome.replaced] ++ [Event.got 0 (0, 112)])
      by decide +kernel)
  exact get_hands_out_newest (versionPreorder 0) ht

/-- An item that comes in while version 5 is processing and version 7 is waiting: version 3
is neither ignored nor rejected, but it is not above the processing version. -/
def keptTrace : List (Op (Nat × Nat)) :=
  [Op.add (0, 5), Op.lock 0, Op.tick 1, Op.afterLock 0, Op.get, Op.add (0, 7), Op.lock 0,
    Op.add (0, 3), Op.lock 1]

theorem kept_below_processing :
    (runLog (step versionKey versionCompared) (report versionCompared) (new 0)
      keptTrace).map Prod.snd =
        some [Event.locked 0 (0, 5) none LockOutcome.inserted, Event.got 0 (0, 5),
          Event.locked 0 (0, 7) (some (0, 5)) LockOutcome.inserted,
          Event.locked 0 (0, 3) (some (0, 5)) LockOutcome.kept] ∧
      lessOrEqual versionCompared (0, 5) (0, 3) = false := by
  decide +kernel

end Indexer

end Workqueue
end KubeTrigger
