import KubeTrigger.Foundation.Counters
import KubeTrigger.Workqueue.RateLimitingQueue

/-!
# Rate limiters

default_rate_limiters.go implements the `RateLimiter` interface five times: a token bucket
(`BucketRateLimiter`), per-item exponential backoff (`ItemExponentialFailureRateLimiter`),
per-item fast then slow retries (`ItemFastSlowRateLimiter`), the largest delay of several
limiters (`MaxOfRateLimiter`) and a cap on another limiter (`WithMaxWaitRateLimiter`).  A
value of the interface is a value of `RateLimiter` with the fields its methods read; a
`MaxOf` holds its limiters, so the type is nested.

The bucket's delay depends on real time and on the tokens taken before, so each `When` takes
it from the environment, the same for every bucket of the limiter.  Durations are
nanoseconds; the exponential backoff is `backoff` of the rate-limiting queue.

Whatever the limiter, what it answers for an item depends only on the number of `When` calls
for the item since it was last forgotten, and on the bucket (`when_after_calls`): the
per-item limiters count the calls in their `failures` maps, and the other two forward every
call to the limiters they hold.
-/

namespace KubeTrigger
namespace Workqueue

open Foundation

/-- A value of the `RateLimiter` interface. -/
inductive RateLimiter (t : Type)
  /-- `BucketRateLimiter` -/
  | bucket
  /-- `ItemExponentialFailureRateLimiter` -/
  | itemExponentialFailure (failures : Counts t) (baseDelay maxDelay : Int)
  /-- `ItemFastSlowRateLimiter` -/
  | itemFastSlow (failures : Counts t) (maxFastAttempts : Int) (fastDelay slowDelay : Int)
  /-- `MaxOfRateLimiter` -/
  | maxOf (limiters : List (RateLimiter t))
  /-- `WithMaxWaitRateLimiter` -/
  | withMaxWait (limiter : RateLimiter t) (maxDelay : Int)

namespace RateLimiter

variable {t : Type} [DecidableEq t]

/-- `NewItemExponentialFailureRateLimiter`. -/
def newItemExponentialFailureRateLimiter (baseDelay maxDelay : Int) : RateLimiter t :=
  itemExponentialFailure ∅ baseDelay maxDelay

/-- `DefaultItemBasedRateLimiter`: 1 ms doubling up to 1000 s. -/
def defaultItemBasedRateLimiter : RateLimiter t :=
  newItemExponentialFailureRateLimiter 1000000 (1000 * 1000000000)

/-- `NewItemFastSlowRateLimiter`. -/
def newItemFastSlowRateLimiter (fastDelay slowDelay maxFastAttempts : Int) : RateLimiter t :=
  itemFastSlow ∅ maxFastAttempts fastDelay slowDelay

/-- `NewMaxOfRateLimiter`. -/
def newMaxOfRateLimiter (limiters : List (RateLimiter t)) : RateLimiter t :=
  maxOf limiters

/-- `NewWithMaxWaitRateLimiter`. -/
def newWithMaxWaitRateLimiter (limiter : RateLimiter t) (maxDelay : Int) : RateLimiter t :=
  withMaxWait limiter maxDelay

/-- `DefaultControllerRateLimiter`: 5 ms doubling up to 1000 s per item, and a bucket of 10
qps and 100 tokens overall. -/
def defaultControllerRateLimiter : RateLimiter t :=
  newMaxOfRateLimiter
    [newItemExponentialFailureRateLimiter (5 * 1000000) (1000 * 1000000000), bucket]

mutual

/-- `When`, with the delay every bucket takes from the environment; the limiter after the
call. -/
def when : RateLimiter t -> Nat -> t -> Int × RateLimiter t
  | bucket, bucketDelay, _ => (bucketDelay, bucket)
  | itemExponentialFailure failures baseDelay maxDelay, _, item =>
      let exp := failures.get item
      (backoff baseDelay maxDelay exp,
        itemExponentialFailure (failures.incr item) baseDelay maxDelay)
  | itemFastSlow failures maxFastAttempts fastDelay slowDelay, _, item =>
      let failures := failures.incr item
      (if (failures.get item : Int) ≤ maxFastAttempts then fastDelay else slowDelay,
        itemFastSlow failures maxFastAttempts fastDelay slowDelay)
  | maxOf limiters, bucketDelay, item =>
      let r := whenAll limiters bucketDelay item 0
      (r.1, maxOf r.2)
  | withMaxWait limiter maxDelay, bucketDelay, item =>
      let r := limiter.when bucketDelay item
      (if r.1 > maxDelay then maxDelay else r.1, withMaxWait r.2 maxDelay)

/-- The loop of `MaxOfRateLimiter.When`, from the largest delay `ret` so far. -/
def whenAll : List (RateLimiter t) -> Nat -> t -> Int -> Int × List (RateLimiter t)
  | [], _, _, ret => (ret, [])
  | limiter :: rest, bucketDelay, item, ret =>
      let r := limiter.when bucketDelay item
      let s := whenAll rest bucketDelay item (if r.1 > ret then r.1 else ret)
      (s.1, r.2 :: s.2)

end

mutual

/-- `NumRequeues`. -/
def numRequeues : RateLimiter t -> t -> Int
  | bucket, _ => 0
  | itemExponentialFailure failures _ _, item => failures.get item
  | itemFastSlow failures _ _ _, item => failures.get item
  | maxOf limiters, item => numRequeuesAll limiters item 0
  | withMaxWait limiter _, item => limiter.numRequeues item

/-- The loop of `MaxOfRateLimiter.NumRequeues`, from the largest count `ret` so far. -/
def numRequeuesAll : List (RateLimiter t) -> t -> Int -> Int
  | [], _, ret => ret
  | limiter :: rest, item, ret =>
      let curr := limiter.numRequeues item
      numRequeuesAll rest item (if curr > ret then curr else ret)

end

mutual

/-- `Forget`. -/
def forget : RateLimiter t -> t -> RateLimiter t
  | bucket, _ => bucket
  | itemExponentialFailure failures baseDelay maxDelay, item =>
      itemExponentialFailure (failures.reset item) baseDelay maxDelay
  | itemFastSlow failures maxFastAttempts fastDelay slowDelay, item =>
      itemFastSlow (failures.reset item) maxFastAttempts fastDelay slowDelay
  | maxOf limiters, item => maxOf (forgetAll limiters item)
  | withMaxWait limiter maxDelay, item => withMaxWait (limiter.forget item) maxDelay

/-- The loop of `MaxOfRateLimiter.Forget`. -/
def forgetAll : List (RateLimiter t) -> t -> List (RateLimiter t)
  | [], _ => []
  | limiter :: rest, item => limiter.forget item :: forgetAll rest item

end

/-!
## What a limiter answers after `n` failures

The abstract side: the delay and the count a limiter answers for an item that failed `n`
times since it was last forgotten.  Only the limiter's parameters enter, not its maps.
-/

mutual

/-- The delay after `n` failures. -/
def delayAfter : RateLimiter t -> Nat -> Nat -> Int
  | bucket, _, bucketDelay => bucketDelay
  | itemExponentialFailure _ baseDelay maxDelay, n, _ => min (baseDelay * 2 ^ n) maxDelay
  | itemFastSlow _ maxFastAttempts fastDelay slowDelay, n, _ =>
      if (n : Int) < maxFastAttempts then fastDelay else slowDelay
  | maxOf limiters, n, bucketDelay => (delaysAfter limiters n bucketDelay).foldl max 0
  | withMaxWait limiter maxDelay, n, bucketDelay => min (limiter.delayAfter n bucketDelay) maxDelay

def delaysAfter : List (RateLimiter t) -> Nat -> Nat -> List Int
  | [], _, _ => []
  | limiter :: rest, n, bucketDelay => limiter.delayAfter n bucketDelay :: delaysAfter rest n bucketDelay

end

mutual

/-- The count after `n` failures. -/
def requeuesAfter : RateLimiter t -> Nat -> Int
  | bucket, _ => 0
  | itemExponentialFailure _ _ _, n => n
  | itemFastSlow _ _ _ _, n => n
  | maxOf limiters, n => (requeuesAfterAll limiters n).foldl max 0
  | withMaxWait limiter _, n => limiter.requeuesAfter n

def requeuesAfterAll : List (RateLimiter t) -> Nat -> List Int
  | [], _ => []
  | limiter :: rest, n => limiter.requeuesAfter n :: requeuesAfterAll rest n

end

mutual

/-- The failure maps of a limiter and of the limiters it holds. -/
def counts : RateLimiter t -> List (Counts t)
  | bucket => []
  | itemExponentialFailure failures _ _ => [failures]
  | itemFastSlow failures _ _ _ => [failures]
  | maxOf limiters => countsAll limiters
  | withMaxWait limiter _ => limiter.counts

def countsAll : List (RateLimiter t) -> List (Counts t)
  | [] => []
  | limiter :: rest => limiter.counts ++ countsAll rest

end

/-- A limiter as its constructors make it: no failure counted. -/
def Fresh (l : RateLimiter t) : Prop :=
  ∀ m ∈ l.counts, ∀ x, m.get x = 0

/-!
## Spec lemmas
-/

/-- `backoff` is the smaller of the doubled delay and the cap. -/
theorem backoff_eq_min (baseDelay maxDelay : Int) (exp : Nat) :
    backoff baseDelay maxDelay exp = min (baseDelay * 2 ^ exp) maxDelay := by
  unfold backoff
  split <;> omega

/-- The comparison the `MaxOf` loops make keeps the larger value. -/
theorem if_gt_eq_max (curr ret : Int) : (if curr > ret then curr else ret) = max ret curr := by
  split <;> omega

mutual

/-- `When` counts one more failure of the item in every map of the limiter. -/
theorem counts_when (bucketDelay : Nat) (item : t) :
    ∀ l : RateLimiter t, (l.when bucketDelay item).2.counts = l.counts.map (·.incr item)
  | bucket => rfl
  | itemExponentialFailure _ _ _ => rfl
  | itemFastSlow _ _ _ _ => rfl
  | maxOf limiters => countsAll_whenAll bucketDelay item limiters 0
  | withMaxWait limiter _ => counts_when bucketDelay item limiter

theorem countsAll_whenAll (bucketDelay : Nat) (item : t) :
    ∀ (ls : List (RateLimiter t)) (ret : Int),
      countsAll (whenAll ls bucketDelay item ret).2 = (countsAll ls).map (·.incr item)
  | [], _ => rfl
  | limiter :: rest, ret => by
      simp only [whenAll, countsAll, List.map_append]
      rw [counts_when bucketDelay item limiter, countsAll_whenAll bucketDelay item rest]

end

mutual

/-- `Forget` resets the item in every map of the limiter. -/
theorem counts_forget (item : t) :
    ∀ l : RateLimiter t, (l.forget item).counts = l.counts.map (·.reset item)
  | bucket => rfl
  | itemExponentialFailure _ _ _ => rfl
  | itemFastSlow _ _ _ _ => rfl
  | maxOf limiters => countsAll_forgetAll item limiters
  | withMaxWait limiter _ => counts_forget item limiter

theorem countsAll_forgetAll (item : t) :
    ∀ ls : List (RateLimiter t), countsAll (forgetAll ls item) = (countsAll ls).map (·.reset item)
  | [] => rfl
  | limiter :: rest => by
      simp only [forgetAll, countsAll, List.map_append]
      rw [counts_forget item limiter, countsAll_forgetAll item rest]

end

mutual

/-- `When` keeps the parameters, so what the limiter answers after `n` failures. -/
theorem delayAfter_when (bucketDelay : Nat) (item : t) :
    ∀ l : RateLimiter t, (l.when bucketDelay item).2.delayAfter = l.delayAfter ∧
      (l.when bucketDelay item).2.requeuesAfter = l.requeuesAfter
  | bucket => ⟨rfl, rfl⟩
  | itemExponentialFailure _ _ _ => ⟨rfl, rfl⟩
  | itemFastSlow _ _ _ _ => ⟨rfl, rfl⟩
  | maxOf limiters => by
      obtain ⟨hd, hr⟩ := delaysAfter_whenAll bucketDelay item limiters 0
      constructor
      · funext n b
        simp only [when, delayAfter, hd]
      · funext n
        simp only [when, requeuesAfter, hr]
  | withMaxWait limiter _ => by
      obtain ⟨hd, hr⟩ := delayAfter_when bucketDelay item limiter
      constructor
      · funext n b
        simp only [when, delayAfter, hd]
      · funext n
        simp only [when, requeuesAfter, hr]

theorem delaysAfter_whenAll (bucketDelay : Nat) (item : t) :
    ∀ (ls : List (RateLimiter t)) (ret : Int),
      delaysAfter (whenAll ls bucketDelay item ret).2 = delaysAfter ls ∧
        requeuesAfterAll (whenAll ls bucketDelay item ret).2 = requeuesAfterAll ls
  | [], _ => ⟨rfl, rfl⟩
  | limiter :: rest, ret => by
      obtain ⟨hd, hr⟩ := delayAfter_when bucketDelay item limiter
      obtain ⟨hds, hrs⟩ := delaysAfter_whenAll bucketDelay item rest
        (if (limiter.when bucketDelay item).1 > ret then (limiter.when bucketDelay item).1 else ret)
      constructor
      · funext n b
        simp only [whenAll, delaysAfter, hd, hds]
      · funext n
        simp only [whenAll, requeuesAfterAll, hr, hrs]

end

mutual

/-- `Forget` keeps the parameters. -/
theorem delayAfter_forget (item : t) :
    ∀ l : RateLimiter t, (l.forget item).delayAfter = l.delayAfter ∧
      (l.forget item).requeuesAfter = l.requeuesAfter
  | bucket => ⟨rfl, rfl⟩
  | itemExponentialFailure _ _ _ => ⟨rfl, rfl⟩
  | itemFastSlow _ _ _ _ => ⟨rfl, rfl⟩
  | maxOf limiters => by
      obtain ⟨hd, hr⟩ := delaysAfter_forgetAll item limiters
      constructor
      · funext n b
        simp only [forget, delayAfter, hd]
      · funext n
        simp only [forget, requeuesAfter, hr]
  | withMaxWait limiter _ => by
      obtain ⟨hd, hr⟩ := delayAfter_forget item limiter
      constructor
      · funext n b
        simp only [forget, delayAfter, hd]
      · funext n
        simp only [forget, requeuesAfter, hr]

theorem delaysAfter_forgetAll (item : t) :
    ∀ ls : List (RateLimiter t), delaysAfter (forgetAll ls item) = delaysAfter ls ∧
      requeuesAfterAll (forgetAll ls item) = requeuesAfterAll ls
  | [] => ⟨rfl, rfl⟩
  | limiter :: rest => by
      obtain ⟨hd, hr⟩ := delayAfter_forget item limiter
      obtain ⟨hds, hrs⟩ := delaysAfter_forgetAll item rest
      constructor
      · funext n b
        simp only [forgetAll, delaysAfter, hd, hds]
      · funext n
        simp only [forgetAll, requeuesAfterAll, hr, hrs]

end

/-!
## The answers read off the counts

A limiter whose maps all count `n` failures of an item answers what `delayAfter` and
`requeuesAfter` say for `n`.  The `MaxOf` loops compute the largest answer, from zero.
-/

section Answers

variable {n : Nat} {item : t}

mutual

theorem when_fst (bucketDelay : Nat) :
    ∀ l : RateLimiter t, (∀ m ∈ l.counts, m.get item = n) ->
      (l.when bucketDelay item).1 = l.delayAfter n bucketDelay
  | bucket, _ => rfl
  | itemExponentialFailure failures baseDelay maxDelay, h => by
      have hn : failures.get item = n := h failures (List.mem_singleton_self _)
      simp only [when, delayAfter, hn, backoff_eq_min]
  | itemFastSlow failures maxFastAttempts fastDelay slowDelay, h => by
      -- the map counts this failure before the comparison
      have hn : failures.get item = n := h failures (List.mem_singleton_self _)
      have hiff : ((n + 1 : Nat) : Int) ≤ maxFastAttempts ↔ (n : Int) < maxFastAttempts := by
        omega
      simp only [when, delayAfter, Counts.get_incr, if_true, hn]
      exact if_congr hiff rfl rfl
  | maxOf limiters, h => whenAll_fst bucketDelay limiters 0 h
  | withMaxWait limiter maxDelay, h => by
      have hd := when_fst bucketDelay limiter h
      simp only [when, delayAfter, hd]
      split <;> omega

theorem whenAll_fst (bucketDelay : Nat) :
    ∀ (ls : List (RateLimiter t)) (ret : Int), (∀ m ∈ countsAll ls, m.get item = n) ->
      (whenAll ls bucketDelay item ret).1 = (delaysAfter ls n bucketDelay).foldl max ret
  | [], _, _ => rfl
  | limiter :: rest, ret, h => by
      have hd := when_fst bucketDelay limiter
        (fun m hm => h m (List.mem_append_left _ hm))
      have hrest := whenAll_fst bucketDelay rest
        (if (limiter.when bucketDelay item).1 > ret then (limiter.when bucketDelay item).1 else ret)
        (fun m hm => h m (List.mem_append_right _ hm))
      simp only [whenAll, delaysAfter, List.foldl_cons]
      rw [hrest, if_gt_eq_max, hd]

end

mutual

theorem numRequeues_eq :
    ∀ l : RateLimiter t, (∀ m ∈ l.counts, m.get item = n) -> l.numRequeues item = l.requeuesAfter n
  | bucket, _ => rfl
  | itemExponentialFailure failures _ _, h => by
      simp only [numRequeues, requeuesAfter, h failures (List.mem_singleton_self _)]
  | itemFastSlow failures _ _ _, h => by
      simp only [numRequeues, requeuesAfter, h failures (List.mem_singleton_self _)]
  | maxOf limiters, h => numRequeuesAll_eq limiters 0 h
  | withMaxWait limiter _, h => numRequeues_eq limiter h

theorem numRequeuesAll_eq :
    ∀ (ls : List (RateLimiter t)) (ret : Int), (∀ m ∈ countsAll ls, m.get item = n) ->
      numRequeuesAll ls item ret = (requeuesAfterAll ls n).foldl max ret
  | [], _, _ => rfl
  | limiter :: rest, ret, h => by
      have hc := numRequeues_eq limiter (fun m hm => h m (List.mem_append_left _ hm))
      have hrest := numRequeuesAll_eq rest
        (if limiter.numRequeues item > ret then limiter.numRequeues item else ret)
        (fun m hm => h m (List.mem_append_right _ hm))
      simp only [numRequeuesAll, requeuesAfterAll, List.foldl_cons]
      rw [hrest, if_gt_eq_max, hc]

end

end Answers

omit [DecidableEq t] in
theorem mem_countsAll {m : Counts t} :
    ∀ {ls : List (RateLimiter t)}, m ∈ countsAll ls -> ∃ l ∈ ls, m ∈ l.counts
  | [], hm => by
      simp [countsAll] at hm
  | limiter :: rest, hm => by
      simp only [countsAll, List.mem_append] at hm
      rcases hm with hm | hm
      · exact ⟨limiter, List.mem_cons_self .., hm⟩
      · obtain ⟨l, hl, hml⟩ := mem_countsAll hm
        exact ⟨l, List.mem_cons_of_mem _ hl, hml⟩

/-!
## Fresh limiters

The constructors make limiters that counted nothing.
-/

theorem fresh_bucket : (bucket : RateLimiter t).Fresh := by
  simp [Fresh, counts]

theorem fresh_newItemExponentialFailureRateLimiter (baseDelay maxDelay : Int) :
    (newItemExponentialFailureRateLimiter baseDelay maxDelay : RateLimiter t).Fresh := by
  simp [Fresh, counts, newItemExponentialFailureRateLimiter]

theorem fresh_newItemFastSlowRateLimiter (fastDelay slowDelay maxFastAttempts : Int) :
    (newItemFastSlowRateLimiter fastDelay slowDelay maxFastAttempts : RateLimiter t).Fresh := by
  simp [Fresh, counts, newItemFastSlowRateLimiter]

theorem fresh_newMaxOfRateLimiter {ls : List (RateLimiter t)} (h : ∀ l ∈ ls, l.Fresh) :
    (newMaxOfRateLimiter ls).Fresh := by
  intro m hm x
  obtain ⟨l, hl, hml⟩ := mem_countsAll hm
  exact h l hl m hml x

theorem fresh_newWithMaxWaitRateLimiter {l : RateLimiter t} (h : l.Fresh) (maxDelay : Int) :
    (newWithMaxWaitRateLimiter l maxDelay).Fresh :=
  h

theorem fresh_defaultControllerRateLimiter : (defaultControllerRateLimiter : RateLimiter t).Fresh := by
  apply fresh_newMaxOfRateLimiter
  intro l hl
  simp only [List.mem_cons, List.not_mem_nil, or_false] at hl
  rcases hl with rfl | rfl
  · exact fresh_newItemExponentialFailureRateLimiter _ _
  · exact fresh_bucket

/-!
## Histories of calls
-/

/-- A call that changes a limiter. -/
inductive Call (t : Type)
  /-- `When(item)`, the bucket asking for `bucketDelay` -/
  | when (item : t) (bucketDelay : Nat)
  /-- `Forget(item)` -/
  | forget (item : t)

/-- What a call does to the failure counts. -/
def Call.touch : Call t -> Touch t
  | Call.when item _ => Touch.incr item
  | Call.forget item => Touch.reset item

/-- The limiter after a call. -/
def call (l : RateLimiter t) : Call t -> RateLimiter t
  | Call.when item bucketDelay => (l.when bucketDelay item).2
  | Call.forget item => l.forget item

/-- The limiter after the calls `h`, in order. -/
def calls (l : RateLimiter t) (h : List (Call t)) : RateLimiter t :=
  h.foldl call l

/-- One call: the maps count the call's touch on top of the history before it, and the
parameters stay. -/
theorem call_counts {l : RateLimiter t} {hs : List (Touch t)}
    (hf : ∀ m ∈ l.counts, ∀ x, m.get x = sinceReset hs x) (c : Call t) :
    (∀ m ∈ (l.call c).counts, ∀ x, m.get x = sinceReset (hs ++ [c.touch]) x) ∧
      (l.call c).delayAfter = l.delayAfter ∧ (l.call c).requeuesAfter = l.requeuesAfter := by
  cases c with
  | when item bucketDelay =>
      refine ⟨?_, delayAfter_when bucketDelay item l⟩
      intro m hm x
      rw [call, counts_when, List.mem_map] at hm
      obtain ⟨m0, hm0, rfl⟩ := hm
      rw [Counts.get_incr, hf m0 hm0 x, Call.touch, sinceReset_incr]
  | forget item =>
      refine ⟨?_, delayAfter_forget item l⟩
      intro m hm x
      rw [call, counts_forget, List.mem_map] at hm
      obtain ⟨m0, hm0, rfl⟩ := hm
      rw [Counts.get_reset, hf m0 hm0 x, Call.touch, sinceReset_reset]

/-- After any calls, every map of a fresh limiter counts, for each item, the `When` calls
since its last `Forget`; the parameters stay those it was made with. -/
theorem calls_counts {l : RateLimiter t} (hl : l.Fresh) (h : List (Call t)) :
    (∀ m ∈ (l.calls h).counts, ∀ x, m.get x = sinceReset (h.map Call.touch) x) ∧
      (l.calls h).delayAfter = l.delayAfter ∧ (l.calls h).requeuesAfter = l.requeuesAfter := by
  induction h using List.reverseRecOn with
  | nil =>
      exact ⟨fun m hm x => by rw [hl m hm x, List.map_nil, sinceReset_nil], rfl, rfl⟩
  | append_singleton h c ih =>
      obtain ⟨hc, hd, hr⟩ := ih
      obtain ⟨hc', hd', hr'⟩ := call_counts hc c
      have hstep : l.calls (h ++ [c]) = (l.calls h).call c := by
        simp only [calls, List.foldl_append, List.foldl_cons, List.foldl_nil]
      rw [hstep, List.map_append, List.map_singleton]
      exact ⟨hc', hd'.trans hd, hr'.trans hr⟩

/-- What a limiter made by its constructors answers for an item, after any calls, depends
only on the `When` calls for that item since its last `Forget`, and on the bucket. -/
theorem when_after_calls {l : RateLimiter t} (hl : l.Fresh) (h : List (Call t))
    (bucketDelay : Nat) (item : t) :
    ((l.calls h).when bucketDelay item).1 =
        l.delayAfter (sinceReset (h.map Call.touch) item) bucketDelay ∧
      (l.calls h).numRequeues item = l.requeuesAfter (sinceReset (h.map Call.touch) item) := by
  obtain ⟨hc, hd, hr⟩ := calls_counts hl h
  constructor
  · rw [when_fst bucketDelay (l.calls h) (fun m hm => hc m hm item), hd]
  · rw [numRequeues_eq (l.calls h) (fun m hm => hc m hm item), hr]

/-!
## The limiters the program builds
-/

/-- `ItemFastSlowRateLimiter` answers `fastDelay` to the first `maxFastAttempts` failures of
an item since its last `Forget`, and `slowDelay` to the later ones. -/
theorem itemFastSlow_after_calls (fastDelay slowDelay maxFastAttempts : Int) (h : List (Call t))
    (bucketDelay : Nat) (item : t) :
    (((newItemFastSlowRateLimiter fastDelay slowDelay maxFastAttempts).calls h).when
        bucketDelay item).1 =
      if (sinceReset (h.map Call.touch) item : Int) < maxFastAttempts then fastDelay
      else slowDelay :=
  (when_after_calls (fresh_newItemFastSlowRateLimiter _ _ _) h bucketDelay item).1

omit [DecidableEq t] in
/-- The doubled 5 ms of `DefaultControllerRateLimiter` is positive, so the `MaxOf` loop's
start at zero does not show. -/
theorem delayAfter_defaultControllerRateLimiter (n bucketDelay : Nat) :
    (defaultControllerRateLimiter : RateLimiter t).delayAfter n bucketDelay =
        max (min (5 * 1000000 * 2 ^ n) (1000 * 1000000000)) (bucketDelay : Int) ∧
      (defaultControllerRateLimiter : RateLimiter t).requeuesAfter n = n := by
  have hpow : (0 : Int) < 2 ^ n := Int.pow_pos (by decide)
  simp only [defaultControllerRateLimiter, newMaxOfRateLimiter,
    newItemExponentialFailureRateLimiter, delayAfter, delaysAfter, requeuesAfter,
    requeuesAfterAll, List.foldl_cons, List.foldl_nil]
  constructor <;> omega

/-- The controllers' queue waits `min(5 ms * 2 ^ n, 1000 s)` for an item that failed `n`
times since its last `Forget`, or the bucket's delay if that is longer, and counts `n`
requeues. -/
theorem defaultControllerRateLimiter_after_calls (h : List (Call t)) (bucketDelay : Nat)
    (item : t) :
    let l := (defaultControllerRateLimiter : RateLimiter t).calls h
    let n := sinceReset (h.map Call.touch) item
    (l.when bucketDelay item).1 =
        max (min (5 * 1000000 * 2 ^ n) (1000 * 1000000000)) (bucketDelay : Int) ∧
      l.numRequeues item = n := by
  intro l n
  obtain ⟨hd, hr⟩ := when_after_calls fresh_defaultControllerRateLimiter h bucketDelay item
  obtain ⟨hd', hr'⟩ := delayAfter_defaultControllerRateLimiter (t := t) n bucketDelay
  exact ⟨hd.trans hd', hr.trans hr'⟩

/-- Two failures of item 1, its `Forget`, a failure of item 2 and one more of item 1. -/
def retryCalls : List (Call Nat) :=
  [Call.when 1 0, Call.when 1 0, Call.forget 1, Call.when 2 0, Call.when 1 3]

/-- After `retryCalls` item 1 has failed once since its `Forget`: 10 ms. -/
example : ((defaultControllerRateLimiter.calls retryCalls).when 0 1).1 = 10000000 := by
  decide

end RateLimiter

/-!
## The executor's limiter

The rate-limiting queue of the executor keeps only the exponential limiter's failure map and
asks the bucket for its delay: it is the `MaxOf` of an `ItemExponentialFailureRateLimiter`
and a `BucketRateLimiter`.
-/

namespace RateLimitingQueue

variable {t : Type} [DecidableEq t]

/-- The limiter the queue's methods are those of. -/
def limiter (q : RateLimitingQueue t) (baseDelay maxDelay : Int) : RateLimiter t :=
  RateLimiter.maxOf [RateLimiter.itemExponentialFailure q.failures baseDelay maxDelay,
    RateLimiter.bucket]

/-- The queue's `when`, `numRequeues` and `forget` are `When`, `NumRequeues` and `Forget` of
its limiter. -/
theorem limiter_refines (q : RateLimitingQueue t) (baseDelay maxDelay : Int) (bucketDelay : Nat)
    (item : t) :
    (q.when baseDelay maxDelay bucketDelay item).1 =
        ((q.limiter baseDelay maxDelay).when bucketDelay item).1 ∧
      ((q.limiter baseDelay maxDelay).when bucketDelay item).2 =
        (q.when baseDelay maxDelay bucketDelay item).2.limiter baseDelay maxDelay ∧
      (q.numRequeues item : Int) = (q.limiter baseDelay maxDelay).numRequeues item ∧
      (q.forget item).limiter baseDelay maxDelay = (q.limiter baseDelay maxDelay).forget item := by
  -- the limiter's only map is the queue's
  have hcounts : ∀ m ∈ (q.limiter baseDelay maxDelay).counts, m.get item = Counts.get q.failures item := by
    simp [limiter, RateLimiter.counts, RateLimiter.countsAll]
  refine ⟨?_, rfl, ?_, rfl⟩
  · -- the loop starts at zero, below the bucket's delay
    rw [RateLimiter.when_fst bucketDelay _ hcounts]
    simp only [when, numRequeues, limiter, RateLimiter.delayAfter, RateLimiter.delaysAfter,
      List.foldl_cons, List.foldl_nil, RateLimiter.backoff_eq_min, Counts.get]
    omega
  · rw [RateLimiter.numRequeues_eq _ hcounts]
    simp only [numRequeues, limiter, RateLimiter.requeuesAfter, RateLimiter.requeuesAfterAll,
      List.foldl_cons, List.foldl_nil, Counts.get]
    omega

end RateLimitingQueue

end Workqueue
end KubeTrigger
