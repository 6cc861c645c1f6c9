import Mathlib.Data.List.Chain

/-!
# Marks along a history

Some events of a history set a flag, some clear it, and the others leave it alone:
`f : E -> Option Bool` is the value an event writes, if it writes one.  `lastMark f start log`
is the flag after the history, with `start` before the first event.  `Alternates f start log`
says that no event sets the flag while it is set: between two events that set it there is
one that clears it, and with `start = true` the first event that sets it comes after one
that clears it.

A run invariant that ties a piece of state to `lastMark` of the run's log, and keeps
`Alternates` along the run, gives both kinds of statement about the log: what the state says
about the events since the last mark, and what lies between two marks.
-/

namespace KubeTrigger
namespace Foundation

variable {E : Type} (f : E -> Option Bool)

/-- The flag after the history. -/
def lastMark (start : Bool) (log : List E) : Bool :=
  (log.filterMap f).getLastD start

/-- No event sets the flag while it is set. -/
def Alternates (start : Bool) (log : List E) : Prop :=
  List.IsChain (fun a b => a = true -> b = false) (start :: log.filterMap f)

variable {f} {start : Bool} {log : List E}

@[simp] theorem lastMark_nil : lastMark f start [] = start := rfl

theorem lastMark_append_singleton (log : List E) (e : E) :
    lastMark f start (log ++ [e]) = (f e).getD (lastMark f start log) := by
  unfold lastMark
  rw [List.filterMap_append]
  cases hf : f e with
  | none => simp [hf]
  | some v => simp [hf]

/-- Events that write no mark leave the flag as it was. -/
theorem lastMark_append_of_none {r : List E} (hr : forall e, e ∈ r -> f e = none) :
    lastMark f start (log ++ r) = lastMark f start log := by
  unfold lastMark
  rw [List.filterMap_append, List.filterMap_eq_nil_iff.mpr hr, List.append_nil]

/-- After an event that writes `v`, and no later event that writes the other value, the
flag is `v`. -/
theorem lastMark_of_suffix {pre post : List E} {a : E} {v : Bool} (ha : f a = some v)
    (hpost : forall c, c ∈ post -> f c ≠ some (!v)) :
    lastMark f start (pre ++ a :: post) = v := by
  -- every mark after `a` is `v` again
  have hmarks : forall b, b ∈ post.filterMap f -> b = v := by
    intro b hb
    obtain ⟨c, hc, hcb⟩ := List.mem_filterMap.mp hb
    cases b <;> cases v <;> simp_all
  have hlast : forall (l : List Bool), (forall b, b ∈ l -> b = v) -> l.getLastD v = v := by
    intro l
    induction l with
    | nil => intro _; rfl
    | cons b l ih =>
        intro hl
        rw [List.getLastD_cons, hl b List.mem_cons_self]
        exact ih (fun b' hb' => hl b' (List.mem_cons_of_mem b hb'))
  unfold lastMark
  rw [List.filterMap_append, List.filterMap_cons_some ha]
  simp only [List.getLastD_eq_getLast?, List.getLast?_append, List.getLast?_cons,
    Option.some_or, Option.getD_some]
  rw [← List.getLastD_eq_getLast?]
  exact hlast _ hmarks

theorem alternates_nil : Alternates f start [] :=
  List.isChain_singleton start

/-- One more event keeps the flag alternating, unless it sets the flag while it is set. -/
theorem Alternates.append_singleton (h : Alternates f start log) {e : E}
    (he : f e = some true -> lastMark f start log = false) :
    Alternates f start (log ++ [e]) := by
  unfold Alternates
  rw [List.filterMap_append]
  cases hf : f e with
  | none =>
      rw [List.filterMap_cons_none hf, List.filterMap_nil, List.append_nil]
      exact h
  | some v =>
      rw [List.filterMap_cons_some hf, List.filterMap_nil, ← List.cons_append]
      refine List.isChain_append.mpr ⟨h, List.isChain_singleton v, ?_⟩
      intro a ha b hb hat
      rw [List.head?_cons, Option.mem_some_iff] at hb
      rw [List.getLast?_cons, Option.mem_some_iff] at ha
      -- `a` is the flag before the event, which `he` says is clear when the event sets it
      have hlast : lastMark f start log = a := by
        rw [← ha]
        simp [lastMark]
      cases v
      · exact hb.symm
      · rw [← hlast, he (by rw [hf])] at hat
        cases hat

theorem Alternates.append_of_ne (h : Alternates f start log) {e : E}
    (he : f e ≠ some true) : Alternates f start (log ++ [e]) :=
  h.append_singleton (fun h' => absurd h' he)

/-- In a chain of flags that are never set twice in a row, a clear lies between two sets. -/
theorem false_mem_of_isChain {l m r : List Bool}
    (h : List.IsChain (fun a b => a = true -> b = false) (l ++ true :: (m ++ true :: r))) :
    false ∈ m := by
  have hinf : List.IsChain (fun a b => a = true -> b = false) (true :: (m ++ true :: r)) :=
    (List.isChain_split.mp h).2
  cases m with
  | nil =>
      have htt := (List.isChain_cons_cons.mp hinf).1 rfl
      cases htt
  | cons b m =>
      have hb := (List.isChain_cons_cons.mp hinf).1 rfl
      rw [hb]
      exact List.mem_cons_self

/-- Between two events that set the flag there is one that clears it. -/
theorem Alternates.clears_between {pre mid post : List E} {a b : E}
    (h : Alternates f start (pre ++ a :: mid ++ b :: post)) (ha : f a = some true)
    (hb : f b = some true) : exists c, c ∈ mid ∧ f c = some false := by
  unfold Alternates at h
  simp only [List.append_assoc, List.cons_append, List.filterMap_append,
    List.filterMap_cons_some ha, List.filterMap_cons_some hb] at h
  rw [← List.cons_append] at h
  exact List.mem_filterMap.mp (false_mem_of_isChain h)

/-- With the flag set at the start, the first event that sets it comes after one that
clears it. -/
theorem Alternates.clears_before {pre post : List E} {a : E}
    (h : Alternates f true (pre ++ a :: post)) (ha : f a = some true) :
    exists c, c ∈ pre ∧ f c = some false := by
  unfold Alternates at h
  rw [List.filterMap_append, List.filterMap_cons_some ha, ← List.nil_append (true :: _)] at h
  exact List.mem_filterMap.mp (false_mem_of_isChain h)

/-!
## Counting marks
-/

/-- Along a chain of flags that are never set twice in a row, the flag is set at most once
more often than it is cleared, counting a set start as a set. -/
theorem count_true_le_of_isChain {s : Bool} {l : List Bool}
    (h : List.IsChain (fun a b => a = true -> b = false) (s :: l)) :
    l.count true + s.toNat ≤ l.count false + 1 := by
  induction l generalizing s with
  | nil => cases s <;> simp
  | cons b l ih =>
      obtain ⟨hsb, hl⟩ := List.isChain_cons_cons.mp h
      have hc := ih hl
      cases b with
      | true =>
          -- a set right after the start needs a clear start
          cases s with
          | true => cases hsb rfl
          | false => simp_all
      | false =>
          cases s <;> simp at hc ⊢ <;> omega

theorem Alternates.count_le (h : Alternates f start log) :
    (log.filterMap f).count true + start.toNat ≤ (log.filterMap f).count false + 1 :=
  count_true_le_of_isChain h

/-- The marks `b` of a history are the events `c` when `c` is the one event writing `b`. -/
theorem count_filterMap_of_iff [DecidableEq E] {b : Bool} {c : E}
    (hf : forall e, f e = some b ↔ e = c) (log : List E) :
    (log.filterMap f).count b = log.count c := by
  rw [List.count_filterMap, List.count_eq_countP]
  apply List.countP_congr
  intro e _
  simp [hf]

end Foundation
end KubeTrigger
