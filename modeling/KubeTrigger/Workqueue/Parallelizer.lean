import KubeTrigger.Foundation.Run
import KubeTrigger.Foundation.Chunks
import Mathlib.Algebra.Group.Int.Defs
import Mathlib.Algebra.GroupWithZero.Nat

/-!
# ParallelizeUntil

`ParallelizeUntil` (parallelizer.go) splits `pieces` pieces of work into chunks of
`chunkSize` (the last `WithChunkSize` option, at least 1), puts the numbers of the chunks
into a buffered channel, closes it, and starts `min(workers, chunks)` goroutines.  Each
goroutine receives chunk after chunk until the channel is drained, and calls `doWorkPiece`
for each piece of its chunk unless `stop` is closed, in which case it returns at once.
`wg.Wait` returns when every goroutine has returned.

Go's `int` has 64 bits: `ceilDiv` and the bounds of a chunk wrap around.  `make` panics
for a negative buffer size and `wg.Add` for a negative count; a buffer too large for the
memory is not modelled.  `stop` is the context's `Done` channel, or `nil` without a
context; it is never ready unless some cancellation closes it, which `cancellable` says.

A receive, a check of `stop` together with the call of `doWorkPiece` it leads to, and the
cancellation are the atomic steps; which goroutine takes the next step is the interleaving.
-/

namespace KubeTrigger
namespace Workqueue
namespace Parallelizer

open Foundation

/-- The value a Go `int` operation wraps to. -/
def wrap (x : Int) : Int :=
  Int.bmod x (2 ^ 64)

/-- `chunkSize`: `WithChunkSize` applied in order to the zero `options`, raised to 1. -/
def chunkSizeOf (opts : List Int) : Int :=
  let chunkSize := opts.foldl (fun _ c => c) 0
  if chunkSize < 1 then 1 else chunkSize

/-- `ceilDiv`; Go's `/` truncates, and the sum and the difference wrap as one. -/
def ceilDiv (a b : Int) : Int :=
  Int.tdiv (wrap (a + b - 1)) b

/-- Where a goroutine of `ParallelizeUntil` is. -/
inductive WorkerPc
  /-- at `for chunk := range toProcess` -/
  | receiving
  /-- in the loop over the pieces of its chunk, at piece `p` of those below `end_` -/
  | working (p end_ : Int)
  /-- returned, and called `wg.Done` -/
  | exited
deriving DecidableEq

/-- The state of a call once its goroutines run: its arguments, the chunks left in
`toProcess`, the goroutines, and whether `stop` is closed. -/
structure State where
  pieces : Int
  chunkSize : Int
  cancellable : Bool
  toProcess : List Int
  workers : List WorkerPc
  stopped : Bool

/-- How a call of `ParallelizeUntil` goes on: it returns at once, it panics, or its
goroutines run. -/
inductive Outcome
  | returned
  | panicked (message : String)
  | running (s : State)

/-- `ParallelizeUntil` up to `wg.Wait`. -/
def parallelizeUntil (cancellable : Bool) (workers pieces : Int) (opts : List Int) : Outcome :=
  if pieces = 0 then Outcome.returned
  else
    let chunkSize := chunkSizeOf opts
    let chunks := ceilDiv pieces chunkSize
    if chunks < 0 then Outcome.panicked "makechan: size out of range"
    else
      let workers := if chunks < workers then chunks else workers
      if workers < 0 then Outcome.panicked "sync: negative WaitGroup counter"
      else
        Outcome.running
          { pieces := pieces, chunkSize := chunkSize, cancellable := cancellable,
            toProcess := (List.range chunks.toNat).map (fun i : Nat => (i : Int)),
            workers := List.replicate workers.toNat WorkerPc.receiving, stopped := false }

namespace State

/-- The first piece of a chunk and the end of its pieces: `start := chunk * chunkSize`,
`end := start + chunkSize`, cut at `pieces`. -/
def chunkBounds (s : State) (chunk : Int) : Int × Int :=
  let start := wrap (chunk * s.chunkSize)
  let end_ := wrap (start + s.chunkSize)
  (start, if end_ > s.pieces then s.pieces else end_)

/-- Move goroutine `w` to `pc`. -/
def setWorker (s : State) (w : Nat) (pc : WorkerPc) : State :=
  { s with workers := s.workers.set w pc }

/-- `wg.Wait` returns: every goroutine has returned. -/
def finished (s : State) : Bool :=
  s.workers.all (fun pc => pc == WorkerPc.exited)

end State

/-- The steps of the goroutines, and the cancellation. -/
inductive Op
  /-- goroutine `w` receives the next chunk, or finds the channel drained and returns -/
  | recv (w : Nat)
  /-- goroutine `w` checks the loop's condition and `stop`, and calls `doWorkPiece` -/
  | work (w : Nat)
  /-- the context is cancelled and `stop` closes -/
  | cancel

/-- One step; `none` when it is not enabled. -/
def step (s : State) : Op -> Option State
  | Op.recv w =>
      match s.workers[w]? with
      | some WorkerPc.receiving =>
          match s.toProcess with
          | [] => some (s.setWorker w WorkerPc.exited)
          | chunk :: rest =>
              some { s.setWorker w (WorkerPc.working (s.chunkBounds chunk).1
                (s.chunkBounds chunk).2) with toProcess := rest }
      | _ => none
  | Op.work w =>
      match s.workers[w]? with
      | some (WorkerPc.working p end_) =>
          if p < end_ then
            -- `select` takes the closed `stop` over `default`
            if s.stopped then some (s.setWorker w WorkerPc.exited)
            else some (s.setWorker w (WorkerPc.working (wrap (p + 1)) end_))
          else some (s.setWorker w WorkerPc.receiving)
      | _ => none
  | Op.cancel => if s.cancellable && !s.stopped then some { s with stopped := true } else none

/-- The piece whose `doWorkPiece` a step calls. -/
def report (s : State) : Op -> List Int
  | Op.work w =>
      match s.workers[w]? with
      | some (WorkerPc.working p end_) => if p < end_ && !s.stopped then [p] else []
      | _ => []
  | _ => []

/-!
## Spec lemmas
-/

theorem half_two_pow_64 : ((2 ^ 64 : Nat) : Int) / 2 = 2 ^ 63 := by
  rfl

theorem le_wrap (x : Int) : -2 ^ 63 ≤ wrap x := by
  have h := Int.le_bmod (x := x) (m := 2 ^ 64) (Nat.two_pow_pos 64)
  rw [half_two_pow_64] at h
  exact h

theorem wrap_of_le {x : Int} (h1 : -2 ^ 63 ≤ x) (h2 : x < 2 ^ 63) : wrap x = x := by
  have hhalf : (((2 ^ 64 : Nat) : Int) + 1) / 2 = 2 ^ 63 := by
    rfl
  unfold wrap
  apply Int.bmod_eq_of_le
  · rw [half_two_pow_64]
    exact h1
  · rw [hhalf]
    exact h2

theorem wrap_sub_two_pow_64 (x : Int) : wrap (x - 2 ^ 64) = wrap x := by
  have h := Int.sub_bmod_right x (2 ^ 64)
  have hm : ((2 ^ 64 : Nat) : Int) = 2 ^ 64 := by
    rfl
  unfold wrap
  rw [hm] at h
  exact h

/-- A truncated quotient of a negative number by a positive one is not positive. -/
theorem tdiv_nonpos {a b : Int} (ha : a < 0) (hb : 0 < b) : a.tdiv b ≤ 0 := by
  have h := Int.tdiv_nonneg (a := -a) (b := b) (by omega) (by omega)
  rw [Int.neg_tdiv] at h
  omega

/-- `ceilDiv` of Go `int`s: a positive result means a positive dividend and a sum that did
not wrap. -/
theorem ceilDiv_pos {a b : Int} (ha : -2 ^ 63 ≤ a) (ha' : a < 2 ^ 63) (hb : 1 ≤ b)
    (hb' : b < 2 ^ 63) (h : 0 < ceilDiv a b) : 0 < a ∧ a + b - 1 < 2 ^ 63 ∧ ceilDiv a b = (a + b - 1) / b := by
  unfold ceilDiv at h ⊢
  by_cases hx : a + b - 1 < 2 ^ 63
  · rw [wrap_of_le (by omega) hx] at h ⊢
    by_cases hnn : 0 ≤ a + b - 1
    · rw [Int.tdiv_eq_ediv_of_nonneg hnn] at h ⊢
      refine ⟨?_, hx, rfl⟩
      by_contra hle
      rw [Int.ediv_eq_zero_of_lt hnn (by omega)] at h
      exact Int.lt_irrefl 0 h
    · have hneg := tdiv_nonpos (by omega : a + b - 1 < 0) (by omega : (0 : Int) < b)
      omega
  · -- the sum wraps around to a negative number
    have hwrap : wrap (a + b - 1) = a + b - 1 - 2 ^ 64 := by
      rw [← wrap_sub_two_pow_64, wrap_of_le (x := a + b - 1 - 2 ^ 64) (by omega) (by omega)]
    rw [hwrap] at h
    have hneg := tdiv_nonpos (by omega : a + b - 1 - 2 ^ 64 < 0) (by omega : (0 : Int) < b)
    omega

/-- `ceilDiv` of a positive number, when the sum does not wrap: the quotient rounded up,
at least 1. -/
theorem ceilDiv_of_fit {a b : Int} (ha : 0 < a) (hb : 1 ≤ b) (hfit : a + b - 1 < 2 ^ 63) :
    ceilDiv a b = (a + b - 1) / b ∧ 1 ≤ ceilDiv a b := by
  unfold ceilDiv
  rw [wrap_of_le (by omega) hfit, Int.tdiv_eq_ediv_of_nonneg (by omega)]
  exact ⟨rfl, Int.le_ediv_of_mul_le (by omega) (by omega)⟩

/-- The rounded-up quotient of a positive number is at most the number. -/
theorem ceilDiv_le {a b : Int} (ha : 0 < a) (hb : 1 ≤ b) : (a + b - 1) / b ≤ a := by
  have hab : a * 1 ≤ a * b := Int.mul_le_mul_of_nonneg_left hb (by omega)
  have hlt : (a + b - 1) / b < a + 1 := by
    apply Int.ediv_lt_of_lt_mul (by omega)
    rw [Int.add_mul, Int.one_mul]
    omega
  omega

theorem one_le_chunkSizeOf (opts : List Int) : 1 ≤ chunkSizeOf opts := by
  unfold chunkSizeOf
  dsimp only
  split <;> omega

/-- The last of some Go `int`s is a Go `int`. -/
theorem foldl_last_lt {bound : Int} :
    ∀ {l : List Int} {a : Int}, a < bound -> (∀ c ∈ l, c < bound) ->
      l.foldl (fun _ c => c) a < bound := by
  intro l
  induction l with
  | nil =>
      intro a ha _
      exact ha
  | cons c rest ih =>
      intro a _ hl
      exact ih (hl c (List.mem_cons_self ..)) (fun d hd => hl d (List.mem_cons_of_mem c hd))

theorem chunkSizeOf_lt {opts : List Int} (hopts : ∀ c ∈ opts, c < 2 ^ 63) :
    chunkSizeOf opts < 2 ^ 63 := by
  have hlast := foldl_last_lt (a := 0) (by omega) hopts
  unfold chunkSizeOf
  dsimp only
  split <;> omega

namespace State

variable {s : State} {w : Nat} {pc : WorkerPc}

@[simp] theorem setWorker_pieces : (s.setWorker w pc).pieces = s.pieces := rfl

@[simp] theorem setWorker_chunkSize : (s.setWorker w pc).chunkSize = s.chunkSize := rfl

@[simp] theorem setWorker_cancellable : (s.setWorker w pc).cancellable = s.cancellable := rfl

@[simp] theorem setWorker_toProcess : (s.setWorker w pc).toProcess = s.toProcess := rfl

@[simp] theorem setWorker_stopped : (s.setWorker w pc).stopped = s.stopped := rfl

@[simp] theorem setWorker_workers : (s.setWorker w pc).workers = s.workers.set w pc := rfl

/-- A chunk ends at `pieces` at the latest. -/
theorem chunkBounds_le (s : State) (chunk : Int) : (s.chunkBounds chunk).2 ≤ s.pieces := by
  unfold chunkBounds
  dsimp only
  split <;> omega

/-- Without overflow, a chunk is the `chunk`-th of `0 .. pieces` in chunks of `chunkSize`. -/
theorem chunkBounds_of_lt (s : State) {chunk : Int} (h0 : 0 ≤ chunk)
    (hlt : chunk * s.chunkSize < s.pieces) (hsum : s.pieces + s.chunkSize - 1 < 2 ^ 63)
    (hk : 1 ≤ s.chunkSize) :
    s.chunkBounds chunk = (chunk * s.chunkSize, min (chunk * s.chunkSize + s.chunkSize) s.pieces) := by
  have hnn : 0 ≤ chunk * s.chunkSize := Int.mul_nonneg h0 (by omega)
  have hstart : wrap (chunk * s.chunkSize) = chunk * s.chunkSize := wrap_of_le (by omega) (by omega)
  have hend : wrap (chunk * s.chunkSize + s.chunkSize) = chunk * s.chunkSize + s.chunkSize :=
    wrap_of_le (by omega) (by omega)
  unfold chunkBounds
  simp only [hstart, hend]
  congr 1
  split <;> omega

end State

/-- The pieces a goroutine still has to do of its chunk. -/
def WorkerPc.pieces : WorkerPc -> List Int
  | WorkerPc.working p end_ => Ico p end_
  | _ => []

namespace State

/-- The pieces of a chunk. -/
def chunkPieces (s : State) (chunk : Int) : List Int :=
  Ico (s.chunkBounds chunk).1 (s.chunkBounds chunk).2

/-- The pieces not yet done: those of the chunks in the channel and the rest of the chunks
the goroutines hold. -/
def remaining (s : State) : List Int :=
  s.toProcess.flatMap s.chunkPieces ++ s.workers.flatMap WorkerPc.pieces

variable {s : State} {w : Nat} {pc : WorkerPc}

@[simp] theorem chunkPieces_setWorker : (s.setWorker w pc).chunkPieces = s.chunkPieces := rfl

@[simp] theorem chunkPieces_toProcess (l : List Int) :
    ({ s with toProcess := l } : State).chunkPieces = s.chunkPieces := rfl

@[simp] theorem chunkPieces_stopped (b : Bool) :
    ({ s with stopped := b } : State).chunkPieces = s.chunkPieces := rfl

/-- Moving one goroutine changes the pieces left by what it held and what it holds. -/
theorem count_remaining_setWorker (hw : s.workers[w]? = some pc) (pc' : WorkerPc) (x : Int) :
    (s.setWorker w pc').remaining.count x + pc.pieces.count x =
      s.remaining.count x + pc'.pieces.count x := by
  have h := count_flatMap_set WorkerPc.pieces x pc' hw
  simp only [remaining, chunkPieces_setWorker, setWorker_toProcess, setWorker_workers,
    List.count_append]
  omega

end State

variable {s s' : State} {op : Op}

/-- What a step can do: a goroutine finds the channel drained and returns, or receives a
chunk; calls `doWorkPiece` for its next piece, returns on the closed `stop`, or is done
with its chunk; or the context is cancelled. -/
theorem step_cases (h : step s op = some s') :
    (∃ w, op = Op.recv w ∧ s.workers[w]? = some WorkerPc.receiving ∧ s.toProcess = [] ∧
        s' = s.setWorker w WorkerPc.exited) ∨
      (∃ w chunk rest, op = Op.recv w ∧ s.workers[w]? = some WorkerPc.receiving ∧
        s.toProcess = chunk :: rest ∧
        s' = { s.setWorker w (WorkerPc.working (s.chunkBounds chunk).1 (s.chunkBounds chunk).2)
          with toProcess := rest }) ∨
      (∃ w p end_, op = Op.work w ∧ s.workers[w]? = some (WorkerPc.working p end_) ∧ p < end_ ∧
        s.stopped = false ∧ s' = s.setWorker w (WorkerPc.working (wrap (p + 1)) end_)) ∨
      (∃ w p end_, op = Op.work w ∧ s.workers[w]? = some (WorkerPc.working p end_) ∧ p < end_ ∧
        s.stopped = true ∧ s' = s.setWorker w WorkerPc.exited) ∨
      (∃ w p end_, op = Op.work w ∧ s.workers[w]? = some (WorkerPc.working p end_) ∧ end_ ≤ p ∧
        s' = s.setWorker w WorkerPc.receiving) ∨
      (op = Op.cancel ∧ s.cancellable = true ∧ s.stopped = false ∧
        s' = { s with stopped := true }) := by
  cases op with
  | recv w =>
      simp only [step] at h
      split at h
      · rename_i hw
        split at h
        · rename_i hnil
          cases h
          exact Or.inl ⟨w, rfl, hw, hnil, rfl⟩
        · rename_i chunk rest hcons
          cases h
          exact Or.inr (Or.inl ⟨w, chunk, rest, rfl, hw, hcons, rfl⟩)
      · cases h
  | work w =>
      simp only [step] at h
      split at h
      · rename_i p end_ hw
        split at h
        · rename_i hlt
          split at h
          · rename_i hstop
            cases h
            exact Or.inr (Or.inr (Or.inr (Or.inl ⟨w, p, end_, rfl, hw, hlt, hstop, rfl⟩)))
          · rename_i hstop
            cases h
            exact Or.inr (Or.inr (Or.inl ⟨w, p, end_, rfl, hw, hlt, by simpa using hstop, rfl⟩))
        · rename_i hge
          cases h
          exact Or.inr (Or.inr (Or.inr (Or.inr (Or.inl ⟨w, p, end_, rfl, hw, by omega, rfl⟩))))
      · cases h
  | cancel =>
      simp only [step] at h
      split at h
      · rename_i hc
        cases h
        simp only [Bool.and_eq_true, Bool.not_eq_eq_eq_not, Bool.not_true] at hc
        exact Or.inr (Or.inr (Or.inr (Or.inr (Or.inr ⟨rfl, hc.1, hc.2, rfl⟩))))
      · cases h

/-- The arguments stay; `stop` stays closed, and a drained channel stays drained. -/
theorem step_frame (h : step s op = some s') :
    s'.pieces = s.pieces ∧ s'.chunkSize = s.chunkSize ∧ s'.cancellable = s.cancellable ∧
      s'.workers.length = s.workers.length ∧ (s.stopped = true -> s'.stopped = true) ∧
      (s.toProcess = [] -> s'.toProcess = []) := by
  rcases step_cases h with ⟨w, rfl, hw, hnil, rfl⟩ | ⟨w, chunk, rest, rfl, hw, hcons, rfl⟩ |
    ⟨w, p, end_, rfl, hw, hlt, hstop, rfl⟩ | ⟨w, p, end_, rfl, hw, hlt, hstop, rfl⟩ |
    ⟨w, p, end_, rfl, hw, hge, rfl⟩ | ⟨rfl, -, hstop, rfl⟩
  · simp
  · refine ⟨rfl, rfl, rfl, by simp, id, ?_⟩
    intro hnil
    rw [hcons] at hnil
    cases hnil
  · simp
  · simp
  · simp
  · simp

/-- What a goroutine is after a step: what it was, or one that received a chunk, moved to
the next piece of its chunk, returned on the closed `stop` or the drained channel, or is
done with its chunk. -/
theorem step_worker (h : step s op = some s') {v : Nat} {q : WorkerPc}
    (hv : s'.workers[v]? = some q) :
    s.workers[v]? = some q ∨
      (∃ chunk, q = WorkerPc.working (s.chunkBounds chunk).1 (s.chunkBounds chunk).2) ∨
      (∃ p end_, s.workers[v]? = some (WorkerPc.working p end_) ∧
        q = WorkerPc.working (wrap (p + 1)) end_) ∨
      (q = WorkerPc.exited ∧ (s.stopped = true ∨ s.toProcess = [])) ∨
      q = WorkerPc.receiving := by
  rcases step_cases h with ⟨w, rfl, hw, hnil, rfl⟩ | ⟨w, chunk, rest, rfl, hw, hcons, rfl⟩ |
    ⟨w, p, end_, rfl, hw, hlt, hstop, rfl⟩ | ⟨w, p, end_, rfl, hw, hlt, hstop, rfl⟩ |
    ⟨w, p, end_, rfl, hw, hge, rfl⟩ | ⟨rfl, -, hstop, rfl⟩
  · rcases getElem?_set_eq_some hv with ⟨-, rfl⟩ | hold
    · exact Or.inr (Or.inr (Or.inr (Or.inl ⟨rfl, Or.inr hnil⟩)))
    · exact Or.inl hold
  · rcases getElem?_set_eq_some hv with ⟨-, rfl⟩ | hold
    · exact Or.inr (Or.inl ⟨chunk, rfl⟩)
    · exact Or.inl hold
  · rcases getElem?_set_eq_some hv with ⟨rfl, rfl⟩ | hold
    · exact Or.inr (Or.inr (Or.inl ⟨p, end_, hw, rfl⟩))
    · exact Or.inl hold
  · rcases getElem?_set_eq_some hv with ⟨-, rfl⟩ | hold
    · exact Or.inr (Or.inr (Or.inr (Or.inl ⟨rfl, Or.inl hstop⟩)))
    · exact Or.inl hold
  · rcases getElem?_set_eq_some hv with ⟨-, rfl⟩ | hold
    · exact Or.inr (Or.inr (Or.inr (Or.inr rfl)))
    · exact Or.inl hold
  · exact Or.inl hv

/-- The piece a step calls `doWorkPiece` for: the next of the goroutine's chunk while
`stop` is open. -/
theorem report_work {w : Nat} {p end_ : Int} (hw : s.workers[w]? = some (WorkerPc.working p end_)) :
    report s (Op.work w) = if p < end_ && !s.stopped then [p] else [] := by
  simp [report, hw]

/-!
## No piece twice

`Inv s log`: the pieces done (`log`) and those left are among `0 .. pieces`, each at most
once; a goroutine's piece is a Go `int` and its chunk ends by `pieces`; a goroutine has
returned only on the closed `stop` or the drained channel.
-/

structure Inv (s : State) (log : List Int) : Prop where
  pieces : s.pieces < 2 ^ 63
  covered : ∀ x, (log ++ s.remaining).count x ≤ (Ico 0 s.pieces).count x
  working : ∀ (w : Nat) p end_, s.workers[w]? = some (WorkerPc.working p end_) ->
    -2 ^ 63 ≤ p ∧ end_ ≤ s.pieces
  exited : ∀ w : Nat, s.workers[w]? = some WorkerPc.exited ->
    s.stopped = true ∨ s.toProcess = []

/-- While `stop` is open, the pieces done and those left are `0 .. pieces` exactly. -/
def Complete (s : State) (log : List Int) : Prop :=
  s.stopped = false -> ∀ x, (log ++ s.remaining).count x = (Ico 0 s.pieces).count x

variable {log : List Int}

/-- A step moves pieces from what is left to what is done, one `doWorkPiece` at a time, and
drops the rest of a chunk only on the closed `stop`. -/
theorem count_step (hinv : Inv s log) (h : step s op = some s') (x : Int) :
    (log ++ report s op ++ s'.remaining).count x ≤ (log ++ s.remaining).count x ∧
      (s'.stopped = false ->
        (log ++ report s op ++ s'.remaining).count x = (log ++ s.remaining).count x) := by
  rcases step_cases h with ⟨w, rfl, hw, hnil, rfl⟩ | ⟨w, chunk, rest, rfl, hw, hcons, rfl⟩ |
    ⟨w, p, end_, rfl, hw, hlt, hstop, rfl⟩ | ⟨w, p, end_, rfl, hw, hlt, hstop, rfl⟩ |
    ⟨w, p, end_, rfl, hw, hge, rfl⟩ | ⟨rfl, -, hstop, rfl⟩
  · -- the goroutine returns: nothing moves
    have hc := State.count_remaining_setWorker hw WorkerPc.exited x
    simp only [report, WorkerPc.pieces, List.count_nil, List.append_nil] at hc ⊢
    simp only [List.count_append]
    omega
  · -- the chunk moves from the channel to the goroutine
    have hc := count_flatMap_set WorkerPc.pieces x
      (WorkerPc.working (s.chunkBounds chunk).1 (s.chunkBounds chunk).2) hw
    simp only [report, State.remaining, hcons, List.flatMap_cons, List.append_nil,
      List.count_append, List.count_nil, State.chunkPieces_toProcess,
      State.chunkPieces_setWorker, WorkerPc.pieces] at hc ⊢
    simp only [State.chunkPieces] at hc ⊢
    simp only [State.setWorker_workers] at hc ⊢
    constructor
    · omega
    · intro _
      omega
  · -- `doWorkPiece(p)`: `p` moves from the chunk to the pieces done
    have hp := hinv.working w p end_ hw
    have hwrap : wrap (p + 1) = p + 1 := wrap_of_le (by omega) (by have := hinv.pieces; omega)
    have hc := State.count_remaining_setWorker hw (WorkerPc.working (wrap (p + 1)) end_) x
    rw [report_work hw, hwrap] at *
    simp only [hlt, hstop, decide_true, Bool.not_false, Bool.and_self, if_true,
      WorkerPc.pieces, Ico_eq_cons hlt, List.count_cons] at hc ⊢
    simp only [List.count_append, List.count_cons, List.count_nil] at hc ⊢
    constructor
    · omega
    · intro _
      omega
  · -- `stop` is closed: the goroutine returns and drops the rest of its chunk
    have hc := State.count_remaining_setWorker hw WorkerPc.exited x
    rw [report_work hw] at *
    simp only [hstop, Bool.not_true, Bool.and_false, Bool.false_eq_true, ↓reduceIte,
      WorkerPc.pieces] at hc ⊢
    simp only [List.count_append, List.count_nil] at hc ⊢
    refine ⟨by omega, ?_⟩
    intro hopen
    simp [hstop] at hopen
  · -- the chunk is done
    have hc := State.count_remaining_setWorker hw WorkerPc.receiving x
    rw [report_work hw] at *
    have hnot : ¬p < end_ := by omega
    simp only [hnot, decide_false, Bool.false_and, Bool.false_eq_true, ↓reduceIte,
      WorkerPc.pieces, Ico_eq_nil hge] at hc ⊢
    simp only [List.count_append, List.count_nil] at hc ⊢
    constructor
    · omega
    · intro _
      omega
  · -- the cancellation moves no piece
    simp [report, State.remaining]

theorem Inv.step (hinv : Inv s log) (h : step s op = some s') :
    Inv s' (log ++ report s op) := by
  obtain ⟨hpieces, -, -, -, hstopped, hdrained⟩ := step_frame h
  refine ⟨hpieces ▸ hinv.pieces, fun x => ?_, ?_, ?_⟩
  · rw [hpieces]
    exact Nat.le_trans (count_step hinv h x).1 (hinv.covered x)
  · intro v p end_ hv
    rw [hpieces]
    rcases step_worker h hv with hold | ⟨chunk, hq⟩ | ⟨p0, e0, hold, hq⟩ | ⟨hq, -⟩ | hq
    · exact hinv.working v p end_ hold
    · -- a received chunk starts at a Go `int` and ends by `pieces`
      cases hq
      exact ⟨le_wrap _, State.chunkBounds_le s chunk⟩
    · cases hq
      exact ⟨le_wrap _, (hinv.working v p0 end_ hold).2⟩
    · cases hq
    · cases hq
  · intro v hv
    rcases step_worker h hv with hold | ⟨chunk, hq⟩ | ⟨p0, e0, -, hq⟩ | ⟨-, hwhy⟩ | hq
    · rcases hinv.exited v hold with hstop | hnil
      · exact Or.inl (hstopped hstop)
      · exact Or.inr (hdrained hnil)
    · cases hq
    · cases hq
    · rcases hwhy with hstop | hnil
      · exact Or.inl (hstopped hstop)
      · exact Or.inr (hdrained hnil)
    · cases hq

theorem Complete.step (hinv : Inv s log) (hc : Complete s log) (h : step s op = some s') :
    Complete s' (log ++ report s op) := by
  obtain ⟨hpieces, -, -, -, hstopped, -⟩ := step_frame h
  intro hopen x
  -- `stop` was open before the step too
  have hopen' : s.stopped = false := by
    cases hs : s.stopped
    · rfl
    · rw [hstopped hs] at hopen
      cases hopen
  rw [hpieces, (count_step hinv h x).2 hopen]
  exact hc hopen' x

/-!
## Steps left

A goroutine takes one step per piece of its chunk and one more to leave it, one to receive
each chunk, and one to find the channel drained; the cancellation comes at most once.
-/

/-- The steps a goroutine can still take with what it holds. -/
def WorkerPc.steps : WorkerPc -> Nat
  | WorkerPc.receiving => 1
  | WorkerPc.working p end_ => (end_ - p).toNat + 2
  | WorkerPc.exited => 0

/-- A bound on the steps left: two per chunk in the channel and one per piece of it, the
steps of the goroutines, and the cancellation while it can come. -/
def State.stepsLeft (s : State) : Nat :=
  (s.toProcess.flatMap s.chunkPieces).length + 2 * s.toProcess.length +
    (s.workers.map WorkerPc.steps).sum + (s.cancellable && !s.stopped).toNat

/-- Every step uses up one of the steps left. -/
theorem stepsLeft_step (hinv : Inv s log) (h : step s op = some s') :
    s'.stepsLeft < s.stepsLeft := by
  rcases step_cases h with ⟨w, rfl, hw, hnil, rfl⟩ | ⟨w, chunk, rest, rfl, hw, hcons, rfl⟩ |
    ⟨w, p, end_, rfl, hw, hlt, hstop, rfl⟩ | ⟨w, p, end_, rfl, hw, hlt, hstop, rfl⟩ |
    ⟨w, p, end_, rfl, hw, hge, rfl⟩ | ⟨rfl, hc, hstop, rfl⟩
  · have hsum := sum_map_set WorkerPc.steps WorkerPc.exited hw
    simp only [State.stepsLeft, State.setWorker_toProcess, State.chunkPieces_setWorker,
      State.setWorker_workers, State.setWorker_cancellable, State.setWorker_stopped,
      WorkerPc.steps] at hsum ⊢
    omega
  · -- the chunk's pieces move from the channel to the goroutine
    have hsum := sum_map_set WorkerPc.steps
      (WorkerPc.working (s.chunkBounds chunk).1 (s.chunkBounds chunk).2) hw
    unfold State.stepsLeft
    rw [State.chunkPieces_toProcess, State.chunkPieces_setWorker]
    simp only [State.setWorker_workers, State.setWorker_cancellable, State.setWorker_stopped,
      hcons, List.flatMap_cons, List.length_append, List.length_cons, WorkerPc.steps] at hsum ⊢
    simp only [State.chunkPieces, length_Ico] at hsum ⊢
    omega
  · have hp := hinv.working w p end_ hw
    have hwrap : wrap (p + 1) = p + 1 := wrap_of_le (by omega) (by have := hinv.pieces; omega)
    have hsum := sum_map_set WorkerPc.steps (WorkerPc.working (wrap (p + 1)) end_) hw
    simp only [State.stepsLeft, State.setWorker_toProcess, State.chunkPieces_setWorker,
      State.setWorker_workers, State.setWorker_cancellable, State.setWorker_stopped,
      WorkerPc.steps, hwrap] at hsum ⊢
    omega
  · have hsum := sum_map_set WorkerPc.steps WorkerPc.exited hw
    simp only [State.stepsLeft, State.setWorker_toProcess, State.chunkPieces_setWorker,
      State.setWorker_workers, State.setWorker_cancellable, State.setWorker_stopped,
      WorkerPc.steps] at hsum ⊢
    omega
  · have hsum := sum_map_set WorkerPc.steps WorkerPc.receiving hw
    simp only [State.stepsLeft, State.setWorker_toProcess, State.chunkPieces_setWorker,
      State.setWorker_workers, State.setWorker_cancellable, State.setWorker_stopped,
      WorkerPc.steps] at hsum ⊢
    omega
  · unfold State.stepsLeft
    rw [State.chunkPieces_stopped]
    simp [hc, hstop]

/-- A goroutine that has not returned can take a step: no interleaving blocks. -/
theorem step_enabled {w : Nat} {pc : WorkerPc} (hw : s.workers[w]? = some pc)
    (hpc : pc ≠ WorkerPc.exited) : ∃ op, (step s op).isSome := by
  cases pc with
  | receiving =>
      refine ⟨Op.recv w, ?_⟩
      simp only [step, hw]
      split <;> rfl
  | working p end_ =>
      refine ⟨Op.work w, ?_⟩
      simp only [step, hw]
      split
      · split <;> rfl
      · rfl
  | exited => exact absurd rfl hpc

/-- Where no step is enabled, every goroutine has returned and `wg.Wait` returns. -/
theorem finished_of_stuck (h : ∀ op, step s op = none) : s.finished = true := by
  unfold State.finished
  rw [List.all_eq_true]
  intro pc hmem
  obtain ⟨w, hw⟩ := List.mem_iff_getElem?.mp hmem
  by_contra hne
  obtain ⟨op, hop⟩ := step_enabled hw (by simpa using hne)
  rw [h op] at hop
  cases hop

/-!
## The start
-/

section Start

variable {cancellable : Bool} {workers pieces : Int} {opts : List Int} {s0 : State}

/-- The state the goroutines start in: the chunks `0 .. chunks` in the channel, and
`min(workers, chunks)` goroutines, neither count negative. -/
theorem parallelizeUntil_eq_running
    (h : parallelizeUntil cancellable workers pieces opts = Outcome.running s0) :
    ∃ chunks goroutines, pieces ≠ 0 ∧ chunks = ceilDiv pieces (chunkSizeOf opts) ∧ 0 ≤ chunks ∧
      0 ≤ goroutines ∧ goroutines ≤ chunks ∧ goroutines ≤ workers ∧
      (0 < workers -> 0 < chunks -> 0 < goroutines) ∧
      s0 =
        { pieces := pieces, chunkSize := chunkSizeOf opts, cancellable := cancellable,
          toProcess := (List.range chunks.toNat).map (fun i : Nat => (i : Int)),
          workers := List.replicate goroutines.toNat WorkerPc.receiving, stopped := false } := by
  unfold parallelizeUntil at h
  dsimp only at h
  by_cases hpieces : pieces = 0
  · rw [if_pos hpieces] at h
    cases h
  rw [if_neg hpieces] at h
  by_cases hchunks : ceilDiv pieces (chunkSizeOf opts) < 0
  · rw [if_pos hchunks] at h
    cases h
  rw [if_neg hchunks] at h
  generalize hgo : (if ceilDiv pieces (chunkSizeOf opts) < workers then
    ceilDiv pieces (chunkSizeOf opts) else workers) = goroutines at h
  by_cases hneg : goroutines < 0
  · rw [if_pos hneg] at h
    cases h
  rw [if_neg hneg] at h
  cases h
  refine ⟨_, goroutines, hpieces, rfl, by omega, by omega, ?_, ?_, ?_, rfl⟩
  · rw [← hgo]
    split <;> omega
  · rw [← hgo]
    split <;> omega
  · intro hw hc
    rw [← hgo]
    split <;> omega

/-- A chunk in the channel at the start is one of `0 .. pieces`'s chunks of `chunkSize`,
when the sum of `ceilDiv` does not wrap. -/
theorem chunkPieces_start {chunks : Int} (hfit : pieces + chunkSizeOf opts - 1 < 2 ^ 63)
    (hchunks : chunks = (pieces + chunkSizeOf opts - 1) / chunkSizeOf opts) {c : Nat}
    (hc : c < chunks.toNat) (s : State) (hp : s.pieces = pieces)
    (hk : s.chunkSize = chunkSizeOf opts) :
    s.chunkPieces c = chunk pieces (chunkSizeOf opts) c := by
  have hk1 := one_le_chunkSizeOf opts
  -- the chunk starts before `pieces`
  have hlt : (c : Int) * chunkSizeOf opts < pieces := by
    have hle := Int.ediv_mul_le (pieces + chunkSizeOf opts - 1) (b := chunkSizeOf opts) (by omega)
    rw [← hchunks] at hle
    have hcle : (c : Int) + 1 ≤ chunks := by omega
    have hmul : ((c : Int) + 1) * chunkSizeOf opts ≤ chunks * chunkSizeOf opts :=
      Int.mul_le_mul_of_nonneg_right hcle (by omega)
    rw [Int.add_mul, Int.one_mul] at hmul
    omega
  unfold State.chunkPieces chunk
  rw [State.chunkBounds_of_lt s (Int.natCast_nonneg c) (by rw [hp, hk]; exact hlt)
    (by rw [hp, hk]; exact hfit) (by rw [hk]; exact hk1), hp, hk]

/-- The pieces left at the start: all of `0 .. pieces`, or none with the channel empty. -/
theorem remaining_start (hpieces : -2 ^ 63 ≤ pieces ∧ pieces < 2 ^ 63)
    (hk : chunkSizeOf opts < 2 ^ 63)
    (h : parallelizeUntil cancellable workers pieces opts = Outcome.running s0) :
    s0.remaining = Ico 0 pieces ∨ (s0.toProcess = [] ∧ s0.remaining = []) := by
  obtain ⟨chunks, goroutines, -, hchunks, hc0, -, -, -, -, rfl⟩ := parallelizeUntil_eq_running h
  have hworkers : (List.replicate goroutines.toNat WorkerPc.receiving).flatMap WorkerPc.pieces = [] := by
    simp [WorkerPc.pieces]
  by_cases hpos : 0 < chunks
  · -- the sum did not wrap: the chunks cover `0 .. pieces`
    obtain ⟨hp, hfit, hdiv⟩ := ceilDiv_pos hpieces.1 hpieces.2 (one_le_chunkSizeOf opts) hk
      (hchunks ▸ hpos)
    left
    rw [hdiv] at hchunks
    unfold State.remaining
    simp only [hworkers, List.append_nil, List.flatMap_map]
    rw [← flatMap_chunk_ceilDiv (k := chunkSizeOf opts) (Int.le_of_lt hp)
      (by have := one_le_chunkSizeOf opts; omega), ← hchunks]
    apply List.flatMap_congr
    intro c hc
    exact chunkPieces_start hfit hchunks (List.mem_range.mp hc) _ rfl rfl
  · right
    have hzero : chunks.toNat = 0 := by omega
    simp [State.remaining, hzero, hworkers]

theorem inv_start (hpieces : -2 ^ 63 ≤ pieces ∧ pieces < 2 ^ 63) (hk : chunkSizeOf opts < 2 ^ 63)
    (h : parallelizeUntil cancellable workers pieces opts = Outcome.running s0) : Inv s0 [] := by
  have hrem := remaining_start hpieces hk h
  obtain ⟨chunks, goroutines, -, -, -, -, -, -, -, rfl⟩ := parallelizeUntil_eq_running h
  refine ⟨hpieces.2, fun x => ?_, ?_, ?_⟩
  · rcases hrem with hrem | ⟨-, hrem⟩
    · rw [List.nil_append, hrem]
    · rw [List.nil_append, hrem]
      exact Nat.zero_le _
  · intro v p end_ hv
    have hmem := List.mem_of_getElem? hv
    simp at hmem
  · intro v hv
    have hmem := List.mem_of_getElem? hv
    simp at hmem

theorem complete_start (hpieces : 0 < pieces) (hfit : pieces + chunkSizeOf opts - 1 < 2 ^ 63)
    (h : parallelizeUntil cancellable workers pieces opts = Outcome.running s0) :
    Inv s0 [] ∧ Complete s0 [] := by
  have hk1 := one_le_chunkSizeOf opts
  have hrange : -2 ^ 63 ≤ pieces ∧ pieces < 2 ^ 63 := ⟨by omega, by omega⟩
  have hk : chunkSizeOf opts < 2 ^ 63 := by omega
  have hinv := inv_start hrange hk h
  have hrem := remaining_start hrange hk h
  obtain ⟨chunks, goroutines, -, hchunks, -, -, -, -, -, rfl⟩ := parallelizeUntil_eq_running h
  refine ⟨hinv, fun _ x => ?_⟩
  rcases hrem with hrem | ⟨hnil, -⟩
  · rw [List.nil_append, hrem]
  · -- without overflow there is a chunk in the channel
    have hone := (ceilDiv_of_fit hpieces hk1 hfit).2
    simp only [List.map_eq_nil_iff, List.range_eq_nil] at hnil
    omega

/-- The steps left at the start: at most four per piece, and the cancellation. -/
theorem stepsLeft_start (hpieces : -2 ^ 63 ≤ pieces ∧ pieces < 2 ^ 63)
    (hk : chunkSizeOf opts < 2 ^ 63)
    (h : parallelizeUntil cancellable workers pieces opts = Outcome.running s0) :
    s0.stepsLeft ≤ 4 * pieces.toNat + 1 := by
  have hlen : s0.remaining.length ≤ pieces.toNat := by
    rcases remaining_start hpieces hk h with hrem | ⟨-, hrem⟩ <;> simp [hrem]
  obtain ⟨chunks, goroutines, -, hchunks, hc0, hg0, hgc, -, -, hs0⟩ := parallelizeUntil_eq_running h
  -- there are at most as many chunks as pieces
  have hcp : chunks ≤ pieces ∨ chunks = 0 := by
    by_cases hpos : 0 < chunks
    · obtain ⟨hp, -, hdiv⟩ := ceilDiv_pos hpieces.1 hpieces.2 (one_le_chunkSizeOf opts) hk
        (hchunks ▸ hpos)
      exact Or.inl (hchunks ▸ hdiv ▸ ceilDiv_le hp (one_le_chunkSizeOf opts))
    · exact Or.inr (by omega)
  unfold State.remaining at hlen
  unfold State.stepsLeft
  rw [hs0] at hlen ⊢
  simp only [List.length_append, List.flatMap_replicate, List.length_map, List.length_range,
    List.map_replicate, List.sum_replicate_nat, WorkerPc.steps, WorkerPc.pieces] at hlen ⊢
  have hcancel := Bool.toNat_le (cancellable && !false)
  omega

end Start

/-!
## Whole runs

Every interleaving of the goroutines and the cancellation from the state `ParallelizeUntil`
starts them in; the log lists the pieces `doWorkPiece` was called for, in order.
-/

section Runs

variable {cancellable : Bool} {workers pieces : Int} {opts : List Int} {s0 s : State}
  {ls : List Op} {log : List Int}

theorem preserves_inv :
    Preserves (logStep step report) (fun _ => True) (fun p => Inv p.1 p.2) := by
  rintro ⟨s, log⟩ op ⟨s', log'⟩ - hinv hstep
  obtain ⟨h, rfl⟩ := logStep_eq_some hstep
  exact hinv.step h

theorem preserves_complete :
    Preserves (logStep step report) (fun _ => True) (fun p => Inv p.1 p.2 ∧ Complete p.1 p.2) := by
  apply preserves_inv.and
  rintro ⟨s, log⟩ op ⟨s', log'⟩ - hinv hc hstep
  obtain ⟨h, rfl⟩ := logStep_eq_some hstep
  exact hc.step hinv h

/-- The pieces done and those left stay among those left at the start. -/
theorem preserves_within (s0 : State) :
    Preserves (logStep step report) (fun _ => True)
      (fun p => Inv p.1 p.2 ∧ ∀ x, (p.2 ++ p.1.remaining).count x ≤ s0.remaining.count x) := by
  apply preserves_inv.and
  rintro ⟨s, log⟩ op ⟨s', log'⟩ - hinv hwithin hstep
  obtain ⟨h, rfl⟩ := logStep_eq_some hstep
  intro x
  exact Nat.le_trans (count_step hinv h x).1 (hwithin x)

/-- The arguments of the call and the number of goroutines stay as they started. -/
theorem preserves_frame (s0 : State) :
    Preserves (logStep step report) (fun _ => True)
      (fun p => p.1.pieces = s0.pieces ∧ p.1.workers.length = s0.workers.length) := by
  rintro ⟨s, log⟩ op ⟨s', log'⟩ - ⟨hp, hlen⟩ hstep
  obtain ⟨h, rfl⟩ := logStep_eq_some hstep
  obtain ⟨hp', -, -, hlen', -⟩ := step_frame h
  exact ⟨hp'.trans hp, hlen'.trans hlen⟩

/-- Without goroutines no step calls `doWorkPiece`. -/
theorem report_of_workers_nil (h : s.workers = []) (op : Op) : report s op = [] := by
  cases op <;> simp [report, h]

theorem preserves_no_workers :
    Preserves (logStep step report) (fun _ => True) (fun p => p.1.workers = [] -> p.2 = []) := by
  rintro ⟨s, log⟩ op ⟨s', log'⟩ - hnone hstep hnil'
  obtain ⟨h, rfl⟩ := logStep_eq_some hstep
  dsimp only at hnone hnil' ⊢
  have hnil : s.workers = [] := by
    have hlen := (step_frame h).2.2.2.1
    rw [hnil', List.length_nil] at hlen
    exact List.eq_nil_of_length_eq_zero hlen.symm
  rw [hnone hnil, report_of_workers_nil hnil]
  rfl

/-- `doWorkPiece` is called only for pieces `0 .. pieces`, each at most once, in every
interleaving of the goroutines and the cancellation. -/
theorem parallelizeUntil_pieces_at_most_once (hpieces : -2 ^ 63 ≤ pieces ∧ pieces < 2 ^ 63)
    (hopts : ∀ c ∈ opts, c < 2 ^ 63)
    (hstart : parallelizeUntil cancellable workers pieces opts = Outcome.running s0)
    (hrun : runLog step report s0 ls = some (s, log)) :
    log.Nodup ∧ ∀ p ∈ log, 0 ≤ p ∧ p < pieces := by
  have hinv : Inv s log :=
    preserves_inv.run (fun _ _ => trivial) (inv_start hpieces (chunkSizeOf_lt hopts) hstart) hrun
  have hp0 : s0.pieces = pieces := by
    obtain ⟨chunks, goroutines, -, -, -, -, -, -, -, hs0⟩ := parallelizeUntil_eq_running hstart
    rw [hs0]
  have hp : s.pieces = pieces :=
    ((preserves_frame s0).run (fun _ _ => trivial) ⟨rfl, rfl⟩ hrun).1.trans hp0
  -- a piece done is counted at most as often as in `0 .. pieces`
  have hcount : ∀ x, log.count x ≤ (Ico 0 pieces).count x := by
    intro x
    have h := hinv.covered x
    rw [List.count_append, hp] at h
    omega
  refine ⟨List.nodup_iff_count_le_one.mpr fun x => ?_, fun p hmem => ?_⟩
  · exact Nat.le_trans (hcount x) (List.nodup_iff_count_le_one.mp (nodup_Ico 0 pieces) x)
  · have hpos := List.count_pos_iff.mpr hmem
    have hin := List.count_pos_iff.mp (Nat.lt_of_lt_of_le hpos (hcount p))
    simpa using hin

/-- Three pieces in chunks of two on two goroutines under a context: the first goroutine
does piece 0, the context is cancelled, and both goroutines return at their next piece. -/
def cancelledTrace : List Op :=
  [Op.recv 0, Op.work 0, Op.cancel, Op.work 0, Op.recv 1, Op.work 1]

theorem parallelizeUntil_pieces_at_most_once_cancelled :
    [(0 : Int)].Nodup ∧ ∀ p ∈ [(0 : Int)], 0 ≤ p ∧ p < 3 :=
  parallelizeUntil_pieces_at_most_once (by decide) (by decide)
    (rfl : parallelizeUntil true 2 3 [2] = Outcome.running _)
    (rfl : runLog step report _ cancelledTrace = some (_, [0]))

/-- `ParallelizeUntil(nil, 2, 3, doWorkPiece, WithChunkSize(2))` starts two goroutines on
the chunks 0 and 1. -/
def threePiecesStart : State :=
  { pieces := 3, chunkSize := 2, cancellable := false, toProcess := [0, 1],
    workers := [WorkerPc.receiving, WorkerPc.receiving], stopped := false }

/-- Three pieces in chunks of two on two goroutines: the second goroutine does the last
chunk while the first does the first, then both find the channel drained. -/
def threePiecesTrace : List Op :=
  [Op.recv 0, Op.recv 1, Op.work 1, Op.work 0, Op.work 0, Op.work 0, Op.recv 0, Op.work 1,
    Op.recv 1]

/-- When `wg.Wait` returns and the context was not cancelled, `doWorkPiece` was called for
every piece `0 .. pieces` exactly once, given pieces and workers and a sum
`pieces + chunkSize - 1` that does not overflow. -/
theorem parallelizeUntil_every_piece_once (hpieces : 0 < pieces)
    (hfit : pieces + chunkSizeOf opts - 1 < 2 ^ 63) (hworkers : 0 < workers)
    (hstart : parallelizeUntil cancellable workers pieces opts = Outcome.running s0)
    (hrun : runLog step report s0 ls = some (s, log)) (hdone : s.finished = true)
    (hopen : s.stopped = false) : log.Perm (Ico 0 pieces) := by
  obtain ⟨hinv0, hc0⟩ := complete_start hpieces hfit hstart
  obtain ⟨hinv, hc⟩ := preserves_complete.run (fun _ _ => trivial) ⟨hinv0, hc0⟩ hrun
  obtain ⟨hp, hlen⟩ := (preserves_frame s0).run (fun _ _ => trivial) ⟨rfl, rfl⟩ hrun
  obtain ⟨chunks, goroutines, -, hchunks, -, -, -, -, hpos, hs0⟩ :=
    parallelizeUntil_eq_running hstart
  -- there is a first goroutine, and it has returned
  have hone := (ceilDiv_of_fit hpieces (one_le_chunkSizeOf opts) hfit).2
  have hgo : 0 < goroutines := hpos hworkers (by omega)
  have h0 : 0 < s.workers.length := by
    rw [hlen, hs0, List.length_replicate]
    omega
  have hall : ∀ pc ∈ s.workers, pc = WorkerPc.exited := by
    simpa [State.finished] using hdone
  have hfirst : s.workers[0]? = some WorkerPc.exited := by
    rw [List.getElem?_eq_getElem h0, hall _ (List.getElem_mem h0)]
  -- it did not return on `stop`, so the channel is drained and nothing is left
  have hdrained : s.toProcess = [] := by
    simpa [hopen] using hinv.exited 0 hfirst
  have hnone : s.remaining = [] := by
    simp only [State.remaining, hdrained, List.flatMap_nil, List.nil_append,
      List.flatMap_eq_nil_iff]
    intro pc hmem
    rw [hall pc hmem]
    rfl
  rw [List.perm_iff_count]
  intro x
  have h := hc hopen x
  rw [hnone, List.append_nil, hp, hs0] at h
  exact h

theorem parallelizeUntil_every_piece_once_three : [2, 0, 1].Perm (Ico 0 3) :=
  parallelizeUntil_every_piece_once (by decide) (by decide) (by decide)
    (rfl : parallelizeUntil false 2 3 [2] = Outcome.running threePiecesStart)
    (rfl : runLog step report threePiecesStart threePiecesTrace = some (_, [2, 0, 1])) rfl rfl

/-- A chunk of the largest `int` makes `ceilDiv` of `2 ^ 62` pieces wrap to a negative sum
that truncates to no chunk: the call starts no goroutine and does none of the work. -/
example : parallelizeUntil false 4 (2 ^ 62) [2 ^ 63 - 1] =
    Outcome.running
      { pieces := 2 ^ 62, chunkSize := 2 ^ 63 - 1, cancellable := false, toProcess := [],
        workers := [], stopped := false } := by
  rfl

end Runs

end Parallelizer
end Workqueue
end KubeTrigger
