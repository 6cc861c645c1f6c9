import Mathlib.Data.List.Basic

/-!
# Labelled runs of a step function

A system is a step function `step : state -> label -> Option state`.  The label names the
atomic step that some thread takes together with every choice the environment makes (which
client, which outcome, how far the clock moves); `none` marks a label that is not enabled
in that state.  A run takes labels in order.  A run log also collects what each step
reports, so that statements about what a run observed (which item a `Get` handed out, how
often a job was picked up) are read off the log instead of ghost fields in the state.

The rules proved here are used by every model of the development: how runs compose, and
that a property kept by every enabled step holds after every run.
-/

namespace KubeTrigger
namespace Foundation

variable {state label obs : Type}

/-- Take the labels in order; `none` as soon as one of them is not enabled. -/
def run (step : state -> label -> Option state) : state -> List label -> Option state
  | s, [] => some s
  | s, l :: rest =>
      match step s l with
      | none => none
      | some s' => run step s' rest

@[simp] theorem run_nil (step : state -> label -> Option state) (s : state) :
    run step s [] = some s := rfl

theorem run_cons (step : state -> label -> Option state) (s : state) (l : label)
    (rest : List label) :
    run step s (l :: rest) = (step s l).bind (fun s' => run step s' rest) := by
  simp only [run]
  cases step s l <;> rfl

theorem run_append (step : state -> label -> Option state) (s : state)
    (xs ys : List label) :
    run step s (xs ++ ys) = (run step s xs).bind (fun t => run step t ys) := by
  induction xs generalizing s with
  | nil => rfl
  | cons l rest ih =>
      rw [List.cons_append, run_cons, run_cons]
      cases step s l with
      | none => rfl
      | some s' => exact ih s'

theorem run_snoc (step : state -> label -> Option state) (s : state)
    (xs : List label) (l : label) :
    run step s (xs ++ [l]) = (run step s xs).bind (fun t => step t l) := by
  rw [run_append]
  cases run step s xs with
  | none => rfl
  | some t =>
      show run step t [l] = step t l
      rw [run_cons]
      cases step t l <;> rfl

theorem run_append_eq_some {step : state -> label -> Option state} {s t : state}
    {xs ys : List label} (h : run step s (xs ++ ys) = some t) :
    exists m, run step s xs = some m ∧ run step m ys = some t := by
  rw [run_append] at h
  cases hxs : run step s xs with
  | none =>
      rw [hxs] at h
      cases h
  | some m =>
      rw [hxs] at h
      exact ⟨m, rfl, h⟩

theorem run_of_append_eq_some {step : state -> label -> Option state} {s m t : state}
    {xs ys : List label} (hxs : run step s xs = some m) (hys : run step m ys = some t) :
    run step s (xs ++ ys) = some t := by
  rw [run_append, hxs]
  exact hys

/-!
## Properties kept by steps

`Preserves step allowed P` says that every enabled step whose label satisfies `allowed`
keeps `P`.  With `allowed` always true this is an inductive invariant; a smaller `allowed`
describes runs in which some operations do not happen (no more `Add` calls, say).
-/

/-- Every enabled step with an allowed label keeps `P`. -/
def Preserves (step : state -> label -> Option state) (allowed : label -> Prop)
    (P : state -> Prop) : Prop :=
  forall s l s', allowed l -> P s -> step s l = some s' -> P s'

theorem Preserves.run {step : state -> label -> Option state} {allowed : label -> Prop}
    {P : state -> Prop} (h : Preserves step allowed P) :
    forall {s t : state} {ls : List label},
      (forall l, l ∈ ls -> allowed l) -> P s -> run step s ls = some t -> P t := by
  intro s t ls
  induction ls generalizing s with
  | nil =>
      intro _ hs hrun
      cases hrun
      exact hs
  | cons l rest ih =>
      intro hall hs hrun
      rw [run_cons] at hrun
      cases hstep : step s l with
      | none =>
          rw [hstep] at hrun
          cases hrun
      | some s' =>
          rw [hstep] at hrun
          have hs' : P s' := h s l s' (hall l (List.mem_cons_self ..)) hs hstep
          exact ih (fun l' hl' => hall l' (List.mem_cons_of_mem l hl')) hs' hrun

/-- A property that every step keeps, given a second property that every step keeps. -/
theorem Preserves.and {step : state -> label -> Option state} {allowed : label -> Prop}
    {P Q : state -> Prop} (hP : Preserves step allowed P)
    (hQ : forall s l s', allowed l -> P s -> Q s -> step s l = some s' -> Q s') :
    Preserves step allowed (fun s => P s ∧ Q s) := by
  intro s l s' hl hs hstep
  exact ⟨hP s l s' hl hs.1 hstep, hQ s l s' hl hs.1 hs.2 hstep⟩

/-!
## Reachable states
-/

/-- The states that some run from `init` ends in. -/
def Reachable (step : state -> label -> Option state) (init s : state) : Prop :=
  exists ls, run step init ls = some s

theorem Reachable.refl (step : state -> label -> Option state) (init : state) :
    Reachable step init init :=
  ⟨[], rfl⟩

theorem Reachable.next {step : state -> label -> Option state} {init s s' : state}
    {l : label} (hs : Reachable step init s) (hstep : step s l = some s') :
    Reachable step init s' := by
  rcases hs with ⟨ls, hrun⟩
  refine ⟨ls ++ [l], ?_⟩
  rw [run_snoc, hrun]
  exact hstep

/-- A run that ends somewhere reaches the state it ends in. -/
theorem Reachable.of_isSome {step : state -> label -> Option state} {init : state}
    {ls : List label} (h : (run step init ls).isSome = true) :
    Reachable step init ((run step init ls).getD init) := by
  refine ⟨ls, ?_⟩
  cases hr : run step init ls with
  | none =>
      rw [hr] at h
      cases h
  | some t => rfl

/-- An inductive invariant holds in every reachable state. -/
theorem Preserves.reachable {step : state -> label -> Option state} {P : state -> Prop}
    {init s : state} (h : Preserves step (fun _ => True) P) (hinit : P init)
    (hs : Reachable step init s) : P s := by
  rcases hs with ⟨ls, hrun⟩
  exact h.run (fun _ _ => trivial) hinit hrun

/-!
## Bounded runs
-/

/-- A measure that every enabled step lowers, from the states of an invariant the steps
keep, bounds the length of every run: each step costs at least one unit of it. -/
theorem run_length_le {step : state -> label -> Option state} {P : state -> Prop}
    (μ : state -> Nat) (hP : Preserves step (fun _ => True) P)
    (hμ : forall s l s', P s -> step s l = some s' -> μ s' < μ s) :
    forall {s t : state} {ls : List label}, P s -> run step s ls = some t ->
      ls.length + μ t ≤ μ s := by
  intro s t ls
  induction ls generalizing s with
  | nil =>
      intro _ hrun
      cases hrun
      simp
  | cons l rest ih =>
      intro hs hrun
      rw [run_cons] at hrun
      cases hstep : step s l with
      | none =>
          rw [hstep] at hrun
          cases hrun
      | some s' =>
          rw [hstep] at hrun
          have hlt := hμ s l s' hs hstep
          have hrest := ih (hP s l s' trivial hs hstep) hrun
          simp only [List.length_cons]
          omega

/-!
## Run logs

A run log pairs the state with the list of everything the steps so far reported.  It is a
run of the product system, so the rules above apply to properties of a state together
with its log.
-/

/-- One step of the product system: step the state, append what the step reports. -/
def logStep (step : state -> label -> Option state) (report : state -> label -> List obs) :
    state × List obs -> label -> Option (state × List obs)
  | (s, log), l => (step s l).map (fun s' => (s', log ++ report s l))

/-- Run the labels from `s`, collecting the reports of the steps in order. -/
def runLog (step : state -> label -> Option state) (report : state -> label -> List obs)
    (s : state) (ls : List label) : Option (state × List obs) :=
  run (logStep step report) (s, []) ls

theorem logStep_eq_some {step : state -> label -> Option state}
    {report : state -> label -> List obs} {s s' : state} {log log' : List obs} {l : label}
    (h : logStep step report (s, log) l = some (s', log')) :
    step s l = some s' ∧ log' = log ++ report s l := by
  simp only [logStep] at h
  cases hstep : step s l with
  | none =>
      rw [hstep] at h
      cases h
  | some t =>
      rw [hstep] at h
      cases h
      exact ⟨rfl, rfl⟩

theorem run_logStep_fst {step : state -> label -> Option state}
    {report : state -> label -> List obs} :
    forall (s : state) (log : List obs) (ls : List label),
      (run (logStep step report) (s, log) ls).map Prod.fst = run step s ls := by
  intro s log ls
  induction ls generalizing s log with
  | nil => rfl
  | cons l rest ih =>
      rw [run_cons, run_cons]
      cases hstep : step s l with
      | none =>
          simp [logStep, hstep]
      | some s' =>
          simp only [logStep, hstep, Option.map_some, Option.bind_some]
          exact ih s' (log ++ report s l)

/-- The state a run log ends in is the state the run ends in. -/
theorem runLog_state {step : state -> label -> Option state}
    {report : state -> label -> List obs} {s t : state} {log : List obs}
    {ls : List label} (h : runLog step report s ls = some (t, log)) :
    run step s ls = some t := by
  have hfst : (run (logStep step report) (s, []) ls).map Prod.fst = run step s ls :=
    run_logStep_fst s [] ls
  unfold runLog at h
  rw [h] at hfst
  exact hfst.symm

/-- A run log whose log is known ends in some state with that log. -/
theorem runLog_of_map_snd {step : state -> label -> Option state}
    {report : state -> label -> List obs} {s : state} {ls : List label} {log : List obs}
    (h : (runLog step report s ls).map Prod.snd = some log) :
    exists t, runLog step report s ls = some (t, log) := by
  cases hr : runLog step report s ls with
  | none =>
      rw [hr] at h
      cases h
  | some p =>
      rw [hr] at h
      have hp : p.2 = log := Option.some.inj h
      exact ⟨p.1, by rw [← hp]⟩

/-- A property of a state and the log so far that every allowed step keeps, with the step's
report appended, holds at the end of every run log of allowed labels that starts where it
holds. -/
theorem runLog_invariant_of {step : state -> label -> Option state}
    {report : state -> label -> List obs} {allowed : label -> Prop}
    {P : state -> List obs -> Prop}
    (hstep : forall s l s' log, allowed l -> P s log -> step s l = some s' ->
      P s' (log ++ report s l))
    {s t : state} {ls : List label} {log : List obs} (hall : forall l, l ∈ ls -> allowed l)
    (hinit : P s []) (h : runLog step report s ls = some (t, log)) : P t log := by
  have hpres : Preserves (logStep step report) allowed (fun p => P p.1 p.2) := by
    rintro ⟨s1, log1⟩ l ⟨s2, log2⟩ hl hp hs
    obtain ⟨hs', rfl⟩ := logStep_eq_some hs
    exact hstep s1 l s2 log1 hl hp hs'
  exact hpres.run hall hinit h

/-- A property of a state and the log so far that every step keeps, with the step's report
appended, holds at the end of every run log that starts where it holds. -/
theorem runLog_invariant {step : state -> label -> Option state}
    {report : state -> label -> List obs} {P : state -> List obs -> Prop}
    (hstep : forall s l s' log, P s log -> step s l = some s' -> P s' (log ++ report s l))
    {s t : state} {ls : List label} {log : List obs} (hinit : P s [])
    (h : runLog step report s ls = some (t, log)) : P t log :=
  runLog_invariant_of (fun s l s' log (_ : True) hp hs => hstep s l s' log hp hs)
    (fun _ _ => trivial) hinit h

theorem runLog_snoc (step : state -> label -> Option state)
    (report : state -> label -> List obs) (s : state) (ls : List label) (l : label) :
    runLog step report s (ls ++ [l]) =
      (runLog step report s ls).bind (fun p => logStep step report p l) := by
  unfold runLog
  rw [run_snoc]

end Foundation
end KubeTrigger
