import Mathlib.Logic.Basic

/-!
# Fallible computations

A computation in `Except` that succeeds succeeded at each of its binds, and a fold of a
fallible step over a list that succeeds keeps every invariant that each successful step
keeps.
-/

namespace KubeTrigger
namespace Foundation

variable {ε α β : Type}

theorem except_bind_eq_ok {x : Except ε α} {f : α -> Except ε β} {b : β} :
    x >>= f = Except.ok b ↔ ∃ a, x = Except.ok a ∧ f a = Except.ok b := by
  cases x with
  | error e => simp [bind, Except.bind]
  | ok a => simp [bind, Except.bind]

theorem except_bind_unit_eq_ok {x : Except ε Unit} {f : Unit -> Except ε β} {b : β} :
    x >>= f = Except.ok b ↔ x = Except.ok () ∧ f () = Except.ok b := by
  rw [except_bind_eq_ok]
  constructor
  · rintro ⟨⟨⟩, hx, hf⟩
    exact ⟨hx, hf⟩
  · rintro ⟨hx, hf⟩
    exact ⟨(), hx, hf⟩

theorem except_bind_eq_error {x : Except ε α} {f : α -> Except ε β} {e : ε} :
    x >>= f = Except.error e ↔ x = Except.error e ∨ ∃ a, x = Except.ok a ∧ f a = Except.error e := by
  cases x with
  | error e' => simp [bind, Except.bind]
  | ok a => simp [bind, Except.bind]

/-- A loop of fallible checks succeeds when every check does. -/
theorem forM_eq_ok {f : α -> Except ε Unit} :
    ∀ {l : List α}, l.forM f = Except.ok () ↔ ∀ a, a ∈ l -> f a = Except.ok ()
  | [] => by
      show (Except.ok () : Except ε Unit) = Except.ok () ↔ _
      simp
  | a :: l => by
      show (f a >>= fun _ => l.forM f) = Except.ok () ↔ _
      rw [except_bind_unit_eq_ok, forM_eq_ok]
      simp

/-- An invariant of every successful step holds after a successful fold. -/
theorem foldlM_preserves {f : β -> α -> Except ε β} {P : β -> Prop}
    (hstep : ∀ b a b', f b a = Except.ok b' -> P b -> P b') :
    ∀ {l : List α} {b b' : β}, l.foldlM f b = Except.ok b' -> P b -> P b'
  | [], b, b', h, hb => by
      cases h
      exact hb
  | a :: l, b, b', h, hb => by
      rw [List.foldlM_cons, except_bind_eq_ok] at h
      obtain ⟨b1, h1, h2⟩ := h
      exact foldlM_preserves hstep h2 (hstep b a b1 h1 hb)

end Foundation
end KubeTrigger
