/-
Computations that may fail: when a composed one succeeds, and with which
fault it fails otherwise.
-/
import Mathlib.Data.List.Forall2

namespace GrammarExplorer

variable {ε α β : Type}

theorem exists_of_bind_eq_ok {x : Except ε α} {f : α → Except ε β} {b : β}
    (h : (x >>= f) = .ok b) : ∃ a, x = .ok a ∧ f a = .ok b := by
  cases x with
  | error e => cases h
  | ok a => exact ⟨a, rfl, h⟩

theorem bind_eq_ok_iff {x : Except ε α} {f : α → Except ε β} {b : β} :
    (x >>= f) = .ok b ↔ ∃ a, x = .ok a ∧ f a = .ok b := by
  refine ⟨exists_of_bind_eq_ok, ?_⟩
  rintro ⟨a, rfl, h⟩
  exact h

theorem map_eq_ok_iff {x : Except ε α} {f : α → β} {b : β} :
    x.map f = .ok b ↔ ∃ a, x = .ok a ∧ f a = b := by
  cases x with
  | error e => simp [Except.map]
  | ok a => simp [Except.map]

theorem bind_ok_eq_map (x : Except ε α) (f : α → β) : (do let a ← x; return f a) = x.map f := by
  cases x <;> rfl

theorem mapError_eq_ok_iff {ε' : Type} {x : Except ε α} {f : ε → ε'} {a : α} :
    x.mapError f = .ok a ↔ x = .ok a := by
  cases x with
  | error e => simp [Except.mapError]
  | ok a => simp [Except.mapError]

theorem toOption_eq_some_iff {x : Except ε α} {a : α} : x.toOption = some a ↔ x = .ok a := by
  cases x with
  | error e => simp [Except.toOption]
  | ok b => simp [Except.toOption]

theorem mapM_eq_ok_iff {f : α → Except ε β} {xs : List α} {ys : List β} :
    xs.mapM f = .ok ys ↔ List.Forall₂ (fun x y => f x = .ok y) xs ys := by
  induction xs generalizing ys with
  | nil => simp [pure, Except.pure, eq_comm]
  | cons x xs ih =>
    simp only [List.mapM_cons, bind_eq_ok_iff, ih, List.forall₂_cons_left_iff, pure, Except.pure,
      Except.ok.injEq]
    constructor
    · rintro ⟨y, hy, ys', hys, rfl⟩
      exact ⟨y, ys', hy, hys, rfl⟩
    · rintro ⟨y, ys', hy, hys, rfl⟩
      exact ⟨y, hy, ys', hys, rfl⟩

/-- What went wrong, if anything did. -/
def fault? : Except ε α → Option ε
  | .ok _ => none
  | .error e => some e

theorem fault?_eq_some_iff {x : Except ε α} {e : ε} : fault? x = some e ↔ x = .error e := by
  cases x <;> simp [fault?]

theorem fault?_mapError {ε' : Type} (x : Except ε α) (f : ε → ε') :
    fault? (x.mapError f) = (fault? x).map f := by
  cases x <;> rfl

/-- A computation fails with the fault of its first part, if that one fails;
else with the fault of what follows. -/
theorem fault?_bind {x : Except ε α} {f : α → Except ε β} {later : Option ε}
    (h : ∀ a, x = .ok a → fault? (f a) = later) : fault? (x >>= f) = (fault? x).or later := by
  cases x with
  | error e => rfl
  | ok a => exact h a rfl

theorem fault?_bind_ok (x : Except ε α) (f : α → β) :
    (fault? (do let a ← x; return f a)) = fault? x := by
  cases x <;> rfl

theorem fault?_mapM (f : α → Except ε β) (xs : List α) :
    fault? (xs.mapM f) = xs.findSome? fun x => fault? (f x) := by
  induction xs with
  | nil => rfl
  | cons x xs ih =>
    have hrest : ∀ y, f x = .ok y → fault? (do let ys ← xs.mapM f; pure (y :: ys))
        = xs.findSome? fun x => fault? (f x) := fun y _ => by
      rw [← ih]
      cases xs.mapM f <;> rfl
    rw [List.mapM_cons, fault?_bind hrest, List.findSome?_cons]
    cases fault? (f x) <;> rfl

/-- Where all that is wrong with two parts is listed, a computation of both
fails with the head of the list. -/
theorem fault?_bind_eq_head? {x : Except ε α} {f : α → Except ε β} {faults later : List ε}
    (hx : fault? x = faults.head?) (hf : ∀ a, x = .ok a → fault? (f a) = later.head?) :
    fault? (x >>= f) = (faults ++ later).head? := by
  rw [fault?_bind hf, hx, List.head?_append]

theorem fault?_mapM_eq_head? {f : α → Except ε β} {xs : List α} {faults : α → List ε}
    (h : ∀ x, fault? (f x) = (faults x).head?) :
    fault? (xs.mapM f) = (xs.flatMap faults).head? := by
  rw [fault?_mapM, List.head?_flatMap]
  simp only [h]

end GrammarExplorer
