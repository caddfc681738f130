import Mathlib

/-!
# Programs in lockstep

Programs over a state that may raise: what one ensures of its result, and when two of them go
through the same states and end alike.
-/

namespace Programs

/-- A program over a state, which it leaves behind whether it returns or raises. -/
def Program (σ ε α : Type) : Type := σ → Except ε α × σ

variable {σ ε α β γ δ : Type}

namespace Program

/-- The program after the result of another. -/
def andThen (p : Program σ ε α) (f : α → Program σ ε β) : Program σ ε β := fun s =>
  match p s with
  | (.ok a, s') => f a s'
  | (.error e, s') => (.error e, s')

instance : Monad (Program σ ε) where
  pure a := fun s => (.ok a, s)
  bind := andThen

def raise (e : ε) : Program σ ε α := fun s => (.error e, s)

def raiseIf (condition : Bool) (e : ε) : Program σ ε Unit :=
  if condition then raise e else pure ()

/-- A handler that raises every error again as another, or as itself. -/
def handle (convert : ε → ε) (p : Program σ ε α) : Program σ ε α := fun s =>
  match p s with
  | (.ok a, s') => (.ok a, s')
  | (.error e, s') => (.error (convert e), s')

/-- `try: p finally: cleanup`. -/
def withCleanup (cleanup : Program σ ε Unit) (p : Program σ ε α) : Program σ ε α := fun s =>
  match p s with
  | (result, s') =>
    match cleanup s' with
    | (.ok _, s'') => (result, s'')
    | (.error e, s'') => (.error e, s'')

theorem bind_eq (p : Program σ ε α) (f : α → Program σ ε β) : p >>= f = p.andThen f := rfl

end Program

open Program

/-! ### What a program ensures -/

/-- Every result that the program returns has the property. -/
def Ensures (p : Program σ ε α) (P : α → Prop) : Prop := ∀ s a, (p s).1 = .ok a → P a

theorem Ensures.of_forall {p : Program σ ε α} {P : α → Prop} (all : ∀ a, P a) : Ensures p P :=
  fun _ a _ => all a

theorem Ensures.pure {P : α → Prop} {a : α} (h : P a) :
    Ensures (Pure.pure a : Program σ ε α) P := by
  intro s b returned
  rw [← Except.ok.inj returned]
  exact h

theorem Ensures.bind {p : Program σ ε α} {f : α → Program σ ε β} {P : α → Prop} {Q : β → Prop}
    (first : Ensures p P) (next : ∀ a, P a → Ensures (f a) Q) : Ensures (p >>= f) Q := by
  intro s b returned
  rw [bind_eq, andThen] at returned
  cases run : p s with
  | mk result s' =>
    rw [run] at returned
    cases result with
    | error e => cases returned
    | ok a => exact next a (first s a (by rw [run])) s' b returned

theorem Ensures.raiseIf {condition : Bool} {e : ε} :
    Ensures (Program.raiseIf condition e : Program σ ε Unit) fun _ => condition = false := by
  intro s a returned
  cases condition with
  | false => rfl
  | true => cases returned

theorem Ensures.handle {convert : ε → ε} {p : Program σ ε α} {P : α → Prop} (h : Ensures p P) :
    Ensures (Program.handle convert p) P := by
  intro s a returned
  rw [Program.handle] at returned
  cases run : p s with
  | mk result s' =>
    rw [run] at returned
    cases result with
    | error e => cases returned
    | ok b => exact h s a (by rw [run]; exact returned)

theorem Ensures.withCleanup {cleanup : Program σ ε Unit} {p : Program σ ε α} {P : α → Prop}
    (h : Ensures p P) : Ensures (Program.withCleanup cleanup p) P := by
  intro s a returned
  rw [Program.withCleanup] at returned
  cases run : p s with
  | mk result s' =>
    rw [run] at returned
    cases cleaned : cleanup s' with
    | mk ended s'' =>
      simp only [cleaned] at returned
      cases ended with
      | error e => cases returned
      | ok u => exact h s a (by rw [run]; exact returned)

/-! ### Two programs -/

/-- Both return related results, or both raise alike. -/
def EndsAlike (alike : ε → ε → Prop) (R : α → β → Prop) : Except ε α → Except ε β → Prop
  | .ok a, .ok b => R a b
  | .error e, .error e' => alike e e'
  | _, _ => False

/-- From every state both programs come to the same state and end alike. -/
def Lockstep (alike : ε → ε → Prop) (R : α → β → Prop) (p : Program σ ε α) (q : Program σ ε β) :
    Prop :=
  ∀ s, (p s).2 = (q s).2 ∧ EndsAlike alike R (p s).1 (q s).1

variable {alike : ε → ε → Prop} {R : α → β → Prop} {S : γ → δ → Prop}

theorem Lockstep.pure {a : α} {b : β} (h : R a b) :
    Lockstep alike R (Pure.pure a : Program σ ε α) (Pure.pure b) := fun _ => ⟨rfl, h⟩

theorem Lockstep.raiseIf (condition : Bool) {e e' : ε} (h : alike e e') :
    Lockstep alike (fun _ _ => True) (Program.raiseIf condition e : Program σ ε Unit)
      (Program.raiseIf condition e') := by
  cases condition with
  | false => exact fun _ => ⟨rfl, trivial⟩
  | true => exact fun _ => ⟨rfl, h⟩

/-- A program is in lockstep with itself. -/
theorem Lockstep.refl (self : ∀ e, alike e e) (p : Program σ ε α) :
    Lockstep alike (fun a b => a = b) p p := by
  intro s
  refine ⟨rfl, ?_⟩
  cases (p s).1 with
  | error e => exact self e
  | ok a => exact rfl

theorem Lockstep.bind {p : Program σ ε α} {q : Program σ ε β} {f : α → Program σ ε γ}
    {g : β → Program σ ε δ} (first : Lockstep alike R p q)
    (next : ∀ a b, R a b → Lockstep alike S (f a) (g b)) :
    Lockstep alike S (p >>= f) (q >>= g) := by
  intro s
  obtain ⟨states, ends⟩ := first s
  rw [bind_eq, bind_eq, andThen, andThen]
  cases left : p s with
  | mk result s' =>
    cases right : q s with
    | mk other t' =>
      rw [left, right] at states ends
      obtain rfl : s' = t' := states
      cases result with
      | error e =>
        cases other with
        | error e' => exact ⟨rfl, ends⟩
        | ok b => exact ends.elim
      | ok a =>
        cases other with
        | error e' => exact ends.elim
        | ok b => exact next a b ends s'

/-- A last step of the first program that only turns its result into another. -/
theorem Lockstep.map_left {p : Program σ ε α} {q : Program σ ε β} {f : α → γ} {T : γ → β → Prop}
    (h : Lockstep alike R p q) (related : ∀ a b, R a b → T (f a) b) :
    Lockstep alike T (p >>= fun a => Pure.pure (f a)) q := by
  intro s
  obtain ⟨states, ends⟩ := h s
  rw [bind_eq, andThen]
  cases left : p s with
  | mk result s' =>
    rw [left] at states ends
    cases result with
    | error e =>
      refine ⟨states, ?_⟩
      cases right : (q s).1 with
      | error e' =>
        rw [right] at ends
        exact ends
      | ok b =>
        rw [right] at ends
        exact ends.elim
    | ok a =>
      refine ⟨states, ?_⟩
      cases right : (q s).1 with
      | error e' =>
        rw [right] at ends
        exact ends.elim
      | ok b =>
        rw [right] at ends
        exact related a b ends

theorem Lockstep.handle {convert convert' : ε → ε} {p : Program σ ε α} {q : Program σ ε β}
    (h : Lockstep alike R p q) (errors : ∀ e e', alike e e' → alike (convert e) (convert' e')) :
    Lockstep alike R (Program.handle convert p) (Program.handle convert' q) := by
  intro s
  obtain ⟨states, ends⟩ := h s
  rw [Program.handle, Program.handle]
  cases left : p s with
  | mk result s' =>
    cases right : q s with
    | mk other t' =>
      rw [left, right] at states ends
      obtain rfl : s' = t' := states
      cases result with
      | error e =>
        cases other with
        | error e' => exact ⟨rfl, errors e e' ends⟩
        | ok b => exact ends.elim
      | ok a =>
        cases other with
        | error e' => exact ends.elim
        | ok b => exact ⟨rfl, ends⟩

theorem Lockstep.withCleanup {cleanup : Program σ ε Unit} {p : Program σ ε α}
    {q : Program σ ε β} (h : Lockstep alike R p q) (self : ∀ e, alike e e) :
    Lockstep alike R (Program.withCleanup cleanup p) (Program.withCleanup cleanup q) := by
  intro s
  obtain ⟨states, ends⟩ := h s
  rw [Program.withCleanup, Program.withCleanup]
  cases left : p s with
  | mk result s' =>
    cases right : q s with
    | mk other t' =>
      rw [left, right] at states ends
      obtain rfl : s' = t' := states
      cases cleaned : cleanup s' with
      | mk ended s'' =>
        simp only [cleaned]
        cases ended with
        | error e => exact ⟨rfl, self e⟩
        | ok u => exact ⟨rfl, ends⟩

end Programs
