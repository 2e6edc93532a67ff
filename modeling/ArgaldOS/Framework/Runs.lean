import Mathlib.Order.Defs.PartialOrder

/-! # Runs of a deterministic system

    A program whose calls arrive in an arbitrary order is a step function
    `step : S → A → S` over a state `S` and a type `A` of calls.  A run is a
    list of calls.  This module collects what is needed to talk about every
    step of a run and to prove it by induction once:

    * `run`: the state a list of calls ends in;
    * `Along P`: the predicate `P` (on the state before a call, and the call)
      holds at every call of a run;
    * the invariant rules `run_invariant`, `Along.imp` and `Along.iff`;
    * the same for partial systems, whose calls may fail to return
      (`step : S → A → Option S`): `exec`, `ExecAlong`, and their rules
      `exec_invariant`, `ExecAlong.imp`;
    * `exec_simulation`: a partial system whose steps follow those of a total
      one does so along every run that returns.
-/

namespace Runs

variable {S : Type u} {A : Type v}

/-! ## Section 1: Total systems -/

section total
variable (step : S → A → S)

/-- The state reached from `s` by the calls `as`, first call first. -/
def run : S → List A → S
  | s, [] => s
  | s, a :: as => run (step s a) as

/-- `P` holds of the state before each call and of the call, all along the
    run of `as` from `s`. -/
def Along (P : S → A → Prop) : S → List A → Prop
  | _, [] => True
  | s, a :: as => P s a ∧ Along P (step s a) as

@[simp] theorem run_nil (s : S) : run step s [] = s := rfl

@[simp] theorem run_cons (s : S) (a : A) (as : List A) :
    run step s (a :: as) = run step (step s a) as := rfl

@[simp] theorem along_nil (P : S → A → Prop) (s : S) : Along step P s [] := trivial

@[simp] theorem along_cons (P : S → A → Prop) (s : S) (a : A) (as : List A) :
    Along step P s (a :: as) ↔ P s a ∧ Along step P (step s a) as := Iff.rfl

theorem run_append (s : S) (as bs : List A) :
    run step s (as ++ bs) = run step (run step s as) bs := by
  induction as generalizing s with
  | nil => rfl
  | cons a as ih => exact ih (step s a)

theorem along_append (P : S → A → Prop) (s : S) (as bs : List A) :
    Along step P s (as ++ bs) ↔ Along step P s as ∧ Along step P (run step s as) bs := by
  induction as generalizing s with
  | nil => simp
  | cons a as ih => simp only [List.cons_append, along_cons, run_cons, ih, and_assoc]

/-- What holds of every call in every state holds along the run. -/
theorem along_of_forall {P : S → A → Prop} {as : List A} (h : ∀ s, ∀ a ∈ as, P s a) (s : S) :
    Along step P s as := by
  induction as generalizing s with
  | nil => trivial
  | cons a as ih =>
    exact ⟨h s a List.mem_cons_self, ih (fun t b hb => h t b (List.mem_cons_of_mem _ hb)) _⟩

variable {step}

/-- **Invariant rule**: what holds initially and is kept by every call the
    run makes holds in the state the run ends in. -/
theorem run_invariant {P : S → A → Prop} {Inv : S → Prop}
    (hstep : ∀ s a, Inv s → P s a → Inv (step s a))
    {s : S} {as : List A} (hinit : Inv s) (hrun : Along step P s as) :
    Inv (run step s as) := by
  induction as generalizing s with
  | nil => exact hinit
  | cons a as ih =>
    obtain ⟨hP, hrest⟩ := hrun
    exact ih (hstep s a hinit hP) hrest

/-- Consequence along a run, with an invariant to strengthen the hypothesis. -/
theorem Along.imp {P Q : S → A → Prop} (Inv : S → Prop)
    (hstep : ∀ s a, Inv s → P s a → Inv (step s a))
    (hPQ : ∀ s a, Inv s → P s a → Q s a)
    {s : S} {as : List A} (hinit : Inv s) (hrun : Along step P s as) :
    Along step Q s as := by
  induction as generalizing s with
  | nil => trivial
  | cons a as ih =>
    obtain ⟨hP, hrest⟩ := hrun
    exact ⟨hPQ s a hinit hP, ih (hstep s a hinit hP) hrest⟩

/-- Two step predicates that agree in every state satisfying `Inv` agree along
    every legal run, if a legal step that satisfies them keeps `Inv`.  The
    invariant may fail after a step that violates them: by then both sides of
    the equivalence are false. -/
theorem Along.iff {L P Q : S → A → Prop} (Inv : S → Prop)
    (hstep : ∀ s a, Inv s → L s a → P s a → Inv (step s a))
    (hPQ : ∀ s a, Inv s → L s a → (P s a ↔ Q s a))
    {s : S} {as : List A} (hinit : Inv s) (hrun : Along step L s as) :
    Along step P s as ↔ Along step Q s as := by
  induction as generalizing s with
  | nil => exact Iff.rfl
  | cons a as ih =>
    obtain ⟨hL, hrest⟩ := hrun
    constructor
    · rintro ⟨hP, hPs⟩
      exact ⟨(hPQ s a hinit hL).mp hP, (ih (hstep s a hinit hL hP) hrest).mp hPs⟩
    · rintro ⟨hQ, hQs⟩
      have hP : P s a := (hPQ s a hinit hL).mpr hQ
      exact ⟨hP, (ih (hstep s a hinit hL hP) hrest).mpr hQs⟩

end total

/-! ## Section 2: Partial systems -/

section partial_systems
variable (step : S → A → Option S)

/-- The calls `as` one after the other; `none` as soon as one of them does
    not return. -/
def exec : S → List A → Option S
  | s, [] => some s
  | s, a :: as => (step s a).bind fun s' => exec s' as

@[simp] theorem exec_nil (s : S) : exec step s [] = some s := rfl

@[simp] theorem exec_cons (s : S) (a : A) (as : List A) :
    exec step s (a :: as) = (step s a).bind fun s' => exec step s' as := rfl

variable {step}

/-- `P` holds of the state before each call and of the call, as long as the
    calls before it return. -/
def ExecAlong (step : S → A → Option S) (P : S → A → Prop) : S → List A → Prop
  | _, [] => True
  | s, a :: as => P s a ∧ ∀ s', step s a = some s' → ExecAlong step P s' as

theorem execAlong_of_forall {P : S → A → Prop} (h : ∀ s a, P s a) (s : S) (as : List A) :
    ExecAlong step P s as := by
  induction as generalizing s with
  | nil => trivial
  | cons a as ih => exact ⟨h s a, fun s' _ => ih s'⟩

/-- **Invariant rule** for partial systems: what holds initially and is kept by
    every call that returns holds in the state the run ends in. -/
theorem exec_invariant {P : S → A → Prop} {Inv : S → Prop}
    (hstep : ∀ s a s', Inv s → P s a → step s a = some s' → Inv s')
    {s s' : S} {as : List A} (hinit : Inv s) (hrun : ExecAlong step P s as)
    (hexec : exec step s as = some s') : Inv s' := by
  induction as generalizing s with
  | nil =>
    obtain rfl := Option.some.inj hexec
    exact hinit
  | cons a as ih =>
    obtain ⟨hP, hrest⟩ := hrun
    obtain ⟨s₁, h₁, h₂⟩ := Option.bind_eq_some_iff.mp hexec
    exact ih (hstep s a s₁ hinit hP h₁) (hrest s₁ h₁) h₂

/-- Consequence along a run of a partial system. -/
theorem ExecAlong.imp {P Q : S → A → Prop} (Inv : S → Prop)
    (hstep : ∀ s a s', Inv s → P s a → step s a = some s' → Inv s')
    (hPQ : ∀ s a, Inv s → P s a → Q s a)
    {s : S} {as : List A} (hinit : Inv s) (hrun : ExecAlong step P s as) :
    ExecAlong step Q s as := by
  induction as generalizing s with
  | nil => trivial
  | cons a as ih =>
    obtain ⟨hP, hrest⟩ := hrun
    exact ⟨hPQ s a hinit hP, fun s' hs' => ih (hstep s a s' hinit hP hs') (hrest s' hs')⟩

/-- **Simulation rule**: if every step that returns is a step of a total system
    under the abstraction `abs`, so is every run. -/
theorem exec_simulation {T : Type w} {abstractStep : T → A → T} (abs : S → T)
    (hstep : ∀ s a s', step s a = some s' → abs s' = abstractStep (abs s) a)
    {s s' : S} {as : List A} (hexec : exec step s as = some s') :
    abs s' = run abstractStep (abs s) as := by
  induction as generalizing s with
  | nil =>
    obtain rfl := Option.some.inj hexec
    rfl
  | cons a as ih =>
    obtain ⟨s₁, h₁, h₂⟩ := Option.bind_eq_some_iff.mp hexec
    rw [ih h₂, hstep s a s₁ h₁, run_cons]

end partial_systems

end Runs
