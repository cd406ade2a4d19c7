import Mathlib.Control.Basic

/-!
# Programs that fail and keep their state

A program reads and writes a state and may raise an exception; what it wrote
before stays.  A triple speaks about those executions whose final state is
allowed: the condition is one that no later state can repair, such as one about
everything recorded so far.
-/

namespace PqcScan
namespace Library

/-- A program over a state that may raise an exception. -/
abbrev Program (σ ε : Type) := ExceptT ε (StateM σ)

namespace Program

variable {σ ε α β : Type}

/-- The outcome of a program and the state it leaves. -/
def execute (program : Program σ ε α) (state : σ) : Except ε α × σ :=
  program.run.run state

/-- Replace the state and return a value. -/
def update (change : σ → α × σ) : Program σ ε α :=
  ExceptT.mk fun state => (.ok (change state).1, (change state).2)

/-- Run a program and return its outcome, exceptions included. -/
def attempt (program : Program σ ε α) : Program σ ε (Except ε α) :=
  ExceptT.mk fun state => (.ok (program.execute state).1, (program.execute state).2)

@[simp] theorem execute_pure (value : α) (state : σ) :
    (pure value : Program σ ε α).execute state = (.ok value, state) := rfl

@[simp] theorem execute_throw (error : ε) (state : σ) :
    (throw error : Program σ ε α).execute state = (.error error, state) := rfl

@[simp] theorem execute_update (change : σ → α × σ) (state : σ) :
    (update change : Program σ ε α).execute state =
      (.ok (change state).1, (change state).2) := rfl

@[simp] theorem execute_attempt (program : Program σ ε α) (state : σ) :
    (attempt program).execute state =
      (.ok (program.execute state).1, (program.execute state).2) := rfl

theorem execute_bind (program : Program σ ε α) (next : α → Program σ ε β)
    (state : σ) :
    (program >>= next).execute state =
      match program.execute state with
      | (.ok value, after) => (next value).execute after
      | (.error error, after) => (.error error, after) := by
  change ExceptT.bindCont next (program.execute state).1
    (program.execute state).2 = _
  rcases program.execute state with ⟨error | value, after⟩
  · rfl
  · rfl

/-- A sequence that returned ran through a state in between. -/
theorem execute_bind_eq_ok {program : Program σ ε α} {next : α → Program σ ε β}
    {state after : σ} {value : β} :
    (program >>= next).execute state = (.ok value, after) ↔
      ∃ first middle, program.execute state = (.ok first, middle) ∧
        (next first).execute middle = (.ok value, after) := by
  rw [execute_bind]
  rcases program.execute state with ⟨error | first, middle⟩
  · constructor
    · exact nofun
    · rintro ⟨_, _, ⟨⟩, _⟩
  · constructor
    · exact fun rest => ⟨first, middle, rfl, rest⟩
    · rintro ⟨_, _, ⟨⟩, rest⟩
      exact rest

/-! ## Triples -/

/-- Every execution from a state that meets `pre` and to an
allowed state meets `post`. -/
structure Ensures (allowed pre : σ → Prop) (program : Program σ ε α)
    (post : Except ε α → σ → Prop) : Prop where
  /-- What is not allowed before is not allowed after. -/
  earlier : ∀ state, allowed (program.execute state).2 → allowed state
  holds : ∀ state, allowed (program.execute state).2 → pre state →
    post (program.execute state).1 (program.execute state).2

section Rules

variable {allowed pre : σ → Prop} {program : Program σ ε α}

theorem ensures_pure {value : α} {post : Except ε α → σ → Prop}
    (holds : ∀ state, allowed state → pre state → post (.ok value) state) :
    Ensures allowed pre (pure value : Program σ ε α) post :=
  ⟨fun _ good => good, holds⟩

theorem ensures_throw {error : ε} {post : Except ε α → σ → Prop}
    (holds : ∀ state, allowed state → pre state → post (.error error) state) :
    Ensures allowed pre (throw error : Program σ ε α) post :=
  ⟨fun _ good => good, holds⟩

theorem ensures_update {change : σ → α × σ} {post : Except ε α → σ → Prop}
    (earlier : ∀ state, allowed (change state).2 → allowed state)
    (holds : ∀ state, allowed (change state).2 → pre state →
      post (.ok (change state).1) (change state).2) :
    Ensures allowed pre (update change) post :=
  ⟨earlier, holds⟩

/-- An exception of the first program is one of the whole. -/
theorem Ensures.bind {middle : Except ε α → σ → Prop}
    {next : α → Program σ ε β} {post : Except ε β → σ → Prop}
    (first : Ensures allowed pre program middle)
    (rest : ∀ value, Ensures allowed (middle (.ok value)) (next value) post)
    (raised : ∀ error state, allowed state → middle (.error error) state →
      post (.error error) state) :
    Ensures allowed pre (program >>= next) post := by
  constructor
  · intro state good
    rw [execute_bind] at good
    apply first.earlier
    rcases outcome : program.execute state with ⟨error | value, after⟩
    · rw [outcome] at good
      exact good
    · rw [outcome] at good
      exact (rest value).earlier after good
  · intro state good meets
    rw [execute_bind] at good ⊢
    have earlier := first.earlier state
    have holds := first.holds state
    rcases outcome : program.execute state with ⟨error | value, after⟩
    · rw [outcome] at good earlier holds
      exact raised error after good (holds good meets)
    · rw [outcome] at good earlier holds
      have between := (rest value).earlier after good
      exact (rest value).holds after good (holds between meets)

/-- What follows a caught program starts from either of its outcomes. -/
theorem Ensures.attempt_bind {middle : Except ε α → σ → Prop}
    {next : Except ε α → Program σ ε β} {post : Except ε β → σ → Prop}
    (inner : Ensures allowed pre program middle)
    (rest : ∀ outcome, Ensures allowed (middle outcome) (next outcome) post) :
    Ensures allowed pre (attempt program >>= next) post := by
  constructor
  · intro state good
    exact inner.earlier state ((rest _).earlier _ good)
  · intro state good meets
    exact (rest _).holds _ good
      (inner.holds state ((rest _).earlier _ good) meets)

/-- What follows an update starts from what the update gives. -/
theorem Ensures.update_bind {κ : Type} {change : σ → κ × σ} {next : κ → Program σ ε β}
    {post : Except ε β → σ → Prop} (middle : κ → σ → Prop)
    (earlier : ∀ state, allowed (change state).2 → allowed state)
    (moves : ∀ state, pre state → middle (change state).1 (change state).2)
    (rest : ∀ value, Ensures allowed (middle value) (next value) post) :
    Ensures allowed pre (update change >>= next) post := by
  constructor
  · intro state good
    exact earlier state ((rest _).earlier _ good)
  · intro state good meets
    exact (rest _).holds _ good (moves state meets)

/-- Assume more, promise less. -/
theorem Ensures.weaken {pre' : σ → Prop} {post post' : Except ε α → σ → Prop}
    (triple : Ensures allowed pre program post)
    (assumed : ∀ state, pre' state → pre state)
    (promised : ∀ outcome state, post outcome state → post' outcome state) :
    Ensures allowed pre' program post' :=
  ⟨triple.earlier, fun state good meets =>
    promised _ _ (triple.holds state good (assumed state meets))⟩

/-- Assume more. -/
theorem Ensures.assume {pre' : σ → Prop} {post : Except ε α → σ → Prop}
    (triple : Ensures allowed pre program post)
    (assumed : ∀ state, pre' state → pre state) :
    Ensures allowed pre' program post :=
  triple.weaken assumed fun _ _ meets => meets

/-- Remember a value of the first state. -/
theorem Ensures.remember {κ : Type} {value : σ → κ} {post : Except ε α → σ → Prop}
    (triple : ∀ known, Ensures allowed (fun state => pre state ∧ value state = known)
      program post) :
    Ensures allowed pre program post :=
  ⟨fun state good => (triple (value state)).earlier state good,
    fun state good meets => (triple (value state)).holds state good ⟨meets, rfl⟩⟩

end Rules

/-! ## Invariants -/

/-- The program keeps an invariant, whether it returns or raises. -/
def Keeps (allowed invariant : σ → Prop) (program : Program σ ε α) : Prop :=
  Ensures allowed invariant program fun _ state => invariant state

section Invariants

variable {allowed invariant : σ → Prop}

theorem keeps_pure (value : α) : Keeps allowed invariant (pure value : Program σ ε α) :=
  ensures_pure fun _ _ meets => meets

theorem keeps_throw (error : ε) : Keeps allowed invariant (throw error : Program σ ε α) :=
  ensures_throw fun _ _ meets => meets

theorem Keeps.bind {program : Program σ ε α} {next : α → Program σ ε β}
    (first : Keeps allowed invariant program)
    (rest : ∀ value, Keeps allowed invariant (next value)) :
    Keeps allowed invariant (program >>= next) :=
  Ensures.bind first rest fun _ _ _ meets => meets

theorem Keeps.attempt_bind {program : Program σ ε α}
    {next : Except ε α → Program σ ε β} (first : Keeps allowed invariant program)
    (rest : ∀ outcome, Keeps allowed invariant (next outcome)) :
    Keeps allowed invariant (attempt program >>= next) :=
  Ensures.attempt_bind first rest

end Invariants

end Program

end Library
end PqcScan
