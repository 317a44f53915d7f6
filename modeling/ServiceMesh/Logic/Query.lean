import Mathlib.Data.List.Basic

/-!
# Computations that ask

A `Query` asks for the values at keys, one after the other, and goes on with every answer. Under a function that answers
(`eval`) it has a value; under a server with a state (`serve`) it has a value and leaves a state. A server that always
says what the function says cannot be told from it (`serve_eq_eval`). Queries are a monad, so loops over lists with early
returns are queries when their bodies are (`eval_findM?`, `eval_allM`).
-/

/-- A computation that asks for values `V` at keys `K`. -/
inductive Query (K V α : Type) where
  | ret (a : α)
  | ask (key : K) (go : V → Query K V α)

namespace Query

variable {K V σ α β : Type}

protected def bind : Query K V α → (α → Query K V β) → Query K V β
  | ret a, next => next a
  | ask key go, next => .ask key fun value => (go value).bind next

instance : Monad (Query K V) where
  pure := .ret
  bind := .bind

/-- One question. -/
def get (key : K) : Query K V V := .ask key .ret

/-- The value of a query when every question gets its answer from a function. -/
def eval (answer : K → V) : Query K V α → α
  | ret a => a
  | ask key go => (go (answer key)).eval answer

/-- The value of a query, and the state it leaves, when every question changes the state of a server. -/
def serve (server : K → σ → V × σ) : Query K V α → σ → α × σ
  | ret a, s => (a, s)
  | ask key go, s => (go (server key s).1).serve server (server key s).2

/-- The number of questions that it asks of a function. -/
def questions (answer : K → V) : Query K V α → Nat
  | ret _ => 0
  | ask key go => (go (answer key)).questions answer + 1

variable (answer : K → V)

@[simp] theorem eval_pure (a : α) : eval answer (pure a : Query K V α) = a := rfl

@[simp] theorem eval_get (key : K) : eval answer (get key) = answer key := rfl

@[simp] theorem eval_bind (q : Query K V α) (next : α → Query K V β) :
    eval answer (q >>= next) = eval answer (next (eval answer q)) := by
  induction q with
  | ret a => rfl
  | ask key go ih => exact ih (answer key)

@[simp] theorem eval_ite {p : Prop} [Decidable p] (q q' : Query K V α) :
    eval answer (if p then q else q') = if p then eval answer q else eval answer q' :=
  apply_ite (eval answer) p q q'

/-- A loop that returns `false` at the first element that fails. -/
@[simp] theorem eval_allM (p : α → Query K V Bool) (as : List α) :
    eval answer (as.allM p) = as.all fun a => eval answer (p a) := by
  induction as with
  | nil => rfl
  | cons a as ih =>
    rw [List.allM_cons, eval_bind, List.all_cons]
    cases eval answer (p a) with
    | false => rfl
    | true => exact ih

/-- A loop that returns the first element that fits. -/
@[simp] theorem eval_findM? (p : α → Query K V Bool) (as : List α) :
    eval answer (as.findM? p) = as.find? fun a => eval answer (p a) := by
  induction as with
  | nil => rfl
  | cons a as ih =>
    rw [List.findM?, eval_bind, List.find?_cons]
    cases eval answer (p a) with
    | false => exact ih
    | true => rfl

variable {answer} in
/-- **Transparent servers.** Where every answer is the function's and an invariant survives it, a query has the value
that it has under the function. -/
theorem serve_eq_eval {server : K → σ → V × σ} {I : σ → Prop}
    (same : ∀ key s, I s → (server key s).1 = answer key ∧ I (server key s).2) (q : Query K V α) {s : σ} (start : I s) :
    (q.serve server s).1 = q.eval answer ∧ I (q.serve server s).2 := by
  induction q generalizing s with
  | ret a => exact ⟨rfl, start⟩
  | ask key go ih =>
    obtain ⟨told, next⟩ := same key s start
    rw [serve, eval, told]
    exact ih (answer key) next

end Query
