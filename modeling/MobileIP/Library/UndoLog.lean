import Mathlib.Data.List.Basic
import Mathlib.Tactic.Common

/-! Transactions with an undo log. A group of commands runs one after another, every success
leaves a record, and the first failure plays the records back, the latest first. -/
namespace UndoLog

variable {σ κ υ ε : Type*} (step : σ → κ → Except ε (σ × υ)) (undo : σ → υ → σ)

/-- Undo the records of the log; its head is the latest. -/
def rollback : σ → List υ → σ
  | s, [] => s
  | s, u :: log => rollback (undo s u) log

/-- Run the commands, or stop at the first failure and roll back. -/
def transact : σ → List κ → List υ → σ × Option ε
  | s, [], _ => (s, none)
  | s, c :: cs, log =>
    match step s c with
    | .error e => (rollback undo s log, some e)
    | .ok (s', u) => transact s' cs (u :: log)

variable {ν : Type*} (view : σ → ν) (Inv : σ → Prop) (Able : υ → Prop)

/-- What an undo has to do: put the view back from any good state that looks like the state
after the command, and end in a good state again. -/
structure Reverts : Prop where
  step_inv : ∀ s c s' u, Inv s → step s c = .ok (s', u) → Inv s' ∧ Able u
  undo_inv : ∀ s u, Inv s → Able u → Inv (undo s u)
  undo_view : ∀ s c s' u, Inv s → step s c = .ok (s', u) → ∀ t, Inv t → view t = view s' →
    view (undo t u) = view s

variable {step undo view Inv Able}

/-- `Records s₀ log s`: undoing the log from any good state that looks like `s` leads to one that
looks like `s₀`. -/
def Records (undo : σ → υ → σ) (view : σ → ν) (Inv : σ → Prop) (s₀ : σ) (log : List υ) (s : σ) : Prop :=
  ∀ t, Inv t → view t = view s → Inv (rollback undo t log) ∧ view (rollback undo t log) = view s₀

theorem Records.cons (hr : Reverts step undo view Inv Able) {s₀ s s' : σ} {log : List υ} {c : κ} {u : υ}
    (hs : Inv s) (hlog : Records undo view Inv s₀ log s) (hstep : step s c = .ok (s', u)) :
    Records undo view Inv s₀ (u :: log) s' := by
  intro t ht hview
  have hback := hr.undo_view s c s' u hs hstep t ht hview
  exact hlog (undo t u) (hr.undo_inv t u ht (hr.step_inv s c s' u hs hstep).2) hback

/-- A transaction that fails leaves the view as it was, whatever it had done before; one that
succeeds has run every command. -/
theorem transact_spec (hr : Reverts step undo view Inv Able) (s₀ s : σ) (log : List υ) (cs : List κ)
    (hs : Inv s) (hlog : Records undo view Inv s₀ log s) :
    Inv (transact step undo s cs log).1 ∧
      ((transact step undo s cs log).2 ≠ none → view (transact step undo s cs log).1 = view s₀) := by
  induction cs generalizing s log with
  | nil => exact ⟨hs, fun h => absurd rfl h⟩
  | cons c cs ih =>
    cases hstep : step s c with
    | error e =>
      rw [transact, hstep]
      have hback := hlog s hs rfl
      exact ⟨hback.1, fun _ => hback.2⟩
    | ok r =>
      obtain ⟨s', u⟩ := r
      rw [transact, hstep]
      exact ih s' (u :: log) (hr.step_inv s c s' u hs hstep).1 (hlog.cons hr hs hstep)

theorem transact_atomic (hr : Reverts step undo view Inv Able) (s : σ) (cs : List κ) (hs : Inv s) :
    Inv (transact step undo s cs []).1 ∧
      ((transact step undo s cs []).2 ≠ none → view (transact step undo s cs []).1 = view s) :=
  transact_spec hr s s [] cs hs (fun _ ht hview => ⟨ht, hview⟩)

end UndoLog
