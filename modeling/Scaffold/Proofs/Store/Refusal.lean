import Scaffold.Proofs.Outcome
import Scaffold.Scaffolder

namespace Scaffold.Workspace

open Outcome

variable {w v : Workspace} {refusal : Refusal}

theorem refusal_of_memory {m : Memory} {x : Plan.Write} (h : m.perform x = .error refusal) :
    refusal = .targetExists x.path := by
  unfold Memory.perform at h
  split at h
  · cases h
    rfl
  · cases x <;> cases h

theorem refusal_of_disk {p : Path} {error : SystemError}
    (h : refusalOf p error = .refused refusal) : refusal = .targetExists p := by
  cases error with
  | «exists» =>
    cases h
    rfl
  | _ => cases h

theorem refusal_of_perform {x : Plan.Write} (h : w.perform x = (v, .error (.refused refusal))) :
    ∃ p, refusal = .targetExists p := by
  rw [perform] at h
  split at h
  · split at h
    · cases h
    · rename_i hm
      cases h
      exact ⟨_, refusal_of_memory hm⟩
  · cases x with
    | directory p =>
      obtain ⟨-, h⟩ := Prod.mk.inj h
      obtain ⟨error, -, herror⟩ := mapError_eq_error.1 h
      exact ⟨_, refusal_of_disk herror⟩
    | file p content =>
      simp only at h
      split at h
      · cases h
      · obtain ⟨-, h⟩ := Prod.mk.inj h
        exact ⟨_, refusal_of_disk (Except.error.inj h)⟩

theorem refusal_of_performAll {xs : List Plan.Write}
    (h : w.performAll xs = (v, .error (.refused refusal))) : ∃ p, refusal = .targetExists p := by
  induction xs generalizing w with
  | nil => cases h
  | cons x rest ih =>
    rw [performAll] at h
    split at h
    · exact ih h
    · rename_i hx
      cases h
      exact refusal_of_perform hx

theorem refusal_of_apply {plan : Plan} (h : w.apply plan = (v, .error (.refused refusal))) :
    ∃ p, refusal = .targetExists p := by
  rw [apply] at h
  split at h
  · rename_i hhas
    cases h
    rw [has] at hhas
    split at hhas
    · cases hhas
    · obtain ⟨_, -, herror⟩ := mapError_eq_error.1 hhas
      cases herror
  · cases h
    exact ⟨plan.root, rfl⟩
  · split at h
    · cases h
    · rename_i hall
      cases h
      exact refusal_of_performAll hall

theorem refusal_of_applyWithMessage {plan : Except Template.RenderError Plan}
    {message : Except Template.RenderError Text}
    (h : w.applyWithMessage plan message = (v, .error (.refused refusal))) :
    ∃ p, refusal = .targetExists p := by
  unfold applyWithMessage at h
  split at h
  · cases h
  · split at h
    · rename_i happly
      cases h
      exact refusal_of_apply happly
    · cases message <;> cases h

end Scaffold.Workspace
