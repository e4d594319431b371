import Scaffold.Scaffolder

namespace Scaffold.Workspace

variable {w v : Workspace} {plan : Plan} {message : Except Template.RenderError Text}
  {report : Report}

theorem report_of_apply (h : w.apply plan = (v, .ok report)) : report = plan.report := by
  rw [apply] at h
  split at h
  · cases h
  · cases h
  · split at h <;> cases h
    rfl

theorem applyWithMessage_of_apply {result : Except Failure Report}
    (h : w.apply plan = (v, result)) :
    w.applyWithMessage (.ok plan) message = (v, do
      let report ← result
      let message ← message.mapError .template
      return { report with message }) := by
  rw [applyWithMessage]
  simp only [h]
  cases result with
  | error failure => rfl
  | ok report => cases message <;> rfl

theorem applyWithMessage_eq_ok (h : w.applyWithMessage (.ok plan) message = (v, .ok report)) :
    ∃ text, message = .ok text ∧ w.apply plan = (v, .ok plan.report) ∧
      report = { plan.report with message := text } := by
  unfold applyWithMessage at h
  simp only at h
  split at h
  · cases h
  · rename_i u done heq
    obtain rfl := report_of_apply heq
    cases message with
    | error e => cases h
    | ok text =>
      cases h
      exact ⟨text, rfl, heq, rfl⟩

theorem applyWithMessage_refused {refusal : Refusal}
    (h : w.applyWithMessage (.ok plan) message = (v, .error (.refused refusal))) :
    w.apply plan = (v, .error (.refused refusal)) := by
  unfold applyWithMessage at h
  simp only at h
  split at h
  · rename_i heq
    cases h
    exact heq
  · cases message <;> cases h

end Scaffold.Workspace
