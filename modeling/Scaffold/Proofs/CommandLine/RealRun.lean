import Scaffold.Proofs.CommandLine.Task
import Scaffold.Proofs.Store.Disk
import Scaffold.Proofs.Store.Message

namespace Scaffold

open Outcome

namespace CommandLine

variable {console : Console} {config : Config} {request : Request} {environment : Entries Text}
  {disk : Disk} {cwd : Location} {w : Workspace}

@[simp] theorem Outcome.disk_ofPieces (disk : Disk) (status : Nat)
    (pieces : List (Except Markup.Error Text)) : (ofPieces disk status pieces).disk = disk :=
  rfl

@[simp] theorem Outcome.disk_ofMessage (disk : Disk) (message : RawText) :
    (ofMessage console disk message).disk = disk := by
  unfold ofMessage
  split <;> rfl

theorem Outcome.ending_of_ofPieces {status ending : Nat} {pieces : List (Except Markup.Error Text)}
    (h : (ofPieces disk status pieces).ending = .ok ending) : ending = status := by
  rw [ofPieces] at h
  cases hp : (printPieces pieces).2 <;> simp only [hp] at h <;> cases h
  rfl

theorem scaffold_eq_ok {result : Except Failure Report}
    (h : scaffold config ⟨request, false⟩ disk cwd = .ok (w, result)) :
    ∃ task, request.task config disk cwd = .ok task ∧
      Workspace.carryOut ⟨disk, cwd, .disk cwd.toPath⟩ task = (w, result) := by
  rw [scaffold_eq] at h
  obtain ⟨task, htask, h⟩ := bind_eq_ok.1 h
  obtain ⟨start, hstart, h⟩ := bind_eq_ok.1 h
  cases hstart
  exact ⟨task, htask, Except.ok.inj h⟩

/-- A request is refused only before anything was written. -/
theorem scaffold_refused {refusal : Refusal} (happs : config.appsDir = Config.default.appsDir)
    (hlib : config.libDir = Config.default.libDir)
    (h : scaffold config ⟨request, false⟩ disk cwd = .ok (w, .error (.refused refusal))) :
    w.disk = disk := by
  obtain ⟨task, htask, hcarry⟩ := scaffold_eq_ok h
  rw [Workspace.carryOut] at hcarry
  split at hcarry
  · cases hcarry
    rfl
  · rename_i plan message hwork
    obtain ⟨-, ⟨location, name, hroot⟩, hlayout⟩ :=
      Request.layout_of_task happs hlib htask hwork
    have hsame := Workspace.apply_refused rfl hroot hlayout
      (Workspace.applyWithMessage_refused hcarry)
    rw [hsame]

theorem disk_of_runInvocation
    (h : (runInvocation console ⟨request, false⟩ environment disk cwd).ending = .ok 1) :
    (runInvocation console ⟨request, false⟩ environment disk cwd).disk = disk := by
  unfold runInvocation at h ⊢
  split
  · exact Outcome.disk_ofMessage _ _
  · rename_i config hconfig
    obtain ⟨-, happs, hlib, -⟩ := Config.layout_of_ofEnvironment hconfig
    rw [hconfig] at h
    simp only at h
    split
    · rfl
    · rename_i hs
      rw [hs] at h
      cases Outcome.ending_of_ofPieces h
    · rename_i refusal hs
      rw [Outcome.disk_ofMessage]
      exact scaffold_refused happs hlib hs
    · rename_i failure hother hs
      rw [hs] at h
      cases failure with
      | refused refusal => exact absurd rfl (hother refusal)
      | _ => cases h

/-- What is on the disk after a request was carried out. -/
theorem scaffold_created {report : Report} (happs : config.appsDir = Config.default.appsDir)
    (hlib : config.libDir = Config.default.libDir)
    (h : scaffold config ⟨request, false⟩ disk cwd = .ok (w, .ok report)) :
    ∃ task plan message location, request.task config disk cwd = .ok task ∧
      task.work = .ok (plan, .ok message) ∧ report = { plan.report with message } ∧
      plan.root = Location.toPath location ∧ disk.lookup location = none ∧
      (∀ place entry, (location <+: place ∧ w.disk.lookup place = some entry) ↔
        ∃ x ∈ plan.writes, x.place = place ∧ x.entry = entry) ∧
      ∀ place, ¬ location <+: place → w.disk.lookup place =
        (disk.lookup place).or (if place <+: location then some .directory else none) := by
  obtain ⟨task, htask, hcarry⟩ := scaffold_eq_ok h
  rw [Workspace.carryOut] at hcarry
  split at hcarry
  · cases hcarry
  · rename_i plan message hwork
    obtain ⟨-, ⟨location, name, hroot⟩, hlayout⟩ :=
      Request.layout_of_task happs hlib htask hwork
    obtain ⟨text, rfl, happly, hreport⟩ := Workspace.applyWithMessage_eq_ok hcarry
    obtain ⟨hfree, -⟩ := Workspace.lookup_of_apply rfl hroot hlayout happly
    refine ⟨task, plan, text, location ++ [name], htask, hwork, hreport, hroot, hfree, ?_, ?_⟩
    · exact fun _ _ => Workspace.created_iff rfl hroot hlayout happly
    · exact fun _ hplace => Workspace.lookup_elsewhere rfl hroot hlayout happly hplace

/--
A run without the option for a dry run that ends with the status for reported errors leaves the disk
as it was. After a run that creates something, there is at the root and below it just what was
planned, each file with its content, and elsewhere what was there before and the directories above
the root.
-/
theorem real_run (console : Console) {arguments : List Text} {invocation : Invocation}
    (hread : read arguments = .ok invocation) (hreal : invocation.dryRun = false)
    (environment : Entries Text) (disk : Disk) (cwd : Location) :
    ((run console arguments environment disk cwd).ending = .ok 1 →
      (run console arguments environment disk cwd).disk = disk) ∧
    ∀ config w report, Config.ofEnvironment environment = .ok config →
      scaffold config invocation disk cwd = .ok (w, .ok report) →
      ∃ task plan message location, invocation.request.task config disk cwd = .ok task ∧
        task.work = .ok (plan, .ok message) ∧ report = { plan.report with message } ∧
        plan.root = Location.toPath location ∧ disk.lookup location = none ∧
        (∀ place entry, (location <+: place ∧
            (run console arguments environment disk cwd).disk.lookup place = some entry) ↔
          ∃ x ∈ plan.writes, x.place = place ∧ x.entry = entry) ∧
        ∀ place, ¬ location <+: place →
          (run console arguments environment disk cwd).disk.lookup place =
            (disk.lookup place).or (if place <+: location then some .directory else none) := by
  obtain ⟨request, dryRun⟩ := invocation
  obtain rfl : dryRun = false := hreal
  have hrun : run console arguments environment disk cwd =
      runInvocation console ⟨request, false⟩ environment disk cwd := by
    rw [run]
    rw [hread]
  rw [hrun]
  refine ⟨disk_of_runInvocation, ?_⟩
  intro config w report hconfig hs
  obtain ⟨-, happs, hlib, -⟩ := Config.layout_of_ofEnvironment hconfig
  have hdisk : (runInvocation console ⟨request, false⟩ environment disk cwd).disk = w.disk := by
    rw [runInvocation]
    rw [hconfig]
    simp only [hs, Outcome.disk_ofPieces]
  rw [hdisk]
  exact scaffold_created happs hlib hs

theorem scaffold_blog : ∃ w report,
    scaffold .default ⟨.newProject "work/blog", false⟩ .empty [] = .ok (w, .ok report) := by
  have hreport : ((scaffold .default ⟨.newProject "work/blog", false⟩ .empty []).toOption.bind
      (·.2.toOption)).isSome = true := by
    decide +kernel
  obtain ⟨report, hreport⟩ := Option.isSome_iff_exists.1 hreport
  obtain ⟨⟨w, result⟩, hs, hresult⟩ := Option.bind_eq_some_iff.1 hreport
  cases eq_ok_of_toOption hresult
  exact ⟨w, report, eq_ok_of_toOption hs⟩

theorem real_run_blog :
    let first := run (.ofWidth 80) ["new", "work/blog"] [] .empty []
    let second := run (.ofWidth 80) ["new", "work/blog"] [] first.disk []
    second.ending = .ok 1 ∧ second.disk = first.disk ∧
      ∃ task plan message location,
        Request.task .default .empty [] (.newProject "work/blog") = .ok task ∧
          task.work = .ok (plan, .ok message) ∧ plan.root = Location.toPath location ∧
          ∀ x ∈ plan.writes, first.disk.lookup x.place = some x.entry := by
  intro first second
  have hread : read ["new", "work/blog"] = .ok ⟨.newProject "work/blog", false⟩ := rfl
  have hconfig : Config.ofEnvironment [] = .ok .default := rfl
  have hending : second.ending = .ok 1 := by decide +kernel
  obtain ⟨w, report, hs⟩ := scaffold_blog
  obtain ⟨task, plan, message, location, htask, hwork, -, hroot, -, hcreated, -⟩ :=
    (real_run (.ofWidth 80) hread rfl [] .empty []).2 .default w report hconfig hs
  have hsecond := (real_run (.ofWidth 80) hread rfl [] first.disk []).1
  have hdisk : second.disk = first.disk := hsecond hending
  refine ⟨hending, hdisk, task, plan, message, location, htask, hwork, hroot, ?_⟩
  intro x hx
  exact ((hcreated x.place x.entry).2 ⟨x, hx, rfl, rfl⟩).2

end CommandLine

end Scaffold
