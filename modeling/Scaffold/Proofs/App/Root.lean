import Scaffold.Proofs.Store.Message
import Scaffold.Proofs.Store.Root

namespace Scaffold

open Outcome

variable {config : Config} {project root : Path} {name : Text} {component : Name}

theorem AppName.check_iff : AppName.check name = .ok () ↔
    name.strip ≠ [] ∧ name ≠ "." ∧ name ≠ ".." ∧ '/' ∉ name ∧ '\\' ∉ name := by
  rw [ne_eq, Text.strip_eq_nil_iff, Bool.not_eq_true]
  constructor
  · intro h
    obtain ⟨hblank, ⟨-, hslash, hdot, hdots⟩, hback⟩ := AppName.check_eq_ok h
    exact ⟨hblank, hdot, hdots, hslash, hback⟩
  · rintro ⟨hblank, hdot, hdots, hslash, hback⟩
    have hsingle : ¬ (name = ['.'] ∨ name = ['.', '.'] ∨ '/' ∈ name ∨ '\\' ∈ name) := by
      simp only [not_or]
      exact ⟨hdot, hdots, hslash, hback⟩
    rw [AppName.check, if_neg (by simp [hblank]), if_neg hsingle]

theorem Config.appRoot_eq (config : Config) (project : Path)
    (h : AppName.check component.val = .ok ()) :
    config.appRoot project component.val =
      .ok ((project.below config.appsDir).descend [component]) := by
  have hbelow : (project.below config.appsDir).below component.val =
      (project.below config.appsDir).descend [component] :=
    Path.below_eq_descend (Path.ofText_name component) _
  rw [appRoot, h]
  exact congrArg Except.ok hbelow

theorem Plan.Layout.descends {plan : Plan}
    (h : Layout plan.directories (plan.files.map (·.path))) {p : Path}
    (hp : p ∈ plan.report.directories ++ plan.report.files) :
    ∃ names, p = plan.root.descend names := by
  have hbelow {t : Text} (ht : t ∈ plan.directories ++ plan.files.map (·.path)) :
      ∃ names, plan.root.below t = plan.root.descend names :=
    ⟨_, Path.below_eq_descend (h.downward t ht).1 _⟩
  rcases List.mem_append.1 hp with hp | hp
  · rcases List.mem_cons.1 hp with rfl | hp
    · exact ⟨[], (Path.descend_nil _).symm⟩
    · obtain ⟨t, ht, rfl⟩ := List.mem_map.1 hp
      exact hbelow (List.mem_append_left _ ht)
  · obtain ⟨file, hfile, rfl⟩ := List.mem_map.1 hp
    exact hbelow (List.mem_append_right _ (List.mem_map_of_mem hfile))

namespace Workspace

variable {w v : Workspace} {spec : AppSpec} {report : Report}

theorem descends_of_newApp (hroot : config.appRoot project spec.name = .ok root)
    (h : w.newApp config spec project = (v, .ok report)) :
    report.root = root ∧
      ∀ p ∈ report.directories ++ report.files, ∃ names, p = root.descend names := by
  rw [newApp, hroot] at h
  simp only at h
  cases hplan : Plan.ofApp config spec root with
  | error error =>
    rw [hplan] at h
    cases h
  | ok plan =>
    obtain ⟨rfl, hlayout⟩ := Plan.layout_of_ofApp hplan
    rw [hplan] at h
    obtain ⟨message, -, -, rfl⟩ := applyWithMessage_eq_ok h
    exact ⟨rfl, fun p hp => hlayout.descends hp⟩

/-- A name of an app is accepted just if it is not blank, neither `.` nor `..`, and has no slash of
either kind. Then it is the one component in which the app's root differs from the directory of all
apps, and all paths in the report of a new app go on from that root with names, if at all. -/
theorem app_stays_in_root (name : Text) :
    (AppName.check name = .ok () ↔
      name.strip ≠ [] ∧ name ≠ "." ∧ name ≠ ".." ∧ '/' ∉ name ∧ '\\' ∉ name) ∧
    (AppName.check name = .ok () → ∀ (config : Config) (project : Path),
      ∃ (root : Path) (component : Name), config.appRoot project name = .ok root ∧
        component.val = name ∧ root = (project.below config.appsDir).descend [component] ∧
        root.parent = project.below config.appsDir ∧ root.name = name ∧
        ∀ (w v : Workspace) (spec : AppSpec) (report : Report), spec.name = name →
          w.newApp config spec project = (v, .ok report) → report.root = root ∧
            ∀ p ∈ report.directories ++ report.files, ∃ names, p = root.descend names) := by
  refine ⟨AppName.check_iff, fun hcheck config project => ?_⟩
  obtain ⟨-, hname, -⟩ := AppName.check_eq_ok hcheck
  obtain ⟨component, rfl⟩ : ∃ component : Name, component.val = name := ⟨⟨name, hname⟩, rfl⟩
  have hroot := config.appRoot_eq project hcheck
  refine ⟨_, component, hroot, rfl, rfl, Path.parent_descend _ _, Path.name_descend _ _, ?_⟩
  intro w v spec report hspec h
  exact descends_of_newApp (hspec ▸ hroot) h

/-- An app whose name is blanks and dots, where the directory of all apps is spelled with more
slashes and dots than it needs. -/
theorem app_stays_in_root_dots :
    let config : Config := { Config.default with appsDir := "..//./apps/" }
    let spec : AppSpec := ⟨" ...", .empty, "blog", "APP_URL", by decide, by decide⟩
    ∃ v report root, Path.toText root = "blog/../apps/ ..." ∧
      (⟨.empty, [], .memory {}⟩ : Workspace).newApp config spec (.ofText "blog") = (v, .ok report) ∧
      report.root = root ∧
      ∀ p ∈ report.directories ++ report.files, ∃ names, p = root.descend names := by
  intro config spec
  obtain ⟨-, hroots⟩ := app_stays_in_root " ..."
  obtain ⟨root, component, hroot, -, -, -, -, hall⟩ := hroots (by decide) config (.ofText "blog")
  obtain ⟨v, report, h⟩ : ∃ v report,
      (⟨.empty, [], .memory {}⟩ : Workspace).newApp config spec (.ofText "blog") =
        (v, .ok report) :=
    eq_ok_of_isSome (by decide +kernel)
  obtain ⟨heq, hp⟩ := hall _ v spec report rfl h
  cases hroot
  exact ⟨v, report, _, by decide, h, heq, hp⟩

end Workspace

end Scaffold
