import Scaffold.Proofs.CommandLine.DryRun
import Scaffold.Proofs.CommandLine.Report
import Scaffold.Proofs.Project.Argument
import Scaffold.Proofs.Store.Series

namespace Scaffold

open Outcome Disk

namespace Location

variable {location : Location} {name longer : Name}

theorem nul_notMem_concat (hlocation : '\x00' ∉ location.toPath.toText)
    (hname : '\x00' ∉ name.val) : '\x00' ∉ (toPath (location ++ [name])).toText := by
  rw [Path.nul_notMem_toText_iff] at hlocation ⊢
  intro other hother
  rw [steps_concat] at hother
  rcases List.mem_append.1 hother with hother | hother
  · exact hlocation other hother
  · cases List.mem_singleton.1 hother
    exact hname

theorem byteCount_concat_le (hne : location ≠ []) (h : byteCount name.val ≤ byteCount longer.val) :
    byteCount (toPath (location ++ [name])).toText ≤
      byteCount (toPath (location ++ [longer])).toText := by
  rw [toText_concat hne, toText_concat hne, ← List.singleton_append (l := name.val),
    ← List.singleton_append (l := longer.val)]
  simp only [byteCount_append]
  omega

end Location

namespace Workspace

variable {w : Workspace} {base : Path} {location : Location} {name : Name} {plan : Plan}
  {x : Plan.Write}

theorem apply_fails (hs : w.store = .disk base)
    (hroot : plan.root = Location.toPath (location ++ [name]))
    (hlayout : Plan.Layout plan.directories (plan.files.map (·.path)))
    (hplace : w.disk.FreePlace location name) (hcheck : checkPath plan.root = .ok ())
    (hx : x ∈ plan.inner) (hlong : checkPath x.path ≠ .ok ()) :
    ∃ v error y, w.apply plan = (v, .error (.system error)) ∧ y ∈ plan.inner ∧
      checkPath y.path = .error error := by
  have htakes : Takes (location ++ [name]).toPath := by
    rw [← hroot]
    refine hlayout.takes_of_mem hroot hplace.names (x := .directory plan.root) ?_ hcheck
    rw [Plan.writes_eq]
    exact List.mem_cons_self
  have hjoin {y : Plan.Write} (hy : y ∈ plan.inner) : base.join y.path = y.path := by
    rw [hlayout.path_eq_of_mem_inner hroot hy, Path.join_toPath]
  have hvacant : w.disk.Vacant w.cwd (location ++ [name]).toPath :=
    vacant_toPath htakes hplace.above hplace.free
  obtain ⟨e, hmake⟩ := hvacant.makeDirectory (lookup_root w.disk)
  rw [← join_root hroot base] at hmake
  rcases performAll_of_made hs hlayout hmake with ⟨v, hv, -⟩ | ⟨v, error, hv, y, hy, herror⟩
  · have hpath := (takes_of_performAll hs hv x (Plan.writes_eq plan ▸ List.mem_cons_of_mem _ hx)).1
    rw [hjoin hx] at hpath
    exact absurd hpath.path hlong
  · rw [hjoin hy] at herror
    refine ⟨v, error, y, ?_, hy, herror⟩
    have hhas : w.has plan.root = .ok false := by
      rw [hroot, has_toPath hs, present_toPath htakes, hplace.free]
      rfl
    rw [apply]
    rw [hhas]
    simp only [hv]

end Workspace

namespace CommandLine

/-- A run is completed, or it prints an error and ends with status 1. -/
def Outcome.Reported (console : Console) (outcome : Outcome) : Prop :=
  outcome.ending = .ok 0 ∨ outcome.ending = .ok 1 ∧
    ∃ message, console.error ("Error: " ++ message) = .ok outcome.output

theorem Outcome.reported_ofMessage (console : Console) (disk : Disk) (message : Text) :
    (ofMessage console disk message).Reported console := by
  obtain ⟨printed, hprinted⟩ := Console.exists_error console ("Error: " ++ message)
  have houtcome : ofMessage console disk message =
      { disk, output := printed, ending := .ok 1 } := by
    have hpieces := ofPieces_map_ok disk 1 [printed]
    rw [List.flatten_singleton] at hpieces
    rw [ofMessage, RawText.text?_raw]
    simp only [hprinted]
    exact hpieces
  refine .inr ⟨by rw [houtcome], message, ?_⟩
  rw [houtcome, hprinted]

theorem Outcome.not_reported {outcome : Outcome} {abort : Abort}
    (h : outcome.ending = .error abort) (console : Console) : ¬ outcome.Reported console := by
  rintro (hend | ⟨hend, -⟩) <;> rw [h] at hend <;> cases hend

section

variable {console : Console} {config : Config} {argument : Text} {dryRun : Bool}
  {environment : Entries Text} {disk : Disk} {cwd target : Location} {spec : ProjectSpec}
  {w v : Workspace} {plan : Plan} {abort : Abort}

/-- Nothing but directories stands above a place, and no name on the way to it is too long. -/
structure Clear (disk : Disk) (target : Location) : Prop where
  above : ∀ above, above <+: target → above ≠ target →
    disk.lookup above = none ∨ disk.lookup above = some .directory
  names : ∀ name ∈ target, checkName name = .ok ()

/-- The paths are not too long that a run asks the system for that creates a project. -/
structure ShortPaths (dryRun : Bool) (target : Location) : Prop where
  root : byteCount target.toPath.toText ≤ pathLimit
  manifest : dryRun = false → byteCount (target.toPath.below "package.json").toText ≤ pathLimit

theorem Clear.takes (h : Clear disk target) (hcheck : checkPath target.toPath = .ok ()) :
    Takes target.toPath := by
  refine ⟨hcheck, ?_⟩
  intro name hname
  obtain ⟨_, hname, heq⟩ := List.mem_map.1 hname
  cases heq
  exact h.names name hname

theorem Clear.freePlace {location : Location} {name : Name} (h : Clear disk (location ++ [name]))
    (hfree : disk.lookup (location ++ [name]) = none) : disk.FreePlace location name where
  free := hfree
  above := by
    intro above habove
    refine h.above above (habove.trans (List.prefix_append _ _)) ?_
    rintro rfl
    exact absurd habove.length_le (by simp)
  names := h.names

theorem ne_nil_of_free (hfree : disk.lookup target = none) : target ≠ [] := by
  rintro rfl
  rw [lookup_root] at hfree
  cases hfree

theorem exists_workspaceFor (dryRun : Bool) (disk : Disk) (cwd : Location)
    (htakes : Takes target.toPath) :
    ∃ w, workspaceFor dryRun disk cwd target.toPath = .ok w ∧
      w.has target.toPath = .ok (disk.lookup target).isSome := by
  have hpresent : disk.present cwd target.toPath = .ok (disk.lookup target).isSome :=
    present_toPath htakes
  cases dryRun with
  | true =>
    refine ⟨_, workspaceFor_dry hpresent, ?_⟩
    cases disk.lookup target <;> simp [Workspace.has, Memory.has, memoryFor]
  | false =>
    refine ⟨⟨disk, cwd, .disk cwd.toPath⟩, rfl, ?_⟩
    rw [Workspace.has_toPath rfl, hpresent]
    rfl

theorem text_of_created (argument : Text) (hne : target ≠ [])
    (hnul : '\x00' ∉ target.toPath.toText) {t : Text}
    (ht : t ∈ (Request.newProject argument).created) :
    '\x00' ∉ (target.toPath.below t).toText ∧
      byteCount (target.toPath.below t).toText ≤
        byteCount (target.toPath.below "package.json").toText := by
  have hall : ∀ t ∈ (Request.newProject argument).created,
      IsName t ∧ '\x00' ∉ t ∧ byteCount t ≤ byteCount "package.json" := by
    rw [Request.created]
    decide
  obtain ⟨hname, hfine, hlength⟩ := hall t ht
  let name : Name := ⟨t, hname⟩
  let manifest : Name := ⟨"package.json", isName_manifest⟩
  rw [Path.below_name target name, Path.below_name target manifest]
  exact ⟨Location.nul_notMem_concat hnul hfine, Location.byteCount_concat_le hne hlength⟩

/-- The project that an argument means, where it is to be, and its plan. -/
structure Planned (config : Config) (argument : Text) (cwd target : Location) (spec : ProjectSpec)
    (plan : Plan) : Prop where
  apps : config.appsDir = Config.default.appsDir
  lib : config.libDir = Config.default.libDir
  leads : resolve (cwd.toPath.below argument) [] = .ok target
  means : ProjectSpec.ofArgument argument cwd.toPath = .ok spec
  place : spec.target = target.toPath
  planned : Plan.ofProject config spec = .ok plan

/-- An argument that leads below the root of the tree means a project there, and it has a plan. -/
theorem exists_planned (hconfig : Config.ofEnvironment environment = .ok config)
    (hleads : resolve (cwd.toPath.below argument) [] = .ok target) (hne : target ≠ []) :
    ∃ spec plan, Planned config argument cwd target spec plan := by
  obtain ⟨-, happs, hlib, -⟩ := Config.layout_of_ofEnvironment hconfig
  obtain ⟨spec, hspec⟩ := ProjectSpec.ofLocation_of_ne hne
  obtain ⟨plan, hplan⟩ := Plan.ofProject_succeeds config spec
  exact ⟨spec, plan, happs, hlib, hleads, ProjectSpec.ofArgument_eq_ok.2 ⟨target, hleads, hspec⟩,
    (ProjectSpec.ofLocation_eq_ok hspec).1, hplan⟩

namespace Planned

variable (h : Planned config argument cwd target spec plan)

include h

theorem root : plan.root = target.toPath :=
  (Plan.layout_of_ofProject h.apps h.lib h.planned).1.trans h.place

theorem layout : Plan.Layout plan.directories (plan.files.map (·.path)) :=
  (Plan.layout_of_ofProject h.apps h.lib h.planned).2

theorem checkPath_root (hshort : byteCount target.toPath.toText ≤ pathLimit) :
    checkPath target.toPath = .ok () :=
  checkPath_eq_ok.2 ⟨nul_notMem_toPath h.leads, hshort⟩

theorem path_of_inner {x : Plan.Write} (hx : x ∈ plan.inner) :
    ∃ t ∈ (Request.newProject argument).created, x.path = target.toPath.below t := by
  obtain ⟨_, _, _, -, -, -, rfl⟩ := Plan.ofProject_eq_ok h.planned
  rw [h.apps, h.lib, h.place] at hx
  have hpath : x.path ∈ (Request.newProject argument).created.map target.toPath.below :=
    List.mem_map_of_mem (f := Plan.Write.path) hx
  obtain ⟨t, ht, heq⟩ := List.mem_map.1 hpath
  exact ⟨t, ht, heq.symm⟩

theorem manifest_mem : ∃ x ∈ plan.inner, x.path = target.toPath.below "package.json" := by
  obtain ⟨manifest, _, _, -, -, -, rfl⟩ := Plan.ofProject_eq_ok h.planned
  rw [← h.place]
  exact ⟨_, List.mem_append_right _ List.mem_cons_self, rfl⟩

theorem scaffold_eq : scaffold config ⟨.newProject argument, dryRun⟩ disk cwd = do
    let w ← (workspaceFor dryRun disk cwd target.toPath).mapError .failed
    return w.newProject config spec none := by
  rw [← h.place]
  simp only [scaffold, h.means]
  rfl

theorem scaffold_of_apply {result : Except Failure Report}
    (hw : workspaceFor dryRun disk cwd target.toPath = .ok w)
    (happly : w.apply plan = (v, result)) :
    ∃ message, scaffold config ⟨.newProject argument, dryRun⟩ disk cwd =
      .ok (v, result.map fun report => { report with message }) := by
  obtain ⟨message, hmessage⟩ :=
    ProjectSpec.message_succeeds (w.placeFrom spec.target none).toText
  refine ⟨message, ?_⟩
  have hnew : w.newProject config spec none =
      (v, result.map fun report => { report with message }) := by
    rw [Workspace.newProject, h.planned, Workspace.applyWithMessage_of_apply happly, hmessage]
    cases result <;> rfl
  rw [h.scaffold_eq, hw, ← hnew]
  rfl

theorem apply_succeeds (hclear : Clear disk target) (hfree : disk.lookup target = none)
    (hshort : ShortPaths dryRun target) :
    ∃ w v, workspaceFor dryRun disk cwd target.toPath = .ok w ∧
      w.apply plan = (v, .ok plan.report) := by
  have hne := ne_nil_of_free hfree
  have htakes := hclear.takes (h.checkPath_root hshort.root)
  have hnul := nul_notMem_toPath h.leads
  have htarget := h.place
  have hroot := h.root
  obtain ⟨location, name, rfl⟩ := (List.eq_nil_or_concat' target).resolve_left hne
  cases hdry : dryRun with
  | true =>
    have hthere : disk.present cwd (Location.toPath (location ++ [name])) = .ok false := by
      rw [present_toPath htakes, hfree]
      rfl
    refine ⟨_, _, workspaceFor_dry hthere, Workspace.apply_of_free rfl ⟨fun _ _ => rfl, ?_⟩⟩
    exact plan.map_path_writes ▸ h.layout.nodup_paths hroot
  | false =>
    refine ⟨⟨disk, cwd, .disk cwd.toPath⟩, ?_⟩
    have hcheck : ∀ p ∈ spec.target :: [config.appsDir, config.libDir, "package.json", ".env",
        "index.js"].map spec.target.below, checkPath p = .ok () := by
      rw [htarget, h.apps, h.lib]
      refine List.forall_mem_cons.2 ⟨htakes.path, List.forall_mem_map.2 fun t ht => ?_⟩
      obtain ⟨hfine, hlength⟩ := text_of_created argument hne hnul ht
      exact checkPath_eq_ok.2 ⟨hfine, hlength.trans (hshort.manifest hdry)⟩
    obtain ⟨_, v, _, hplan, hv, -⟩ := Workspace.newProject_succeeds
      (w := ⟨disk, cwd, .disk cwd.toPath⟩) none rfl h.apps h.lib htarget (hclear.freePlace hfree)
      hcheck
    rw [h.planned] at hplan
    cases hplan
    exact ⟨v, rfl, hv⟩

/-- If the path of the manifest is too long, a project is created in part. -/
theorem apply_partly (hclear : Clear disk target) (hfree : disk.lookup target = none)
    (hshort : byteCount target.toPath.toText ≤ pathLimit)
    (hlong : pathLimit < byteCount (target.toPath.below "package.json").toText) :
    ∃ v, Workspace.apply ⟨disk, cwd, .disk cwd.toPath⟩ plan =
      (v, .error (.system .nameTooLong)) := by
  have hne := ne_nil_of_free hfree
  have hnul := nul_notMem_toPath h.leads
  have hcheck := h.checkPath_root hshort
  have hroot := h.root
  obtain ⟨x, hx, hpath⟩ := h.manifest_mem
  have hmanifest : checkPath x.path ≠ .ok () := by
    intro hfine
    rw [hpath] at hfine
    exact absurd (checkPath_eq_ok.1 hfine).2 (Nat.not_le_of_lt hlong)
  obtain ⟨location, name, rfl⟩ := (List.eq_nil_or_concat' target).resolve_left hne
  obtain ⟨v, error, y, hv, hy, herror⟩ := Workspace.apply_fails
    (w := ⟨disk, cwd, .disk cwd.toPath⟩) rfl hroot h.layout (hclear.freePlace hfree)
    (hroot ▸ hcheck) hx hmanifest
  obtain ⟨t, ht, hy⟩ := h.path_of_inner hy
  have hfine : '\x00' ∉ y.path.toText := hy ▸ (text_of_created argument hne hnul ht).1
  rcases checkPath_eq_error herror with rfl | rfl
  · rw [checkPath, if_neg hfine] at herror
    split at herror <;> cases herror
  · exact ⟨v, hv⟩

end Planned

/-- What aborts a run that creates a project at the place that a path leads to. -/
inductive Aborts (console : Console) (dryRun : Bool) (disk : Disk) (p : Path) : Abort → Prop
  | nul (hnul : '\x00' ∈ p.toText) : Aborts console dryRun disk p (.failed (.system .nulCharacter))
  | root (hroot : resolve p [] = .ok []) :
      Aborts console dryRun disk p (.failed (.invalid [⟨"project_name", .empty⟩]))
  | long {target : Location} (hleads : resolve p [] = .ok target)
      (hlong : pathLimit < byteCount target.toPath.toText) :
      Aborts console dryRun disk p (.failed (.system .nameTooLong))
  /-- The root of the project is created, but not its manifest. -/
  | partly {target : Location} (hleads : resolve p [] = .ok target) (hreal : dryRun = false)
      (hfree : disk.lookup target = none)
      (hlong : pathLimit < byteCount (target.toPath.below "package.json").toText) :
      Aborts console dryRun disk p (.failed (.system .nameTooLong))
  /-- The project is created, but its root cannot be printed. -/
  | markup {target : Location} {e : Markup.Error} (hleads : resolve p [] = .ok target)
      (hfree : disk.lookup target = none) (hshort : ShortPaths dryRun target)
      (hmarkup : shownRoot console target.toPath = .error e) :
      Aborts console dryRun disk p (.markup e)

variable (hconfig : Config.ofEnvironment environment = .ok config)

include hconfig

theorem ending_of_abort {invocation : Invocation}
    (h : scaffold config invocation disk cwd = .error abort) :
    (runInvocation console invocation environment disk cwd).ending = .error abort := by
  simp only [runInvocation, hconfig, h]

theorem ending_of_system {invocation : Invocation} {error : SystemError}
    (h : scaffold config invocation disk cwd = .ok (w, .error (.system error))) :
    (runInvocation console invocation environment disk cwd).ending =
      .error (.failed (.system error)) := by
  simp only [runInvocation, hconfig, h]

theorem exists_report_new (hleads : resolve (cwd.toPath.below argument) [] = .ok target)
    (hclear : Clear disk target) (hfree : disk.lookup target = none)
    (hshort : ShortPaths dryRun target) :
    ∃ (w : Workspace) (report : Report),
      (Request.newProject argument).Reports report ∧ report.root = target.toPath ∧
      runInvocation console ⟨.newProject argument, dryRun⟩ environment disk cwd =
        .ofPieces w.disk 0 (reportPieces console ⟨.newProject argument, dryRun⟩ report) := by
  obtain ⟨spec, plan, hplanned⟩ := exists_planned hconfig hleads (ne_nil_of_free hfree)
  obtain ⟨w, v, hw, happly⟩ := hplanned.apply_succeeds hclear hfree hshort
  obtain ⟨message, hdone⟩ := hplanned.scaffold_of_apply hw happly
  refine ⟨v, _, report_of_scaffold hplanned.apps hplanned.lib hdone, hplanned.root, ?_⟩
  simp only [runInvocation, hconfig, hdone, Except.map]

theorem ending_of_long (hleads : resolve (cwd.toPath.below argument) [] = .ok target)
    (hlong : pathLimit < byteCount target.toPath.toText) :
    (runInvocation console ⟨.newProject argument, dryRun⟩ environment disk cwd).ending =
      .error (.failed (.system .nameTooLong)) := by
  have hne : target ≠ [] := by
    rintro rfl
    exact absurd hlong (by decide)
  obtain ⟨spec, plan, hplanned⟩ := exists_planned hconfig hleads hne
  have hpresent : disk.present cwd target.toPath = .error .nameTooLong :=
    present_of_long (nul_notMem_toPath hleads) hlong
  cases dryRun with
  | true =>
    refine ending_of_abort hconfig ?_
    rw [hplanned.scaffold_eq, workspaceFor]
    simp only [hpresent]
    rfl
  | false =>
    have hw : workspaceFor false disk cwd target.toPath = .ok ⟨disk, cwd, .disk cwd.toPath⟩ := rfl
    have hhas : Workspace.has ⟨disk, cwd, .disk cwd.toPath⟩ plan.root =
        .error (.system .nameTooLong) := by
      rw [hplanned.root, Workspace.has_toPath rfl, hpresent]
      rfl
    have happly : Workspace.apply ⟨disk, cwd, .disk cwd.toPath⟩ plan =
        (⟨disk, cwd, .disk cwd.toPath⟩, .error (.system .nameTooLong)) := by
      rw [Workspace.apply]
      rw [hhas]
    obtain ⟨message, hdone⟩ := hplanned.scaffold_of_apply hw happly
    exact ending_of_system hconfig hdone

theorem Aborts.ending_eq (hclear : ∀ target,
      resolve (cwd.toPath.below argument) [] = .ok target → Clear disk target)
    (h : Aborts console dryRun disk (cwd.toPath.below argument) abort) :
    (runInvocation console ⟨.newProject argument, dryRun⟩ environment disk cwd).ending =
      .error abort := by
  cases h with
  | nul hnul =>
    refine ending_of_abort hconfig ?_
    simp only [scaffold, ProjectSpec.ofArgument_eq_nul_iff.2 hnul]
    rfl
  | root hroot =>
    refine ending_of_abort hconfig ?_
    simp only [scaffold, ProjectSpec.ofArgument_eq_invalid_iff.2 ⟨hroot, rfl⟩]
    rfl
  | long hleads hlong => exact ending_of_long hconfig hleads hlong
  | @partly target hleads hreal hfree hlong =>
    subst hreal
    rcases Nat.lt_or_ge pathLimit (byteCount target.toPath.toText) with hroot | hroot
    · exact ending_of_long hconfig hleads hroot
    · obtain ⟨spec, plan, hplanned⟩ := exists_planned hconfig hleads (ne_nil_of_free hfree)
      obtain ⟨v, happly⟩ := hplanned.apply_partly (hclear target hleads) hfree hroot hlong
      have hw : workspaceFor false disk cwd target.toPath = .ok ⟨disk, cwd, .disk cwd.toPath⟩ :=
        rfl
      obtain ⟨message, hdone⟩ := hplanned.scaffold_of_apply hw happly
      exact ending_of_system hconfig hdone
  | markup hleads hfree hshort hmarkup =>
    obtain ⟨w, report, hreports, hroot, hrun⟩ :=
      exists_report_new hconfig hleads (hclear _ hleads) hfree hshort
    rw [← hroot] at hmarkup
    have hpieces : ∃ rest,
        reportPieces console ⟨.newProject argument, dryRun⟩ report = .error _ :: rest :=
      pieces_of_error hreports hmarkup
    obtain ⟨rest, hpieces⟩ := hpieces
    rw [hrun, hpieces]
    rfl

/-- A run that nothing aborts is completed, or else the target is there and the run says so. -/
theorem reported_of_not_aborts (hclear : ∀ target,
      resolve (cwd.toPath.below argument) [] = .ok target → Clear disk target)
    (h : ∀ abort, ¬ Aborts console dryRun disk (cwd.toPath.below argument) abort) :
    (runInvocation console ⟨.newProject argument, dryRun⟩ environment disk cwd).Reported
      console := by
  have hnul : '\x00' ∉ (cwd.toPath.below argument).toText := fun hnul => h _ (.nul hnul)
  obtain ⟨target, hleads⟩ : ∃ target, resolve (cwd.toPath.below argument) [] = .ok target :=
    ⟨_, resolve_eq_ok.2 ⟨hnul, rfl⟩⟩
  have hne : target ≠ [] := by
    rintro rfl
    exact h _ (.root hleads)
  have hroot : byteCount target.toPath.toText ≤ pathLimit :=
    Nat.le_of_not_lt fun hlong => h _ (.long hleads hlong)
  cases hfree : disk.lookup target with
  | some entry =>
    obtain ⟨spec, plan, hplanned⟩ := exists_planned hconfig hleads hne
    obtain ⟨w, hw, hhas⟩ := exists_workspaceFor dryRun disk cwd
      ((hclear target hleads).takes (hplanned.checkPath_root hroot))
    rw [hfree, ← hplanned.root] at hhas
    obtain ⟨message, hdone⟩ := hplanned.scaffold_of_apply hw (Workspace.apply_of_has hhas)
    simp only [runInvocation, hconfig, hdone, Except.map]
    exact Outcome.reported_ofMessage _ _ _
  | none =>
    have hshort : ShortPaths dryRun target :=
      ⟨hroot, fun hreal => Nat.le_of_not_lt fun hlong => h _ (.partly hleads hreal hfree hlong)⟩
    obtain ⟨w, report, hreports, hpath, hrun⟩ :=
      exists_report_new hconfig hleads (hclear target hleads) hfree hshort
    cases hmarkup : shownRoot console target.toPath with
    | error e => exact absurd (.markup hleads hfree hshort hmarkup) (h _)
    | ok shown =>
      rw [← hpath] at hmarkup
      have hpieces : ∀ piece ∈ reportPieces console ⟨.newProject argument, dryRun⟩ report,
          ∃ printed, piece = .ok printed := pieces_of_ok hreports hmarkup
      rw [hrun]
      exact .inl (Outcome.ending_of_succeeds w.disk 0 hpieces)

end

end CommandLine

end Scaffold
