import Mathlib.Data.List.Infix
import Scaffold.Proofs.CommandLine.RealRun
import Scaffold.Proofs.Store.Memory

namespace Scaffold

open Outcome

/-- Nothing but directories stands above the root, and no name in its path is too long. -/
structure Task.Unobstructed (task : Task) (disk : Disk) : Prop where
  names : ∀ name, .into name ∈ task.root.steps → Disk.checkName name = .ok ()
  above : ∀ location above, task.root = Location.toPath location → above <+: location →
    above ≠ location → disk.lookup above = none ∨ disk.lookup above = some .directory

/-- The path of the root is not too long, and the system takes the paths of all that is planned. -/
structure Task.Accepted (task : Task) : Prop where
  root : Disk.byteCount task.root.toText ≤ Disk.pathLimit
  writes : ∀ plan message, task.work = .ok (plan, message) →
    ∀ x ∈ plan.writes, Disk.checkPath x.path = .ok ()

theorem Task.unobstructed_of_root {task : Task} {disk : Disk} {location : Location}
    (hroot : task.root = location.toPath)
    (hnames : ∀ name ∈ location, Disk.checkName name = .ok ())
    (habove : ∀ above, above <+: location →
      disk.lookup above = none ∨ disk.lookup above = some .directory) : task.Unobstructed disk := by
  constructor
  · intro name hname
    rw [hroot] at hname
    obtain ⟨_, hname, heq⟩ := List.mem_map.1 hname
    cases heq
    exact hnames name hname
  · intro other above heq hprefix _
    rw [hroot] at heq
    exact habove above (Location.toPath_injective heq ▸ hprefix)

namespace Workspace

theorem carryOut_memory {w : Workspace} {m : Memory} (hs : w.store = .memory m)
    (task : Task) : ∃ n, (w.carryOut task).1 = { w with store := .memory n } := by
  rw [carryOut]
  split
  · exact ⟨m, by rw [← hs]⟩
  · exact applyWithMessage_memory hs _ _

end Workspace

namespace CommandLine

variable {config : Config} {request : Request} {environment : Entries Text} {disk : Disk}
  {cwd : Location} {w : Workspace} {task : Task}

def memoryFor (there : Bool) (root : Path) : Memory where
  existing := if there then [root] else []

theorem workspaceFor_dry {root : Path} {there : Bool} (h : disk.present cwd root = .ok there) :
    workspaceFor true disk cwd root = .ok ⟨disk, cwd, .memory (memoryFor there root)⟩ := by
  rw [workspaceFor]
  rw [h]
  rfl

theorem disk_of_scaffold_dry {result : Except Failure Report}
    (h : scaffold config ⟨request, true⟩ disk cwd = .ok (w, result)) : w.disk = disk := by
  rw [scaffold_eq] at h
  obtain ⟨task, -, h⟩ := bind_eq_ok.1 h
  obtain ⟨start, hstart, h⟩ := bind_eq_ok.1 h
  obtain ⟨there, hthere, -⟩ := bind_eq_ok.1 (mapError_eq_ok.1 hstart)
  rw [workspaceFor_dry (mapError_eq_ok.1 hthere)] at hstart
  cases hstart
  obtain ⟨n, hn⟩ := @Workspace.carryOut_memory
    ⟨disk, cwd, .memory (memoryFor there task.root)⟩ _ rfl task
  rw [Except.ok.inj h] at hn
  exact congrArg Workspace.disk hn

theorem disk_of_runInvocation_dry (console : Console) :
    (runInvocation console ⟨request, true⟩ environment disk cwd).disk = disk := by
  rw [runInvocation]
  split
  · exact Outcome.disk_ofMessage _ _
  · split
    · rfl
    · rename_i hs
      rw [Outcome.disk_ofPieces]
      exact disk_of_scaffold_dry hs
    · rename_i hs
      rw [Outcome.disk_ofMessage]
      exact disk_of_scaffold_dry hs
    · rename_i hs
      exact disk_of_scaffold_dry hs

theorem apply_agrees {plan : Plan} {location : Location} {name : Name} {there : Bool}
    (hroot : plan.root = Location.toPath (location ++ [name]))
    (hlayout : Plan.Layout plan.directories (plan.files.map (·.path)))
    (habove : ∀ above, above <+: location →
      disk.lookup above = none ∨ disk.lookup above = some .directory)
    (htakes : ∀ x ∈ plan.writes, Disk.Takes x.path)
    (hthere : disk.present cwd plan.root = .ok there) :
    ∃ dry real result,
      Workspace.apply ⟨disk, cwd, .memory (memoryFor there plan.root)⟩ plan = (dry, result) ∧
      Workspace.apply ⟨disk, cwd, .disk cwd.toPath⟩ plan = (real, result) ∧
      ∀ report, result = .ok report → dry.store = .memory (.ofPlan plan) := by
  cases there with
  | true =>
    have hmemory : Workspace.has ⟨disk, cwd, .memory (memoryFor true plan.root)⟩ plan.root =
        .ok true := by
      simp [Workspace.has, Memory.has, memoryFor]
    have hdisk : Workspace.has ⟨disk, cwd, .disk cwd.toPath⟩ plan.root = .ok true := by
      rw [hroot, Workspace.has_toPath rfl, ← hroot, hthere]
      rfl
    refine ⟨_, _, _, Workspace.apply_of_has hmemory, Workspace.apply_of_has hdisk, ?_⟩
    intro report hreport
    cases hreport
  | false =>
    have hfree : disk.lookup (location ++ [name]) = none := by
      have hroot' := htakes (.directory plan.root) (by simp [Plan.writes_eq])
      rw [Plan.Write.path, hroot] at hroot'
      rw [hroot, Disk.present_toPath hroot'] at hthere
      simpa using hthere
    obtain ⟨real, hreal⟩ := Workspace.apply_succeeds (w := ⟨disk, cwd, .disk cwd.toPath⟩) rfl hroot
      hlayout hfree habove htakes
    have hdry := Workspace.apply_of_free (w := ⟨disk, cwd, .memory (memoryFor false plan.root)⟩) rfl
      ⟨fun _ _ => rfl, plan.map_path_writes ▸ hlayout.nodup_paths hroot⟩
    exact ⟨_, real, _, hdry, hreal, fun _ _ => rfl⟩

theorem carryOut_agrees {there : Bool} (happs : config.appsDir = Config.default.appsDir)
    (hlib : config.libDir = Config.default.libDir)
    (htask : request.task config disk cwd = .ok task) (hclear : task.Unobstructed disk)
    (haccepted : task.Accepted) (hthere : disk.present cwd task.root = .ok there) :
    ∃ dry real result,
      Workspace.carryOut ⟨disk, cwd, .memory (memoryFor there task.root)⟩ task = (dry, result) ∧
      Workspace.carryOut ⟨disk, cwd, .disk cwd.toPath⟩ task = (real, result) ∧
      ∀ report, result = .ok report → ∃ plan message, task.work = .ok (plan, message) ∧
        dry.store = .memory (.ofPlan plan) := by
  unfold Workspace.carryOut
  cases hwork : task.work with
  | error failure =>
    refine ⟨_, _, _, rfl, rfl, ?_⟩
    intro report hreport
    cases hreport
  | ok planned =>
    obtain ⟨plan, message⟩ := planned
    obtain ⟨hroot, ⟨location, name, hlocation⟩, hlayout⟩ :=
      Request.layout_of_task happs hlib htask hwork
    rw [← hroot] at hthere ⊢
    have htaskRoot : task.root = Location.toPath (location ++ [name]) := hroot.symm.trans hlocation
    have habove (above : Location) (ha : above <+: location) :
        disk.lookup above = none ∨ disk.lookup above = some .directory := by
      refine hclear.above (location ++ [name]) above htaskRoot
        (ha.trans (List.prefix_append _ _)) ?_
      rintro rfl
      exact absurd ha.length_le (by simp)
    have hnames (other : Name) (ho : other ∈ location ++ [name]) :
        Disk.checkName other = .ok () := by
      refine hclear.names other ?_
      rw [htaskRoot]
      exact List.mem_map_of_mem ho
    have htakes (x : Plan.Write) (hx : x ∈ plan.writes) : Disk.Takes x.path :=
      hlayout.takes_of_mem hlocation hnames hx (haccepted.writes plan message hwork x hx)
    obtain ⟨dry, real, result, hdry, hreal, hstore⟩ :=
      apply_agrees hlocation hlayout habove htakes hthere
    refine ⟨dry, real, _, Workspace.applyWithMessage_of_apply hdry,
      Workspace.applyWithMessage_of_apply hreal, ?_⟩
    intro report hreport
    obtain ⟨made, hmade, -⟩ := bind_eq_ok.1 hreport
    exact ⟨plan, message, rfl, hstore made hmade⟩

theorem scaffold_dry_of_present {error : SystemError}
    (htask : request.task config disk cwd = .ok task)
    (hpresent : disk.present cwd task.root = .error error) :
    scaffold config ⟨request, true⟩ disk cwd = .error (.failed (.system error)) := by
  have hw : workspaceFor true disk cwd task.root = .error (.system error) := by
    rw [workspaceFor]
    rw [hpresent]
    rfl
  rw [scaffold_eq, htask]
  simp only [bind, Except.bind, hw]
  rfl

theorem scaffold_of_work {failure : Failure} (htask : request.task config disk cwd = .ok task)
    (hwork : task.work = .error failure) : scaffold config ⟨request, false⟩ disk cwd =
      .ok (⟨disk, cwd, .disk cwd.toPath⟩, .error failure) := by
  have hcarry : Workspace.carryOut ⟨disk, cwd, .disk cwd.toPath⟩ task =
      (⟨disk, cwd, .disk cwd.toPath⟩, .error failure) := by
    rw [Workspace.carryOut]
    rw [hwork]
  rw [scaffold_eq, htask, ← hcarry]
  rfl

/-- A run that never starts does so in the dry run as well; any other one carries out its task in
memory and on the disk. -/
theorem scaffold_cases (hclear : ∀ task, request.task config disk cwd = .ok task →
      task.Unobstructed disk ∧ task.Accepted) :
    (∃ abort, request.task config disk cwd = .error abort ∧
      scaffold config ⟨request, true⟩ disk cwd = .error abort ∧
      scaffold config ⟨request, false⟩ disk cwd = .error abort) ∨
    ∃ task there, request.task config disk cwd = .ok task ∧
      disk.present cwd task.root = .ok there ∧
      scaffold config ⟨request, true⟩ disk cwd = .ok
        (Workspace.carryOut ⟨disk, cwd, .memory (memoryFor there task.root)⟩ task) ∧
      scaffold config ⟨request, false⟩ disk cwd = .ok
        (Workspace.carryOut ⟨disk, cwd, .disk cwd.toPath⟩ task) := by
  rw [scaffold_eq, scaffold_eq]
  cases htask : request.task config disk cwd with
  | error abort => exact .inl ⟨abort, rfl, rfl, rfl⟩
  | ok task =>
    obtain ⟨hnames, haccepted⟩ := hclear task htask
    obtain ⟨there, hthere⟩ := Disk.present_of_short haccepted.root hnames.names
    refine .inr ⟨task, there, rfl, hthere, ?_, rfl⟩
    simp only [bind, Except.bind, workspaceFor_dry hthere]
    rfl

theorem scaffold_agrees (happs : config.appsDir = Config.default.appsDir)
    (hlib : config.libDir = Config.default.libDir)
    (hclear : ∀ task, request.task config disk cwd = .ok task →
      task.Unobstructed disk ∧ task.Accepted) :
    (scaffold config ⟨request, true⟩ disk cwd).map Prod.snd =
      (scaffold config ⟨request, false⟩ disk cwd).map Prod.snd := by
  rcases scaffold_cases hclear with ⟨abort, -, hdry, hreal⟩ |
      ⟨task, there, htask, hthere, hdry, hreal⟩
  · rw [hdry, hreal]
  · obtain ⟨hopen, haccepted⟩ := hclear task htask
    obtain ⟨dry, real, result, hdry', hreal', -⟩ :=
      carryOut_agrees happs hlib htask hopen haccepted hthere
    rw [hdry, hreal, hdry', hreal']
    rfl

/-- What the dry run records is what the real run creates at its root and below it. -/
theorem scaffold_recorded {dry real : Workspace} {report : Report}
    (happs : config.appsDir = Config.default.appsDir)
    (hlib : config.libDir = Config.default.libDir)
    (hclear : ∀ task, request.task config disk cwd = .ok task →
      task.Unobstructed disk ∧ task.Accepted)
    (hdry : scaffold config ⟨request, true⟩ disk cwd = .ok (dry, .ok report))
    (hreal : scaffold config ⟨request, false⟩ disk cwd = .ok (real, .ok report)) :
    ∃ memory location, dry.store = .memory memory ∧ report.root = Location.toPath location ∧
      memory.directories = report.directories ∧ memory.files.map Prod.fst = report.files ∧
      (∀ p entry, memory.Holds p entry ↔ ∃ place, p = Location.toPath place ∧
        location <+: place ∧ real.disk.lookup place = some entry) ∧
      ∀ place, ¬ location <+: place → real.disk.lookup place =
        (disk.lookup place).or (if place <+: location then some .directory else none) := by
  obtain ⟨task, plan, message, location, htask, hwork, hreport, hroot, -, hcreated, helsewhere⟩ :=
    scaffold_created happs hlib hreal
  obtain ⟨-, -, hlayout⟩ := Request.layout_of_task happs hlib htask hwork
  have hstore : dry.store = .memory (.ofPlan plan) := by
    rcases scaffold_cases hclear with ⟨abort, hnone, -⟩ | ⟨other, there, hsome, hthere, hdry', -⟩
    · rw [htask] at hnone
      cases hnone
    · rw [htask] at hsome
      cases hsome
      obtain ⟨hopen, haccepted⟩ := hclear task htask
      obtain ⟨made, -, result, hmade, -, hstore⟩ :=
        carryOut_agrees happs hlib htask hopen haccepted hthere
      rw [hdry', hmade] at hdry
      cases hdry
      obtain ⟨planned, text, hwork', hstore⟩ := hstore report rfl
      rw [hwork] at hwork'
      cases hwork'
      exact hstore
  subst hreport
  refine ⟨.ofPlan plan, location, hstore, hroot, rfl, ?_, ?_, helsewhere⟩
  · simp [Memory.ofPlan, Plan.report, Plan.filePaths, Function.comp_def]
  · intro p entry
    rw [Memory.holds_ofPlan]
    constructor
    · rintro ⟨x, hx, rfl, rfl⟩
      obtain ⟨hbelow, hl⟩ := (hcreated x.place x.entry).2 ⟨x, hx, rfl, rfl⟩
      exact ⟨x.place, hlayout.path_eq_of_mem hroot hx, hbelow, hl⟩
    · rintro ⟨place, rfl, hbelow, hl⟩
      obtain ⟨x, hx, rfl, rfl⟩ := (hcreated place entry).1 ⟨hbelow, hl⟩
      exact ⟨x, hx, hlayout.path_eq_of_mem hroot hx, rfl⟩

/-- A name that is short enough for the system, though not many times in one path. -/
def longName : Name := ⟨List.replicate 250 'a', by decide⟩

def longProject : Location := List.replicate 17 longName

def longDirectory : Text := Text.join "/" (longProject.map Subtype.val)

def longRoot : Location := longProject ++ [⟨"apps", by decide⟩, ⟨"article", by decide⟩]

theorem long_paths :
    (Disk.resolve (.ofText longDirectory) [] = .ok longProject ∧
      (longProject.toPath.below Config.default.appsDir).below "article" = longRoot.toPath) ∧
    ('\x00' ∉ longRoot.toPath.toText ∧ Disk.pathLimit < longRoot.toPath.toText.length) ∧
    ∀ name ∈ longRoot, Disk.checkName name = .ok () := by
  decide +kernel

set_option maxRecDepth 20000 in
theorem task_long :
    Request.task .default .empty [] (.newApp "article" ["title"] (some longDirectory)) = .ok {
      root := longRoot.toPath
      work := .error (.refused (.malformedAttribute "title" .missingColon)) } := by
  obtain ⟨⟨hresolve, hroot⟩, -⟩ := long_paths
  have hwork (location : Location) :
      (AppSpec.task .default "article" ["title"] .empty [] location.toPath).work =
        .error (.refused (.malformedAttribute "title" .missingColon)) := rfl
  simp only [Request.task, hresolve]
  rw [← hroot, ← hwork longProject]
  rfl

theorem present_long : Disk.present .empty [] longRoot.toPath = .error .nameTooLong := by
  obtain ⟨-, ⟨hnul, hlong⟩, -⟩ := long_paths
  exact Disk.present_of_long hnul (Nat.lt_of_lt_of_le hlong (Disk.length_le_byteCount _))

theorem unobstructed_long {task : Task}
    (h : Request.task .default .empty [] (.newApp "article" ["title"] (some longDirectory)) =
      .ok task) : task.Unobstructed .empty := by
  rw [task_long] at h
  cases h
  exact Task.unobstructed_of_root rfl long_paths.2.2 fun above _ => Disk.lookup_empty above

set_option maxRecDepth 20000 in
theorem read_long :
    read ["app", "article", "title", "--project-dir", longDirectory, "--dry-run"] =
        .ok ⟨.newApp "article" ["title"] (some longDirectory), true⟩ ∧
      read ["app", "article", "title", "--project-dir", longDirectory] =
        .ok ⟨.newApp "article" ["title"] (some longDirectory), false⟩ := by
  constructor
  · apply eq_ok_of_toOption
    decide +kernel
  · apply eq_ok_of_toOption
    decide +kernel

def bareProject : Disk :=
  Disk.empty.put [] ⟨"package.json", by decide⟩ (.file (Disk.encode "\x7b\"name\": \"blog\"\x7d"))
    rfl nofun

theorem unobstructed_nul {task : Task}
    (h : Request.task .default bareProject [] (.newApp "a\x00b" [] (some ".")) = .ok task) :
    task.Unobstructed bareProject := by
  let root : Location := [⟨"apps", by decide⟩, ⟨"a\x00b", by decide⟩]
  have hroot : task.root = root.toPath := by
    cases h
    rfl
  have hnames : ∀ name ∈ root, Disk.checkName name = .ok () := by decide
  have habove : ∀ above ∈ root.inits,
      bareProject.lookup above = none ∨ bareProject.lookup above = some .directory := by
    decide +kernel
  exact Task.unobstructed_of_root hroot hnames fun above ha =>
    habove above ((List.mem_inits above root).2 ha)

end CommandLine

end Scaffold
