import Scaffold.Proofs.Project.Creation
import Scaffold.Proofs.Store.Series

namespace Scaffold

open Outcome Disk

/-- The directories of a project in the order of their creation. -/
def Config.directories (config : Config) (root : Path) : List Path :=
  [root, root.below config.appsDir, root.below config.libDir]

theorem isName_environment : IsName ".env" := by
  decide

theorem isName_index : IsName "index.js" := by
  decide

def ProjectSpec.fileNames : List Name :=
  [⟨"package.json", isName_manifest⟩, ⟨".env", isName_environment⟩, ⟨"index.js", isName_index⟩]

open ProjectSpec (fileNames)

/-- Each directory has a vacant path, which no earlier one leads through, and none of them leads
through the place of a file. -/
structure Config.Arranged (config : Config) (d : Disk) (cwd : Location) (root : Path) : Prop where
  vacant : ∀ p ∈ config.directories root, d.Vacant cwd p
  apart : (config.directories root).Pairwise fun p q => q.locate cwd ∉ p.way cwd
  takes : ∀ name ∈ fileNames, Takes (root.descend [name])
  room : ∀ name ∈ fileNames, ∀ p ∈ config.directories root,
    (root.descend [name]).locate cwd ∉ p.way cwd

/-- The directories for apps and for shared files are given by names that lead on from the root. -/
structure Config.Inner (config : Config) (apps lib : List Name) : Prop where
  appsDir : Path.ofText config.appsDir = ⟨.relative, apps.map .into⟩
  libDir : Path.ofText config.libDir = ⟨.relative, lib.map .into⟩
  apps_ne : apps ≠ []
  lib_ne : lib ≠ []

/-- A place in the directory that a path leads to, or on the way there. -/
def Path.Covers (p : Path) (cwd place : Location) : Prop :=
  p.locate cwd <+: place ∨ place ∈ p.way cwd

instance (p : Path) (cwd : Location) : DecidablePred (p.Covers cwd) :=
  fun _ => inferInstanceAs (Decidable (_ ∨ _))

theorem Path.covers_of_descend {p : Path} {names : List Name} {cwd place : Location}
    (h : place ∈ (p.descend names).way cwd) : p.Covers cwd place := by
  rcases Path.mem_way_descend_iff.1 h with hway | ⟨above, -, rfl⟩
  · exact .inr hway
  · exact .inl (List.prefix_append _ _)

theorem Config.directories_join (config : Config) (base root : Path) :
    config.directories (base.join root) = (config.directories root).map base.join := by
  simp only [directories, Path.below_join, List.map_cons, List.map_nil]

namespace Config.Inner

variable {config : Config} {d : Disk} {cwd place : Location} {root p : Path} {apps lib : List Name}

theorem directories_eq (h : config.Inner apps lib) (root : Path) :
    config.directories root = [root, root.descend apps, root.descend lib] := by
  rw [directories, Path.below_eq_descend h.appsDir, Path.below_eq_descend h.libDir]

theorem covers (h : config.Inner apps lib) (hp : p ∈ config.directories root)
    (hplace : place ∈ p.way cwd) : root.Covers cwd place := by
  rw [h.directories_eq] at hp
  simp only [List.mem_cons, List.not_mem_nil, or_false] at hp
  rcases hp with rfl | rfl | rfl
  · exact .inr hplace
  · exact Path.covers_of_descend hplace
  · exact Path.covers_of_descend hplace

/-- Below a vacant root, inner directories are arranged just if the system takes all paths, the
shared files are not put above the apps or with them, and no directory has the name of a file. -/
theorem arranged_iff (h : config.Inner apps lib) (hroot : d.Vacant cwd root)
    (hstart : d.lookup (startOf root cwd) = some .directory) :
    config.Arranged d cwd root ↔
      (Takes (root.descend apps) ∧ Takes (root.descend lib) ∧
        ∀ name ∈ fileNames, Takes (root.descend [name])) ∧
      ¬ lib <+: apps ∧ ∀ name ∈ fileNames, ¬ [name] <+: apps ∧ ¬ [name] <+: lib := by
  have hvacant {names : List Name} (hne : names ≠ []) :
      d.Vacant cwd (root.descend names) ↔ Takes (root.descend names) :=
    hroot.descend_iff hstart hne
  have hapart {names : List Name} (hne : names ≠ []) (more : List Name) :
      (root.descend names).locate cwd ∉ (root.descend more).way cwd ↔ ¬ names <+: more :=
    not_congr (hroot.locate_mem_way_iff hstart hne)
  have hbelow {names : List Name} (hne : names ≠ []) :
      (root.descend names).locate cwd ∉ root.way cwd := by
    rw [Path.locate_descend]
    exact hroot.notMem_way hstart hne
  constructor
  · rintro ⟨hall, hpairwise, htakes, hroom⟩
    simp only [h.directories_eq, List.forall_mem_cons, List.pairwise_cons] at hall hpairwise hroom
    refine ⟨⟨(hvacant h.apps_ne).1 hall.2.1, (hvacant h.lib_ne).1 hall.2.2.1, htakes⟩, ?_, ?_⟩
    · exact (hapart h.lib_ne apps).1 hpairwise.2.1.1
    · intro name hname
      have hone : [name] ≠ [] := List.cons_ne_nil _ _
      exact ⟨(hapart hone apps).1 (hroom name hname).2.1,
        (hapart hone lib).1 (hroom name hname).2.2.1⟩
  · rintro ⟨⟨happstakes, hlibtakes, htakes⟩, hprefix, hnames⟩
    constructor
    · rw [h.directories_eq]
      simp only [List.forall_mem_cons]
      exact ⟨hroot, (hvacant h.apps_ne).2 happstakes, (hvacant h.lib_ne).2 hlibtakes,
        List.forall_mem_nil _⟩
    · simp only [h.directories_eq, List.pairwise_cons, List.forall_mem_cons]
      exact ⟨⟨hbelow h.apps_ne, hbelow h.lib_ne, List.forall_mem_nil _⟩,
        ⟨(hapart h.lib_ne apps).2 hprefix, List.forall_mem_nil _⟩, List.forall_mem_nil _, .nil⟩
    · exact htakes
    · intro name hname
      have hone : [name] ≠ [] := List.cons_ne_nil _ _
      simp only [h.directories_eq, List.forall_mem_cons]
      exact ⟨hbelow hone, (hapart hone apps).2 (hnames name hname).1,
        (hapart hone lib).2 (hnames name hname).2, List.forall_mem_nil _⟩

end Config.Inner

theorem Config.arranged_of_isSome {config : Config} {d : Disk} {cwd : Location} {root : Path}
    (hmake : ∀ p ∈ config.directories root,
      (d.makeDirectory cwd p false).2.toOption.isSome = true)
    (hapart : (config.directories root).Pairwise fun p q => q.locate cwd ∉ p.way cwd)
    (htakes : ∀ name ∈ fileNames, Takes (root.descend [name]))
    (hroom : ∀ name ∈ fileNames, ∀ p ∈ config.directories root,
      (root.descend [name]).locate cwd ∉ p.way cwd) : config.Arranged d cwd root := by
  refine ⟨?_, hapart, htakes, hroom⟩
  intro p hp
  obtain ⟨e, ⟨⟩, h⟩ := eq_ok_of_isSome (hmake p hp)
  exact vacant_of_makeDirectory h

namespace Workspace

open Plan

variable {w v : Workspace} {base : Path} {config : Config} {spec : ProjectSpec}
  {seenFrom : Option Path} {plan : Plan} {report : Report}

theorem apply_eq_ok (hs : w.store = .disk base) : w.apply plan = (v, .ok report) ↔
    w.performAll plan.writes = (v, .ok ()) ∧ report = plan.report := by
  constructor
  · intro h
    obtain ⟨_, -, hall⟩ := made_of_apply hs h
    exact ⟨hall, report_of_apply h⟩
  · rintro ⟨hall, rfl⟩
    have hroot := hall
    rw [writes_eq] at hroot
    obtain ⟨u, hroot, -⟩ := performAll_cons_eq_ok.1 hroot
    obtain ⟨e, hmake, -⟩ := (perform_directory_eq_ok hs).1 hroot
    have hhas : w.has plan.root = .ok false := by
      rw [has_disk hs, (vacant_of_makeDirectory hmake).present]
      rfl
    rw [apply]
    simp only [hhas, hall]

theorem writes_of_ofProject (h : Plan.ofProject config spec = .ok plan) :
    ∃ files : List (Name × Text), files.map Prod.fst = fileNames ∧
      plan.writes = (config.directories spec.target).map .directory ++
        files.map fun file => .file (spec.target.descend [file.1]) file.2 := by
  obtain ⟨manifest, environment, index, -, -, -, rfl⟩ := Plan.ofProject_eq_ok h
  refine ⟨fileNames.zip [manifest, environment, index], rfl, ?_⟩
  have hbelow (name : Name) : spec.target.below name.val = spec.target.descend [name] :=
    Path.below_eq_descend (Path.ofText_name name) _
  simp only [fileNames, List.zip_cons_cons, List.zip_nil_right, List.map_cons, List.map_nil,
    ← hbelow]
  rfl

theorem newProject_eq_ok (hs : w.store = .disk base) :
    w.newProject config spec seenFrom = (v, .ok report) ↔
      ∃ plan text, Plan.ofProject config spec = .ok plan ∧
        ProjectSpec.message (w.placeFrom spec.target seenFrom).toText = .ok text ∧
        w.performAll plan.writes = (v, .ok ()) ∧ report = { plan.report with message := text } := by
  obtain ⟨plan, hplan⟩ := Plan.ofProject_succeeds config spec
  rw [newProject, hplan]
  constructor
  · intro h
    obtain ⟨text, hmessage, happly, hreport⟩ := applyWithMessage_eq_ok h
    obtain ⟨hall, -⟩ := (apply_eq_ok hs).1 happly
    exact ⟨plan, text, rfl, hmessage, hall, hreport⟩
  · rintro ⟨plan, text, hsame, hmessage, hall, rfl⟩
    cases hsame
    have happly : w.apply plan = (v, .ok plan.report) := (apply_eq_ok hs).2 ⟨hall, rfl⟩
    rw [applyWithMessage_of_apply happly, hmessage]
    rfl

theorem performAll_files_after {u : Workspace} {files : List (Name × Text)}
    (hs : w.store = .disk base) (hnames : files.map Prod.fst = fileNames)
    (hroot : w.disk.lookup ((base.join spec.target).locate w.cwd) = none)
    (h : w.performAll ((config.directories spec.target).map .directory) = (u, .ok ())) :
    (∃ v, u.performAll (files.map fun file => .file (spec.target.descend [file.1]) file.2) =
        (v, .ok ())) ↔
      ∀ name ∈ fileNames, Takes ((base.join spec.target).descend [name]) ∧
        ∀ p ∈ config.directories (base.join spec.target),
          ((base.join spec.target).descend [name]).locate w.cwd ∉ p.way w.cwd := by
  have hle := w.le_performAll ((config.directories spec.target).map .directory)
  rw [h] at hle
  have hfind : u.disk.find u.cwd (base.join spec.target) = .ok .directory := by
    rw [hle.cwd]
    exact find_of_performAll hs h (.directory spec.target) List.mem_cons_self
  have hnodup : (files.map Prod.fst).Nodup := by
    rw [hnames]
    decide
  have hplace (name : Name) :
      u.disk.lookup ((base.join spec.target).locate w.cwd ++ [name]) = none ↔
      ∀ p ∈ config.directories (base.join spec.target),
        ((base.join spec.target).descend [name]).locate w.cwd ∉ p.way w.cwd := by
    rw [free_after_directories hs h, ← config.directories_join, Path.locate_descend]
    exact and_iff_right (lookup_below hroot (List.prefix_append _ _))
  rw [performAll_files_iff (store_of_le hs hle) hfind hnodup, hle.cwd, ← hnames,
    List.forall_mem_map]
  simp only [hplace]

theorem newProject_succeeds_iff (hs : w.store = .disk base)
    (hcwd : w.disk.lookup w.cwd = some .directory) :
    (∃ v report, w.newProject config spec seenFrom = (v, .ok report)) ↔
      config.Arranged w.disk w.cwd (base.join spec.target) := by
  obtain ⟨plan, hplan⟩ := Plan.ofProject_succeeds config spec
  obtain ⟨text, hmessage⟩ :=
    ProjectSpec.message_succeeds (w.placeFrom spec.target seenFrom).toText
  obtain ⟨files, hnames, hwrites⟩ := writes_of_ofProject hplan
  have hdirectories := @performAll_directories_iff w base (config.directories spec.target) hs hcwd
  rw [← config.directories_join] at hdirectories
  constructor
  · rintro ⟨v, report, h⟩
    obtain ⟨_, _, hsame, -, hall, -⟩ := (newProject_eq_ok hs).1 h
    cases hplan.symm.trans hsame
    rw [hwrites] at hall
    obtain ⟨u, hu, hv⟩ := performAll_append_eq_ok.1 hall
    obtain ⟨hvacant, hapart⟩ := hdirectories.1 ⟨u, hu⟩
    have hroot := (hvacant _ List.mem_cons_self).free
    have hfiles := (performAll_files_after hs hnames hroot hu).1 ⟨v, hv⟩
    exact
      { vacant := hvacant
        apart := hapart
        takes := fun name hname => (hfiles name hname).1
        room := fun name hname => (hfiles name hname).2 }
  · rintro ⟨hvacant, hapart, htakes, hroom⟩
    obtain ⟨u, hu⟩ := hdirectories.2 ⟨hvacant, hapart⟩
    have hroot := (hvacant _ List.mem_cons_self).free
    obtain ⟨v, hv⟩ := (performAll_files_after hs hnames hroot hu).2 fun name hname =>
      ⟨htakes name hname, hroom name hname⟩
    have hall : w.performAll plan.writes = (v, .ok ()) := by
      rw [hwrites]
      exact performAll_append_eq_ok.2 ⟨u, hu, hv⟩
    exact ⟨v, _, (newProject_eq_ok hs).2 ⟨plan, text, hplan, hmessage, hall, rfl⟩⟩

section Created

variable (hs : w.store = .disk base) (hplan : Plan.ofProject config spec = .ok plan)
  (h : w.performAll plan.writes = (v, .ok ()))

include hs hplan h

theorem find_directories : ∀ p ∈ config.directories (base.join spec.target),
    v.disk.find w.cwd p = .ok .directory := by
  obtain ⟨files, -, hwrites⟩ := writes_of_ofProject hplan
  intro p hp
  rw [config.directories_join] at hp
  obtain ⟨q, hq, rfl⟩ := List.mem_map.1 hp
  apply find_of_performAll hs h (.directory q)
  rw [hwrites]
  exact List.mem_append_left _ (List.mem_map_of_mem hq)

theorem find_files : ∃ manifest environment index, spec.manifest = .ok manifest ∧
    spec.environmentFile config = .ok environment ∧ spec.index config = .ok index ∧
    v.disk.find w.cwd ((base.join spec.target).below "package.json") =
      .ok (.file (encode manifest)) ∧
    v.disk.find w.cwd ((base.join spec.target).below ".env") = .ok (.file (encode environment)) ∧
    v.disk.find w.cwd ((base.join spec.target).below "index.js") = .ok (.file (encode index)) := by
  have hfiles : ∀ file ∈ plan.files, v.disk.find w.cwd ((base.join plan.root).below file.path) =
      .ok (.file (encode file.content)) :=
    fun file hfile => find_file (find_of_performAll hs h) hfile
  obtain ⟨manifest, environment, index, hmanifest, henvironment, hindex, rfl⟩ :=
    Plan.ofProject_eq_ok hplan
  simp only [List.forall_mem_cons] at hfiles
  obtain ⟨hpackage, henv, hentry, -⟩ := hfiles
  exact ⟨manifest, environment, index, hmanifest, henvironment, hindex, hpackage, henv, hentry⟩

/-- All that is new lies in the root or on the way there just if all that was missing on the ways to
the other directories does. -/
theorem created_inside_iff :
    (∀ place, v.disk.lookup place ≠ w.disk.lookup place →
        (base.join spec.target).Covers w.cwd place) ↔
      ∀ p ∈ config.directories (base.join spec.target), ∀ place ∈ p.way w.cwd,
        w.disk.lookup place = none → (base.join spec.target).Covers w.cwd place := by
  constructor
  · intro hinside p hp place hplace hnone
    obtain ⟨-, last, hf, hd⟩ := find_eq_ok.1 (find_directories hs hplan h p hp)
    apply hinside
    rw [directory_of_mem_way hf hd place hplace, hnone]
    exact nofun
  · intro hways place hchanged
    have hle := w.le_performAll plan.writes
    rw [h] at hle
    have hnone : w.disk.lookup place = none :=
      (lookup_eq_or_missing hle.disk place).resolve_left hchanged
    obtain ⟨x, hx, hway⟩ := (lookup_of_performAll hs h place).resolve_left hchanged
    obtain ⟨files, -, hwrites⟩ := writes_of_ofProject hplan
    rw [hwrites] at hx
    rcases List.mem_append.1 hx with hx | hx
    · obtain ⟨q, hq, rfl⟩ := List.mem_map.1 hx
      have hp : base.join q ∈ config.directories (base.join spec.target) := by
        rw [config.directories_join]
        exact List.mem_map_of_mem hq
      exact hways _ hp place hway hnone
    · obtain ⟨file, -, rfl⟩ := List.mem_map.1 hx
      rw [Write.path, Path.join_descend] at hway
      exact Path.covers_of_descend hway

end Created

end Workspace

end Scaffold
