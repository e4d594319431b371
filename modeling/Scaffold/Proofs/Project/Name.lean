import Scaffold.Proofs.Project.Creation
import Scaffold.Proofs.Project.Declared
import Scaffold.Proofs.Store.Written

namespace Scaffold

namespace Manifest

/-- The name of a project as its manifest gives it: without blanks at its ends, if that leaves
anything. -/
def found (manifest : Path) (name : Text) : Except Failure RawText.Filled :=
  if h : name.strip = [] then .error (.refused (.manifest manifest .nameless))
  else .ok (⟨name.strip, h⟩ : Text.Filled)

variable {disk : Disk} {cwd : Location} {directory : Path} {file t : Text} {spec : ProjectSpec}

theorem nameOf_manifest (h : spec.manifest = .ok t) : nameOf t =
    .ok (if h : spec.name.strip = [] then .error .nameless
      else .ok (⟨spec.name.strip, h⟩ : Text.Filled)) := by
  have hnamed : nameOf t = .ok (if h : spec.name.raw.strip = [] then .error .nameless
      else .ok ⟨spec.name.raw.strip, h⟩) := by
    rw [nameOf, ProjectSpec.read_manifest h]
    by_cases hblank : spec.name.raw.strip = []
    · rw [dif_pos hblank]
      exact dif_pos hblank
    · rw [dif_neg hblank]
      exact dif_neg hblank
  rw [hnamed]
  simp only [RawText.strip_raw]
  by_cases hblank : spec.name.strip = []
  · rw [dif_pos hblank, dif_pos (RawText.raw_eq_nil.2 hblank)]
  · rw [dif_neg hblank, dif_neg (mt RawText.raw_eq_nil.1 hblank)]

theorem readName_of_find (h : spec.manifest = .ok t)
    (hfind : disk.find cwd (directory.below file) = .ok (.file (Disk.encode t))) :
    readName disk cwd directory file = found (directory.below file) spec.name := by
  rw [readName_of_holds ⟨_, hfind, ProjectSpec.decode?_manifest h⟩, nameOf_manifest h, found]
  by_cases hblank : spec.name.strip = []
  · simp only [dif_pos hblank]
  · simp only [dif_neg hblank]

end Manifest

namespace Workspace

variable {w v : Workspace} {base directory : Path} {config : Config} {spec : ProjectSpec}
  {seenFrom : Option Path} {report : Report}

/-- Where the files of a project are found after the project was created: below the target, as it is
seen from the base directory. -/
theorem find_of_newProject (hs : w.store = .disk base)
    (h : w.newProject config spec seenFrom = (v, .ok report)) :
    ∃ plan, Plan.ofProject config spec = .ok plan ∧ ∀ file ∈ plan.files,
      v.disk.find v.cwd ((base.join spec.target).below file.path) =
        .ok (.file (Disk.encode file.content)) := by
  obtain ⟨plan, hplan, hfound⟩ := find_of_applyWithMessage hs h
  have hcwd : v.cwd = w.cwd := (le_of_newProject h).cwd
  have hroot : plan.root = spec.target := by
    obtain ⟨_, _, _, -, -, -, rfl⟩ := Plan.ofProject_eq_ok hplan
    rfl
  refine ⟨plan, hplan, ?_⟩
  intro file hfile
  rw [hcwd, ← hroot]
  exact find_file hfound hfile

/-- A directory under which a project can be reached after it was created. -/
def Reaches (w : Workspace) (base : Path) (spec : ProjectSpec) (directory : Path) : Prop :=
  directory = base.join spec.target ∨ base = w.cwd.toPath ∧ directory = spec.target

theorem find_of_reaches {file : Text} {entry : Disk.Entry} {disk : Disk}
    (hreaches : w.Reaches base spec directory)
    (h : disk.find w.cwd ((base.join spec.target).below file) = .ok entry) :
    disk.find w.cwd (directory.below file) = .ok entry := by
  rcases hreaches with rfl | ⟨rfl, rfl⟩
  · exact h
  · rw [Path.below_join] at h
    exact Disk.find_of_join h

theorem readName_of_newProject {disk : Disk} {file : Text} (hs : w.store = .disk base)
    (h : w.newProject config spec seenFrom = (v, .ok report)) (hdisk : v.disk ≤ disk)
    (hreaches : w.Reaches base spec directory)
    (hfile : Path.ofText file = Path.ofText "package.json") :
    Manifest.readName disk v.cwd directory file =
      Manifest.found (directory.below file) spec.name := by
  have hcwd : v.cwd = w.cwd := (le_of_newProject h).cwd
  have hbelow : directory.below file = directory.below "package.json" :=
    congrArg directory.join hfile
  obtain ⟨plan, hplan, hfound⟩ := find_of_newProject hs h
  obtain ⟨manifest, environment, index, hmanifest, -, -, rfl⟩ := Plan.ofProject_eq_ok hplan
  have hfind := Disk.find_mono hdisk (hfound ⟨"package.json", manifest⟩ List.mem_cons_self)
  apply Manifest.readName_of_find hmanifest
  rw [hcwd] at hfind ⊢
  rw [hbelow]
  exact find_of_reaches hreaches hfind

end Workspace

/-- The manifest of every project is read as its fields, and where the project was created on a
disk, the name is read from its file. -/
theorem ProjectSpec.manifest_round_trip (spec : ProjectSpec) :
    (∃ t, spec.manifest = .ok t ∧ Json.read Manifest.dialect t = .ok (Json.raw (.object
      [("name", .string spec.name), ("version", .string "0.0.1"), ("private", .bool true),
        ("scripts", .textFields scripts),
        ("babel", .object [("presets", .texts babelPresets), ("plugins", .texts babelPlugins)]),
        ("dependencies", .textFields dependencies)]))) ∧
      ∀ (w v : Workspace) (base : Path) (config : Config) (seenFrom : Option Path)
        (report : Report), w.store = .disk base →
        w.newProject config spec seenFrom = (v, .ok report) →
        ∀ directory, w.Reaches base spec directory →
          Manifest.readName v.disk v.cwd directory "package.json" =
            Manifest.found (directory.below "package.json") spec.name := by
  constructor
  · exact ⟨_, spec.manifest_eq, read_manifest spec.manifest_eq⟩
  · intro w v base config seenFrom report hs h directory hreaches
    exact Workspace.readName_of_newProject hs h le_rfl hreaches rfl

def ProjectSpec.quoted : ProjectSpec :=
  named " a\"\\😀" (by decide)

theorem ProjectSpec.manifest_round_trip_quoted :
    (∃ t fields, quoted.manifest = .ok t ∧
        Json.read Manifest.dialect t =
          .ok (Json.raw (.object (("name", .string " a\"\\😀") :: fields)))) ∧
      ∃ v report,
        (Workspace.start (Location.toPath [])).newProject .default quoted none = (v, .ok report) ∧
        (Manifest.readName v.disk v.cwd (.ofText "/blog") "package.json").map Subtype.val =
          .ok (Text.raw "a\"\\😀") := by
  obtain ⟨⟨t, ht, hread⟩, hdisk⟩ := quoted.manifest_round_trip
  obtain ⟨_, v, report, -, hproject, -⟩ :=
    Workspace.newProject_named (Location.toPath []) .default rfl rfl quoted.name_ne
  have htarget : Path.ofText "/blog" = (Location.toPath []).join quoted.target := by decide
  refine ⟨⟨t, _, ht, hread⟩, v, report, hproject, ?_⟩
  rw [hdisk _ _ _ _ _ report rfl hproject (.ofText "/blog") (.inl htarget)]
  decide

end Scaffold
