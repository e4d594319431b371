import Mathlib.Data.List.Nodup
import Mathlib.Logic.Function.Basic
import Scaffold.Disk.Text
import Scaffold.Plan
import Scaffold.Proofs.Disk.Place
import Scaffold.Proofs.Outcome

namespace Scaffold

/-- Where a relative text leads from the root. -/
def Path.descent (t : Text) : Location :=
  (ofText t).locate []

namespace Plan

def Write.place (x : Write) : Location :=
  x.path.locate []

def Write.entry : Write → Disk.Entry
  | .directory _ => .directory
  | .file _ content => .file (Disk.encode content)

def Write.placed (x : Write) : Location × Disk.Entry :=
  (x.place, x.entry)

/-- What a plan with an absolute root puts where. -/
def entries (plan : Plan) : List (Location × Disk.Entry) :=
  plan.writes.map Write.placed

/-- What a plan creates in its root. -/
def inner (plan : Plan) : List Write :=
  plan.directories.map (fun t => .directory (plan.root.below t)) ++
    plan.files.map fun file => .file (plan.root.below file.path) file.content

theorem writes_eq (plan : Plan) : plan.writes = .directory plan.root :: plan.inner := by
  simp [writes, inner, directoryPaths]

/-- Texts lead to directories in the root and to files in these or in the root. -/
structure Layout (directories files : List Text) : Prop where
  downward : ∀ t ∈ directories ++ files,
    Path.ofText t = ⟨.relative, (Path.descent t).map .into⟩ ∧ Path.descent t ≠ []
  distinct : ((directories ++ files).map Path.descent).Nodup
  shallow : ∀ t ∈ directories, (Path.descent t).dropLast = []
  housed : ∀ t ∈ files, (Path.descent t).dropLast = [] ∨
    (Path.descent t).dropLast ∈ directories.map Path.descent
  short : ∀ t ∈ directories ++ files, ∀ name ∈ Path.descent t, Disk.checkName name = .ok ()

instance (directories files : List Text) : Decidable (Layout directories files) :=
  decidable_of_iff (_ ∧ _ ∧ _ ∧ _ ∧ _)
    ⟨fun ⟨h₁, h₂, h₃, h₄, h₅⟩ => ⟨h₁, h₂, h₃, h₄, h₅⟩,
      fun ⟨h₁, h₂, h₃, h₄, h₅⟩ => ⟨h₁, h₂, h₃, h₄, h₅⟩⟩

/-- Entries can be put one after the other: each has a free place in a directory. -/
def Fits (look : Location → Option Disk.Entry) : List (Location × Disk.Entry) → Prop
  | [] => True
  | (place, entry) :: rest =>
    place ≠ [] ∧ look place = none ∧ look place.dropLast = some .directory ∧
      Fits (Function.update look place (some entry)) rest

variable {look : Location → Option Disk.Entry} {plan : Plan} {location : Location}

theorem fits_directories {places : List Location} {rest : List (Location × Disk.Entry)}
    (hnodup : places.Nodup)
    (hfree : ∀ place ∈ places,
      place ≠ [] ∧ look place = none ∧ look place.dropLast = some .directory)
    (hrest : Fits (fun place => if place ∈ places then some .directory else look place) rest) :
    Fits look (places.map (·, .directory) ++ rest) := by
  induction places generalizing look with
  | nil => simpa using hrest
  | cons place places ih =>
    obtain ⟨hne, hnone, hd⟩ := hfree place (by simp)
    obtain ⟨hplace, hplaces⟩ := List.nodup_cons.1 hnodup
    refine ⟨hne, hnone, hd, ih hplaces ?_ ?_⟩
    · intro other ho
      obtain ⟨hne', hnone', hd'⟩ := hfree other (List.mem_cons_of_mem _ ho)
      have hother : other ≠ place := fun heq => hplace (heq ▸ ho)
      refine ⟨hne', by rw [Function.update_of_ne hother, hnone'], ?_⟩
      by_cases heq : other.dropLast = place
      · rw [heq, Function.update_self]
      · rw [Function.update_of_ne heq, hd']
    · convert hrest using 2 with other
      by_cases heq : other = place
      · simp [heq]
      · simp [heq]

theorem fits_files {files : List (Location × ByteArray)} (hnodup : (files.map Prod.fst).Nodup)
    (hfree : ∀ file ∈ files,
      file.1 ≠ [] ∧ look file.1 = none ∧ look file.1.dropLast = some .directory) :
    Fits look (files.map fun file => (file.1, .file file.2)) := by
  induction files generalizing look with
  | nil => trivial
  | cons file files ih =>
    obtain ⟨hne, hnone, hd⟩ := hfree file (by simp)
    obtain ⟨hfile, hfiles⟩ := List.nodup_cons.1 hnodup
    refine ⟨hne, hnone, hd, ih hfiles ?_⟩
    intro other ho
    obtain ⟨hne', hnone', hd'⟩ := hfree other (List.mem_cons_of_mem _ ho)
    have hother : other.1 ≠ file.1 := fun heq => hfile (heq ▸ List.mem_map_of_mem ho)
    have habove : other.1.dropLast ≠ file.1 := fun heq => by
      rw [heq, hnone] at hd'
      cases hd'
    exact ⟨hne', by rw [Function.update_of_ne hother, hnone'],
      by rw [Function.update_of_ne habove, hd']⟩

namespace Layout

variable {directories files : List Text} {t : Text}

theorem below_eq (h : Layout directories files) (ht : t ∈ directories ++ files)
    (location : Location) :
    location.toPath.below t = Location.toPath (location ++ Path.descent t) :=
  Path.below_toPath (h.downward t ht).1 location

theorem place_below (h : Layout directories files) (ht : t ∈ directories ++ files)
    (location : Location) :
    (location.toPath.below t).locate [] = location ++ Path.descent t := by
  rw [h.below_eq ht]
  exact Location.locate_toPath _ _

theorem nodup_places (h : Layout directories files) (location : Location) :
    ((directories ++ files).map (location ++ Path.descent ·)).Nodup := by
  have hmap := h.distinct.map (List.append_right_injective location)
  rwa [List.map_map] at hmap

variable (h : Layout plan.directories (plan.files.map (·.path)))
  (hroot : plan.root = location.toPath)

include h hroot

theorem path_eq_of_mem_inner {x : Write} (hx : x ∈ plan.inner) : x.path = x.place.toPath := by
  have hbelow {t : Text} (ht : t ∈ plan.directories ++ plan.files.map (·.path)) :
      plan.root.below t = Location.toPath ((plan.root.below t).locate []) := by
    rw [hroot, h.place_below ht, h.below_eq ht]
  rcases List.mem_append.1 hx with hx | hx
  · obtain ⟨t, ht, rfl⟩ := List.mem_map.1 hx
    exact hbelow (List.mem_append_left _ ht)
  · obtain ⟨file, hfile, rfl⟩ := List.mem_map.1 hx
    exact hbelow (List.mem_append_right _ (List.mem_map_of_mem hfile))

theorem placed_inner : plan.inner.map Write.placed =
    (plan.directories.map (location ++ Path.descent ·)).map (·, .directory) ++
      (plan.files.map fun file =>
          (location ++ Path.descent file.path, Disk.encode file.content)).map
        fun file => (file.1, .file file.2) := by
  simp only [inner, List.map_append, List.map_map, Function.comp_def, Write.placed, Write.place,
    Write.path, Write.entry, hroot]
  congr 1
  · refine List.map_congr_left fun t ht => ?_
    rw [h.place_below (List.mem_append_left _ ht)]
  · refine List.map_congr_left fun file hfile => ?_
    rw [h.place_below (List.mem_append_right _ (List.mem_map_of_mem hfile))]

/-- A layout fits into a new directory. -/
theorem fits (hd : look location = some .directory)
    (hbelow : ∀ names, names ≠ [] → look (location ++ names) = none) :
    Fits look (plan.inner.map Write.placed) := by
  have hnodup := h.nodup_places location
  rw [List.map_append, List.map_map] at hnodup
  obtain ⟨hdirectories, hfiles, hdisjoint⟩ := List.nodup_append.1 hnodup
  rw [h.placed_inner hroot]
  apply fits_directories hdirectories
  · intro place hplace
    obtain ⟨t, ht, rfl⟩ := List.mem_map.1 hplace
    have hne := (h.downward t (List.mem_append_left _ ht)).2
    refine ⟨by simp [hne], hbelow _ hne, ?_⟩
    rw [List.dropLast_append_of_ne_nil hne, h.shallow t ht, List.append_nil, hd]
  · apply fits_files
    · rwa [List.map_map]
    · intro file hfile
      obtain ⟨planned, hplanned, rfl⟩ := List.mem_map.1 hfile
      have hmem : planned.path ∈ plan.files.map (·.path) := List.mem_map_of_mem hplanned
      have hne := (h.downward planned.path (List.mem_append_right _ hmem)).2
      refine ⟨by simp [hne], ?_, ?_⟩
      · rw [if_neg, hbelow _ hne]
        exact fun hin => hdisjoint _ hin _ (List.mem_map_of_mem hplanned) rfl
      · rw [List.dropLast_append_of_ne_nil hne]
        rcases h.housed planned.path hmem with hroot' | hhouse
        · rw [hroot', List.append_nil, hd]
          simp
        · obtain ⟨t, ht, heq⟩ := List.mem_map.1 hhouse
          rw [← heq, if_pos (List.mem_map_of_mem ht)]

theorem path_eq_of_mem {x : Write} (hx : x ∈ plan.writes) : x.path = x.place.toPath := by
  rw [writes_eq] at hx
  rcases List.mem_cons.1 hx with rfl | hx
  · simp only [Write.path, Write.place, hroot, Location.locate_toPath]
  · exact h.path_eq_of_mem_inner hroot hx

theorem places_eq : plan.writes.map Write.place =
    location :: (plan.directories ++ plan.files.map (·.path)).map (location ++ Path.descent ·) := by
  have hinner := congrArg (List.map Prod.fst) (h.placed_inner hroot)
  simp only [List.map_append, List.map_map, Function.comp_def, Write.placed] at hinner
  rw [writes_eq, List.map_cons, List.map_append, List.map_map]
  simp only [Function.comp_def, hinner]
  simp only [Write.place, Write.path, hroot, Location.locate_toPath]

theorem nodup_writes : (plan.writes.map Write.place).Nodup := by
  rw [h.places_eq hroot]
  refine List.nodup_cons.2 ⟨fun hmem => ?_, h.nodup_places location⟩
  obtain ⟨t, ht, heq⟩ := List.mem_map.1 hmem
  exact (h.downward t ht).2 (by simpa using heq)

theorem prefix_of_mem {x : Write} (hx : x ∈ plan.writes) : location <+: x.place := by
  have hplace : x.place ∈ plan.writes.map Write.place := List.mem_map_of_mem hx
  rw [h.places_eq hroot] at hplace
  rcases List.mem_cons.1 hplace with heq | hplace
  · exact heq.symm ▸ List.prefix_rfl
  · obtain ⟨t, -, heq⟩ := List.mem_map.1 hplace
    exact heq ▸ List.prefix_append _ _

theorem nodup_paths : (plan.writes.map Write.path).Nodup := by
  have hpaths : plan.writes.map Write.path =
      (plan.writes.map Write.place).map Location.toPath := by
    rw [List.map_map]
    exact List.map_congr_left fun x hx => h.path_eq_of_mem hroot hx
  rw [hpaths]
  exact (h.nodup_writes hroot).map Location.toPath_injective

theorem takes_of_mem (hnames : ∀ name ∈ location, Disk.checkName name = .ok ()) {x : Write}
    (hx : x ∈ plan.writes) (hcheck : Disk.checkPath x.path = .ok ()) : Disk.Takes x.path := by
  refine ⟨hcheck, ?_⟩
  rw [h.path_eq_of_mem hroot hx]
  intro name hname
  obtain ⟨_, hname, heq⟩ := List.mem_map.1 hname
  cases heq
  have hplace : x.place ∈ plan.writes.map Write.place := List.mem_map_of_mem hx
  rw [h.places_eq hroot] at hplace
  rcases List.mem_cons.1 hplace with hlocation | hplace
  · exact hnames name (hlocation ▸ hname)
  · obtain ⟨t, ht, heq⟩ := List.mem_map.1 hplace
    rw [← heq] at hname
    rcases List.mem_append.1 hname with hname | hname
    · exact hnames name hname
    · exact h.short t ht name hname

theorem lookup_entries {place : Location} {entry : Disk.Entry} :
    plan.entries.lookup place = some entry ↔
      ∃ x ∈ plan.writes, x.place = place ∧ x.entry = entry := by
  have hnodup := h.nodup_writes hroot
  rw [entries]
  rw [List.lookup_eq_some_iff]
  constructor
  · rintro ⟨before, after, heq, -⟩
    have hmem : (place, entry) ∈ plan.writes.map Write.placed := by simp [heq]
    obtain ⟨x, hx, hplaced⟩ := List.mem_map.1 hmem
    exact ⟨x, hx, congrArg Prod.fst hplaced, congrArg Prod.snd hplaced⟩
  · rintro ⟨x, hx, rfl, rfl⟩
    obtain ⟨before, after, heq⟩ := List.append_of_mem hx
    refine ⟨before.map Write.placed, after.map Write.placed, by simp [heq, Write.placed], ?_⟩
    intro other ho
    obtain ⟨y, hy, rfl⟩ := List.mem_map.1 ho
    rw [heq, List.map_append, List.nodup_append] at hnodup
    exact bne_iff_ne.2 fun hsame =>
      hnodup.2.2 y.place (List.mem_map_of_mem hy) x.place (by simp) hsame.symm

theorem lookup_entries_elsewhere {place : Location} (hplace : ¬ location <+: place) :
    plan.entries.lookup place = none := by
  by_contra hsome
  obtain ⟨entry, hentry⟩ := Option.ne_none_iff_exists'.1 hsome
  obtain ⟨x, hx, rfl, -⟩ := (h.lookup_entries hroot).1 hentry
  exact hplace (h.prefix_of_mem hroot hx)

end Layout

variable {config : Config}

theorem layout_project : Layout [Config.default.appsDir, Config.default.libDir]
    ["package.json", ".env", "index.js"] := by
  decide

theorem layout_app : Layout ["controllers", "models", "views"]
    ["models/index.js", "controllers/index.js", "views/index.js", "views/head.js", "router.js",
      "client.js", "server.js", "index.js"] := by
  decide

theorem layout_of_ofProject {spec : ProjectSpec} (happs : config.appsDir = Config.default.appsDir)
    (hlib : config.libDir = Config.default.libDir) (h : ofProject config spec = .ok plan) :
    plan.root = spec.target ∧ Layout plan.directories (plan.files.map (·.path)) := by
  obtain ⟨manifest, -, h⟩ := Outcome.bind_eq_ok.1 h
  obtain ⟨environment, -, h⟩ := Outcome.bind_eq_ok.1 h
  obtain ⟨index, -, h⟩ := Outcome.bind_eq_ok.1 h
  cases h
  rw [happs, hlib]
  exact ⟨rfl, layout_project⟩

theorem layout_of_ofApp {spec : AppSpec} {root : Path} (h : ofApp config spec root = .ok plan) :
    plan.root = root ∧ Layout plan.directories (plan.files.map (·.path)) := by
  obtain ⟨model, -, h⟩ := Outcome.bind_eq_ok.1 h
  obtain ⟨controller, -, h⟩ := Outcome.bind_eq_ok.1 h
  obtain ⟨view, -, h⟩ := Outcome.bind_eq_ok.1 h
  obtain ⟨head, -, h⟩ := Outcome.bind_eq_ok.1 h
  obtain ⟨router, -, h⟩ := Outcome.bind_eq_ok.1 h
  obtain ⟨client, -, h⟩ := Outcome.bind_eq_ok.1 h
  obtain ⟨server, -, h⟩ := Outcome.bind_eq_ok.1 h
  obtain ⟨index, -, h⟩ := Outcome.bind_eq_ok.1 h
  cases h
  exact ⟨rfl, layout_app⟩

end Plan

end Scaffold
