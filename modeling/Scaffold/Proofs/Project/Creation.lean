import Scaffold.Proofs.App.Files
import Scaffold.Proofs.Project.Environment
import Scaffold.Proofs.Project.Manifest
import Scaffold.Proofs.Store.Disk
import Scaffold.Proofs.Store.Message
import Scaffold.Proofs.Store.Written

namespace Scaffold

open Outcome Disk

/-- A free place below directories, to which short names lead. -/
structure Disk.FreePlace (d : Disk) (location : Location) (name : Name) : Prop where
  free : d.lookup (location ++ [name]) = none
  above : ∀ above, above <+: location → d.lookup above = none ∨ d.lookup above = some .directory
  names : ∀ other ∈ location ++ [name], checkName other = .ok ()

theorem Template.Supply.meets_of_texts (entries : Entries Text) :
    Supply.Meets ⟨entries.keys, [], []⟩ (entries.map fun (key, value) => (key, .string value)) where
  text := by
    intro name hname
    induction entries with
    | nil => cases hname
    | cons e rest ih =>
      by_cases hkey : e.1 = name
      · exact ⟨e.2, if_pos hkey⟩
      · obtain ⟨t, ht⟩ := ih (List.mem_of_ne_of_mem (Ne.symm hkey) hname)
        exact ⟨t, (if_neg hkey).trans ht⟩
  list := List.forall_mem_nil _
  mapping := List.forall_mem_nil _

namespace ProjectSpec

open Template

theorem index_succeeds (config : Config) (spec : ProjectSpec) :
    ∃ t, spec.index config = .ok t := by
  have hfills : List.all projectIndex
      (Supply.fillsBlock ⟨["example_app", "apps_dir"], [], []⟩) = true := by
    decide
  exact render_succeeds rfl
    (Supply.meets_of_texts [("example_app", exampleApp), ("apps_dir", config.appsDir)]) hfills

theorem message_succeeds (place : Text) : ∃ t, message place = .ok t := by
  have hmeets : Supply.Meets ⟨["location", "example_app"], ["example_attributes"], []⟩
      [("location", .string place), ("example_app", .string exampleApp),
        ("example_attributes", .texts exampleAttributes)] := by
    constructor
    · intro name hname
      simp only [List.mem_cons, List.not_mem_nil, or_false] at hname
      rcases hname with rfl | rfl <;> exact ⟨_, rfl⟩
    · intro name hname
      cases List.mem_singleton.1 hname
      exact ⟨_, rfl⟩
    · exact List.forall_mem_nil _
  exact render_succeeds rfl hmeets (by decide)

end ProjectSpec

theorem AppSpec.message_succeeds (config : Config) (spec : AppSpec) :
    ∃ t, spec.message config = .ok t := by
  have hfills : List.all Template.appMessage
      (Template.Supply.fillsBlock ⟨["module_name", "apps_dir"], [], []⟩) = true := by
    decide
  exact Template.render_succeeds rfl
    (Template.Supply.meets_of_texts [("module_name", spec.name), ("apps_dir", config.appsDir)])
    hfills

namespace Plan

variable {config : Config} {spec : ProjectSpec} {plan : Plan}

theorem ofProject_eq_ok (h : ofProject config spec = .ok plan) :
    ∃ manifest environment index, spec.manifest = .ok manifest ∧
      spec.environmentFile config = .ok environment ∧ spec.index config = .ok index ∧
      plan = ⟨spec.target, [config.appsDir, config.libDir],
        [⟨"package.json", manifest⟩, ⟨".env", environment⟩, ⟨"index.js", index⟩]⟩ := by
  obtain ⟨manifest, hmanifest, h⟩ := bind_eq_ok.1 h
  obtain ⟨environment, henvironment, h⟩ := bind_eq_ok.1 h
  obtain ⟨index, hindex, h⟩ := bind_eq_ok.1 h
  cases h
  exact ⟨manifest, environment, index, hmanifest, henvironment, hindex, rfl⟩

theorem ofProject_succeeds (config : Config) (spec : ProjectSpec) :
    ∃ plan, ofProject config spec = .ok plan := by
  obtain ⟨index, hindex⟩ := spec.index_succeeds config
  exact ⟨_, bind_eq_ok.2 ⟨_, spec.manifest_eq, bind_eq_ok.2 ⟨_, spec.environmentFile_eq config,
    bind_eq_ok.2 ⟨index, hindex, rfl⟩⟩⟩⟩

end Plan

namespace Workspace

variable {w : Workspace} {base root : Path} {config : Config} {location : Location} {name : Name}

theorem newProject_succeeds {spec : ProjectSpec} (seenFrom : Option Path)
    (hs : w.store = .disk base) (happs : config.appsDir = Config.default.appsDir)
    (hlib : config.libDir = Config.default.libDir)
    (htarget : spec.target = Location.toPath (location ++ [name]))
    (hplace : w.disk.FreePlace location name)
    (hcheck : ∀ p ∈ spec.target :: [config.appsDir, config.libDir, "package.json", ".env",
      "index.js"].map spec.target.below, checkPath p = .ok ()) :
    ∃ plan v message, Plan.ofProject config spec = .ok plan ∧
      w.apply plan = (v, .ok plan.report) ∧
      w.newProject config spec seenFrom = (v, .ok { plan.report with message }) := by
  obtain ⟨plan, hplan⟩ := Plan.ofProject_succeeds config spec
  obtain ⟨hroot, hlayout⟩ := Plan.layout_of_ofProject happs hlib hplan
  obtain ⟨message, hmessage⟩ :=
    ProjectSpec.message_succeeds (w.placeFrom spec.target seenFrom).toText
  have hpaths : plan.writes.map Plan.Write.path = spec.target :: [config.appsDir, config.libDir,
      "package.json", ".env", "index.js"].map spec.target.below := by
    obtain ⟨_, _, _, -, -, -, rfl⟩ := Plan.ofProject_eq_ok hplan
    rfl
  rw [← hpaths] at hcheck
  have htakes (x : Plan.Write) (hx : x ∈ plan.writes) : Takes x.path :=
    hlayout.takes_of_mem (hroot.trans htarget) hplace.names hx
      (hcheck x.path (List.mem_map_of_mem hx))
  obtain ⟨v, hv⟩ := apply_succeeds hs (hroot.trans htarget) hlayout hplace.free hplace.above htakes
  refine ⟨plan, v, message, hplan, hv, ?_⟩
  rw [newProject, hplan, applyWithMessage_of_apply hv, hmessage]
  rfl

theorem newApp_succeeds (app : AppSpec) (hs : w.store = .disk base)
    (hroot : root = Location.toPath (location ++ [name]))
    (hplace : w.disk.FreePlace location name)
    (hcheck : ∀ p ∈ root :: ["controllers", "models", "views", "models/index.js",
      "controllers/index.js", "views/index.js", "views/head.js", "router.js", "client.js",
      "server.js", "index.js"].map root.below, checkPath p = .ok ()) :
    ∃ v report, w.applyWithMessage (Plan.ofApp config app root) (app.message config) =
      (v, .ok report) := by
  have hplan := Plan.ofApp_eq config app root
  obtain ⟨-, hlayout⟩ := Plan.layout_of_ofApp hplan
  obtain ⟨message, hmessage⟩ := app.message_succeeds config
  have htakes (x : Plan.Write) (hx : x ∈ Plan.writes _) : Takes x.path :=
    hlayout.takes_of_mem hroot hplace.names hx (hcheck x.path (List.mem_map_of_mem hx))
  obtain ⟨v, hv⟩ := apply_succeeds hs hroot hlayout hplace.free hplace.above htakes
  rw [hplan, applyWithMessage_of_apply hv, hmessage]
  exact ⟨v, _, rfl⟩

/-- An empty disk and the base directory of what is created there. -/
def start (base : Path) : Workspace :=
  ⟨.empty, [], .disk base⟩

def blog : Location :=
  [⟨"blog", by decide⟩]

end Workspace

def ProjectSpec.named (name : Text) (h : name ≠ []) : ProjectSpec :=
  ⟨name, Workspace.blog.toPath, h⟩

namespace Workspace

variable {projectName : Text}

theorem newProject_named (base : Path) (config : Config)
    (happs : config.appsDir = Config.default.appsDir)
    (hlib : config.libDir = Config.default.libDir) (h : projectName ≠ []) :
    ∃ plan v report, Plan.ofProject config (.named projectName h) = .ok plan ∧
      (start base).newProject config (.named projectName h) none = (v, .ok report) ∧
      ∀ place, v.disk.lookup place =
        if place <+: blog then some .directory else plan.entries.lookup place := by
  have hplace : Disk.empty.FreePlace [] ⟨"blog", by decide⟩ := by
    refine ⟨rfl, ?_, by decide⟩
    intro above ha
    cases List.prefix_nil.1 ha
    exact .inr rfl
  have hcheck : ∀ p ∈ blog.toPath :: [config.appsDir, config.libDir, "package.json", ".env",
      "index.js"].map blog.toPath.below, checkPath p = .ok () := by
    rw [happs, hlib]
    decide
  obtain ⟨plan, v, message, hplan, happly, hnew⟩ := @newProject_succeeds (start base) base config []
    ⟨"blog", by decide⟩ (.named projectName h) none rfl happs hlib rfl hplace hcheck
  obtain ⟨hroot, hlayout⟩ := Plan.layout_of_ofProject happs hlib hplan
  obtain ⟨-, hlookup⟩ :=
    @lookup_of_apply (start base) v base [] ⟨"blog", by decide⟩ plan rfl hroot hlayout _ happly
  refine ⟨plan, v, _, hplan, hnew, ?_⟩
  intro place
  rw [hlookup]
  cases place with
  | nil => exact (if_pos List.nil_prefix).symm
  | cons name rest => rfl

theorem newApp_named {v : Workspace} {base : Path} {config : Config} {h : projectName ≠ []}
    {report : Report} (happs : config.appsDir = Config.default.appsDir)
    (hlib : config.libDir = Config.default.libDir)
    (hproject : (start base).newProject config (.named projectName h) none = (v, .ok report))
    (app : AppSpec) : ∃ t created, v.applyWithMessage
        (Plan.ofApp config app ((blog.toPath.below config.appsDir).below "article"))
        (app.message config) = (t, .ok created) := by
  obtain ⟨plan, _, _, hplan, hnew, hlookup⟩ := newProject_named base config happs hlib h
  rw [hproject] at hnew
  cases hnew
  have hstore : v.store = .disk base := store_of_le rfl (le_of_newProject hproject)
  obtain ⟨_, _, _, -, -, -, rfl⟩ := Plan.ofProject_eq_ok hplan
  rw [happs, hlib] at hlookup
  rw [happs]
  have hroot : (blog.toPath.below Config.default.appsDir).below "article" =
      Location.toPath ((blog ++ [⟨"apps", by decide⟩]) ++ [⟨"article", by decide⟩]) := by
    decide
  have hplace : v.disk.FreePlace (blog ++ [⟨"apps", by decide⟩]) ⟨"article", by decide⟩ := by
    refine ⟨?_, ?_, by decide⟩
    · rw [hlookup]
      rfl
    · intro above ha
      rw [hlookup]
      rcases List.prefix_concat_iff.1 ha with rfl | ha
      · exact .inr rfl
      · exact .inr (if_pos ha)
  exact newApp_succeeds app hstore hroot hplace (by decide)

end Workspace

end Scaffold
