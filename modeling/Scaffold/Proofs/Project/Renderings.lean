import Scaffold.App.Artifacts
import Scaffold.Project.Artifacts
import Scaffold.Proofs.App.Fields
import Scaffold.Proofs.Template.Source
import Scaffold.Proofs.Template.Supply

namespace Scaffold

open Template

/-- The templates of an app, a project and the messages about them, with what comes of each. -/
def renderings (config : Config) (app : AppSpec) (project : ProjectSpec) (place : Text) :
    List (Template × Except RenderError Text) :=
  [(Template.controller, app.controller), (Template.model, app.model),
    (Template.view, app.view), (Template.head, app.head), (Template.router, app.router),
    (Template.client, app.client), (Template.server, app.server),
    (Template.appIndex, app.index config), (Template.manifest, project.manifest),
    (Template.projectIndex, project.index config), (Template.appMessage, app.message config),
    (Template.projectMessage, ProjectSpec.message place)]

/-- What the labels in the sources stand for. -/
def labelValues (config : Config) (app : AppSpec) (project : ProjectSpec) (place : Text) :
    Values where
  texts :=
    [("module_name", app.name), ("module_name | camel_case", Text.camelCase app.name),
      ("app_url_env_var", app.appUrlVariable), ("query", app.query),
      ("model_imports | join(', ')", Text.join ", " ("model" :: app.schema.importedTypes)),
      ("field_declarations", app.schema.declarations),
      ("view_body", viewBody app.name app.schema.names),
      ("mongo_url", config.mongoUrl app.project), ("apps_dir", config.appsDir),
      ("project_name | jsonify", Json.compact (.string project.name)), ("location", place),
      ("example_app", "article"), ("example_app | camel_case", "article"),
      ("example_attributes | join(' ')", "title:string body:string")]
  copies :=
    [("if field_declarations", if app.schema.attributes = [] then [] else [[]]),
      ("for value in server_watch", copiesForItems AppSpec.serverWatch),
      ("for value in client_watch", copiesForItems AppSpec.clientWatch),
      ("for key, value in scripts.items()", copiesFor ProjectSpec.scripts),
      ("for value in babel_presets", copiesForItems ProjectSpec.babelPresets),
      ("for value in babel_plugins", copiesForItems ProjectSpec.babelPlugins),
      ("for key, value in dependencies.items()", copiesFor ProjectSpec.dependencies)]

variable (config : Config) (app : AppSpec) (project : ProjectSpec) (place : Text)

/-- What the files of an app take from its context. -/
def appUses : Uses where
  slots := [("app_url_env_var", .plain), ("module_name", .plain), ("query", .plain),
    ("model_imports", .joined ", "), ("field_declarations", .plain), ("view_body", .plain)]
  conditions := ["field_declarations"]

def appIndexUses : Uses where
  slots := [("mongo_url", .plain)]
  lists := ["server_watch", "client_watch"]

def manifestUses : Uses where
  slots := [("project_name", .json)]
  lists := ["babel_presets", "babel_plugins"]
  mappings := ["scripts", "dependencies"]

def projectIndexUses : Uses where
  slots := [("example_app", .camelCase), ("apps_dir", .plain), ("example_app", .plain)]

def appMessageUses : Uses where
  slots := [("module_name", .plain), ("module_name", .camelCase), ("apps_dir", .plain)]

def projectMessageUses : Uses where
  slots := [("location", .plain), ("example_app", .plain), ("example_attributes", .joined " ")]

/-- The templates that are filled in by `renderings`, with what they use. -/
def usesOfTemplates : List (Template × Uses) :=
  [(Template.controller, appUses), (Template.model, appUses), (Template.view, appUses),
    (Template.head, ⟨[], [], [], []⟩), (Template.router, appUses),
    (Template.client, ⟨[], [], [], []⟩), (Template.server, appUses),
    (Template.appIndex, appIndexUses), (Template.manifest, manifestUses),
    (Template.projectIndex, projectIndexUses), (Template.appMessage, appMessageUses),
    (Template.projectMessage, projectMessageUses)]

theorem covers_templates : ∀ p ∈ usesOfTemplates, p.2.covers p.1 = true := by
  unfold usesOfTemplates Template.controller Template.model Template.view Template.head
    Template.resetMargins Template.resetDisplay Template.router Template.client Template.server
    Template.appIndex Template.manifest Template.projectIndex Template.appMessage
    Template.projectMessage
  -- the kernel is slow to find the characters of a literal, unless they are listed
  repeat rw [String.toList_ofList]
  decide +kernel

theorem copies_declarations (schema : Schema) :
    (if (Json.string schema.declarations).isFilled then [[]] else [] : List (Entries Text)) =
      if schema.attributes = [] then [] else [[]] := by
  by_cases hempty : schema.attributes = []
  · have hnil : schema.declarations = [] := by rw [Schema.declarations, hempty]; rfl
    rw [if_pos hempty, hnil]
    rfl
  · have hfilled : (Json.string schema.declarations).isFilled = true := by
      simpa [Json.isFilled] using mt Naming.declarations_eq_nil hempty
    rw [if_neg hempty, if_pos hfilled]

theorem appUses_agrees : appUses.Agrees app.context (labelValues config app project place) where
  reserved := rfl
  slot := by
    simp only [appUses, List.forall_mem_cons]
    exact ⟨⟨_, rfl, rfl⟩, ⟨_, rfl, rfl⟩, ⟨_, rfl, rfl⟩, ⟨_, Supply.apply_joined _ _, rfl⟩,
      ⟨_, rfl, rfl⟩, ⟨_, rfl, rfl⟩, List.forall_mem_nil _⟩
  condition := by
    intro name hname
    cases List.mem_singleton.1 hname
    exact ⟨_, rfl, congrArg some (copies_declarations app.schema).symm⟩
  list := List.forall_mem_nil _
  mapping := List.forall_mem_nil _

theorem appIndexUses_agrees : appIndexUses.Agrees (app.context ++ app.indexContext config)
    (labelValues config app project place) where
  reserved := rfl
  slot := by
    simp only [appIndexUses, List.forall_mem_cons]
    exact ⟨⟨_, rfl, rfl⟩, List.forall_mem_nil _⟩
  condition := List.forall_mem_nil _
  list := by
    simp only [appIndexUses, List.forall_mem_cons]
    exact ⟨⟨_, rfl, rfl⟩, ⟨_, rfl, rfl⟩, List.forall_mem_nil _⟩
  mapping := List.forall_mem_nil _

theorem manifestUses_agrees : manifestUses.Agrees
    [("project_name", .string project.name), ("scripts", .textFields ProjectSpec.scripts),
      ("babel_presets", .texts ProjectSpec.babelPresets),
      ("babel_plugins", .texts ProjectSpec.babelPlugins),
      ("dependencies", .textFields ProjectSpec.dependencies)]
    (labelValues config app project place) where
  reserved := rfl
  slot := by
    simp only [manifestUses, List.forall_mem_cons]
    exact ⟨⟨_, rfl, rfl⟩, List.forall_mem_nil _⟩
  condition := List.forall_mem_nil _
  list := by
    simp only [manifestUses, List.forall_mem_cons]
    exact ⟨⟨_, rfl, rfl⟩, ⟨_, rfl, rfl⟩, List.forall_mem_nil _⟩
  mapping := by
    simp only [manifestUses, List.forall_mem_cons]
    exact ⟨⟨_, rfl, rfl⟩, ⟨_, rfl, rfl⟩, List.forall_mem_nil _⟩

theorem projectIndexUses_agrees : projectIndexUses.Agrees
    [("example_app", .string ProjectSpec.exampleApp), ("apps_dir", .string config.appsDir)]
    (labelValues config app project place) where
  reserved := rfl
  slot := by
    simp only [projectIndexUses, List.forall_mem_cons]
    exact ⟨⟨_, rfl, rfl⟩, ⟨_, rfl, rfl⟩, ⟨_, rfl, rfl⟩, List.forall_mem_nil _⟩
  condition := List.forall_mem_nil _
  list := List.forall_mem_nil _
  mapping := List.forall_mem_nil _

theorem appMessageUses_agrees : appMessageUses.Agrees
    [("module_name", .string app.name), ("apps_dir", .string config.appsDir)]
    (labelValues config app project place) where
  reserved := rfl
  slot := by
    simp only [appMessageUses, List.forall_mem_cons]
    exact ⟨⟨_, rfl, rfl⟩, ⟨_, rfl, rfl⟩, ⟨_, rfl, rfl⟩, List.forall_mem_nil _⟩
  condition := List.forall_mem_nil _
  list := List.forall_mem_nil _
  mapping := List.forall_mem_nil _

theorem projectMessageUses_agrees : projectMessageUses.Agrees
    [("location", .string place), ("example_app", .string ProjectSpec.exampleApp),
      ("example_attributes", .texts ProjectSpec.exampleAttributes)]
    (labelValues config app project place) where
  reserved := rfl
  slot := by
    simp only [projectMessageUses, List.forall_mem_cons]
    exact ⟨⟨_, rfl, rfl⟩, ⟨_, rfl, rfl⟩, ⟨_, Supply.apply_joined _ _, rfl⟩, List.forall_mem_nil _⟩
  condition := List.forall_mem_nil _
  list := List.forall_mem_nil _
  mapping := List.forall_mem_nil _

theorem fixed_agrees (values : Values) : Uses.Agrees ⟨[], [], [], []⟩ [] values where
  reserved := rfl
  slot := List.forall_mem_nil _
  condition := List.forall_mem_nil _
  list := List.forall_mem_nil _
  mapping := List.forall_mem_nil _

/-- All generated texts but the environment file come about: each is the source of its template with
the lines between block tags copied and every placeholder, and nothing that a value holds, replaced
by what its label stands for. It begins with no blank and ends with one newline. -/
theorem renderings_exact :
    (renderings config app project place).map Prod.fst =
      (library.map Prod.snd).filter (· ≠ Template.environmentFile) ∧
    ∀ r ∈ renderings config app project place, ∃ u : Text, u ≠ [] ∧ u.Trimmed ∧
      r.2 = .ok (u ++ ['\n']) ∧
      instantiate (labelValues config app project place) r.1.source = some (u ++ ['\n']) := by
  have hcovers := covers_templates
  simp only [usesOfTemplates, List.forall_mem_cons] at hcovers
  obtain ⟨hcontroller, hmodel, hview, hhead, hrouter, hclient, hserver, happIndex, hmanifest,
    hindex, happMessage, hmessage, -⟩ := hcovers
  have happ := appUses_agrees config app project place
  have hfixed := fixed_agrees (labelValues config app project place)
  refine ⟨rfl, ?_⟩
  simp only [renderings, List.forall_mem_cons]
  exact ⟨happ.instantiate_eq hcontroller, happ.instantiate_eq hmodel, happ.instantiate_eq hview,
    hfixed.instantiate_eq hhead, happ.instantiate_eq hrouter, hfixed.instantiate_eq hclient,
    happ.instantiate_eq hserver,
    (appIndexUses_agrees config app project place).instantiate_eq happIndex,
    (manifestUses_agrees config app project place).instantiate_eq hmanifest,
    (projectIndexUses_agrees config app project place).instantiate_eq hindex,
    (appMessageUses_agrees config app project place).instantiate_eq happMessage,
    (projectMessageUses_agrees config app project place).instantiate_eq hmessage,
    List.forall_mem_nil _⟩

end Scaffold
