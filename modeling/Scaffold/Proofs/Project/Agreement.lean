import Scaffold.Proofs.App.Checks
import Scaffold.Proofs.Project.Name
import Scaffold.Proofs.Store.Refusal

namespace Scaffold

open Outcome

namespace AppSpec

open Template

theorem isWordChar_newline : Text.isWordChar '\n' = false := by
  decide

/-- The place of the database URL in the file that starts an app. -/
def connectMarker : Marker :=
  ⟨'\n', "  connect('", isWordChar_newline, by decide⟩

/-- The URL that a file connects to last, which stands alone in its line. -/
def connectUrl? (t : Text) : Option Text := do
  (← (connectMarker.read '\n' t).getLast?).dropSuffix? "')"

def urlSlot : Segment :=
  .slot "mongo_url" .plain

/-- What stands behind the watched files. -/
def startRest : List Segment :=
  (segments appIndex).drop 4

theorem finds_url : Segment.finds connectMarker '\n' [urlSlot] startRest [urlSlot, .text "')"] := by
  decide +kernel

theorem connectUrl?_of_read {config : Config} {spec : AppSpec} {t u : Text}
    (h : spec.index config = .ok t) (hread : connectMarker.read '\n'
      (startRest.flatMap (Segment.value (spec.startContext config))) = [u]) :
    connectUrl? t = u.dropSuffix? "')" := by
  rw [index_eq] at h
  cases h
  rw [connectUrl?, filled, ← List.take_append_drop 4 (segments appIndex), List.flatMap_append,
    ← startRest, connectMarker.getLast?_read_append _ hread]
  rfl

theorem connectUrl?_index {config : Config} {spec : AppSpec} {t : Text}
    (h : spec.index config = .ok t) (hline : '\n' ∉ config.mongoUrl spec.project) :
    connectUrl? t = some (config.mongoUrl spec.project) := by
  have hurl : urlSlot.value (spec.startContext config) = config.mongoUrl spec.project := rfl
  have hread : connectMarker.read '\n'
      (startRest.flatMap (Segment.value (spec.startContext config))) =
        [config.mongoUrl spec.project ++ "')"] := by
    rw [Segment.read_eq finds_url, List.flatMap_cons, List.flatMap_singleton, hurl]
    · rfl
    · intro s hs
      cases List.mem_singleton.1 hs
      exact hurl ▸ hline
    · intro s hs
      rcases List.mem_cons.1 hs with rfl | hs
      · exact .inr (hurl ▸ hline)
      · cases List.mem_singleton.1 hs
        exact .inl rfl
  rw [connectUrl?_of_read h hread]
  exact List.dropSuffix?_eq_some_iff.2 ⟨_, rfl, beq_self_eq_true _⟩

end AppSpec

theorem Plan.start_mem_ofApp {plan : Plan} {config : Config} {spec : AppSpec} {root : Path}
    (h : Plan.ofApp config spec root = .ok plan) : plan.root = root ∧
      ⟨"index.js", Template.appIndex.filled (spec.startContext config)⟩ ∈ plan.files := by
  rw [ofApp_eq] at h
  cases h
  refine ⟨rfl, ?_⟩
  simp only [List.mem_cons, true_or, or_true]

namespace Workspace

variable {w v u : Workspace} {base : Path} {config : Config} {spec : ProjectSpec}
  {seenFrom : Option Path} {report : Report} {name : Text} {tokens : List RawText} {schema : Schema}
  {project : Path}

theorem newAppFromTokens_of_blank {projectName : Text} {manifest : Path}
    (hname : AppName.check name = .ok ()) (htokens : Schema.ofTokens tokens = .ok schema)
    (hread : Manifest.readName u.disk u.cwd project config.manifestName =
      Manifest.found manifest projectName) (hblank : projectName.strip = []) :
    u.newAppFromTokens config name tokens project =
      (u, .error (.refused (.manifest manifest .nameless))) := by
  rw [Manifest.found, dif_pos hblank] at hread
  rw [newAppFromTokens, appSpec_of_unread hname htokens hread]

theorem find_index {app : AppSpec} (hu : u.store = .disk base)
    (hname : AppName.check name = .ok ())
    (happ : u.appSpec config name tokens project = .ok app) (heq : app.name = name)
    (h : u.newAppFromTokens config name tokens project = (v, .ok report)) :
    v.disk.find v.cwd
        ((base.join ((project.below config.appsDir).below name)).below "index.js") =
      .ok (.file (Disk.encode (Template.appIndex.filled (app.startContext config)))) := by
  have hcwd : v.cwd = u.cwd := (le_of_newAppFromTokens h).cwd
  rw [newAppFromTokens_of_appSpec hname happ heq] at h
  obtain ⟨plan, hplan, hfound⟩ := find_of_applyWithMessage hu h
  obtain ⟨hroot, hstart⟩ := Plan.start_mem_ofApp hplan
  have hfile := find_file hfound hstart
  rwa [hroot, ← hcwd] at hfile

theorem find_environment {disk : Disk} (hs : w.store = .disk base)
    (h : w.newProject config spec seenFrom = (v, .ok report)) (hdisk : v.disk ≤ disk) :
    ∃ environment, spec.environmentFile config = .ok environment ∧
      disk.find v.cwd ((base.join spec.target).below ".env") =
        .ok (.file (Disk.encode environment)) := by
  obtain ⟨plan, hplan, hfound⟩ := find_of_newProject hs h
  obtain ⟨manifest, environment, index, -, henvironment, -, rfl⟩ := Plan.ofProject_eq_ok hplan
  have hfile := hfound ⟨".env", environment⟩ (.tail _ (.head _))
  exact ⟨environment, henvironment, Disk.find_mono hdisk hfile⟩

end Workspace

/-- The URL of a project's database stands in one line, and the project's name has no blanks but
those that are lost in the environment file as well as in the manifest. -/
structure Config.KeepsUrl (config : Config) (project : Text) : Prop where
  line : '\n' ∉ config.mongoUrl project.strip
  first : ∀ c ∈ project.head?, Text.isBlank c = false
  last : config.appUrlVariable = "MONGO_URL" →
    ∀ c ∈ project.getLast?, Text.isBlank c = false

/-- An app that is made in a project finds the project's name, unless the name is blank, and where
the environment file keeps the URL, it connects to the database that is named there. The manifest
has to be looked for where projects have it. -/
theorem Workspace.project_and_app_agree {w v u : Workspace} {base : Path} {config : Config}
    {spec : ProjectSpec} {seenFrom : Option Path} {report : Report} {name : Text}
    {tokens : List RawText} {schema : Schema} (hs : w.store = .disk base)
    (hreaches : w.Reaches base spec spec.target)
    (hmanifest : Path.ofText config.manifestName = Path.ofText "package.json")
    (hproject : w.newProject config spec seenFrom = (v, .ok report)) (hdisk : v.disk ≤ u.disk)
    (hcwd : u.cwd = v.cwd) (hname : AppName.check name = .ok ())
    (htokens : Schema.ofTokens tokens = .ok schema) :
    (spec.name.strip = [] → u.newAppFromTokens config name tokens spec.target =
      (u, .error (.refused (.manifest (spec.target.below config.manifestName) .nameless)))) ∧
    (∀ hfilled : spec.name.strip ≠ [], ∃ app index environment,
      u.appSpec config name tokens spec.target = .ok app ∧
      app = ⟨name, schema, spec.name.strip, config.appUrlVariable, AppName.ne_nil_of_check hname,
        hfilled⟩ ∧
      app.index config = .ok index ∧
      u.disk.find u.cwd ((base.join spec.target).below ".env") =
        .ok (.file (Disk.encode environment)) ∧
      (config.KeepsUrl spec.name →
        AppSpec.connectUrl? index = some (config.mongoUrl spec.name.strip) ∧
          Environment.value? "MONGO_URL" environment =
            some (config.mongoUrl spec.name.strip)) ∧
      (∀ path fault, (u.newAppFromTokens config name tokens spec.target).2 ≠
        .error (.refused (.manifest path fault))) ∧
      ∀ t created other, u.store = .disk other →
        u.newAppFromTokens config name tokens spec.target = (t, .ok created) →
        t.disk.find t.cwd
          ((other.join ((spec.target.below config.appsDir).below name)).below "index.js") =
            .ok (.file (Disk.encode index))) := by
  have hread := readName_of_newProject hs hproject hdisk hreaches hmanifest
  rw [← hcwd] at hread
  constructor
  · exact newAppFromTokens_of_blank hname htokens hread
  · intro hfilled
    -- From here on the app's project is the stripped name, and the environment file has the full
    -- one.
    rw [Manifest.found, dif_neg hfilled] at hread
    have hspec := appSpec_of_read hname htokens hread
    obtain ⟨environment, henvironment, hfile⟩ := find_environment hs hproject hdisk
    rw [← hcwd] at hfile
    have hnew := newAppFromTokens_of_appSpec hname hspec rfl
    refine ⟨_, _, environment, hspec, rfl, AppSpec.index_eq _ _, hfile, ?_, ?_, ?_⟩
    · intro hkeeps
      have hstored := Config.storedUrl_eq hfilled hkeeps.first hkeeps.last
      constructor
      · exact AppSpec.connectUrl?_index (AppSpec.index_eq _ _) hkeeps.line
      · rw [ProjectSpec.value?_environmentFile henvironment (hstored ▸ hkeeps.line), hstored]
    · intro path fault hrefused
      rw [hnew] at hrefused
      obtain ⟨_, hexists⟩ := refusal_of_applyWithMessage (Prod.ext rfl hrefused)
      cases hexists
    · intro t created other hother hcreated
      exact find_index hother hname hspec rfl hcreated

def AppSpec.article (project : Text) (h : project ≠ []) : AppSpec :=
  ⟨"article", .empty, project, "APP_URL", by decide, h⟩

namespace Workspace

/-- A project in the directory `/blog` and the app `article` in it can be created, and this is read
from their files as the URL of the database. -/
def Connects (spec : ProjectSpec) (environmentUrl indexUrl : Option Text) : Prop :=
  ∃ v t report created environment index,
    (start (Location.toPath [])).newProject .default spec none = (v, .ok report) ∧
    v.newAppFromTokens .default "article" [] (.ofText "/blog") = (t, .ok created) ∧
    v.disk.find v.cwd (.ofText "/blog/.env") = .ok (.file (Disk.encode environment)) ∧
    t.disk.find t.cwd (.ofText "/blog/apps/article/index.js") = .ok (.file (Disk.encode index)) ∧
    Environment.value? "MONGO_URL" environment = environmentUrl ∧
    AppSpec.connectUrl? index = indexUrl

/-- A project can be created, but its manifest is of no use to the app `article`. -/
def RefusesApp (base : Path) (config : Config) (spec : ProjectSpec) (fault : ManifestFault) :
    Prop :=
  ∃ v report, (start base).newProject config spec none = (v, .ok report) ∧
    (v.newAppFromTokens config "article" [] spec.target).2 =
      .error (.refused (.manifest (spec.target.below config.manifestName) fault))

variable {projectName : Text} {h : projectName ≠ []} {v : Workspace} {report : Report}

theorem environment_below : blog.toPath.below ".env" = .ofText "/blog/.env" := by
  decide

theorem index_below :
    ((blog.toPath.below Config.default.appsDir).below "article").below "index.js" =
      .ofText "/blog/apps/article/index.js" := by
  decide

theorem check_article : AppName.check "article" = .ok () := by
  decide

theorem ofTokens_nil : Schema.ofTokens [] = .ok .empty :=
  rfl

theorem readName_named {base : Path} {config : Config}
    (hproject : (start base).newProject config (.named projectName h) none = (v, .ok report)) :
    Manifest.readName v.disk v.cwd blog.toPath "package.json" =
      Manifest.found (blog.toPath.below "package.json") projectName :=
  readName_of_newProject rfl hproject le_rfl (.inl (Path.join_toPath base blog).symm) rfl

theorem appSpec_article {base : Path} (hfilled : projectName.strip ≠ [])
    (hproject : (start base).newProject .default (.named projectName h) none = (v, .ok report)) :
    v.appSpec .default "article" [] blog.toPath = .ok (.article projectName.strip hfilled) := by
  have hread : Manifest.readName v.disk v.cwd blog.toPath Config.default.manifestName =
      .ok (⟨projectName.strip, hfilled⟩ : Text.Filled) :=
    (readName_named hproject).trans (dif_neg hfilled)
  exact appSpec_of_read check_article ofTokens_nil hread

theorem create_named (h : projectName ≠ []) (hfilled : projectName.strip ≠ []) :
    ∃ v t report created environment,
      (start (Location.toPath [])).newProject .default (.named projectName h) none =
        (v, .ok report) ∧
      v.store = .disk (Location.toPath []) ∧
      v.newAppFromTokens .default "article" [] blog.toPath = (t, .ok created) ∧
      ProjectSpec.environmentFile .default (.named projectName h) = .ok environment ∧
      v.disk.find v.cwd (blog.toPath.below ".env") = .ok (.file (Disk.encode environment)) ∧
      t.disk.find t.cwd
          (((blog.toPath.below Config.default.appsDir).below "article").below "index.js") =
        .ok (.file (Disk.encode (Template.appIndex.filled
          ((AppSpec.article projectName.strip hfilled).startContext .default)))) := by
  obtain ⟨_, v, report, -, hproject, -⟩ :=
    newProject_named (Location.toPath []) .default rfl rfl h
  have hstore : v.store = .disk (Location.toPath []) :=
    store_of_le rfl (le_of_newProject hproject)
  have happ := appSpec_article hfilled hproject
  obtain ⟨t, created, hcreated⟩ :=
    newApp_named rfl rfl hproject (AppSpec.article projectName.strip hfilled)
  rw [← newAppFromTokens_of_appSpec check_article happ rfl] at hcreated
  obtain ⟨environment, hwritten, hfile⟩ := find_environment rfl hproject le_rfl
  have hfound := find_index hstore check_article happ rfl hcreated
  have hroot : Path.join (Location.toPath [])
      ((blog.toPath.below Config.default.appsDir).below "article") = _ :=
    Path.join_of_absolute _ rfl
  rw [hroot] at hfound
  exact ⟨v, t, report, created, environment, hproject, hstore, hcreated, hwritten, hfile, hfound⟩

/-- What is connected to is read from the texts of the files. -/
theorem connects_of_files {environmentUrl indexUrl : Option Text} (h : projectName ≠ [])
    (hfilled : projectName.strip ≠ [])
    (hvalue : ∀ t, ProjectSpec.environmentFile .default (.named projectName h) = .ok t →
      Environment.value? "MONGO_URL" t = environmentUrl)
    (hindex : ∀ t, (AppSpec.article projectName.strip hfilled).index .default = .ok t →
      AppSpec.connectUrl? t = indexUrl) :
    Connects (.named projectName h) environmentUrl indexUrl := by
  obtain ⟨v, t, report, created, environment, hproject, -, hcreated, hwritten, hfile, hfound⟩ :=
    create_named h hfilled
  rw [Connects, ← environment_below, ← index_below]
  exact ⟨v, t, report, created, environment, _, hproject, hcreated, hfile, hfound,
    hvalue _ hwritten, hindex _ (AppSpec.index_eq _ _)⟩

theorem project_and_app_agree_blog :
    Connects (.named "blog" (by decide)) (some "mongodb://localhost:27017/blog".toList)
      (some "mongodb://localhost:27017/blog".toList) := by
  have hfilled : Text.strip "blog" ≠ [] := by decide
  obtain ⟨v, t, report, created, _, hproject, hstore, hcreated, -⟩ :=
    @create_named "blog" (by decide) hfilled
  have htrimmed : Text.Trimmed "blog" := by decide
  have hkeeps : Config.default.KeepsUrl "blog" :=
    ⟨by decide, htrimmed.first, fun _ => htrimmed.last⟩
  have hurl : Config.default.mongoUrl (Text.strip "blog") = "mongodb://localhost:27017/blog" := by
    decide
  have hreaches : (start (Location.toPath [])).Reaches (Location.toPath [])
      (.named "blog" (by decide)) blog.toPath := .inl (Path.join_toPath _ blog).symm
  obtain ⟨app, index, environment, -, -, -, hfile, hagree, -, hfound⟩ :=
    (project_and_app_agree rfl hreaches rfl hproject le_rfl rfl check_article ofTokens_nil).2
      hfilled
  obtain ⟨hindex, hvalue⟩ := hagree hkeeps
  rw [← hurl, Connects, ← environment_below, ← index_below]
  exact ⟨v, t, report, created, environment, index, hproject, hcreated, hfile,
    hfound t created _ hstore hcreated, hvalue, hindex⟩

theorem refusesApp_blank (base : Path) (config : Config)
    (happs : config.appsDir = Config.default.appsDir)
    (hlib : config.libDir = Config.default.libDir)
    (hmanifest : config.manifestName = "package.json") (h : projectName ≠ [])
    (hblank : projectName.strip = []) :
    RefusesApp base config (.named projectName h) .nameless := by
  obtain ⟨_, v, report, -, hproject, -⟩ := newProject_named base config happs hlib h
  have hread := readName_named hproject
  rw [← hmanifest] at hread
  have hrefused := newAppFromTokens_of_blank check_article ofTokens_nil hread hblank
  exact ⟨v, report, hproject, congrArg Prod.snd hrefused⟩

theorem refusesApp_of_evaluated {base : Path} {config : Config} {spec : ProjectSpec}
    {fault : ManifestFault}
    (h : ((start base).newProject config spec none).2.toOption.isSome = true ∧
      (((start base).newProject config spec none).1.newAppFromTokens config "article" []
        spec.target).2 =
          .error (.refused (.manifest (spec.target.below config.manifestName) fault))) :
    RefusesApp base config spec fault := by
  obtain ⟨v, report, hproject⟩ := eq_ok_of_isSome h.1
  rw [hproject] at h
  exact ⟨v, report, hproject, h.2⟩

/-- A blank at the beginning of a name gets into the environment file, and not into the app. -/
theorem connects_of_line (h : projectName ≠ []) (hfilled : projectName.strip ≠ [])
    (hstored : '\n' ∉ Config.default.storedUrl projectName)
    (hline : '\n' ∉ Config.default.mongoUrl projectName.strip) :
    Connects (.named projectName h) (some (Config.default.storedUrl projectName))
      (some (Config.default.mongoUrl projectName.strip)) :=
  connects_of_files h hfilled (fun _ ht => ProjectSpec.value?_environmentFile ht hstored)
    fun _ ht => AppSpec.connectUrl?_index ht hline

/-- Where the agreement ends: a blank name is none to an app, a manifest is not found under another
base directory or another name, and two URLs result from a name that begins with a blank or that
has two lines. -/
theorem project_and_app_disagree :
    RefusesApp (Location.toPath []) .default (.named " " (by decide)) .nameless ∧
      RefusesApp (.ofText "/srv") .default ⟨"blog", .ofText "blog", by decide⟩ .missing ∧
      RefusesApp (Location.toPath []) { Config.default with manifestName := "project.json" }
        (.named "blog" (by decide)) .missing ∧
      Connects (.named " blog" (by decide)) (some "mongodb://localhost:27017/ blog".toList)
        (some "mongodb://localhost:27017/blog".toList) ∧
      Connects (.named "a\nb" (by decide)) (some "mongodb://localhost:27017/a".toList) none := by
  refine ⟨?_, ?_, ?_, ?_, ?_⟩
  · exact refusesApp_blank _ _ rfl rfl rfl _ (by decide)
  · exact refusesApp_of_evaluated (by decide +kernel)
  · exact refusesApp_of_evaluated (by decide +kernel)
  · exact @connects_of_line " blog" (by decide) (by decide) (by decide) (by decide)
  · apply @connects_of_files "a\nb" _ _ (by decide) (by decide)
    · intro t ht
      rw [ProjectSpec.environmentFile_eq] at ht
      cases ht
      decide +kernel
    · intro t ht
      have hread : AppSpec.connectMarker.read '\n' (AppSpec.startRest.flatMap
          (Template.Segment.value ((AppSpec.article "a\nb" (by decide)).startContext .default))) =
            ["mongodb://localhost:27017/a"] := by
        decide +kernel
      rw [AppSpec.connectUrl?_of_read ht hread]
      decide

end Workspace

end Scaffold
