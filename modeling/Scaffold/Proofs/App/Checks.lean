import Scaffold.Proofs.App.Files
import Scaffold.Proofs.Outcome
import Scaffold.Proofs.Path
import Scaffold.Proofs.Project.Declared
import Scaffold.Proofs.Store.Growth

namespace Scaffold

open Outcome

namespace Workspace

variable {w : Workspace} {config : Config} {name : Text} {tokens : List RawText} {schema : Schema}
  {project root : Path} {failure : Failure} {projectName : Text.Filled} {declared : RawText.Filled}

theorem appSpec_of_invalid {fault : AppName.Fault} (hname : AppName.check name = .error fault) :
    w.appSpec config name tokens project = .error (.refused (.invalidName name fault)) := by
  unfold appSpec
  split
  · rename_i hfault
    cases hname.symm.trans hfault
    rfl
  · rename_i hfine
    cases hname.symm.trans hfine

theorem appSpec_of_malformed {error : Schema.TokenError} (hname : AppName.check name = .ok ())
    (htokens : Schema.ofTokens tokens = .error error) :
    w.appSpec config name tokens project = .error (.ofTokens error) := by
  unfold appSpec
  split
  · rename_i hfault
    cases hname.symm.trans hfault
  · rw [htokens]
    rfl

theorem appSpec_of_unread (hname : AppName.check name = .ok ())
    (htokens : Schema.ofTokens tokens = .ok schema)
    (hread : Manifest.readName w.disk w.cwd project config.manifestName = .error failure) :
    w.appSpec config name tokens project = .error failure := by
  unfold appSpec
  split
  · rename_i hfault
    cases hname.symm.trans hfault
  · rw [htokens, hread]
    rfl

theorem appSpec_of_surrogate (hname : AppName.check name = .ok ())
    (htokens : Schema.ofTokens tokens = .ok schema)
    (hread : Manifest.readName w.disk w.cwd project config.manifestName = .ok declared)
    (hnone : declared.val.text? = none) :
    w.appSpec config name tokens project = .error (.invalid [⟨"project_name", .notUnicode⟩]) := by
  unfold appSpec
  split
  · rename_i hfault
    cases hname.symm.trans hfault
  · rw [htokens, hread]
    simp only [Except.mapError, bind, Except.bind, Validation.filledRawText_of_none hnone]

theorem appSpec_of_read (hname : AppName.check name = .ok ())
    (htokens : Schema.ofTokens tokens = .ok schema)
    (hread : Manifest.readName w.disk w.cwd project config.manifestName = .ok projectName) :
    w.appSpec config name tokens project =
      .ok ⟨name, schema, projectName, config.appUrlVariable, AppName.ne_nil_of_check hname,
        projectName.ne_nil⟩ := by
  unfold appSpec
  split
  · rename_i hfault
    cases hname.symm.trans hfault
  · rw [htokens, hread]
    simp only [Except.mapError, bind, Except.bind, Validation.filledRawText_raw projectName]
    rfl

theorem eq_coe_or_text?_eq_none (declared : RawText.Filled) :
    (∃ name : Text.Filled, declared = name) ∨ declared.val.text? = none := by
  cases h : declared.val.text? with
  | none => exact .inr rfl
  | some t =>
    obtain ⟨raw, hne⟩ := declared
    cases RawText.text?_eq_some.1 h
    exact .inl ⟨⟨t, mt RawText.raw_eq_nil.2 hne⟩, rfl⟩

theorem appSpec_eq_ok {app : AppSpec} (h : w.appSpec config name tokens project = .ok app) :
    AppName.check name = .ok () ∧ Schema.ofTokens tokens = .ok app.schema ∧ app.name = name ∧
      app.appUrlVariable = config.appUrlVariable ∧ ∃ projectName : Text.Filled,
        Manifest.readName w.disk w.cwd project config.manifestName = .ok projectName ∧
          app.project = projectName.val := by
  cases hname : AppName.check name with
  | error fault =>
    rw [appSpec_of_invalid hname] at h
    cases h
  | ok _ =>
    cases htokens : Schema.ofTokens tokens with
    | error error =>
      rw [appSpec_of_malformed hname htokens] at h
      cases h
    | ok schema =>
      cases hread : Manifest.readName w.disk w.cwd project config.manifestName with
      | error failure =>
        rw [appSpec_of_unread hname htokens hread] at h
        cases h
      | ok declared =>
        rcases eq_coe_or_text?_eq_none declared with ⟨projectName, rfl⟩ | hnone
        · rw [appSpec_of_read hname htokens hread] at h
          cases h
          exact ⟨rfl, rfl, rfl, rfl, projectName, rfl, rfl⟩
        · rw [appSpec_of_surrogate hname htokens hread hnone] at h
          cases h

theorem newAppFromTokens_of_appSpec {app : AppSpec} (hname : AppName.check name = .ok ())
    (happ : w.appSpec config name tokens project = .ok app) (heq : app.name = name) :
    w.newAppFromTokens config name tokens project =
      w.applyWithMessage (Plan.ofApp config app ((project.below config.appsDir).below name))
        (app.message config) := by
  have hroot : config.appRoot project name = .ok ((project.below config.appsDir).below name) := by
    rw [Config.appRoot, hname]
  rw [newAppFromTokens, happ]
  change w.newApp config app project = _
  rw [newApp, heq, hroot]

theorem appRoot_eq_ok (h : config.appRoot project name = .ok root) :
    AppName.check name = .ok () ∧ root = (project.below config.appsDir).below name := by
  unfold Config.appRoot at h
  split at h
  · rename_i hname
    cases h
    exact ⟨hname, rfl⟩
  · cases h

/-- The check that stops a request for an app, those before it having passed. -/
inductive Stops (w : Workspace) (config : Config) (name : Text) (tokens : List RawText)
    (project : Path) : Failure → Prop
  | name {fault : AppName.Fault} (hname : AppName.check name = .error fault) :
      Stops w config name tokens project (.refused (.invalidName name fault))
  | tokens {error : Schema.TokenError} (hname : AppName.check name = .ok ())
      (htokens : Schema.ofTokens tokens = .error error) :
      Stops w config name tokens project (.ofTokens error)
  | manifest {schema : Schema} {failure : Failure} (hname : AppName.check name = .ok ())
      (htokens : Schema.ofTokens tokens = .ok schema)
      (hread : Manifest.readName w.disk w.cwd project config.manifestName = .error failure) :
      Stops w config name tokens project failure
  | surrogate {schema : Schema} {declared : RawText.Filled} (hname : AppName.check name = .ok ())
      (htokens : Schema.ofTokens tokens = .ok schema)
      (hread : Manifest.readName w.disk w.cwd project config.manifestName = .ok declared)
      (hnone : declared.val.text? = none) :
      Stops w config name tokens project (.invalid [⟨"project_name", .notUnicode⟩])
  | root {schema : Schema} {projectName : Text.Filled} {root : Path}
      (hroot : config.appRoot project name = .ok root)
      (htokens : Schema.ofTokens tokens = .ok schema)
      (hread : Manifest.readName w.disk w.cwd project config.manifestName = .ok projectName)
      (hhas : w.has root = .ok true) :
      Stops w config name tokens project (.refused (.targetExists root))

/-- What is known of an app when all checks have passed. -/
structure Ready (w : Workspace) (config : Config) (name : Text) (tokens : List RawText)
    (project root : Path) (app : AppSpec) : Prop where
  appRoot : config.appRoot project name = .ok root
  free : w.has root ≠ .ok true
  name : app.name = name
  schema : Schema.ofTokens tokens = .ok app.schema
  project : Manifest.Gives w.disk w.cwd (project.below config.manifestName) app.project.raw
  appUrlVariable : app.appUrlVariable = config.appUrlVariable

theorem Stops.newAppFromTokens_eq (h : w.Stops config name tokens project failure) :
    w.newAppFromTokens config name tokens project = (w, .error failure) := by
  cases h with
  | name hname => rw [newAppFromTokens, appSpec_of_invalid hname]
  | tokens hname htokens => rw [newAppFromTokens, appSpec_of_malformed hname htokens]
  | manifest hname htokens hread =>
    rw [newAppFromTokens, appSpec_of_unread hname htokens hread]
  | surrogate hname htokens hread hnone =>
    rw [newAppFromTokens, appSpec_of_surrogate hname htokens hread hnone]
  | root hroot htokens hread hhas =>
    obtain ⟨hname, rfl⟩ := appRoot_eq_ok hroot
    have happ := appSpec_of_read hname htokens hread
    rw [newAppFromTokens_of_appSpec hname happ rfl, Plan.ofApp_eq, applyWithMessage,
      apply_of_has hhas]

/-- The first check that fails is reported and leaves everything as it was. If none fails, the
request goes on with the name of the project from its manifest, the attributes that the tokens stand
for, and the variable of the configuration. -/
theorem checks_come_first (w : Workspace) (config : Config) (name : Text) (tokens : List RawText)
    (project : Path) :
    (∀ failure, w.Stops config name tokens project failure →
      w.newAppFromTokens config name tokens project = (w, .error failure)) ∧
    ((∃ failure, w.Stops config name tokens project failure) ∨
      ∃ root app, w.Ready config name tokens project root app ∧
        w.newAppFromTokens config name tokens project =
          w.applyWithMessage (Plan.ofApp config app root) (app.message config)) := by
  refine ⟨fun _ hstops => hstops.newAppFromTokens_eq, ?_⟩
  cases hname : AppName.check name with
  | error fault => exact .inl ⟨_, .name hname⟩
  | ok _ =>
    cases htokens : Schema.ofTokens tokens with
    | error error => exact .inl ⟨_, .tokens hname htokens⟩
    | ok schema =>
      cases hread : Manifest.readName w.disk w.cwd project config.manifestName with
      | error failure => exact .inl ⟨_, .manifest hname htokens hread⟩
      | ok declared =>
        rcases eq_coe_or_text?_eq_none declared with ⟨projectName, rfl⟩ | hnone
        · have hroot : config.appRoot project name =
              .ok ((project.below config.appsDir).below name) := by
            rw [Config.appRoot, hname]
          by_cases hhas : w.has ((project.below config.appsDir).below name) = .ok true
          · exact .inl ⟨_, .root hroot htokens hread hhas⟩
          · have happ := appSpec_of_read hname htokens hread
            exact .inr ⟨_, _, ⟨hroot, hhas, rfl, htokens, Manifest.readName_eq_ok hread, rfl⟩,
              newAppFromTokens_of_appSpec hname happ rfl⟩
        · exact .inl ⟨_, .surrogate hname htokens hread hnone⟩

/-- Where a manifest with this text lies, and an app `article` is known. -/
def withManifest (t : Text) : Workspace where
  disk := Disk.empty.put [] ⟨"package.json", isName_manifest⟩ (.file (Disk.encode t))
    (Disk.lookup_root _) (by decide)
  cwd := []
  store := .memory { existing := [.ofText "apps/article"] }

/-- Where a manifest names the project `blog`. -/
def inBlog : Workspace :=
  withManifest "\x7b\"name\": \" blog \"\x7d"

def inSurrogate : Workspace :=
  withManifest "\x7b\"name\": \"\\ud800\"\x7d"

theorem checks_come_first_article :
    inBlog.newAppFromTokens .default "a/article" ["title"] (.ofText "lib") =
      (inBlog, .error (.refused (.invalidName "a/article" (.notSingle "a-article")))) ∧
    inBlog.newAppFromTokens .default "article" ["title:", "title"] (.ofText "lib") =
      (inBlog, .error (.refused (.malformedAttribute "title:" .emptyType))) ∧
    inBlog.newAppFromTokens .default "article" [] (.ofText "lib") =
      (inBlog, .error (.refused (.manifest (.ofText "lib/package.json") .missing))) ∧
    inBlog.newAppFromTokens .default "article" [] (.ofText "") =
      (inBlog, .error (.refused (.targetExists (.ofText "apps/article")))) := by
  have hname : AppName.check "article" = .ok () := by decide
  have htokens : Schema.ofTokens [] = .ok .empty := rfl
  have hread : Manifest.readName inBlog.disk [] (.ofText "") "package.json" =
      .ok (⟨"blog", by decide⟩ : Text.Filled) := by
    decide +kernel
  refine ⟨?_, ?_, ?_, ?_⟩
  · exact (checks_come_first inBlog .default _ _ _).1 _ (.name (by decide))
  · exact (checks_come_first inBlog .default _ _ _).1 (.ofTokens (.malformed "title:" .emptyType))
      (.tokens hname (by decide))
  · exact (checks_come_first inBlog .default _ _ _).1 _ (.manifest hname htokens (by decide))
  · exact (checks_come_first inBlog .default _ _ _).1 _
      (.root (by decide) htokens hread (by decide))

/-- A name that is found but is no text is refused before the root that exists. -/
theorem surrogate_comes_first :
    AppName.check "article" = .ok () ∧ Schema.ofTokens [] = .ok .empty ∧
    Manifest.readName inSurrogate.disk [] (.ofText "") "package.json" =
      .ok ⟨[.surrogate 0], by decide⟩ ∧
    inSurrogate.has (.ofText "apps/article") = .ok true ∧
    inSurrogate.newAppFromTokens .default "article" [] (.ofText "") =
      (inSurrogate, .error (.invalid [⟨"project_name", .notUnicode⟩])) ∧
    inSurrogate.newAppFromTokens .default "article" [] (.ofText "") ≠
      (inSurrogate, .error (.refused (.targetExists (.ofText "apps/article")))) := by
  have hname : AppName.check "article" = .ok () := by decide
  have hread : Manifest.readName inSurrogate.disk [] (.ofText "") "package.json" =
      .ok ⟨[.surrogate 0], by decide⟩ := by
    decide +kernel
  have hstops : inSurrogate.Stops .default "article" [] (.ofText "")
      (.invalid [⟨"project_name", .notUnicode⟩]) :=
    .surrogate hname rfl hread rfl
  refine ⟨hname, rfl, hread, by decide, hstops.newAppFromTokens_eq, ?_⟩
  rw [hstops.newAppFromTokens_eq]
  intro h
  cases congrArg Prod.snd h

end Workspace

end Scaffold
