import Scaffold.Proofs.App.Checks
import Scaffold.Proofs.App.Script

namespace Scaffold

theorem Naming.isWordChar_paren : Text.isWordChar '(' = false := by
  decide

/-- The place of the variable that a controller takes its host from. -/
def Naming.hostMarker : Marker :=
  ⟨'(', "process.env.", isWordChar_paren, by decide⟩

open Naming Controller

theorem AppSpec.after_hostMarker {spec : AppSpec} {t : Text} (h : spec.controller = .ok t) :
    ∃ rest more, hostMarker.after t =
      (spec.appUrlVariable ++ (beforeAddress ++ ("/api/" ++ rest))) :: more := by
  have hbefore : hostMarker.after beforeHost = [[]] := by decide +kernel
  rw [controller_eq] at h
  cases h
  exact ⟨_, _, Marker.after_append_of_closes hbefore _⟩

namespace Config

theorem get?_environment (config : Config) (project key : Text) :
    (config.environment project).get? key =
      if "MONGO_URL".toList = key then some (config.mongoUrl project)
      else if "PORT".toList = key then some (Text.ofNat config.port.number)
      else if config.appUrlVariable = key then some config.appUrl
      else if "NODE_ENV".toList = key then some config.nodeEnv
      else none := by
  rw [environment, Entries.ofPairs]
  simp only [List.foldl_cons, List.foldl_nil, Entries.get?_put]
  rfl

theorem get?_appUrlVariable (config : Config) (project : Text) :
    (config.environment project).get? config.appUrlVariable = some config.appUrl ↔
      (config.appUrlVariable = "PORT" → config.appUrl = Text.ofNat config.port.number) ∧
      (config.appUrlVariable = "MONGO_URL" → config.appUrl = config.mongoUrl project) := by
  have hapart : "MONGO_URL".toList ≠ "PORT".toList := by decide
  rw [get?_environment]
  by_cases hmongo : "MONGO_URL".toList = config.appUrlVariable
  · rw [if_pos hmongo, ← hmongo, Option.some_inj, eq_comm]
    exact ⟨fun h => ⟨fun hport => absurd hport hapart, fun _ => h⟩, fun h => h.2 rfl⟩
  · rw [if_neg hmongo]
    by_cases hport : "PORT".toList = config.appUrlVariable
    · rw [if_pos hport, ← hport, Option.some_inj, eq_comm]
      exact ⟨fun h => ⟨fun _ => h, fun hmongo => absurd hmongo.symm hapart⟩, fun h => h.1 rfl⟩
    · rw [if_neg hport, if_pos rfl]
      exact ⟨fun _ => ⟨fun h => absurd h.symm hport, fun h => absurd h.symm hmongo⟩, fun _ => rfl⟩

theorem get?_nodeEnv (config : Config) (project : Text) :
    (config.environment project).get? "NODE_ENV" = some config.nodeEnv ↔
      (config.appUrlVariable = "NODE_ENV" → config.appUrl = config.nodeEnv) := by
  have hmongo : "MONGO_URL".toList ≠ "NODE_ENV".toList := by decide
  have hport : "PORT".toList ≠ "NODE_ENV".toList := by decide
  rw [get?_environment, if_neg hmongo, if_neg hport]
  split
  · rename_i heq
    rw [Option.some_inj]
    exact ⟨fun h _ => h, fun h => h heq⟩
  · rename_i hne
    rw [if_pos rfl]
    exact ⟨fun _ heq => absurd heq hne, fun _ => rfl⟩

/--
Port and database URL are what the configuration says, under any name of the variable with the
app's URL. That variable, which is the one that all controllers made under the configuration read,
holds the app's URL unless it has the name of one of the two; and the name of the environment is
there unless the variable has its name. A name in common does no harm only where both values are
the same.
-/
theorem environment_exact (config : Config) (project : Text) :
    ((config.environment project).get? config.appUrlVariable = some config.appUrl ↔
      (config.appUrlVariable = "PORT" → config.appUrl = Text.ofNat config.port.number) ∧
      (config.appUrlVariable = "MONGO_URL" → config.appUrl = config.mongoUrl project)) ∧
    ((config.environment project).get? "NODE_ENV" = some config.nodeEnv ↔
      (config.appUrlVariable = "NODE_ENV" → config.appUrl = config.nodeEnv)) ∧
    (config.environment project).get? "PORT" = some (Text.ofNat config.port.number) ∧
    (config.environment project).get? "MONGO_URL" = some (config.mongoUrl project) ∧
    ∀ (w : Workspace) name tokens place app, w.appSpec config name tokens place = .ok app →
      ∃ t rest more, app.controller = .ok t ∧ hostMarker.after t =
        (config.appUrlVariable ++ (beforeAddress ++ ("/api/" ++ rest))) :: more := by
  refine ⟨get?_appUrlVariable config project, get?_nodeEnv config project, ?_, ?_, ?_⟩
  · have hmongo : "MONGO_URL".toList ≠ "PORT".toList := by decide
    rw [get?_environment, if_neg hmongo, if_pos rfl]
  · rw [get?_environment, if_pos rfl]
  · intro w name tokens place app happ
    obtain ⟨-, -, -, hvariable, -⟩ := Workspace.appSpec_eq_ok happ
    obtain ⟨t, ht⟩ : ∃ t, app.controller = .ok t := ⟨_, app.controller_eq⟩
    obtain ⟨rest, more, hafter⟩ := AppSpec.after_hostMarker ht
    rw [hvariable] at hafter
    exact ⟨t, rest, more, ht, hafter⟩

theorem environment_exact_blog :
    let config : Config := { appUrlVariable := "BLOG_URL" }
    (config.environment "blog").get? "BLOG_URL" = some config.appUrl ∧
    (config.environment "blog").get? "NODE_ENV" = some config.nodeEnv ∧
    ∃ app t rest more, Workspace.inBlog.appSpec config "article" [] (.ofText "") = .ok app ∧
      app.controller = .ok t ∧ hostMarker.after t =
        ("BLOG_URL" ++ (beforeAddress ++ ("/api/" ++ rest))) :: more := by
  intro config
  obtain ⟨hurl, hnode, -, -, hcontroller⟩ := environment_exact config "blog"
  have hname : AppName.check "article" = .ok () := by decide
  have htokens : Schema.ofTokens [] = .ok .empty := rfl
  have hread : Manifest.readName Workspace.inBlog.disk [] (.ofText "") "package.json" =
      .ok (⟨"blog", by decide⟩ : Text.Filled) := by
    decide +kernel
  have happ : Workspace.inBlog.appSpec config "article" [] (.ofText "") = .ok _ :=
    Workspace.appSpec_of_read hname htokens hread
  obtain ⟨t, rest, more, ht, hafter⟩ := hcontroller _ _ _ _ _ happ
  exact ⟨hurl.2 (by decide), hnode.2 (by decide), _, t, rest, more, happ, ht, hafter⟩

/-- The port displaces the app's URL, and the app's URL the name of the environment. -/
theorem environment_displaced :
    let portRead : Config := { appUrlVariable := "PORT" }
    let environmentRead : Config := { appUrlVariable := "NODE_ENV" }
    (portRead.environment "blog").get? portRead.appUrlVariable ≠ some portRead.appUrl ∧
    (environmentRead.environment "blog").get? "NODE_ENV" ≠ some environmentRead.nodeEnv := by
  decide +kernel

end Config

end Scaffold
