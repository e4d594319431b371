import Scaffold.Plan
import Scaffold.Proofs.Template.Reading

namespace Scaffold

namespace AppSpec

open Template

/-- What the files of an app are filled in with. -/
def supply : Supply where
  texts := ["module_name", "app_url_env_var", "query", "field_declarations", "view_body"]
  lists := ["model_imports"]

/-- What the file that starts an app is filled in with. -/
def indexSupply : Supply where
  texts := ["mongo_url"]
  lists := ["server_watch", "client_watch"]

def startContext (config : Config) (spec : AppSpec) : Context :=
  spec.context ++ spec.indexContext config

theorem supply_meets (spec : AppSpec) : supply.Meets spec.context where
  text := by
    intro name hname
    simp only [supply, List.mem_cons, List.not_mem_nil, or_false] at hname
    rcases hname with rfl | rfl | rfl | rfl | rfl <;> exact ⟨_, rfl⟩
  list := by
    intro name hname
    cases List.mem_singleton.1 hname
    exact ⟨_, rfl⟩
  mapping := by
    intro name hname
    cases hname

theorem indexSupply_meets (config : Config) (spec : AppSpec) :
    indexSupply.Meets (spec.startContext config) where
  text := by
    intro name hname
    cases List.mem_singleton.1 hname
    exact ⟨_, rfl⟩
  list := by
    intro name hname
    simp only [indexSupply, List.mem_cons, List.not_mem_nil, or_false] at hname
    rcases hname with rfl | rfl <;> exact ⟨_, rfl⟩
  mapping := by
    intro name hname
    cases hname

/-- The templates of the files that are an app's own. -/
def ownTemplates : List Template :=
  [Template.controller, Template.model, Template.view, Template.router, Template.server]

theorem fits_templates :
    (∀ template ∈ ownTemplates, fits supply template = true) ∧
      (∀ template ∈ [Template.head, Template.client], fits ⟨[], [], []⟩ template = true) ∧
      fits indexSupply Template.appIndex = true := by
  decide +kernel

theorem render_eq (spec : AppSpec) {template : Template} (h : template ∈ ownTemplates) :
    template.render spec.context = .ok (template.filled spec.context) :=
  render_eq_filled rfl spec.supply_meets (fits_templates.1 template h)

theorem render_fixed {template : Template} (h : template ∈ [Template.head, Template.client]) :
    template.render [] = .ok (template.filled []) := by
  apply render_eq_filled rfl _ (fits_templates.2.1 template h)
  constructor
  all_goals
    intro name hname
    cases hname

theorem index_eq (config : Config) (spec : AppSpec) :
    spec.index config = .ok (Template.appIndex.filled (spec.startContext config)) :=
  render_eq_filled rfl (spec.indexSupply_meets config) fits_templates.2.2

end AppSpec

/-- Every app has a plan, whose files are the filled-in templates. -/
theorem Plan.ofApp_eq (config : Config) (spec : AppSpec) (root : Path) :
    Plan.ofApp config spec root = .ok ⟨root, ["controllers", "models", "views"],
      [⟨"models/index.js", Template.model.filled spec.context⟩,
        ⟨"controllers/index.js", Template.controller.filled spec.context⟩,
        ⟨"views/index.js", Template.view.filled spec.context⟩,
        ⟨"views/head.js", Template.head.filled []⟩,
        ⟨"router.js", Template.router.filled spec.context⟩,
        ⟨"client.js", Template.client.filled []⟩,
        ⟨"server.js", Template.server.filled spec.context⟩,
        ⟨"index.js", Template.appIndex.filled (spec.startContext config)⟩]⟩ := by
  have hcontroller : spec.controller = _ := spec.render_eq (.head _)
  have hmodel : spec.model = _ := spec.render_eq (.tail _ (.head _))
  have hview : spec.view = _ := spec.render_eq (.tail _ (.tail _ (.head _)))
  have hrouter : spec.router = _ := spec.render_eq (.tail _ (.tail _ (.tail _ (.head _))))
  have hserver : spec.server = _ :=
    spec.render_eq (.tail _ (.tail _ (.tail _ (.tail _ (.head _)))))
  have hhead : spec.head = _ := AppSpec.render_fixed (.head _)
  have hclient : spec.client = _ := AppSpec.render_fixed (.tail _ (.head _))
  rw [ofApp]
  rw [hmodel, hcontroller, hview, hhead, hrouter, hclient, hserver, spec.index_eq config]
  rfl

theorem Plan.file?_ofApp (config : Config) (spec : AppSpec) (root : Path) :
    ∃ plan, Plan.ofApp config spec root = .ok plan ∧
      plan.file? "models/index.js" =
        some ⟨"models/index.js", Template.model.filled spec.context⟩ ∧
      plan.file? "controllers/index.js" =
        some ⟨"controllers/index.js", Template.controller.filled spec.context⟩ ∧
      plan.file? "views/index.js" =
        some ⟨"views/index.js", Template.view.filled spec.context⟩ ∧
      plan.file? "router.js" = some ⟨"router.js", Template.router.filled spec.context⟩ ∧
      plan.file? "server.js" = some ⟨"server.js", Template.server.filled spec.context⟩ := by
  refine ⟨_, ofApp_eq config spec root, ?_⟩
  generalize Template.model.filled spec.context = model
  generalize Template.controller.filled spec.context = controller
  generalize Template.view.filled spec.context = view
  generalize Template.router.filled spec.context = router
  generalize Template.server.filled spec.context = server
  generalize Template.head.filled [] = head
  generalize Template.client.filled [] = client
  generalize Template.appIndex.filled (spec.startContext config) = index
  exact ⟨rfl, rfl, rfl, rfl, rfl⟩

end Scaffold
