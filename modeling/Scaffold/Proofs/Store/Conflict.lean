import Scaffold.Proofs.Store.Message
import Scaffold.Proofs.Store.Root

namespace Scaffold

open Outcome Disk

namespace Workspace

variable {w v : Workspace} {base root : Path}

/-- A request that is refused since something is where its root should be. A project's directories
have their default names. -/
inductive Conflict (w v : Workspace) : Path → Prop
  | project {config : Config} {spec : ProjectSpec} {seenFrom : Option Path} {p : Path}
      (happs : config.appsDir = Config.default.appsDir)
      (hlib : config.libDir = Config.default.libDir)
      (h : w.newProject config spec seenFrom = (v, .error (.refused (.targetExists p)))) :
      Conflict w v spec.target
  | app {config : Config} {spec : AppSpec} {project p : Path}
      (h : w.newApp config spec project = (v, .error (.refused (.targetExists p)))) :
      Conflict w v ((project.below config.appsDir).below spec.name)

theorem Conflict.apply (h : Conflict w v root) : ∃ plan refusal,
    plan.root = root ∧ Plan.Layout plan.directories (plan.files.map (·.path)) ∧
      w.apply plan = (v, .error (.refused refusal)) := by
  have hplanned {plan : Except Template.RenderError Plan}
      {message : Except Template.RenderError Text} {refusal : Refusal}
      (h : w.applyWithMessage plan message = (v, .error (.refused refusal))) :
      ∃ ready, plan = .ok ready ∧ w.apply ready = (v, .error (.refused refusal)) := by
    cases plan with
    | error error => cases h
    | ok ready => exact ⟨ready, rfl, applyWithMessage_refused h⟩
  cases h with
  | project happs hlib h =>
    obtain ⟨plan, hplan, happly⟩ := hplanned h
    obtain ⟨hroot, hlayout⟩ := Plan.layout_of_ofProject happs hlib hplan
    exact ⟨plan, _, hroot, hlayout, happly⟩
  | app h =>
    unfold newApp Config.appRoot at h
    split at h
    · rename_i hname
      split at hname <;> cases hname
      cases h
    · rename_i hname
      split at hname <;> cases hname
      obtain ⟨plan, hplan, happly⟩ := hplanned h
      obtain ⟨hroot, hlayout⟩ := Plan.layout_of_ofApp hplan
      exact ⟨plan, _, hroot, hlayout, happly⟩

/-- After a conflict the disk is as it was just if each `..` on the way to the root stands behind
something that is there. All that can be new are directories on that way. -/
theorem conflict_leaves_disk (hs : w.store = .disk base) (h : Conflict w v root) :
    (w.disk.Steady w.cwd (base.join root) → v = w) ∧
      ((∀ place, v.disk.lookup place = w.disk.lookup place) →
        w.disk.Steady w.cwd (base.join root)) ∧
      ∀ place, v.disk.lookup place = w.disk.lookup place ∨
        place ∈ (base.join root).way w.cwd ∧ w.disk.lookup place = none ∧
          v.disk.lookup place = some .directory := by
  obtain ⟨plan, refusal, rfl, hlayout, happly⟩ := h.apply
  refine ⟨fun hsteady => apply_refused_of_steady hs hlayout hsteady happly, ?_⟩
  rcases refused_of_apply hs hlayout happly with ⟨hthere, rfl⟩ | ⟨hpresent, e, hmake, rfl⟩
  · exact ⟨fun _ => steady_of_present hthere, fun _ => .inl rfl⟩
  · refine ⟨fun hsame => ?_, fun place => ?_⟩
    · rcases present_or_changed hmake with hthere | hnone | hchanged
      · cases hthere.symm.trans hpresent
      · exact steady_of_notMem (by simp [hnone]) _ _
      · exact absurd (fun place entry hentry => hsame place ▸ hentry) hchanged
    · rcases lookup_makeDirectory hmake place with hsame | ⟨hway, hdirectory⟩
      · exact .inl hsame
      · cases hbefore : w.disk.lookup place with
        | none => exact .inr ⟨hway, rfl, hdirectory⟩
        | some entry => exact .inl (lookup_mono (le_of_makeDirectory hmake) hbefore)

theorem isName_blog : IsName "blog" := by
  decide

theorem blog_ne_nil : ("blog" : Text) ≠ [] :=
  isName_blog.1

def besideBlog : Workspace where
  disk := Disk.empty.put [] ⟨"blog", isName_blog⟩ .directory (lookup_root _) (by decide)
  cwd := []
  store := .disk (Location.toPath [])

def requestAt (target : Text) : ProjectSpec :=
  ⟨"blog", .ofText target, blog_ne_nil⟩

theorem conflict_of_evaluated {target : Text} {p : Path}
    (h : (w.newProject .default (requestAt target) none).2 = .error (.refused (.targetExists p))) :
    Conflict w (w.newProject .default (requestAt target) none).1 (.ofText target) :=
  .project rfl rfl (Prod.ext rfl h)

theorem conflict_leaves_disk_blog :
    let v := (besideBlog.newProject .default (requestAt "blog/../blog") none).1
    Conflict besideBlog v (.ofText "blog/../blog") ∧ v = besideBlog := by
  intro v
  have hconflict : Conflict besideBlog v (.ofText "blog/../blog") :=
    conflict_of_evaluated (p := .ofText "blog/../blog") (by decide +kernel)
  have hs : besideBlog.store = .disk (Location.toPath []) := rfl
  exact ⟨hconflict, (conflict_leaves_disk hs hconflict).1 (steady_of_present (by decide))⟩

/-- Behind a missing directory, `..` makes a conflict that is found too late. -/
theorem conflict_changes_disk :
    let v := (besideBlog.newProject .default (requestAt "a/../blog") none).1
    Conflict besideBlog v (.ofText "a/../blog") ∧
      besideBlog.disk.lookup [⟨"a", by decide⟩] = none ∧
      v.disk.lookup [⟨"a", by decide⟩] = some .directory := by
  intro v
  refine ⟨conflict_of_evaluated (p := .ofText "/a/../blog") ?_, ?_, ?_⟩ <;> decide +kernel

end Workspace

end Scaffold
