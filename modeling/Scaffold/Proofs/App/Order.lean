import Scaffold.Proofs.App.Checks
import Scaffold.Proofs.Store.Message
import Scaffold.Proofs.Store.Sibling

namespace Scaffold

open Outcome

theorem Manifest.readName_mono {disk later : Disk} {cwd : Location} {directory : Path} {file : Text}
    {name : Text.Filled} (hle : disk ≤ later)
    (h : readName disk cwd directory file = .ok name) :
    readName later cwd directory file = .ok name := by
  obtain ⟨_, _, _, _, hfind, -⟩ := readName_eq_ok h
  have hsame : later.find cwd (directory.below file) = disk.find cwd (directory.below file) :=
    (Disk.find_mono hle hfind).trans hfind.symm
  simpa only [readName, Disk.isFile, Disk.leadsTo, Disk.read, hsame] using h

namespace Workspace

variable {w v u : Workspace} {base : Path} {config : Config} {name other : Text}
  {tokens others : List RawText} {project : Path} {report done : Report}

theorem appSpec_mono {app : AppSpec} (hle : w ≤ v)
    (h : w.appSpec config name tokens project = .ok app) :
    v.appSpec config name tokens project = .ok app := by
  obtain ⟨hname, htokens, -, -, projectName, hread, -⟩ := appSpec_eq_ok h
  have hagain := Manifest.readName_mono hle.disk hread
  rw [← hle.cwd] at hagain
  rw [← h, appSpec_of_read hname htokens hread, appSpec_of_read hname htokens hagain]

/-- What a request for an app carries out where it succeeds. -/
structure Creates (w v : Workspace) (config : Config) (name : Text) (tokens : List RawText)
    (project : Path) (report : Report) (app : AppSpec) (plan : Plan) : Prop where
  described : w.appSpec config name tokens project = .ok app
  planned : Plan.ofApp config app ((project.below config.appsDir).below name) = .ok plan
  applied : w.apply plan = (v, .ok plan.report)
  reported : ∃ message, app.message config = .ok message ∧ report = { plan.report with message }

variable {app app' : AppSpec} {plan next : Plan}

theorem creates_of_newAppFromTokens
    (h : w.newAppFromTokens config name tokens project = (v, .ok report)) :
    ∃ app plan, w.Creates v config name tokens project report app plan := by
  cases happ : w.appSpec config name tokens project with
  | error failure =>
    rw [newAppFromTokens, happ] at h
    cases h
  | ok app =>
    obtain ⟨hname, -, heq, -⟩ := appSpec_eq_ok happ
    rw [newAppFromTokens_of_appSpec hname happ heq] at h
    cases hplan : Plan.ofApp config app ((project.below config.appsDir).below name) with
    | error error =>
      rw [hplan] at h
      cases h
    | ok plan =>
      rw [hplan] at h
      obtain ⟨message, hmessage, happly, hreport⟩ := applyWithMessage_eq_ok h
      exact ⟨app, plan, happ, hplan, happly, message, hmessage, hreport⟩

theorem Creates.newAppFromTokens_eq
    (h : w.Creates v config name tokens project report app plan) :
    w.newAppFromTokens config name tokens project = (v, .ok report) := by
  obtain ⟨hname, -, heq, -⟩ := appSpec_eq_ok h.described
  obtain ⟨message, hmessage, rfl⟩ := h.reported
  rw [newAppFromTokens_of_appSpec hname h.described heq, h.planned,
    applyWithMessage_of_apply h.applied, hmessage]
  rfl

theorem Creates.standsIn (h : w.Creates v config name tokens project report app plan)
    (base : Path) : ∃ hname : IsName name,
      plan.StandsIn base (base.join (project.below config.appsDir)) ⟨name, hname⟩ := by
  obtain ⟨hcheck, -⟩ := appSpec_eq_ok h.described
  have hname := (AppName.check_eq_ok hcheck).2.1
  obtain ⟨hroot, hlayout⟩ := Plan.layout_of_ofApp h.planned
  refine ⟨hname, ?_, hlayout⟩
  rw [hroot, ← Path.join_descend]
  exact congrArg base.join (Path.below_eq_descend (Path.ofText_name ⟨name, hname⟩) _)

theorem Creates.siblings (hne : name ≠ other) (base : Path)
    (h : w.Creates v config name tokens project report app plan)
    (hother : w.Creates u config other others project done app' next) :
    ∃ first second : Name, first ≠ second ∧
      plan.StandsIn base (base.join (project.below config.appsDir)) first ∧
      next.StandsIn base (base.join (project.below config.appsDir)) second := by
  obtain ⟨hname, hin⟩ := h.standsIn base
  obtain ⟨hname', hin'⟩ := hother.standsIn base
  exact ⟨_, _, fun heq => hne (congrArg Subtype.val heq), hin, hin'⟩

/-- An app that can be created can be after another one. -/
theorem Creates.after (hs : w.store = .disk base) (hne : name ≠ other)
    (h : w.Creates v config name tokens project report app plan)
    (hother : w.Creates u config other others project done app' next) :
    ∃ t, v.Creates t config other others project done app' next := by
  obtain ⟨_, _, hnames, hin, hnext⟩ := h.siblings hne base hother
  obtain ⟨t, ht⟩ := apply_after hs hin hnext hnames h.applied hother.applied
  exact ⟨t, appSpec_mono (le_of_apply h.applied) hother.described, hother.planned, ht,
    hother.reported⟩

/-- Two apps that could be created first can be created in any order, with the same reports and in
the end the same tree. -/
theorem creation_order (hs : w.store = .disk base) (hne : name ≠ other)
    (h : w.newAppFromTokens config name tokens project = (v, .ok report))
    (hother : w.newAppFromTokens config other others project = (u, .ok done)) :
    ∃ t s, v.newAppFromTokens config other others project = (t, .ok done) ∧
      u.newAppFromTokens config name tokens project = (s, .ok report) ∧
      ∀ place, t.disk.lookup place = s.disk.lookup place := by
  obtain ⟨app, plan, hplan⟩ := creates_of_newAppFromTokens h
  obtain ⟨app', next, hnext⟩ := creates_of_newAppFromTokens hother
  obtain ⟨t, ht⟩ := hplan.after hs hne hnext
  obtain ⟨s, hs'⟩ := hnext.after hs hne.symm hplan
  refine ⟨t, s, ht.newAppFromTokens_eq, hs'.newAppFromTokens_eq, fun place => ?_⟩
  obtain ⟨_, _, hnames, hin, hin'⟩ := hplan.siblings hne base hnext
  exact lookup_apply_comm hs hin hin' hnames hplan.applied ht.applied hnext.applied hs'.applied
    place

theorem creation_order_articles :
    let w : Workspace := { inBlog with store := .disk (Location.toPath []) }
    ∃ v u t s report done,
      w.newAppFromTokens .default "article" ["title:string"] (.ofText "") = (v, .ok report) ∧
      w.newAppFromTokens .default "author" [] (.ofText "") = (u, .ok done) ∧
      v.newAppFromTokens .default "author" [] (.ofText "") = (t, .ok done) ∧
      u.newAppFromTokens .default "article" ["title:string"] (.ofText "") = (s, .ok report) ∧
      ∀ place, t.disk.lookup place = s.disk.lookup place := by
  intro w
  obtain ⟨v, report, hv⟩ : ∃ v report,
      w.newAppFromTokens .default "article" ["title:string"] (.ofText "") = (v, .ok report) :=
    eq_ok_of_isSome (by decide +kernel)
  obtain ⟨u, done, hu⟩ : ∃ u done,
      w.newAppFromTokens .default "author" [] (.ofText "") = (u, .ok done) :=
    eq_ok_of_isSome (by decide +kernel)
  obtain ⟨t, s, ht, hs, hsame⟩ := creation_order rfl (by decide) hv hu
  exact ⟨v, u, t, s, report, done, hv, hu, ht, hs, hsame⟩

end Workspace

end Scaffold
