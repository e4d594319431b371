import Scaffold.Proofs.CommandLine.Task
import Scaffold.Proofs.Console.Message
import Scaffold.Proofs.Console.Table
import Scaffold.Proofs.Project.Creation

namespace Scaffold

open Outcome Text

namespace CommandLine

/-- What a run creates below its root, as it is written in the report. -/
def Request.created : Request → List Text
  | newProject _ => ["apps", "lib", "package.json", ".env", "index.js"]
  | newApp _ _ _ => ["controllers", "models", "views", "models/index.js", "controllers/index.js",
      "views/index.js", "views/head.js", "router.js", "client.js", "server.js", "index.js"]

/-- What a completed run reports: a root below a directory, and in it what its request creates. -/
structure Request.Reports (request : Request) (report : Report) : Prop where
  root : ∃ above name, report.root = Location.toPath (above ++ [name])
  paths : report.directories ++ report.files =
    report.root :: request.created.map report.root.below
  count : report.files.length ∈ [3, 8]

variable {config : Config} {request : Request} {invocation : Invocation} {dryRun : Bool}
  {disk : Disk} {cwd : Location} {w : Workspace} {report : Report}

theorem paths_of_task {task : Task} {plan : Plan} {message : Except Template.RenderError Text}
    (happs : config.appsDir = Config.default.appsDir)
    (hlib : config.libDir = Config.default.libDir)
    (htask : request.task config disk cwd = .ok task) (hwork : task.work = .ok (plan, message)) :
    plan.directories ++ plan.files.map (·.path) = request.created ∧ plan.files.length ∈ [3, 8] := by
  cases request with
  | newProject argument =>
    obtain ⟨spec, -, htask⟩ := bind_eq_ok.1 htask
    cases htask
    obtain ⟨planned, hplan, hwork⟩ := bind_eq_ok.1 hwork
    cases hwork
    obtain ⟨_, _, _, -, -, -, rfl⟩ := Plan.ofProject_eq_ok (mapError_eq_ok.1 hplan)
    rw [happs, hlib]
    exact ⟨rfl, List.mem_cons_self⟩
  | newApp name tokens directory =>
    cases directory with
    | none => cases htask
    | some directory =>
      obtain ⟨location, -, htask⟩ := bind_eq_ok.1 htask
      cases htask
      obtain ⟨spec, -, hwork⟩ := bind_eq_ok.1 hwork
      obtain ⟨root, -, hwork⟩ := bind_eq_ok.1 hwork
      obtain ⟨planned, hplan, hwork⟩ := bind_eq_ok.1 hwork
      cases hwork
      rw [Plan.ofApp_eq] at hplan
      cases hplan
      exact ⟨rfl, List.mem_cons_of_mem _ List.mem_cons_self⟩

theorem report_of_scaffold (happs : config.appsDir = Config.default.appsDir)
    (hlib : config.libDir = Config.default.libDir)
    (h : scaffold config ⟨request, dryRun⟩ disk cwd = .ok (w, .ok report)) :
    request.Reports report := by
  rw [scaffold_eq] at h
  obtain ⟨task, htask, h⟩ := bind_eq_ok.1 h
  obtain ⟨start, -, h⟩ := bind_eq_ok.1 h
  have hcarry := Except.ok.inj h
  rw [Workspace.carryOut] at hcarry
  split at hcarry
  · cases hcarry
  · rename_i plan message hwork
    obtain ⟨-, hroot, -⟩ := Request.layout_of_task happs hlib htask hwork
    obtain ⟨hpaths, hcount⟩ := paths_of_task happs hlib htask hwork
    obtain ⟨text, -, -, rfl⟩ := Workspace.applyWithMessage_eq_ok hcarry
    refine ⟨hroot, ?_, ?_⟩
    · rw [← hpaths, List.map_append, List.map_map]
      rfl
    · rw [← List.length_map (f := fun file => plan.root.below file.path)] at hcount
      exact hcount

end CommandLine

namespace Console

open Markup

variable {root : Path} {t : Text}

theorem shownPath_self (root : Path) : shownPath root root = root.name ++ ['/'] := by
  have hself : root.relativeTo? root = some ⟨.relative, []⟩ := by
    rw [Path.relativeTo?, if_pos ⟨rfl, List.prefix_rfl⟩, List.drop_length]
  rw [shownPath, hself]
  exact if_pos rfl

theorem shownPath_below (root : Path) (hrelative : (Path.ofText t).anchor = .relative)
    (hclean : (Path.ofText t).toText = t) (hdot : t ≠ ['.']) :
    shownPath root (root.below t) = t := by
  have hbelow : root.below t = ⟨root.anchor, root.steps ++ (Path.ofText t).steps⟩ := by
    rw [Path.below, Path.join, Path.isAbsolute, hrelative]
    rfl
  have hback : (root.below t).relativeTo? root = some (.ofText t) := by
    rw [hbelow, Path.relativeTo?, if_pos ⟨rfl, List.prefix_append _ _⟩, List.drop_left, ← hrelative]
  rw [shownPath, hback, Option.getD_some, if_neg (hclean.symm ▸ hdot), hclean]

end Console

namespace CommandLine

open Console Markup

variable {console : Console} {request : Request} {invocation : Invocation} {report : Report}
  {named s : Styled} {e : Markup.Error}

/-- What a report prints of a root: its name and its path. -/
def shownRoot (console : Console) (root : Path) : Except Markup.Error (Styled × Styled) := do
  return (← render console root.name, ← render console root.toText)

theorem shownRoot_eq_ok {root : Path} : shownRoot console root = .ok (named, s) ↔
    render console root.name = .ok named ∧ render console root.toText = .ok s := by
  constructor
  · intro h
    obtain ⟨name, hname, h⟩ := bind_eq_ok.1 h
    obtain ⟨path, hpath, h⟩ := bind_eq_ok.1 h
    cases h
    exact ⟨hname, hpath⟩
  · rintro ⟨hname, hpath⟩
    exact bind_eq_ok.2 ⟨_, hname, bind_eq_ok.2 ⟨_, hpath, rfl⟩⟩

theorem Request.isLabel_created (request : Request) : ∀ t ∈ request.created,
    IsLabel 20 t ∧ (Path.ofText t).anchor = .relative ∧ (Path.ofText t).toText = t ∧
      t ≠ ['.'] := by
  cases request with
  | newProject argument =>
    rw [created]
    decide +kernel
  | newApp name tokens directory =>
    rw [created]
    decide +kernel

theorem Request.kind_mem (request : Request) : request.kind ∈ (["Project", "App"] : List Text) := by
  cases request with
  | newProject argument => exact List.mem_cons_self
  | newApp name tokens directory => exact List.mem_cons_of_mem _ List.mem_cons_self

theorem Request.isLabel_kind (request : Request) : IsLabel 8 request.kind := by
  have hall : ∀ kind ∈ (["Project", "App"] : List Text), IsLabel 8 kind := by
    decide
  exact hall _ request.kind_mem

theorem isLabel_count {n : Nat} (h : n ∈ [3, 8]) : IsLabel 5 (Text.ofNat n) := by
  have hall : ∀ m ∈ [3, 8], IsLabel 5 (Text.ofNat m) := by
    decide
  exact hall n h

theorem Request.Reports.shown (h : request.Reports report) :
    (report.directories ++ report.files).map (shownPath report.root) =
      (report.root.name ++ ['/']) :: request.created := by
  have hbelow : request.created.map (shownPath report.root ∘ report.root.below) =
      request.created.map id := by
    refine List.map_congr_left fun t ht => ?_
    obtain ⟨-, hrelative, hclean, hdot⟩ := request.isLabel_created t ht
    exact shownPath_below report.root hrelative hclean hdot
  rw [h.paths, List.map_cons, shownPath_self, List.map_map, hbelow, List.map_id]

def factColumns (kind name root count : Text) : List (Column Text) :=
  [⟨"Item", false, [kind, "Location", "Files"]⟩, ⟨"Value", true, [name, root, count]⟩]

/-- The same columns with a name and a root as they are printed. -/
def shownFacts (kind : Text) (name root : Styled) (count : Text) : List (Column Styled) :=
  [⟨⟨"Item", []⟩, false, [⟨kind, []⟩, ⟨"Location", []⟩, ⟨"Files", []⟩]⟩,
    ⟨⟨"Value", []⟩, true, [name, root, ⟨count, []⟩]⟩]

def pathColumn (name : Text) (created : List Text) : Column Text :=
  ⟨"Path", false, (name ++ ['/']) :: created⟩

def shownPaths (name : Styled) (created : List Text) : Column Styled :=
  ⟨⟨"Path", []⟩, false, name :: created.map fun t => ⟨t, []⟩⟩

theorem render_pathColumn (h : render console (report.root.name ++ ['/']) = .ok named) :
    (pathColumn report.root.name request.created).render console =
      .ok (shownPaths named request.created) := by
  have hcreated : request.created.mapM (render console) =
      .ok (request.created.map fun t => ⟨t, []⟩) :=
    mapM_render_verbatim fun t ht => (request.isLabel_created t ht).1.verbatim console
  have hhead : IsLabel 4 "Path" := by decide
  refine render_column_eq_ok.2
    ⟨_, named :: request.created.map fun t => ⟨t, []⟩, (hhead.verbatim console).render_eq, ?_, rfl⟩
  rw [pathColumn, List.mapM_cons, h, hcreated]
  rfl

theorem mapM_render_facts (console : Console) (request : Request)
    (hcount : report.files.length ∈ [3, 8]) :
    (factColumns request.kind report.root.name report.root.toText
        (Text.ofNat report.files.length)).mapM (Column.render console) =
      (shownRoot console report.root).map fun (name, root) =>
        shownFacts request.kind name root (Text.ofNat report.files.length) := by
  have hitem : IsLabel 8 "Item" := by decide
  have hitems :
      (⟨"Item", false, [request.kind, "Location", "Files"]⟩ : Column Text).render console =
        .ok ⟨⟨"Item", []⟩, false, [⟨request.kind, []⟩, ⟨"Location", []⟩, ⟨"Files", []⟩]⟩ := by
    have hcells : ∀ t ∈ [request.kind, "Location", "Files"], IsLabel 8 t :=
      List.forall_mem_cons.2 ⟨request.isLabel_kind, by decide⟩
    exact render_column_eq_ok.2 ⟨_, _, (hitem.verbatim console).render_eq,
      mapM_render_verbatim fun t ht => (hcells t ht).verbatim console, rfl⟩
  have hvalue : render console "Value" = .ok ⟨"Value", []⟩ :=
    ((by decide : IsLabel 5 "Value").verbatim console).render_eq
  have hnumber := ((isLabel_count hcount).verbatim console).render_eq
  rw [factColumns, shownRoot, List.mapM_cons, hitems]
  simp only [List.mapM_cons, List.mapM_nil, Column.render, hvalue, hnumber]
  cases render console report.root.name with
  | error e => rfl
  | ok name =>
    cases render console report.root.toText with
    | error e => rfl
    | ok root => rfl

theorem exists_toText_name {target : Location} (h : target ≠ []) :
    ∃ before, target.toPath.toText = before ++ '/' :: target.toPath.name := by
  obtain ⟨above, name, rfl⟩ := (List.eq_nil_or_concat' target).resolve_left h
  have hname : (Location.toPath (above ++ [name])).name = name.val := by
    rw [Path.name, Location.toPath, List.getLast?_map, List.getLast?_concat]
    rfl
  rw [hname]
  exact Location.exists_toText_concat above name

theorem name_infix_toText {target : Location} (h : target ≠ []) :
    target.toPath.name <:+: target.toPath.toText := by
  obtain ⟨before, hbefore⟩ := exists_toText_name h
  rw [hbefore, ← List.singleton_append, ← List.append_assoc]
  exact (List.suffix_append _ _).isInfix

theorem exists_shownRoot (console : Console) {target : Location} (h : target ≠ [])
    (hinert : Inert target.toPath.toText) :
    ∃ shown, shownRoot console target.toPath = .ok shown := by
  obtain ⟨named, hnamed⟩ :=
    (hinert.of_infix (name_infix_toText h)).exists_render console
  obtain ⟨s, hs⟩ := hinert.exists_render console
  exact ⟨_, shownRoot_eq_ok.2 ⟨hnamed, hs⟩⟩

theorem reportPieces_eq (h : invocation.request.Reports report) :
    reportPieces console invocation report =
      [table console "mural" (factColumns invocation.request.kind report.root.name
          report.root.toText (Text.ofNat report.files.length)),
        table console fileTitle [pathColumn report.root.name invocation.request.created]] ++
      if invocation.dryRun then [warning console "Dry run: nothing was written."]
      else [success console
          ("Created " ++ invocation.request.kind.lower ++ " at " ++ report.root.toText),
        nextSteps console nextTitle report.message] := by
  rw [pathColumn, ← h.shown]
  rfl

/-- A root that cannot be printed ends the report with its first table. -/
theorem pieces_of_error (h : invocation.request.Reports report)
    (herror : shownRoot console report.root = .error e) :
    ∃ rest, reportPieces console invocation report = .error e :: rest := by
  have hfacts := mapM_render_facts console invocation.request h.count
  rw [herror] at hfacts
  have htable : table console "mural" (factColumns invocation.request.kind report.root.name
      report.root.toText (Text.ofNat report.files.length)) = .error e := by
    rw [table, hfacts]
    rfl
  rw [reportPieces_eq h, htable]
  exact ⟨_, rfl⟩

theorem Request.isLabel_created_at (request : Request) :
    '\\' ∉ "Created ".toList ++ request.kind.lower ++ " at " ∧
      ':' ∉ "Created ".toList ++ request.kind.lower ++ " at " ∧
      IsLabel 20 ("Created ".toList ++ request.kind.lower ++ " at ") := by
  have hall : ∀ kind ∈ (["Project", "App"] : List Text),
      '\\' ∉ "Created ".toList ++ kind.lower ++ " at " ∧
        ':' ∉ "Created ".toList ++ kind.lower ++ " at " ∧
        IsLabel 20 ("Created ".toList ++ kind.lower ++ " at ") := by
    decide +kernel
  exact hall _ request.kind_mem

theorem success_succeeds (console : Console) (request : Request) {root : Text}
    (h : ∃ s, render console root = .ok s) :
    ∃ printed, success console ("Created " ++ request.kind.lower ++ " at " ++ root) =
      .ok printed := by
  obtain ⟨tags, htags⟩ := exists_render_iff.1 h
  obtain ⟨hbackslash, -, hlabel⟩ := request.isLabel_created_at
  have hparts := ((reads_parts root).append_plain hbackslash hlabel.bracket).parts_eq
  refine styled_succeeds (isStyle_of_mem (by decide)) (exists_render_iff.2 ⟨tags, ?_⟩)
  rw [hparts, opened?_append, opened?_map_char, Option.bind_some, htags]

theorem pieces_of_ok (h : invocation.request.Reports report)
    (hroot : shownRoot console report.root = .ok (named, s)) :
    ∀ piece ∈ reportPieces console invocation report, ∃ printed, piece = .ok printed := by
  obtain ⟨hname, hpath⟩ := shownRoot_eq_ok.1 hroot
  obtain ⟨slashed, hslashed⟩ :=
    exists_render_concat (c := '/') ⟨named, hname⟩ (by decide) (by decide)
  have hfacts := mapM_render_facts console invocation.request h.count
  rw [hroot] at hfacts
  have hmural : IsLabel 5 "mural" := by decide
  have hfiles : IsLabel 20 fileTitle := by decide
  have hpaths : [pathColumn report.root.name invocation.request.created].mapM
      (Column.render console) =
      .ok [shownPaths slashed invocation.request.created] := by
    rw [List.mapM_cons, render_pathColumn hslashed]
    rfl
  have hlast : ∀ piece ∈
      (if invocation.dryRun then [warning console "Dry run: nothing was written."]
      else [success console
          ("Created " ++ invocation.request.kind.lower ++ " at " ++ report.root.toText),
        nextSteps console nextTitle report.message]), ∃ printed, piece = .ok printed := by
    split
    · have hwarning : IsLabel 40 "Dry run: nothing was written." := by decide
      exact List.forall_mem_singleton.2 (styled_succeeds (isStyle_of_mem (by decide))
        ⟨_, (hwarning.verbatim console).render_eq⟩)
    · refine List.forall_mem_cons.2 ⟨success_succeeds console invocation.request ⟨s, hpath⟩, ?_⟩
      exact List.forall_mem_singleton.2 (nextSteps_succeeds console report.message)
  rw [reportPieces_eq h]
  refine List.forall_mem_append.2
    ⟨List.forall_mem_cons.2 ⟨?_, List.forall_mem_singleton.2 ?_⟩, hlast⟩
  · exact table_succeeds ⟨_, (hmural.verbatim console).render_eq⟩ hfacts
  · exact table_succeeds ⟨_, (hfiles.verbatim console).render_eq⟩ hpaths

theorem printPieces_map_ok (texts : List Text) :
    printPieces (texts.map .ok) = (texts.flatten, .ok ()) := by
  induction texts with
  | nil => rfl
  | cons t texts ih =>
    rw [List.map_cons, printPieces, ih]
    rfl

theorem Outcome.ofPieces_map_ok (disk : Disk) (status : Nat) (texts : List Text) :
    ofPieces disk status (texts.map .ok) =
      { disk, output := texts.flatten, ending := .ok status } := by
  rw [ofPieces, printPieces_map_ok]
  rfl

theorem exists_texts {pieces : List (Except Markup.Error Text)}
    (h : ∀ piece ∈ pieces, ∃ printed, piece = .ok printed) :
    ∃ texts : List Text, pieces = texts.map .ok := by
  induction pieces with
  | nil => exact ⟨[], rfl⟩
  | cons piece pieces ih =>
    obtain ⟨⟨printed, rfl⟩, hpieces⟩ := List.forall_mem_cons.1 h
    obtain ⟨texts, rfl⟩ := ih hpieces
    exact ⟨printed :: texts, rfl⟩

theorem Outcome.ending_of_succeeds (disk : Disk) (status : Nat)
    {pieces : List (Except Markup.Error Text)}
    (h : ∀ piece ∈ pieces, ∃ printed, piece = .ok printed) :
    (ofPieces disk status pieces).ending = .ok status := by
  obtain ⟨texts, rfl⟩ := exists_texts h
  rw [ofPieces_map_ok]

variable {arguments : List Text} {environment : Entries Text} {config : Config} {disk : Disk}
  {cwd : Location} {w : Workspace}

theorem run_completed (hread : read arguments = .ok invocation)
    (hconfig : Config.ofEnvironment environment = .ok config)
    (hdone : scaffold config invocation disk cwd = .ok (w, .ok report)) :
    run console arguments environment disk cwd =
      .ofPieces w.disk 0 (reportPieces console invocation report) := by
  rw [run, hread]
  simp only [runInvocation, hconfig, hdone]

end CommandLine

end Scaffold
