import Scaffold.Proofs.Project.Environment

namespace Scaffold

namespace Environment

open Text

variable {key value : Text} {entries : Entries Text}

theorem cut_lines (h : ∀ e ∈ entries, Plain e.1 e.2) : cut (· = '\n') (lines entries) =
    entries.map (fun (key, value) => key ++ '=' :: value) ++ [[]] := by
  induction entries with
  | nil => rfl
  | cons e rest ih =>
    obtain ⟨key, value⟩ := e
    have hplain : Plain key value := h _ List.mem_cons_self
    have hline : '\n' ∉ key ++ '=' :: value := by
      apply notMem_append hplain.key
      exact List.not_mem_cons_of_ne_of_not_mem (by decide) hplain.value
    rw [lines_cons, cut_char_append hline, ih fun e he => h e (List.mem_cons_of_mem _ he)]
    rfl

theorem cutFirst_lines (h : ∀ e ∈ entries, Plain e.1 e.2) :
    (entries.map fun (key, value) => key ++ '=' :: value).map (cutFirst '=') =
      entries.map some := by
  rw [List.map_map]
  apply List.map_congr_left
  intro e he
  exact cutFirst_append (h e he).equals e.2

theorem plain_nodeEnv (h : '\n' ∉ value) : Plain "NODE_ENV" value :=
  ⟨by decide, by decide, h⟩

theorem plain_mongoUrl (h : '\n' ∉ value) : Plain "MONGO_URL" value :=
  ⟨by decide, by decide, h⟩

end Environment

open Environment

namespace Config

variable {config : Config} {project : Text}

/-- The name of the environment comes first under any name of the variable with the app's URL. -/
theorem exists_environment (config : Config) (project : Text) : ∃ first before key value,
    config.environment project = ("NODE_ENV".toList, first) :: before ++ [(key, value)] := by
  by_cases h : config.appUrlVariable = "MONGO_URL".toList
  · rw [environment_of_eq h]
    exact ⟨_, [("MONGO_URL".toList, _)], _, _, rfl⟩
  · obtain ⟨first, more, hall⟩ := environment_of_ne h project
    exact ⟨first, more, _, _, hall⟩

theorem plain_environment (hnode : '\n' ∉ config.nodeEnv) (hurl : '\n' ∉ config.appUrl)
    (hbase : '\n' ∉ config.mongoUrlBase) (hvariable : '\n' ∉ config.appUrlVariable)
    (hequals : '=' ∉ config.appUrlVariable) (hproject : '\n' ∉ project) :
    ∀ e ∈ config.environment project, Plain e.1 e.2 := by
  have hurlLine : '\n' ∉ config.mongoUrl project := by
    apply Text.notMem_append _ hproject
    apply Text.notMem_append _ (by decide)
    exact fun hmem => hbase ((Text.trimEnd_isPrefix _ _).subset hmem)
  intro e he
  have hpair := Entries.mem_of_mem_ofPairs he
  simp only [List.mem_cons, List.not_mem_nil, or_false] at hpair
  rcases hpair with rfl | rfl | rfl | rfl
  · exact plain_nodeEnv hnode
  · exact ⟨hequals, hvariable, hurl⟩
  · exact plain_port config
  · exact plain_mongoUrl hurlLine

end Config

/--
The environment file ends in one line feed. Cut at the others, and each line at its first equals
sign, it gives all variables in their order, whichever of them the variable with the app's URL
takes the place of. Only the blanks at the end of the last value are not there.
-/
theorem ProjectSpec.environmentFile_decodes (config : Config) (spec : ProjectSpec)
    (hnode : '\n' ∉ config.nodeEnv) (hurl : '\n' ∉ config.appUrl)
    (hbase : '\n' ∉ config.mongoUrlBase) (hvariable : '\n' ∉ config.appUrlVariable)
    (hequals : '=' ∉ config.appUrlVariable) (hname : '\n' ∉ spec.name) :
    ∃ t before key value, spec.environmentFile config = .ok (t ++ ['\n']) ∧
      t.getLast? ≠ some '\n' ∧
      config.environment spec.name = before ++ [(key, value)] ∧
      (Text.cut (· = '\n') t).map (Text.cutFirst '=') =
        (before ++ [(key, Text.trimEnd Text.isBlank value)]).map some := by
  obtain ⟨first, before, key, value, hall⟩ := config.exists_environment spec.name
  have hplain := Config.plain_environment hnode hurl hbase hvariable hequals hname
  rw [hall] at hplain
  obtain ⟨hbefore, hlast⟩ := List.forall_mem_append.1 hplain
  have htrimmed : ∀ e ∈ ("NODE_ENV".toList, first) :: before ++
      [(key, Text.trimEnd Text.isBlank value)], Plain e.1 e.2 := by
    apply List.forall_mem_append.2 ⟨hbefore, ?_⟩
    exact List.forall_mem_singleton.2 (List.forall_mem_singleton.1 hlast).trimEnd
  have hstrip := strip_lines first before key value
  have hcut := cut_lines htrimmed
  rw [← hstrip, Text.cut_separated (decide_eq_true rfl)] at hcut
  refine ⟨_, _, key, value, spec.environmentFile_eq config, ?_, hall, ?_⟩
  · intro hnewline
    have hblank := (Text.trimmed_strip _).last '\n' hnewline
    exact absurd hblank (by decide)
  · rw [hall, List.append_cancel_right hcut, cutFirst_lines htrimmed]

theorem ProjectSpec.environmentFile_decodes_awkward :
    let config : Config := { nodeEnv := "a=b ", appUrl := "'x", appUrlVariable := "" }
    let spec : ProjectSpec := ⟨"blog \t", .ofText "/blog", by decide⟩
    ('\n' ∉ config.nodeEnv ∧ '\n' ∉ config.appUrl ∧ '\n' ∉ config.mongoUrlBase ∧
      '\n' ∉ config.appUrlVariable ∧ '=' ∉ config.appUrlVariable ∧ '\n' ∉ spec.name) ∧
    ∃ t, spec.environmentFile config = .ok (t ++ ['\n']) ∧
      (Text.cut (· = '\n') t).map (Text.cutFirst '=') =
        [some ("NODE_ENV".toList, "a=b ".toList), some ("".toList, "'x".toList),
          some ("PORT".toList, "3000".toList),
          some ("MONGO_URL".toList, "mongodb://localhost:27017/blog".toList)] := by
  intro config spec
  have hnode : '\n' ∉ config.nodeEnv := by decide
  have hurl : '\n' ∉ config.appUrl := by decide
  have hbase : '\n' ∉ config.mongoUrlBase := by decide
  have hvariable : '\n' ∉ config.appUrlVariable := by decide
  have hequals : '=' ∉ config.appUrlVariable := by decide
  have hname : '\n' ∉ spec.name := by decide
  obtain ⟨t, before, key, value, ht, -, hall, hlines⟩ :=
    environmentFile_decodes config spec hnode hurl hbase hvariable hequals hname
  have henvironment : config.environment spec.name =
      [("NODE_ENV".toList, "a=b ".toList), ("".toList, "'x".toList),
        ("PORT".toList, "3000".toList)] ++
        [("MONGO_URL".toList, "mongodb://localhost:27017/blog \t".toList)] := by decide
  obtain ⟨rfl, hlast⟩ := List.append_inj' (hall.symm.trans henvironment) rfl
  cases hlast
  refine ⟨⟨hnode, hurl, hbase, hvariable, hequals, hname⟩, t, ht, hlines.trans ?_⟩
  decide

end Scaffold
