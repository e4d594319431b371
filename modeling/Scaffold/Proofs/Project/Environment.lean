import Scaffold.Plan
import Scaffold.Proofs.Outcome
import Scaffold.Proofs.Entries
import Scaffold.Proofs.Text.Strip

namespace Scaffold

namespace Environment

open Text

/-- The value that a text of lines gives to a variable. The last line for it counts. -/
def value? (key t : Text) : Option Text :=
  ((cut (· = '\n') t).filterMap (cutFirst '=')).reverse.lookup key

def lines (entries : Entries Text) : Text :=
  entries.flatMap fun (key, value) => key ++ '=' :: value ++ ['\n']

/-- A variable whose line is read as it is written. -/
structure Plain (key value : Text) : Prop where
  equals : '=' ∉ key
  key : '\n' ∉ key
  value : '\n' ∉ value

variable {key other value : Text} {entries : Entries Text}

theorem Plain.trimEnd (h : Plain key value) : Plain key (trimEnd isBlank value) where
  equals := h.equals
  key := h.key
  value := fun hmem => h.value ((trimEnd_isPrefix isBlank value).subset hmem)

theorem lines_cons (key value : Text) (entries : Entries Text) :
    lines ((key, value) :: entries) = key ++ '=' :: value ++ '\n' :: lines entries := by
  rw [lines, List.flatMap_cons, ← lines, List.append_assoc]
  rfl

theorem lines_concat (entries : Entries Text) (key value : Text) :
    lines (entries ++ [(key, value)]) = lines entries ++ (key ++ '=' :: value ++ ['\n']) := by
  rw [lines, List.flatMap_append, List.flatMap_singleton]
  rfl

theorem value?_append (key t u : Text) :
    value? key (t ++ '\n' :: u) = (value? key u).or (value? key t) := by
  rw [value?, cut_separated (decide_eq_true rfl), List.filterMap_append, List.reverse_append,
    List.lookup_append]
  rfl

theorem value?_line (h : Plain other value) (key : Text) :
    value? key (other ++ '=' :: value) = if key = other then some value else none := by
  have hline : '\n' ∉ other ++ '=' :: value :=
    notMem_append h.key (List.not_mem_cons_of_ne_of_not_mem (by decide) h.value)
  rw [value?, cut_char_of_notMem hline,
    List.filterMap_cons_some (cutFirst_append h.equals value)]
  split
  · rename_i heq
    subst heq
    exact List.lookup_cons_self
  · rename_i hne
    rw [List.filterMap_nil, List.reverse_singleton, List.lookup_cons, beq_false_of_ne hne]
    rfl

theorem value?_lines_of_notMem (hplain : ∀ e ∈ entries, Plain e.1 e.2)
    (h : key ∉ entries.keys) : value? key (lines entries) = none := by
  induction entries with
  | nil => rfl
  | cons e rest ih =>
    obtain ⟨other, value⟩ := e
    have hne : key ≠ other := fun heq => h (heq ▸ List.mem_cons_self)
    rw [lines_cons, value?_append, value?_line (hplain _ List.mem_cons_self), if_neg hne,
      ih (fun e he => hplain e (List.mem_cons_of_mem _ he))
        fun hmem => h (List.mem_cons_of_mem _ hmem)]
    rfl

/-- The lines before the last one for a variable are of no concern, whatever stands in them. -/
theorem value?_lines (before : Entries Text) (hvalue : Plain key value)
    (hplain : ∀ e ∈ entries, Plain e.1 e.2) (h : key ∉ entries.keys) :
    value? key (lines (before ++ (key, value) :: entries)) = some value := by
  induction before with
  | nil =>
    rw [List.nil_append, lines_cons, value?_append, value?_lines_of_notMem hplain h,
      value?_line hvalue, if_pos rfl]
    rfl
  | cons e rest ih =>
    rw [List.cons_append, lines_cons, value?_append, ih]
    rfl

theorem trimEnd_line (key value : Text) :
    trimEnd isBlank (key ++ '=' :: value ++ ['\n']) = key ++ '=' :: trimEnd isBlank value := by
  have hnewline : ∀ c ∈ ['\n'], isBlank c = true := by
    intro c hc
    cases List.mem_singleton.1 hc
    rfl
  have hequals : ∀ c ∈ (key ++ ['=']).getLast?, isBlank c = false := by
    intro c hc
    rw [List.getLast?_concat] at hc
    cases hc
    rfl
  rw [trimEnd_append_of_forall hnewline, List.append_cons, trimEnd_append_of_last hequals,
    ← List.append_cons]

theorem strip_lines (first : Text) (before : Entries Text) (key value : Text) :
    strip (lines (("NODE_ENV".toList, first) :: before ++ [(key, value)])) ++ ['\n'] =
      lines (("NODE_ENV".toList, first) :: before ++ [(key, trimEnd isBlank value)]) := by
  have hfirst : isBlank 'N' = false := by decide
  obtain ⟨more, hmore⟩ : ∃ more, lines (("NODE_ENV".toList, first) :: before) = 'N' :: more :=
    ⟨_, lines_cons _ _ _⟩
  have hlast : trimEnd isBlank (key ++ '=' :: value ++ ['\n']) ≠ [] := by
    rw [trimEnd_line]
    exact List.append_ne_nil_of_right_ne_nil _ (List.cons_ne_nil _ _)
  have hends : 'N' :: (more ++ (key ++ '=' :: value ++ ['\n'])) =
    'N' :: more ++ (key ++ '=' :: value ++ ['\n']) := rfl
  rw [lines_concat, lines_concat, hmore, strip, List.cons_append, trim_of_ends hfirst hlast hends,
    trimEnd_line, List.append_assoc]

theorem renderItems_eq (entries : Entries Text) :
    Template.renderItems [.key .plain, .text "=", .value .plain]
      (entries.map fun (key, value) => (.string key, .string value)) = .ok (lines entries) := by
  induction entries with
  | nil => rfl
  | cons e rest ih =>
    obtain ⟨key, value⟩ := e
    have hline : key ++ ("=".toList ++ (value ++ [])) ++ ['\n'] =
        key ++ '=' :: value ++ ['\n'] := by
      rw [List.append_nil]
      rfl
    have hcons : lines ((key, value) :: rest) = key ++ '=' :: value ++ ['\n'] ++ lines rest :=
      List.flatMap_cons
    rw [List.map_cons, Template.renderItems, ih, hcons, ← hline]
    rfl

end Environment

open Environment

theorem ProjectSpec.environmentFile_eq (config : Config) (spec : ProjectSpec) :
    spec.environmentFile config =
      .ok (Text.strip (lines (config.environment spec.name)) ++ ['\n']) := by
  have hblock : Template.Block.render
      [("env", .textFields (config.environment spec.name))]
      (.eachEntry "env" [.key .plain, "=", .value .plain]) =
        .ok (lines (config.environment spec.name)) := by
    rw [← renderItems_eq, Template.Block.render]
    change Template.renderItems _ ((List.map _ _).map _) = _
    rw [List.map_map]
    rfl
  have hall : Template.environmentFile.mapM
      (·.render [("env", .textFields (config.environment spec.name))]) =
        .ok [lines (config.environment spec.name)] := by
    rw [Template.environmentFile, List.mapM_cons, hblock]
    rfl
  rw [environmentFile, Template.render, hall]
  change Except.ok (Template.endWithNewline [lines _].flatten) = _
  rw [List.flatten_singleton, Template.endWithNewline]

namespace Config

variable {config : Config} {project : Text}

theorem environment_of_ne (h : config.appUrlVariable ≠ "MONGO_URL".toList) (project : Text) :
    ∃ first more, config.environment project =
      ("NODE_ENV".toList, first) :: more ++ [("MONGO_URL".toList, config.mongoUrl project)] := by
  have hfixed : "MONGO_URL".toList ∉ ["NODE_ENV".toList] := by decide
  obtain ⟨first, more, hput⟩ :=
    Entries.put_cons config.appUrlVariable config.appUrl "NODE_ENV".toList config.nodeEnv []
  obtain ⟨first, more, hport⟩ :=
    Entries.put_cons "PORT".toList (Text.ofNat config.port.number) "NODE_ENV".toList first more
  have hnew : "MONGO_URL".toList ∉ Entries.keys (("NODE_ENV".toList, first) :: more) := by
    rw [← hport, ← hput, Entries.mem_keys_put, Entries.mem_keys_put]
    rintro (hkey | hkey | hkey)
    · exact absurd hkey (by decide)
    · exact h hkey.symm
    · exact hfixed hkey
  refine ⟨first, more, ?_⟩
  rw [← Entries.put_of_notMem hnew, ← hport, ← hput]
  rfl

theorem environment_of_eq (h : config.appUrlVariable = "MONGO_URL".toList) (project : Text) :
    config.environment project = [("NODE_ENV".toList, config.nodeEnv),
      ("MONGO_URL".toList, config.mongoUrl project),
      ("PORT".toList, Text.ofNat config.port.number)] := by
  rw [environment, h]
  rfl

/-- The database URL in a project's environment file. In the last line it has no blanks at its
end. -/
def storedUrl (config : Config) (project : Text) : Text :=
  if config.appUrlVariable = "MONGO_URL" then config.mongoUrl project
  else Text.trimEnd Text.isBlank (config.mongoUrl project)

end Config

theorem plain_port (config : Config) : Plain "PORT" (Text.ofNat config.port.number) where
  equals := by decide
  key := by decide
  value := by
    intro hmem
    have hdigit := Nat.isDigit_of_mem_toDigits (by decide) (by decide) hmem
    exact absurd hdigit (by decide)

theorem ProjectSpec.environmentFile_lines (config : Config) (spec : ProjectSpec) :
    ∃ before after, spec.environmentFile config =
        .ok (lines (before ++ ("MONGO_URL".toList, config.storedUrl spec.name) :: after)) ∧
      (∀ e ∈ after, Plain e.1 e.2) ∧ "MONGO_URL".toList ∉ Entries.keys after := by
  rw [environmentFile_eq]
  by_cases hlast : config.appUrlVariable = "MONGO_URL".toList
  · rw [Config.environment_of_eq hlast, Config.storedUrl, if_pos hlast]
    refine ⟨[("NODE_ENV", config.nodeEnv)], _, congrArg Except.ok (strip_lines config.nodeEnv
      [("MONGO_URL", config.mongoUrl spec.name)] "PORT" (Text.ofNat config.port.number)), ?_, ?_⟩
    · intro e he
      cases List.mem_singleton.1 he
      exact (plain_port config).trimEnd
    · have hne : "MONGO_URL".toList ∉ ["PORT".toList] := by decide
      exact hne
  · obtain ⟨first, more, hall⟩ := Config.environment_of_ne hlast spec.name
    rw [hall, strip_lines, Config.storedUrl, if_neg hlast]
    refine ⟨_, [], rfl, ?_, List.not_mem_nil⟩
    intro e he
    cases he

theorem ProjectSpec.value?_environmentFile {config : Config} {spec : ProjectSpec} {t : Text}
    (h : spec.environmentFile config = .ok t) (hline : '\n' ∉ config.storedUrl spec.name) :
    value? "MONGO_URL" t = some (config.storedUrl spec.name) := by
  obtain ⟨before, after, hlines, hplain, hkeys⟩ := environmentFile_lines config spec
  rw [hlines] at h
  cases h
  exact value?_lines before ⟨by decide, by decide, hline⟩ hplain hkeys

/-- Without the blanks that stripping takes from the name, the URL is stored as it is. -/
theorem Config.storedUrl_eq {config : Config} {name : Text} (hname : name.strip ≠ [])
    (hfirst : ∀ c ∈ name.head?, Text.isBlank c = false)
    (hlast : config.appUrlVariable = "MONGO_URL".toList →
      ∀ c ∈ name.getLast?, Text.isBlank c = false) :
    config.storedUrl name = config.mongoUrl name.strip := by
  have hstrip : name.strip = Text.trimEnd Text.isBlank name := Text.strip_of_head hfirst
  rw [storedUrl]
  split
  · rename_i heq
    rw [hstrip, Text.trimEnd_eq_self (hlast heq)]
  · rw [mongoUrl, mongoUrl, hstrip]
    exact Text.trimEnd_append (hstrip ▸ hname) _

end Scaffold
