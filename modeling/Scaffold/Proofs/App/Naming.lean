import Scaffold.Proofs.App.Fields
import Scaffold.Proofs.App.Files
import Scaffold.Proofs.Schema.Occurrences

namespace Scaffold.Naming

open Template Text

def moduleSlot : Segment :=
  .slot "module_name" .plain

def querySlot : Segment :=
  .slot "query" .plain

def importsSlot : Segment :=
  .slot "model_imports" (.joined ", ")

/-- The segments of a controller behind the variable with the host. -/
def controllerEnd : List Segment :=
  (segments Template.controller).drop 2

/-- The line of a model with the declarations. -/
def declarationsBlock : Segment :=
  .block (.optional "field_declarations" ["  ", .slot "field_declarations" .plain])

theorem value_declarations (spec : AppSpec) : declarationsBlock.value spec.context =
    if spec.schema.declarations = [] then ([] : Text)
    else "  " ++ (spec.schema.declarations ++ "\n") := by
  have hline : renderLine spec.context ["  ", .slot "field_declarations" .plain] =
      .ok ("  " ++ (spec.schema.declarations ++ "\n")) := by
    change Except.ok (("  " : Text) ++ (spec.schema.declarations ++ []) ++ ['\n']) = _
    rw [List.append_nil, List.append_assoc]
    rfl
  have hget : spec.context.get? "field_declarations" = some (.string spec.schema.declarations) :=
    rfl
  rw [Segment.value, declarationsBlock, Segment.render, Supply.render_optional hget, hline]
  split <;> rfl

theorem value_imports (spec : AppSpec) : importsSlot.value spec.context =
    join ", " ("model" :: spec.schema.importedTypes) := by
  have hslot : importsSlot.render spec.context =
      .ok (join ", " ("model" :: spec.schema.importedTypes)) :=
    Supply.apply_joined ", " ("model" :: spec.schema.importedTypes)
  rw [Segment.value, hslot]
  rfl

theorem finds_controller :
    Segment.finds addressMarker '\'' [moduleSlot, querySlot] controllerEnd
        [moduleSlot, .text []] = true ∧
      Segment.finds treeMarker ':' [moduleSlot, querySlot] controllerEnd
        [moduleSlot, .text []] = true ∧
      Segment.finds bindingMarker ' ' [moduleSlot, querySlot] controllerEnd
        [moduleSlot, .text []] = true ∧
      Segment.finds queryMarker '\'' [moduleSlot, querySlot] controllerEnd
        [querySlot, .text []] = true ∧
      Segment.finds setMarker ')' [moduleSlot, querySlot] controllerEnd
        [moduleSlot, .text "', ", moduleSlot, .text []] = true := by
  decide +kernel

theorem finds_module :
    Segment.finds modelMarker '\x7d' [moduleSlot, importsSlot, declarationsBlock]
        (segments Template.model)
        [moduleSlot, .text "', \x7b\n", declarationsBlock, .text []] = true ∧
      Segment.finds routeMarker '/' [moduleSlot] (segments Template.router)
        [moduleSlot, .text []] = true ∧
      Segment.finds apiMarker '\'' [moduleSlot] (segments Template.server)
        [moduleSlot, .text []] = true := by
  decide +kernel

theorem encloses_view :
    Segment.encloses elementMarker (.slot "view_body" .plain) (segments Template.view) = true := by
  decide +kernel

section Readings

variable {spec : AppSpec} {m : Marker} {slots ss : List Segment} {c : Char}

theorem isWord_of_mem_names
    (hschema : ∀ a ∈ spec.schema.attributes, IsWord a.name ∧ IsWord a.type) :
    ∀ f ∈ spec.schema.names, IsWord f := by
  intro f hf
  obtain ⟨a, ha, rfl⟩ := List.mem_map.1 hf
  exact (hschema a ha).1

theorem notMem_module (hname : IsWord spec.name) (hc : isWordChar c = false) :
    c ∉ moduleSlot.value spec.context :=
  hname.notMem hc

theorem notMem_querySlot (hname : IsWord spec.name)
    (hschema : ∀ a ∈ spec.schema.attributes, IsWord a.name ∧ IsWord a.type)
    (hc : isWordChar c = false) (hsigns : c ∉ ("\x7b \x7d" : Text)) :
    c ∉ querySlot.value spec.context := by
  apply notMem_query (hname.notMem hc) _ hsigns
  intro f hf
  exact (isWord_of_mem_names hschema f hf).notMem hc

theorem notMem_controller (hname : IsWord spec.name)
    (hschema : ∀ a ∈ spec.schema.attributes, IsWord a.name ∧ IsWord a.type)
    (hc : isWordChar c = false) (hsigns : c ∉ ("\x7b \x7d" : Text)) :
    ∀ s ∈ [moduleSlot, querySlot], c ∉ s.value spec.context := by
  intro s hs
  rcases List.mem_pair.1 hs with rfl | rfl
  · exact notMem_module hname hc
  · exact notMem_querySlot hname hschema hc hsigns

theorem notMem_imports
    (hschema : ∀ a ∈ spec.schema.attributes, IsWord a.name ∧ IsWord a.type)
    (hc : isWordChar c = false) (hseparator : c ∉ (", " : Text)) (hmodel : c ∉ ("model" : Text)) :
    c ∉ importsSlot.value spec.context := by
  rw [value_imports]
  intro h
  rcases mem_join h with h | ⟨t, ht, h⟩
  · exact hseparator h
  · rcases List.mem_cons.1 ht with rfl | ht
    · exact hmodel h
    · obtain ⟨a, ha, rfl⟩ := List.mem_map.1 (Schema.mem_firstOccurrences.1 ht)
      exact (hschema a ha).2.notMem hc h

theorem notMem_declarationsBlock
    (hschema : ∀ a ∈ spec.schema.attributes, IsWord a.name ∧ IsWord a.type)
    (hc : isWordChar c = false) (hsigns : c ∉ (",\n : ()" : Text)) :
    c ∉ declarationsBlock.value spec.context := by
  have hdeclarations : c ∉ spec.schema.declarations := by
    apply notMem_declarations _ hsigns
    intro a ha
    exact ⟨(hschema a ha).1.notMem hc, (hschema a ha).2.notMem hc⟩
  have hsigns : ∀ t : Text, t ⊆ (",\n : ()" : Text) → c ∉ t := fun _ ht h => hsigns (ht h)
  rw [value_declarations]
  split
  · exact List.not_mem_nil
  · exact notMem_append (hsigns _ (by decide))
      (notMem_append hdeclarations (hsigns _ (by decide)))

theorem read_module (hname : IsWord spec.name) (hc : isWordChar c = false)
    (hfinds : Segment.finds m c slots ss [moduleSlot, .text []] = true)
    (hfirst : ∀ s ∈ slots, m.first ∉ s.value spec.context) :
    m.read c (ss.flatMap (Segment.value spec.context)) = [spec.name] := by
  rw [Segment.read_eq hfinds hfirst]
  · exact congrArg (fun t => [t]) (List.append_nil spec.name)
  · intro s hs
    rcases List.mem_pair.1 hs with rfl | rfl
    · exact .inr (notMem_module hname hc)
    · exact .inl rfl

theorem getLast?_read_controller {t : Text}
    (h : m.read c (controllerEnd.flatMap (Segment.value spec.context)) = [t]) :
    (m.read c (Template.controller.filled spec.context)).getLast? = some t := by
  rw [filled, ← List.take_append_drop 2 (segments Template.controller), List.flatMap_append]
  exact Marker.getLast?_read_append _ h

end Readings

section Files

variable {spec : AppSpec} {m : Marker} {c : Char} (hname : IsWord spec.name)
  (hschema : ∀ a ∈ spec.schema.attributes, IsWord a.name ∧ IsWord a.type)
include hname hschema

theorem read_query : queryMarker.read '\'' (controllerEnd.flatMap (Segment.value spec.context)) =
    [spec.query] := by
  obtain ⟨-, -, -, hfinds, -⟩ := finds_controller
  rw [Segment.read_eq hfinds (notMem_controller hname hschema (by decide) (by decide))]
  · exact congrArg (fun t => [t]) (List.append_nil spec.query)
  · intro s hs
    rcases List.mem_pair.1 hs with rfl | rfl
    · exact .inr (notMem_querySlot hname hschema (by decide) (by decide))
    · exact .inl rfl

theorem read_arguments : setMarker.read ')' (controllerEnd.flatMap (Segment.value spec.context)) =
    [spec.name ++ ("', " ++ spec.name)] := by
  obtain ⟨-, -, -, -, hfinds⟩ := finds_controller
  rw [Segment.read_eq hfinds (notMem_controller hname hschema (by decide) (by decide))]
  · exact congrArg (fun t : Text => [spec.name ++ ("', " ++ t)]) (List.append_nil spec.name)
  · intro s hs
    simp only [List.mem_cons, List.not_mem_nil, or_false] at hs
    rcases hs with rfl | rfl | rfl | rfl
    · exact .inr (notMem_module hname (by decide))
    · exact .inl rfl
    · exact .inr (notMem_module hname (by decide))
    · exact .inl rfl

theorem readController_eq : readController (Template.controller.filled spec.context) =
    some ⟨spec.name, spec.name, spec.name, (spec.name, spec.schema.names),
      [spec.name, spec.name]⟩ := by
  obtain ⟨haddress, htree, hbinding, -, -⟩ := finds_controller
  have haddress := getLast?_read_controller (read_module hname (by decide) haddress
    (notMem_controller hname hschema (by decide) (by decide)))
  have htree := getLast?_read_controller (read_module hname (by decide) htree
    (notMem_controller hname hschema (by decide) (by decide)))
  have hbinding := getLast?_read_controller (read_module hname (by decide) hbinding
    (notMem_controller hname hschema (by decide) (by decide)))
  have hquery := getLast?_read_controller (read_query hname hschema)
  have harguments := getLast?_read_controller (read_arguments hname hschema)
  have hselection : selection? spec.query = some (spec.name, spec.schema.names) :=
    selection_query hname (isWord_of_mem_names hschema)
  have hwords : wordsIn (spec.name ++ ("', " ++ spec.name)) = [spec.name, spec.name] :=
    calc wordsIn (spec.name ++ ("', " ++ spec.name))
      _ = spec.name :: wordsIn (", " ++ spec.name) := wordsIn_append_word hname (by decide) _
      _ = [spec.name, spec.name] := by
        rw [wordsIn_append_gap (by decide), wordsIn_of_word hname]
  rw [readController]
  simp only [haddress, htree, hbinding, hquery, harguments, hselection, hwords,
    Option.bind_eq_bind, Option.bind_some]
  rfl

theorem read_model : modelMarker.read '\x7d' (Template.model.filled spec.context) =
    [spec.name ++ ("', \x7b\n" ++ declarationsBlock.value spec.context)] := by
  have hfirst : ∀ s ∈ [moduleSlot, importsSlot, declarationsBlock],
      modelMarker.first ∉ s.value spec.context := by
    intro s hs
    simp only [List.mem_cons, List.not_mem_nil, or_false] at hs
    rcases hs with rfl | rfl | rfl
    · exact notMem_module hname (by decide)
    · exact notMem_imports hschema (by decide) (by decide) (by decide)
    · exact notMem_declarationsBlock hschema (by decide) (by decide)
  rw [filled, Segment.read_eq finds_module.1 hfirst]
  · exact congrArg (fun t : Text => [spec.name ++ ("', \x7b\n" ++ t)])
      (List.append_nil (declarationsBlock.value spec.context))
  · intro s hs
    simp only [List.mem_cons, List.not_mem_nil, or_false] at hs
    rcases hs with rfl | rfl | rfl | rfl
    · exact .inr (notMem_module hname (by decide))
    · exact .inl rfl
    · exact .inr (notMem_declarationsBlock hschema (by decide) (by decide))
    · exact .inl rfl

omit hname in
theorem declarations_of_block :
    declarations? ("\n" ++ declarationsBlock.value spec.context) = some spec.schema.pairs := by
  rw [value_declarations]
  split
  · rename_i hnone
    have hattributes := declarations_eq_nil hnone
    rw [Schema.pairs, hattributes]
    rfl
  · rename_i hsome
    apply declarations_of_schema hschema
    intro hattributes
    apply hsome
    rw [Schema.declarations, hattributes]
    rfl

theorem readModels_eq : readModels (Template.model.filled spec.context) =
    some [(spec.name, spec.schema.pairs)] := by
  have htext : spec.name ++ ("', \x7b\n" ++ declarationsBlock.value spec.context) =
      spec.name ++ "', " ++ '\x7b' :: ("\n" ++ declarationsBlock.value spec.context) := by
    rw [List.append_assoc]
    rfl
  have hhead : '\x7b' ∉ spec.name ++ ("', " : Text) :=
    notMem_append (hname.notMem (by decide)) (by decide)
  have hbody : '\x7b' ∉ ("\n" : Text) ++ declarationsBlock.value spec.context :=
    notMem_append (by decide) (notMem_declarationsBlock hschema (by decide) (by decide))
  have hmodule : (spec.name ++ ("', " : Text)).takeWhile (· ≠ '\'') = spec.name := by
    rw [takeWhile_append_of_notMem (hname.notMem (by decide))]
    exact List.append_nil spec.name
  have hmodel : modelOf? (spec.name ++ ("', \x7b\n" ++ declarationsBlock.value spec.context)) =
      some (spec.name, spec.schema.pairs) := by
    rw [modelOf?]
    rw [htext, cut_char_append hhead, cut_char_of_notMem hbody]
    simp only [declarations_of_block hschema, hmodule, Option.bind_eq_bind, Option.bind_some]
    rfl
  rw [readModels, read_model hname hschema, List.mapM_cons, hmodel]
  rfl

theorem readView_eq : readView (Template.view.filled spec.context) =
    some (spec.schema.names.map (spec.name, ·)) := by
  obtain ⟨first, last, htext, hfirst, hlast⟩ :=
    Segment.eq_of_encloses spec.context encloses_view
  rw [filled, htext, readView, Marker.after_append hfirst]
  exact elements_of_viewBody hname (isWord_of_mem_names hschema) hlast

omit hschema

theorem read_route {template : Template}
    (hfinds : Segment.finds m c [moduleSlot] (segments template) [moduleSlot, .text []] = true)
    (hc : isWordChar c = false) : m.read c (template.filled spec.context) = [spec.name] := by
  apply read_module hname hc hfinds
  intro s hs
  rw [List.mem_singleton.1 hs]
  exact notMem_module hname m.outside

theorem readRouter_eq : readRouter (Template.router.filled spec.context) = [spec.name] :=
  read_route hname finds_module.2.1 (by decide)

theorem readServer_eq : readServer (Template.server.filled spec.context) = [spec.name] :=
  read_route hname finds_module.2.2 (by decide)

end Files

/-- In the files planned for an app whose names are words, every reading of the module is the app's
name, and every reading of the fields is the schema. -/
theorem names_agree (config : Config) (spec : AppSpec) (root : Path) (hname : IsWord spec.name)
    (hschema : ∀ a ∈ spec.schema.attributes, IsWord a.name ∧ IsWord a.type) :
    ∃ plan, Plan.ofApp config spec root = .ok plan ∧
      (plan.file? "controllers/index.js").bind (readController ·.content) =
        some ⟨spec.name, spec.name, spec.name, (spec.name, spec.schema.names),
          [spec.name, spec.name]⟩ ∧
      (plan.file? "models/index.js").bind (readModels ·.content) =
        some [(spec.name, spec.schema.pairs)] ∧
      (plan.file? "views/index.js").bind (readView ·.content) =
        some (spec.schema.names.map (spec.name, ·)) ∧
      (plan.file? "router.js").map (readRouter ·.content) = some [spec.name] ∧
      (plan.file? "server.js").map (readServer ·.content) = some [spec.name] := by
  obtain ⟨plan, hplan, hmodel, hcontroller, hview, hrouter, hserver⟩ :=
    Plan.file?_ofApp config spec root
  refine ⟨plan, hplan, ?_, ?_, ?_, ?_, ?_⟩
  · rw [hcontroller, Option.bind_some]
    exact readController_eq hname hschema
  · rw [hmodel, Option.bind_some]
    exact readModels_eq hname hschema
  · rw [hview, Option.bind_some]
    exact readView_eq hname hschema
  · rw [hrouter, Option.map_some]
    exact congrArg some (readRouter_eq hname)
  · rw [hserver, Option.map_some]
    exact congrArg some (readServer_eq hname)

theorem names_agree_blog :
    let title : Attribute := ⟨"title", "String", by decide, by decide⟩
    let body : Attribute := ⟨"body", "Text", by decide, by decide⟩
    let spec : AppSpec :=
      ⟨"blog", ⟨[title, body], by decide⟩, "journal", "APP_URL", by decide, by decide⟩
    let models : List (Text × List (Text × Text)) :=
      [("blog", [("title", "String"), ("body", "Text")])]
    ∃ plan, Plan.ofApp .default spec (Location.toPath []) = .ok plan ∧
      (plan.file? "controllers/index.js").bind (readController ·.content) =
        some ⟨"blog", "blog", "blog", ("blog", ["title", "body"]), ["blog", "blog"]⟩ ∧
      (plan.file? "models/index.js").bind (readModels ·.content) =
        some models := by
  intro title body spec models
  have hname : IsWord spec.name := by decide
  have hschema : ∀ a ∈ spec.schema.attributes, IsWord a.name ∧ IsWord a.type := by decide
  obtain ⟨plan, hplan, hcontroller, hmodels, -⟩ :=
    names_agree .default spec (Location.toPath []) hname hschema
  exact ⟨plan, hplan, hcontroller, hmodels⟩

end Scaffold.Naming
