import Scaffold.Proofs.App.Naming
import Scaffold.Proofs.Text.Strip

namespace Scaffold

namespace Text

variable {t : Text} {ts : List Text}

/-- What can be told apart in a list with commas that ends with a brace. -/
structure Listable (t : Text) : Prop where
  comma : ',' ∉ t
  brace : '\x7d' ∉ t
  trimmed : Trimmed t

instance (t : Text) : Decidable (Listable t) :=
  decidable_of_iff (',' ∉ t ∧ '\x7d' ∉ t ∧ Trimmed t)
    ⟨fun h => ⟨h.1, h.2.1, h.2.2⟩, fun h => ⟨h.comma, h.brace, h.trimmed⟩⟩

/-- The names in the braces of the import that a script begins with. -/
def importedNames? (script : Text) : Option (List Text) :=
  if startsWith "import \x7b" script then
    some ((cut (· = ',') ((script.drop 8).takeWhile (· ≠ '\x7d'))).map strip)
  else none

theorem strip_listed (h : ∀ t ∈ ts, Listable t) (hne : ts ≠ []) :
    (cut (· = ',') (" " ++ (join ", " ts ++ " "))).map strip = ts := by
  have hblank : ∀ c ∈ (" " : Text), isBlank c = true := List.all_eq_true.1 (by decide)
  have hstrip {t : Text} (ht : Trimmed t) :
      strip ((" " : Text) ++ t) = t ∧ strip ((" " : Text) ++ t ++ " ") = t := by
    have hnone : strip ((" " : Text) ++ t ++ []) = t :=
      trim_append hblank (List.forall_mem_nil _) ht.first ht.last
    rw [List.append_nil] at hnone
    exact ⟨hnone, trim_append hblank hblank ht.first ht.last⟩
  induction ts with
  | nil => exact absurd rfl hne
  | cons t rest ih =>
    obtain ⟨ht, hrest⟩ := List.forall_mem_cons.1 h
    cases rest with
    | nil =>
      have hcomma : ',' ∉ " " ++ t ++ " " :=
        notMem_append (notMem_append (by decide) ht.comma) (by decide)
      rw [join, ← List.append_assoc, cut_char_of_notMem hcomma, List.map_singleton,
        (hstrip ht.trimmed).2]
    | cons u rest =>
      have hcomma : ',' ∉ " " ++ t := notMem_append (by decide) ht.comma
      have htext : " " ++ (join ", " (t :: u :: rest) ++ " ") =
          " " ++ t ++ ',' :: (" " ++ (join ", " (u :: rest) ++ " ")) := by
        simp only [join, List.append_assoc]
        rfl
      rw [htext, cut_char_append hcomma, List.map_cons, (hstrip ht.trimmed).1,
        ih hrest (List.cons_ne_nil u rest)]

theorem importedNames?_eq (h : ∀ t ∈ ts, Listable t) (hne : ts ≠ []) (u : Text) :
    importedNames? ("import \x7b" ++ (" " ++ (join ", " ts ++ " ") ++ '\x7d' :: u)) = some ts := by
  have hbrace : '\x7d' ∉ " " ++ (join ", " ts ++ " ") := by
    refine notMem_append (by decide) (notMem_append (fun hmem => ?_) (by decide))
    rcases mem_join hmem with hmem | ⟨t, ht, hmem⟩
    · revert hmem
      decide
    · exact (h t ht).brace hmem
  have hinner : (" " ++ (join ", " ts ++ " ") ++ '\x7d' :: u).takeWhile (· ≠ '\x7d') =
      " " ++ (join ", " ts ++ " ") := by
    rw [takeWhile_append_of_notMem hbrace, List.takeWhile_cons_of_neg (by decide), List.append_nil]
  have hdrop : (("import \x7b" : Text) ++ (" " ++ (join ", " ts ++ " ") ++ '\x7d' :: u)).drop 8 =
      " " ++ (join ", " ts ++ " ") ++ '\x7d' :: u := rfl
  have hstart : startsWith "import \x7b"
      ("import \x7b" ++ (" " ++ (join ", " ts ++ " ") ++ '\x7d' :: u)) = true := rfl
  rw [importedNames?, if_pos hstart, hdrop, hinner, strip_listed h hne]

end Text

namespace AppSpec

open Template Text

def modelImports (spec : AppSpec) : List Text :=
  "model" :: spec.schema.importedTypes

/-- What follows the names that a model imports, from the brace on. -/
def afterImports (spec : AppSpec) : Text :=
  "\x7d from 'joiql-mongo'\n\nexport default model('" ++ (spec.name ++ ("', \x7b\n" ++
    (Naming.declarationsBlock.value spec.context ++ "\x7d)\n")))

variable {spec : AppSpec} {t : Text}

theorem segments_model : segments Template.model =
    [.text "import \x7b ", Naming.importsSlot,
      .text " \x7d from 'joiql-mongo'\n\nexport default model('", Naming.moduleSlot,
      .text "', \x7b\n", Naming.declarationsBlock, .text "\x7d)\n"] := by
  rfl

theorem model_eq (spec : AppSpec) : spec.model =
    .ok ("import \x7b" ++ (" " ++ (join ", " spec.modelImports ++ " ") ++ spec.afterImports)) := by
  have hfilled : Template.model.filled spec.context =
      ("import \x7b " : Text) ++ (Naming.importsSlot.value spec.context ++
        ((" \x7d from 'joiql-mongo'\n\nexport default model('" : Text) ++ (spec.name ++
          (("', \x7b\n" : Text) ++ (Naming.declarationsBlock.value spec.context ++
            (("\x7d)\n" : Text) ++ [])))))) := by
    unfold Template.filled
    rw [segments_model]
    rfl
  rw [model, spec.render_eq (.tail _ (.head _)), hfilled, Naming.value_imports, List.append_nil,
    List.append_assoc, List.append_assoc]
  rfl

theorem mem_modelImports : t ∈ spec.modelImports ↔ t = "model" ∨ t ∈ spec.schema.types := by
  rw [modelImports, List.mem_cons, Schema.importedTypes, Schema.mem_firstOccurrences]

theorem nodup_modelImports : spec.modelImports.Nodup ↔ "model".toList ∉ spec.schema.types := by
  rw [modelImports, List.nodup_cons, Schema.importedTypes, Schema.mem_firstOccurrences]
  exact and_iff_left (Schema.nodup_firstOccurrences _)

/-- No type is imported twice on its own account. -/
theorem count_modelImports (t : Text) : spec.modelImports.count t =
    (if t ∈ spec.schema.types then 1 else 0) + (if t = "model" then 1 else 0) := by
  have htypes : spec.schema.importedTypes.count t = if t ∈ spec.schema.types then 1 else 0 := by
    rw [Schema.importedTypes, (Schema.nodup_firstOccurrences _).count]
    simp only [Schema.mem_firstOccurrences]
  rw [modelImports, List.count_cons, htypes]
  by_cases ht : t = "model"
  · rw [if_pos ht, if_pos (beq_iff_eq.2 ht.symm)]
  · rw [if_neg ht, if_neg fun h => ht (beq_iff_eq.1 h).symm]

theorem importedNames?_model (h : ∀ t ∈ spec.schema.types, Listable t) :
    ∃ script, spec.model = .ok script ∧ importedNames? script = some spec.modelImports := by
  have hall : ∀ t ∈ spec.modelImports, Listable t := by
    intro t ht
    rcases mem_modelImports.1 ht with rfl | ht
    · decide
    · exact h t ht
  exact ⟨_, spec.model_eq, importedNames?_eq hall (List.cons_ne_nil _ _) _⟩

/--
The model of an app is made with a list of names and imports these: `model` first, then each type of
the schema once, in the order of their first use, and nothing else. That is a list without
repetition just if no type is called `model`; one that is stands there for a second time. The names
are read out of the script again wherever no type has a comma, a closing brace or a blank at its
ends.
-/
theorem modelImports_exact (spec : AppSpec) :
    spec.context.get? "model_imports" = some (.texts spec.modelImports) ∧
    spec.model = .ok ("import \x7b" ++
      (" " ++ (join ", " spec.modelImports ++ " ") ++ spec.afterImports)) ∧
    ((∀ t ∈ spec.schema.types, Listable t) →
      ∃ script, spec.model = .ok script ∧ importedNames? script = some spec.modelImports) ∧
    spec.modelImports.head? = some "model".toList ∧
    (∀ t, t ∈ spec.modelImports ↔ t = "model" ∨ t ∈ spec.schema.types) ∧
    (spec.modelImports.tail.Pairwise fun t u =>
      spec.schema.types.idxOf t < spec.schema.types.idxOf u) ∧
    (∀ t, spec.modelImports.count t =
      (if t ∈ spec.schema.types then 1 else 0) + (if t = "model" then 1 else 0)) ∧
    (spec.modelImports.Nodup ↔ "model".toList ∉ spec.schema.types) :=
  ⟨rfl, spec.model_eq, importedNames?_model, rfl, fun _ => mem_modelImports,
    Schema.pairwise_firstOccurrences _, count_modelImports, nodup_modelImports⟩

theorem modelImports_exact_article :
    let spec : AppSpec := ⟨"article",
      ⟨[⟨"views", "number", by decide, by decide⟩, ⟨"title", "string", by decide, by decide⟩,
        ⟨"likes", "number", by decide, by decide⟩], by decide⟩,
      "blog", "APP_URL", by decide, by decide⟩
    (∀ t ∈ spec.schema.types, Listable t) ∧
      ∃ script, spec.model = .ok script ∧
        importedNames? script = some (["model", "number", "string"] : List Text) := by
  intro spec
  obtain ⟨-, -, hread, -⟩ := modelImports_exact spec
  have hlistable : ∀ t ∈ spec.schema.types, Listable t := by decide
  exact ⟨hlistable, hread hlistable⟩

/-- A type that is called `model` is imported beside the function of that name. -/
theorem modelImports_repeated :
    let spec : AppSpec := ⟨"post", ⟨[⟨"a", "model", by decide, by decide⟩], by decide⟩, "blog",
      "APP_URL", by decide, by decide⟩
    Schema.ofTokens ["a:model"] = .ok spec.schema ∧
      spec.context.get? "model_imports" = some (.texts ["model", "model"]) ∧
      ¬ spec.modelImports.Nodup ∧
      spec.model = .ok ("import \x7b model, model \x7d from 'joiql-mongo'\n\n" ++
        ("export default model('post', \x7b\n  a: model()\n\x7d)\n" : Text)) := by
  intro spec
  exact ⟨by decide, rfl, by decide, spec.model_eq.trans rfl⟩

end AppSpec

end Scaffold
