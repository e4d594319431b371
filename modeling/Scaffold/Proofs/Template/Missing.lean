import Scaffold.Proofs.Template.Names
import Scaffold.Template.Library

namespace Scaffold.Template

open Outcome

variable {context other : Context} {name : Text}

/-- The names that a block asks for whatever stands under them. The line that is left out where a
value is not filled does not count. -/
def Block.demands : Block → List Text
  | line fragments => fragments.flatMap Fragment.freeNames
  | optional name _ => [name]
  | each list _ => [list]
  | eachEntry mapping _ => [mapping]

/-- The names that a template asks for whatever stands under them. -/
def demands (template : Template) : List Text :=
  template.flatMap Block.demands

theorem Fragment.render_fails {f : Fragment} (hname : name ∈ f.freeNames)
    (h : context.get? name = none) : ∃ e, f.render context = .error e := by
  cases f with
  | text t => cases hname
  | slot free filter =>
    obtain rfl : name = free := List.mem_singleton.1 hname
    refine ⟨filter.missing name, ?_⟩
    rw [Fragment.render, h]

theorem renderLine_fails {fragments : List Fragment}
    (hname : name ∈ fragments.flatMap Fragment.freeNames) (h : context.get? name = none) :
    ∃ e, renderLine context fragments = .error e := by
  obtain ⟨f, hf, hfree⟩ := List.mem_flatMap.1 hname
  obtain ⟨e, he⟩ := mapM_fails hf (Fragment.render_fails hfree h)
  exact ⟨e, bind_eq_error.2 (.inl he)⟩

theorem lookup_fails (h : context.get? name = none) :
    lookup context name = .error (.undefined name) := by
  rw [lookup, h]

theorem Block.render_fails {b : Block} (hname : name ∈ b.demands) (h : context.get? name = none) :
    ∃ e, b.render context = .error e := by
  cases b with
  | line fragments => exact renderLine_fails hname h
  | optional free fragments =>
    obtain rfl : name = free := List.mem_singleton.1 hname
    refine ⟨.undefined name, ?_⟩
    rw [Block.render, lookup_fails h]
    rfl
  | each list fragments =>
    obtain rfl : name = list := List.mem_singleton.1 hname
    refine ⟨.undefined name, ?_⟩
    rw [Block.render, lookup_fails h]
    rfl
  | eachEntry mapping fragments =>
    obtain rfl : name = mapping := List.mem_singleton.1 hname
    refine ⟨.undefined name, ?_⟩
    rw [Block.render, lookup_fails h]
    rfl

variable {template : Template}

theorem render_fails (hname : name ∈ template.demands) (h : context.get? name = none) :
    ∃ e, template.render context = .error e := by
  obtain ⟨b, hb, hdemand⟩ := List.mem_flatMap.1 hname
  obtain ⟨e, he⟩ := mapM_fails hb (Block.render_fails hdemand h)
  rw [render]
  split
  · exact ⟨.reservedName, rfl⟩
  · exact ⟨e, bind_eq_error.2 (.inl he)⟩

/-- A template is the same in two contexts that agree on its free names. -/
theorem render_congr (hself : context.keys.contains "self" = other.keys.contains "self")
    (h : ∀ free ∈ template.freeNames, context.get? free = other.get? free) :
    template.render context = template.render other := by
  have hblocks : template.mapM (·.render context) = template.mapM (·.render other) := by
    apply mapM_congr
    intro b hb
    apply Block.render_congr
    intro free hfree
    exact h free (List.mem_flatMap.2 ⟨b, hb, hfree⟩)
  rw [render, render, hself, hblocks]

theorem freeNames_demanded :
    ∀ entry ∈ library, ∀ free ∈ entry.2.freeNames, free ∈ entry.2.demands := by
  decide

theorem mem_library_of_find? (h : find? name = some template) :
    ∃ key, (key, template) ∈ library := by
  obtain ⟨parts, -, hlookup⟩ := Option.bind_eq_some_iff.1 h
  obtain ⟨before, after, hsplit, -⟩ := List.lookup_eq_some_iff.1 hlookup
  exact ⟨_, hsplit ▸ List.mem_append_right before List.mem_cons_self⟩

theorem find?_of_mem_library : ∀ entry ∈ library, find? entry.1 = some entry.2 :=
  List.forall_iff_forall_mem.1
    ⟨rfl, rfl, rfl, rfl, rfl, rfl, rfl, rfl, rfl, rfl, rfl, rfl, rfl⟩

/--
Where a context lacks a free name of a built-in template, the template cannot be filled in. Two
contexts that agree on its free names lead to the same text, or to the same error.
-/
theorem undefined_never_leaks (hfind : find? name = some template)
    (hself : ("self" : Text) ∉ context.keys) :
    ((∃ free ∈ template.freeNames, context.get? free = none) →
      ∃ e, renderNamed name context = .error e) ∧
    ∀ other : Context, ("self" : Text) ∉ other.keys →
      (∀ free ∈ template.freeNames, context.get? free = other.get? free) →
      renderNamed name context = renderNamed name other := by
  have hnamed (context : Context) : renderNamed name context = template.render context := by
    rw [renderNamed, hfind]
  constructor
  · rintro ⟨free, hfree, hmissing⟩
    obtain ⟨key, hentry⟩ := mem_library_of_find? hfind
    rw [hnamed]
    exact render_fails (freeNames_demanded _ hentry free hfree) hmissing
  · intro other hother hagree
    rw [hnamed, hnamed]
    apply render_congr _ hagree
    rw [List.contains_eq_mem, List.contains_eq_mem, decide_eq_false hself, decide_eq_false hother]

theorem undefined_never_leaks_model :
    let imports : Context := [("model_imports", .texts ["string"]), ("module_name", .string "tag")]
    let declarations : Context := [("field_declarations", .string "name: string()")]
    let unused : Context := [("query", .null)]
    (∃ e, renderNamed "app/models/index.js.j2" imports = .error e) ∧
    renderNamed "app/models/index.js.j2" (imports ++ declarations) =
      renderNamed "app/models/index.js.j2" (unused ++ declarations ++ imports) := by
  intro imports declarations unused
  have hfind : find? "app/models/index.js.j2" = some model :=
    find?_of_mem_library ("app/models/index.js.j2", model) (by decide)
  have himports : ("self" : Text) ∉ imports.keys := by decide
  have hboth : ("self" : Text) ∉ Entries.keys (imports ++ declarations) := by decide
  obtain ⟨hmissing, -⟩ := undefined_never_leaks hfind himports
  obtain ⟨-, hagree⟩ := undefined_never_leaks hfind hboth
  constructor
  · exact hmissing ⟨"field_declarations", by decide, rfl⟩
  · apply hagree
    · decide
    · intro free hfree
      have hnames : ∀ free ∈ freeNames model,
          free = "model_imports" ∨ free = "module_name" ∨ free = "field_declarations" := by decide
      rcases hnames free hfree with rfl | rfl | rfl <;> rfl

end Scaffold.Template
