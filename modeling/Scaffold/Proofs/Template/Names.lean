import Scaffold.Proofs.Template.Reading

namespace Scaffold.Template

variable {context other : Context}

theorem Fragment.render_congr {f : Fragment}
    (h : ∀ name ∈ f.freeNames, context.get? name = other.get? name) :
    f.render context = f.render other := by
  cases f with
  | text t => rfl
  | slot name filter => rw [Fragment.render, Fragment.render, h name List.mem_cons_self]

theorem renderLine_congr {fragments : List Fragment}
    (h : ∀ name ∈ fragments.flatMap Fragment.freeNames, context.get? name = other.get? name) :
    renderLine context fragments = renderLine other fragments := by
  rw [renderLine, renderLine]
  rw [Outcome.mapM_congr]
  intro f hf
  apply Fragment.render_congr
  intro name hname
  exact h name (List.mem_flatMap.2 ⟨f, hf, hname⟩)

theorem lookup_congr {name : Text} (h : context.get? name = other.get? name) :
    lookup context name = lookup other name := by
  rw [lookup, lookup, h]

theorem Block.render_congr {b : Block}
    (h : ∀ name ∈ b.freeNames, context.get? name = other.get? name) :
    b.render context = b.render other := by
  cases b with
  | line fragments => exact renderLine_congr h
  | optional name fragments =>
    rw [Block.render, Block.render, lookup_congr (h name List.mem_cons_self),
      renderLine_congr fun other hother => h other (List.mem_cons_of_mem name hother)]
  | each list fragments =>
    rw [Block.render, Block.render, lookup_congr (h list List.mem_cons_self)]
  | eachEntry mapping fragments =>
    rw [Block.render, Block.render, lookup_congr (h mapping List.mem_cons_self)]

namespace Segment

/-- The variables that a segment takes from the context. -/
def freeNames : Segment → List Text
  | text _ => []
  | slot name _ => [name]
  | block b => b.freeNames

theorem value_congr {s : Segment}
    (h : ∀ name ∈ s.freeNames, context.get? name = other.get? name) :
    s.value context = s.value other := by
  have hrender : s.render context = s.render other := by
    cases s with
    | text t => rfl
    | slot name filter =>
      exact @Fragment.render_congr context other (.slot name filter) h
    | block b => exact Block.render_congr h
  rw [value, value, hrender]

theorem flatMap_value_cons {ss : List Segment} {name : Text} (v : Json)
    (h : ∀ s ∈ ss, name ∉ s.freeNames) :
    ss.flatMap (value ((name, v) :: context)) = ss.flatMap (value context) := by
  rw [List.flatMap_def, List.flatMap_def, List.map_congr_left]
  intro s hs
  apply value_congr
  intro free hfree
  have hne : name ≠ free := fun heq => h s hs (heq ▸ hfree)
  exact if_neg hne

end Segment

end Scaffold.Template
