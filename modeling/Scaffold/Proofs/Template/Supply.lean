import Scaffold.Proofs.Outcome
import Scaffold.Proofs.Template.Segments

namespace Scaffold.Template

open Outcome

/-- The names under which a context holds texts, lists of texts, and mappings from texts to texts.
-/
structure Supply where
  texts : List Text
  lists : List Text := []
  mappings : List Text := []

namespace Supply

structure Meets (supply : Supply) (context : Context) : Prop where
  text : ∀ name ∈ supply.texts, ∃ t, context.get? name = some (.string t)
  list : ∀ name ∈ supply.lists, ∃ ts, context.get? name = some (.texts ts)
  mapping : ∀ name ∈ supply.mappings, ∃ es, context.get? name = some (.textFields es)

variable (supply : Supply)

/-- Whether a part of a line uses texts, and lists of texts where items are joined. -/
def fillsFragment : Fragment → Bool
  | .text _ => true
  | .slot name (.joined _) => supply.lists.contains name || supply.texts.contains name
  | .slot name _ => supply.texts.contains name

def fillsBlock : Block → Bool
  | .line fragments => fragments.all supply.fillsFragment
  | .optional name fragments => supply.texts.contains name && fragments.all supply.fillsFragment
  | .each list _ => supply.lists.contains list
  | .eachEntry mapping _ => supply.mappings.contains mapping

variable {supply} {context : Context}

theorem apply_string (filter : Filter) (t : Text) : ∃ u, filter.apply (.string t) = .ok u := by
  cases filter with
  | plain => exact ⟨t, rfl⟩
  | json => exact ⟨_, rfl⟩
  | camelCase => exact ⟨t.camelCase, rfl⟩
  | joined separator =>
    have hitems : ∀ c ∈ t.map (fun c => Json.string [c]), ∃ u, write Json.toText c = .ok u := by
      intro item hitem
      obtain ⟨c, -, rfl⟩ := List.mem_map.1 hitem
      exact ⟨[c], rfl⟩
    obtain ⟨ts, hts⟩ := mapM_succeeds hitems
    refine ⟨Text.join separator ts, ?_⟩
    rw [Filter.apply, elements]
    exact bind_eq_ok.2 ⟨_, rfl, bind_eq_ok.2 ⟨ts, hts, rfl⟩⟩

theorem apply_joined (separator : Text) (ts : List Text) :
    (Filter.joined separator).apply (.texts ts) = .ok (Text.join separator ts) := by
  have hitems : (ts.map Json.string).mapM (write Json.toText) = .ok ts := by
    induction ts with
    | nil => rfl
    | cons t rest ih =>
      rw [List.map_cons, List.mapM_cons, ih]
      rfl
  exact bind_eq_ok.2 ⟨ts.map .string, rfl, bind_eq_ok.2 ⟨ts, hitems, rfl⟩⟩

theorem render_fragment (h : supply.Meets context) {f : Fragment}
    (hf : supply.fillsFragment f = true) : ∃ t, f.render context = .ok t := by
  have htext : ∀ {name : Text} (filter : Filter), name ∈ supply.texts →
      ∃ t, (Fragment.slot name filter).render context = .ok t := by
    intro name filter hname
    obtain ⟨t, ht⟩ := h.text name hname
    obtain ⟨u, hu⟩ := apply_string filter t
    exact ⟨u, by rw [Fragment.render, ht]; exact hu⟩
  cases f with
  | text t => exact ⟨t, rfl⟩
  | slot name filter =>
    cases filter with
    | plain => exact htext .plain (List.mem_of_elem_eq_true hf)
    | json => exact htext .json (List.mem_of_elem_eq_true hf)
    | camelCase => exact htext .camelCase (List.mem_of_elem_eq_true hf)
    | joined separator =>
      rcases Bool.or_eq_true_iff.1 hf with hname | hname
      · obtain ⟨ts, hts⟩ := h.list name (List.mem_of_elem_eq_true hname)
        exact ⟨_, by rw [Fragment.render, hts]; exact apply_joined separator ts⟩
      · exact htext (.joined separator) (List.mem_of_elem_eq_true hname)

theorem render_line (h : supply.Meets context) {fragments : List Fragment}
    (hf : fragments.all supply.fillsFragment = true) :
    ∃ t, renderLine context fragments = .ok t := by
  obtain ⟨ts, hts⟩ := mapM_succeeds fun f hm => render_fragment h (List.all_eq_true.1 hf f hm)
  exact ⟨_, bind_eq_ok.2 ⟨ts, hts, rfl⟩⟩

theorem render_items (fragments : List ItemFragment) (pairs : List (Text × Text)) :
    ∃ t, renderItems fragments (pairs.map fun (k, v) => (.string k, .string v)) = .ok t := by
  induction pairs with
  | nil => exact ⟨[], rfl⟩
  | cons p rest ih =>
    obtain ⟨k, v⟩ := p
    obtain ⟨t, ht⟩ := ih
    have hline : ∀ f ∈ fragments, ∃ u, ItemFragment.render (.string k) (.string v)
        (rest.map fun (k, v) => (Json.string k, Json.string v)).isEmpty f = .ok u := by
      intro f _
      cases f with
      | text u => exact ⟨u, rfl⟩
      | key filter => exact apply_string filter k
      | value filter => exact apply_string filter v
      | comma => exact ⟨_, rfl⟩
    obtain ⟨us, hus⟩ := mapM_succeeds hline
    exact ⟨_, bind_eq_ok.2 ⟨us, hus, bind_eq_ok.2 ⟨t, ht, rfl⟩⟩⟩

theorem render_optional {name t : Text} (h : context.get? name = some (.string t))
    (fragments : List Fragment) : (Block.optional name fragments).render context =
      if t = [] then .ok [] else renderLine context fragments := by
  rw [Block.render, lookup, h]
  cases t with
  | nil => rfl
  | cons c rest => rfl

theorem render_block (h : supply.Meets context) {b : Block} (hb : supply.fillsBlock b = true) :
    ∃ t, b.render context = .ok t := by
  cases b with
  | line fragments => exact render_line h hb
  | optional name fragments =>
    obtain ⟨hname, hfragments⟩ := Bool.and_eq_true_iff.1 hb
    obtain ⟨value, hvalue⟩ := h.text name (List.mem_of_elem_eq_true hname)
    rw [render_optional hvalue]
    split
    · exact ⟨[], rfl⟩
    · exact render_line h hfragments
  | each list fragments =>
    obtain ⟨ts, hts⟩ := h.list list (List.mem_of_elem_eq_true hb)
    obtain ⟨t, ht⟩ := render_items fragments (ts.map fun u => (u, u))
    refine ⟨t, ?_⟩
    rw [Block.render, lookup, hts]
    rw [List.map_map] at ht
    change renderItems fragments ((ts.map Json.string).map _) = _
    rw [List.map_map]
    exact ht
  | eachEntry mapping fragments =>
    obtain ⟨es, hes⟩ := h.mapping mapping (List.mem_of_elem_eq_true hb)
    obtain ⟨t, ht⟩ := render_items fragments es
    refine ⟨t, ?_⟩
    rw [Block.render, lookup, hes]
    change renderItems fragments ((es.map _).map _) = _
    rw [List.map_map]
    exact ht

end Supply

variable {context : Context} {supply : Supply}

/-- A template can be filled in whenever the context holds what the template uses. -/
theorem render_succeeds {template : Template} (hself : context.keys.contains "self" = false)
    (hmeets : supply.Meets context) (hfills : template.all supply.fillsBlock = true) :
    ∃ t, template.render context = .ok t := by
  obtain ⟨ts, hts⟩ := mapM_succeeds fun b hb =>
    Supply.render_block hmeets (List.all_eq_true.1 hfills b hb)
  refine ⟨endWithNewline ts.flatten, ?_⟩
  rw [render, hself]
  exact bind_eq_ok.2 ⟨ts, hts, rfl⟩

end Scaffold.Template
