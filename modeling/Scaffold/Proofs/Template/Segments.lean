import Mathlib.Data.List.Basic
import Scaffold.Proofs.Outcome
import Scaffold.Proofs.Text.Basic
import Scaffold.Template.Render

namespace Scaffold.Template

open Outcome

/-- A fixed text or a place where the context comes in. -/
inductive Segment where
  | text (t : Text)
  | slot (name : Text) (filter : Filter)
  | block (b : Block)
  deriving DecidableEq

namespace Segment

variable {context : Context}

def render (context : Context) : Segment → Except RenderError Text
  | text t => .ok t
  | slot name filter => (Fragment.slot name filter).render context
  | block b => b.render context

def renderAll (context : Context) : List Segment → Except RenderError Text
  | [] => .ok []
  | s :: rest => do
    let t ← s.render context
    return t ++ (← renderAll context rest)

def ofFragment : Fragment → Segment
  | .text t => text t
  | .slot name filter => slot name filter

def ofBlock : Block → List Segment
  | .line fragments => fragments.map ofFragment ++ [text ['\n']]
  | b => [block b]

/-- A segment before others; two texts in a row become one. -/
def prepend : Segment → List Segment → List Segment
  | text t, text u :: rest => text (t ++ u) :: rest
  | s, rest => s :: rest

theorem renderAll_append (first second : List Segment) :
    renderAll context (first ++ second) = do
      let t ← renderAll context first
      return t ++ (← renderAll context second) := by
  induction first with
  | nil =>
    simp only [List.nil_append, renderAll]
    cases renderAll context second <;> rfl
  | cons s rest ih =>
    simp only [List.cons_append, renderAll, ih]
    cases s.render context with
    | error e => rfl
    | ok t =>
      cases renderAll context rest with
      | error e => rfl
      | ok u =>
        cases renderAll context second with
        | error e => rfl
        | ok v => exact congrArg Except.ok (List.append_assoc t u v).symm

theorem renderAll_prepend (s : Segment) (rest : List Segment) :
    renderAll context (prepend s rest) = renderAll context (s :: rest) := by
  unfold prepend
  split
  · rename_i t u rest
    simp only [renderAll, render]
    cases renderAll context rest with
    | error e => rfl
    | ok v => exact congrArg Except.ok (List.append_assoc t u v)
  · rfl

theorem renderAll_foldr (ss : List Segment) :
    renderAll context (ss.foldr prepend []) = renderAll context ss := by
  induction ss with
  | nil => rfl
  | cons s rest ih => simp only [List.foldr_cons, renderAll_prepend, renderAll, ih]

theorem render_ofFragment (f : Fragment) : (ofFragment f).render context = f.render context := by
  cases f <;> rfl

theorem mapM_flatten_cons {α : Type} (f : α → Except RenderError Text) (a : α) (rest : List α) :
    ((a :: rest).mapM f).map List.flatten = do
      let t ← f a
      return t ++ (← (rest.mapM f).map List.flatten) := by
  rw [List.mapM_cons]
  cases f a with
  | error e => rfl
  | ok t => cases rest.mapM f <;> rfl

theorem renderAll_line (fragments : List Fragment) :
    renderAll context (ofBlock (.line fragments)) = renderLine context fragments := by
  have hall : renderAll context (fragments.map ofFragment) =
      (fragments.mapM (Fragment.render context)).map List.flatten := by
    induction fragments with
    | nil => rfl
    | cons f rest ih =>
      rw [mapM_flatten_cons, List.map_cons, renderAll, ih, render_ofFragment]
  rw [ofBlock, renderAll_append, hall]
  rw [renderLine]
  cases fragments.mapM (Fragment.render context) <;> rfl

theorem renderAll_singleton (s : Segment) : renderAll context [s] = s.render context := by
  simp only [renderAll]
  cases s.render context with
  | error e => rfl
  | ok t => exact congrArg Except.ok (List.append_nil t)

theorem renderAll_ofBlock (b : Block) : renderAll context (ofBlock b) = b.render context := by
  cases b with
  | line fragments => exact renderAll_line fragments
  | optional name fragments => exact renderAll_singleton _
  | each list fragments => exact renderAll_singleton _
  | eachEntry mapping fragments => exact renderAll_singleton _

/-- The first segment begins with a character that is not blank. -/
def opens : List Segment → Bool
  | text (c :: _) :: _ => !Text.isBlank c
  | _ => false

/-- The last segments are a text that does not end in a blank, and a newline. -/
def closes (ss : List Segment) : Bool :=
  match ss.reverse with
  | text ['\n'] :: text t :: _ => t.getLast?.any (!Text.isBlank ·)
  | _ => false

theorem eq_of_closes {ss : List Segment} (h : closes ss = true) :
    ∃ before t c, ss = before ++ [text (t ++ [c])] ++ [text ['\n']] ∧ Text.isBlank c = false := by
  rw [closes] at h
  split at h
  · rename_i t rest hreverse
    obtain ⟨c, hlast, hc⟩ := (Option.any_eq_true _ _).1 h
    refine ⟨rest.reverse, t.dropLast, c, ?_, by simpa using hc⟩
    rw [List.dropLast_append_getLast? c hlast, ← List.reverse_reverse ss, hreverse]
    simp
  · cases h

theorem renderAll_text {t u : Text} {rest : List Segment}
    (h : renderAll context (text t :: rest) = .ok u) : ∃ v, u = t ++ v := by
  obtain ⟨_, ht, h⟩ := bind_eq_ok.1 h
  obtain ⟨v, -, h⟩ := bind_eq_ok.1 h
  cases ht
  cases h
  exact ⟨v, rfl⟩

theorem renderAll_concat_text {t u : Text} {before : List Segment}
    (h : renderAll context (before ++ [text t]) = .ok u) : ∃ v, u = v ++ t := by
  rw [renderAll_append] at h
  obtain ⟨v, -, h⟩ := bind_eq_ok.1 h
  obtain ⟨_, ht, h⟩ := bind_eq_ok.1 h
  rw [renderAll_singleton] at ht
  cases ht
  cases h
  exact ⟨v, rfl⟩

theorem renderAll_opens {ss : List Segment} {u : Text} (hopens : opens ss = true)
    (h : renderAll context ss = .ok u) : ∃ c v, u = c :: v ∧ Text.isBlank c = false := by
  unfold opens at hopens
  split at hopens
  · rename_i c start rest
    obtain ⟨v, hv⟩ := renderAll_text h
    exact ⟨c, start ++ v, hv, by simpa using hopens⟩
  · cases hopens

theorem endWithNewline_of_renderAll {ss : List Segment} {u : Text} (hopens : opens ss = true)
    (hcloses : closes ss = true) (h : renderAll context ss = .ok u) : endWithNewline u = u := by
  obtain ⟨c, v, hv, hc⟩ := renderAll_opens hopens h
  obtain ⟨before, t, d, hsegments, hd⟩ := eq_of_closes hcloses
  rw [hsegments, renderAll_append] at h
  obtain ⟨w, hw, h⟩ := bind_eq_ok.1 h
  obtain ⟨x, rfl⟩ := renderAll_concat_text hw
  cases h
  have hends : c :: v = (x ++ t) ++ [d, '\n'] := by
    rw [← hv]
    simp only [List.append_assoc]
    rfl
  have htrim : Text.trimEnd Text.isBlank [d, '\n'] = [d] := by
    have hnewline : Text.isBlank '\n' = true := by decide
    simp [Text.trimEnd, hnewline, hd]
  unfold endWithNewline Text.strip
  rw [hv, Text.trim_of_ends hc (by simp [htrim]) hends, htrim, List.append_assoc, hends]
  rfl

end Segment

variable {context : Context}

def parts (template : Template) : List Segment :=
  template.flatMap Segment.ofBlock

/-- The segments of a template, no two texts in a row. -/
def segments (template : Template) : List Segment :=
  (parts template).foldr Segment.prepend []

theorem renderAll_parts (template : Template) : Segment.renderAll context (parts template) =
    (template.mapM (Block.render context)).map List.flatten := by
  induction template with
  | nil => rfl
  | cons b rest ih =>
    rw [parts, List.flatMap_cons, Segment.renderAll_append, ← parts, ih, Segment.renderAll_ofBlock,
      Segment.mapM_flatten_cons]

theorem render_eq (template : Template) (h : context.keys.contains "self" = false) :
    template.render context =
      (Segment.renderAll context (parts template)).map endWithNewline := by
  rw [render]
  rw [h, renderAll_parts]
  cases template.mapM (Block.render context) <;> rfl

theorem render_eq_renderAll {template : Template} (h : context.keys.contains "self" = false)
    (hopens : Segment.opens (parts template) = true)
    (hcloses : Segment.closes (parts template) = true) :
    template.render context = Segment.renderAll context (segments template) := by
  rw [render_eq template h, segments, Segment.renderAll_foldr]
  cases hu : Segment.renderAll context (parts template) with
  | error e => rfl
  | ok u => exact congrArg Except.ok (Segment.endWithNewline_of_renderAll hopens hcloses hu)

end Scaffold.Template
