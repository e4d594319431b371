import Scaffold.Proofs.Template.Supply
import Scaffold.Proofs.Text.Marker

namespace Scaffold.Template

open Outcome

namespace Segment

variable {context : Context} {m : Marker} {stop : Char}

def value (context : Context) (s : Segment) : Text :=
  (s.render context).toOption.getD []

def isText : Segment → Bool
  | text _ => true
  | _ => false

theorem eq_of_renderAll {ss : List Segment} {u : Text} (h : renderAll context ss = .ok u) :
    u = ss.flatMap (value context) := by
  induction ss generalizing u with
  | nil =>
    cases h
    rfl
  | cons s rest ih =>
    obtain ⟨t, ht, h⟩ := bind_eq_ok.1 h
    obtain ⟨v, hv, h⟩ := bind_eq_ok.1 h
    cases h
    rw [List.flatMap_cons, ← ih hv, value, ht]
    rfl

/-- Whether a marker occurs in the fixed texts only at the end of one that is followed by more. -/
def tidy (m : Marker) : List Segment → Bool
  | [] => true
  | [text t] => m.after t = []
  | text t :: rest => (Text.passes m.text t || m.after t = [[]]) && tidy m rest
  | _ :: rest => tidy m rest

/-- What follows each fixed text that ends in a marker. -/
def behind (m : Marker) : List Segment → List (List Segment)
  | [] => []
  | text t :: rest => if m.after t = [[]] then rest :: behind m rest else behind m rest
  | _ :: rest => behind m rest

/-- The segments up to the first occurrence of a character in a fixed text. -/
def upTo (stop : Char) : List Segment → List Segment
  | [] => []
  | text t :: rest =>
    if stop ∈ t then [text (t.takeWhile (· ≠ stop))] else text t :: upTo stop rest
  | s :: rest => s :: upTo stop rest

/-- Whether a marker occurs once among fixed texts and slots, and which segments stand behind it up
to a character. -/
def finds (m : Marker) (stop : Char) (slots ss found : List Segment) : Bool :=
  tidy m ss && (ss.all fun s => s.isText || s ∈ slots) && (behind m ss).map (upTo stop) = [found]

/-- Whether a slot stands between two fixed texts in which no marker begins. -/
def encloses (m : Marker) (slot : Segment) : List Segment → Bool
  | [text first, s, text last] =>
    s = slot && Text.passes m.text first && m.after last = []
  | _ => false

theorem after_flatMap {ss : List Segment} (htidy : tidy m ss = true)
    (hvalues : ∀ s ∈ ss, s.isText = true ∨ m.first ∉ s.value context) :
    m.after (ss.flatMap (value context)) =
      (behind m ss).map (·.flatMap (value context)) := by
  fun_induction tidy m ss with
  | case1 => rfl
  | case2 t =>
    have hnone : m.after t = [] := of_decide_eq_true htidy
    rw [behind, hnone, List.flatMap_singleton]
    exact hnone
  | case3 t rest _ ih =>
    obtain ⟨ht, hrest⟩ := Bool.and_eq_true_iff.1 htidy
    have ih := ih hrest fun s hs => hvalues s (List.mem_cons_of_mem _ hs)
    rw [List.flatMap_cons, behind]
    change m.after (t ++ _) = _
    split
    · rename_i hcloses
      rw [Marker.after_append_of_closes hcloses, ih, List.map_cons]
    · rename_i hopen
      rw [decide_eq_false hopen, Bool.or_false] at ht
      rw [Marker.after_append ht, ih]
  | case4 s rest _ hnotText ih =>
    have ih := ih htidy fun s hs => hvalues s (List.mem_cons_of_mem _ hs)
    have hvalue : m.first ∉ s.value context := by
      rcases hvalues s List.mem_cons_self with htext | hvalue
      · cases s with
        | text t => exact absurd rfl (hnotText t)
        | slot name filter => cases htext
        | block b => cases htext
      · exact hvalue
    rw [List.flatMap_cons, Marker.after_append (Marker.passes_of_notMem hvalue), ih]
    cases s with
    | text t => exact absurd rfl (hnotText t)
    | slot name filter => rfl
    | block b => rfl

theorem eq_of_encloses (context : Context) {slot : Segment} {ss : List Segment}
    (h : encloses m slot ss = true) :
    ∃ first last, ss.flatMap (value context) = first ++ (slot.value context ++ last) ∧
      Text.passes m.text first = true ∧ m.after last = [] := by
  unfold encloses at h
  split at h
  · rename_i first s last
    simp only [Bool.and_eq_true, decide_eq_true_eq] at h
    obtain ⟨⟨rfl, hfirst⟩, hlast⟩ := h
    refine ⟨first, last, ?_, hfirst, hlast⟩
    exact congrArg (fun t : Text => first ++ (s.value context ++ t)) (List.append_nil last)
  · cases h

theorem takeWhile_flatMap {ss : List Segment}
    (h : ∀ s ∈ upTo stop ss, s.isText = true ∨ stop ∉ s.value context) :
    (ss.flatMap (value context)).takeWhile (· ≠ stop) =
      (upTo stop ss).flatMap (value context) := by
  fun_induction upTo stop ss with
  | case1 => rfl
  | case2 t rest hmem =>
    rw [List.flatMap_cons, List.flatMap_singleton]
    exact Text.takeWhile_append_of_mem hmem _
  | case3 t rest hmem ih =>
    have ih := ih fun s hs => h s (List.mem_cons_of_mem _ hs)
    rw [List.flatMap_cons, List.flatMap_cons, ← ih]
    exact Text.takeWhile_append_of_notMem hmem _
  | case4 s rest hnotText ih =>
    have ih := ih fun s hs => h s (List.mem_cons_of_mem _ hs)
    have hmem : stop ∉ s.value context := by
      refine (h s List.mem_cons_self).resolve_left ?_
      cases s with
      | text t => exact absurd rfl (hnotText t)
      | slot name filter => exact Bool.false_ne_true
      | block b => exact Bool.false_ne_true
    rw [List.flatMap_cons, List.flatMap_cons, ← ih]
    exact Text.takeWhile_append_of_notMem hmem _

/-- What is read at a marker is given by the segments behind it. -/
theorem read_eq {slots ss found : List Segment} (hfinds : finds m stop slots ss found = true)
    (hfirst : ∀ s ∈ slots, m.first ∉ s.value context)
    (hstop : ∀ s ∈ found, s.isText = true ∨ stop ∉ s.value context) :
    m.read stop (ss.flatMap (value context)) = [found.flatMap (value context)] := by
  simp only [finds, Bool.and_eq_true, decide_eq_true_eq] at hfinds
  obtain ⟨⟨htidy, hslots⟩, hfound⟩ := hfinds
  have hvalues : ∀ s ∈ ss, s.isText = true ∨ m.first ∉ s.value context := by
    intro s hs
    have hs := List.all_eq_true.1 hslots s hs
    rw [Bool.or_eq_true, decide_eq_true_eq] at hs
    exact hs.imp_right (hfirst s)
  obtain ⟨rest, hrest, hupTo⟩ := List.map_eq_singleton_iff.1 hfound
  rw [Marker.read, after_flatMap htidy hvalues, hrest, List.map_singleton, List.map_singleton,
    ← hupTo, takeWhile_flatMap (hupTo ▸ hstop)]

end Segment

/-- The segments of a template with their values, one after the other. -/
def filled (template : Template) (context : Context) : Text :=
  (segments template).flatMap (Segment.value context)

/-- Whether a supply has all that a template uses, and no blank stands at the template's ends. -/
def fits (supply : Supply) (template : Template) : Bool :=
  template.all supply.fillsBlock && Segment.opens (parts template) &&
    Segment.closes (parts template)

/-- A template that fits is filled in and nothing else. -/
theorem render_eq_filled {template : Template} {context : Context} {supply : Supply}
    (hself : context.keys.contains "self" = false) (hmeets : supply.Meets context)
    (hfits : fits supply template = true) :
    template.render context = .ok (template.filled context) := by
  simp only [fits, Bool.and_eq_true] at hfits
  obtain ⟨⟨hfills, hopens⟩, hcloses⟩ := hfits
  obtain ⟨t, ht⟩ := render_succeeds hself hmeets hfills
  have hall := (render_eq_renderAll hself hopens hcloses).symm.trans ht
  rw [ht, Segment.eq_of_renderAll hall]
  rfl

end Scaffold.Template
