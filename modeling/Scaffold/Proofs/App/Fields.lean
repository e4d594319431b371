import Scaffold.Proofs.App.Readers
import Scaffold.Query
import Scaffold.Schema

namespace Scaffold.Naming

open Text

variable {module : Text} {fields : List Text}

theorem notMem_query {c : Char} (hmodule : c ∉ module) (hfields : ∀ f ∈ fields, c ∉ f)
    (hc : c ∉ ("\x7b \x7d" : Text)) : c ∉ query module fields := by
  have hsigns : ∀ t : Text, t ⊆ ("\x7b \x7d" : Text) → c ∉ t := fun _ ht h => hc (ht h)
  cases fields with
  | nil =>
    exact notMem_append (notMem_append (hsigns _ (by decide)) hmodule) (hsigns _ (by decide))
  | cons f rest =>
    have hjoin : c ∉ join " " (f :: rest) := by
      intro h
      rcases mem_join h with h | ⟨g, hg, h⟩
      · exact hsigns _ (by decide) h
      · exact hfields g hg h
    refine notMem_append (notMem_append ?_ hjoin) (hsigns _ (by decide))
    exact notMem_append (notMem_append (hsigns _ (by decide)) hmodule) (hsigns _ (by decide))

theorem wordsIn_spaced {u : Text} (hmodule : IsWord module) (hu : isGap u = true) :
    wordsIn (" " ++ (module ++ u)) = [module] := by
  rw [wordsIn_append_gap (by decide), wordsIn_word_append hmodule hu]

theorem selection_query (hmodule : IsWord module) (hfields : ∀ f ∈ fields, IsWord f) :
    selection? (query module fields) = some (module, fields) := by
  have hbrace : ∀ u : Text, '\x7b' ∉ u → '\x7b' ∉ " " ++ (module ++ u) := fun u hu =>
    notMem_append (by decide) (notMem_append (hmodule.notMem rfl) hu)
  cases fields with
  | nil =>
    have hquery : query module [] = [] ++ '\x7b' :: (" " ++ (module ++ " \x7d")) := by
      simp only [query, List.append_assoc]
      rfl
    have hmodule' : wordsIn (" " ++ (module ++ " \x7d")) = [module] :=
      wordsIn_spaced hmodule (by decide)
    rw [selection?]
    rw [hquery, cut_char_append List.not_mem_nil, cut_char_of_notMem (hbrace _ (by decide)),
      List.map_cons, List.map_singleton, hmodule']
    rfl
  | cons f rest =>
    have hquery : query module (f :: rest) = [] ++ '\x7b' :: (" " ++ (module ++ " ") ++
        '\x7b' :: (" " ++ (join " " (f :: rest) ++ " \x7d \x7d"))) := by
      simp only [query, List.append_assoc]
      rfl
    have hinner : '\x7b' ∉ " " ++ (join " " (f :: rest) ++ " \x7d \x7d") := by
      refine notMem_append (by decide) (notMem_append ?_ (by decide))
      intro hm
      rcases mem_join hm with hm | ⟨g, hg, hm⟩
      · revert hm
        decide
      · exact (hfields g hg).notMem rfl hm
    have hmodule' : wordsIn (" " ++ (module ++ " ")) = [module] :=
      wordsIn_spaced hmodule (by decide)
    have hfields' : wordsIn (" " ++ (join " " (f :: rest) ++ " \x7d \x7d")) = f :: rest := by
      rw [wordsIn_append_gap (by decide)]
      exact wordsIn_join (by decide) (by decide) hfields (by decide)
    rw [selection?]
    rw [hquery, cut_char_append List.not_mem_nil, cut_char_append (hbrace _ (by decide)),
      cut_char_of_notMem hinner, List.map_cons, List.map_cons, List.map_singleton, hmodule',
      hfields']
    rfl

section Declarations

variable {a : Attribute} {u : Text}

theorem declaration_eq (a : Attribute) (u : Text) : "\n  " ++ (a.declaration ++ u) =
    "\n  " ++ a.name ++ ':' :: (" " ++ (a.type ++ ("()" ++ u))) := by
  simp only [Attribute.declaration, List.append_assoc]
  rfl

theorem declaration_of_attribute (hname : IsWord a.name) (htype : IsWord a.type)
    (hu : isGap u = true) (hcolon : ':' ∉ u) :
    declaration? ("\n  " ++ (a.declaration ++ u)) = some (a.name, a.type) := by
  have hkey : ':' ∉ "\n  " ++ a.name := notMem_append (by decide) (hname.notMem rfl)
  have hvalue : ':' ∉ " " ++ (a.type ++ ("()" ++ u)) :=
    notMem_append (by decide) (notMem_append (htype.notMem rfl) (notMem_append (by decide) hcolon))
  have hkeyWords : wordsIn ("\n  " ++ a.name) = [a.name] := by
    rw [wordsIn_append_gap (by decide), wordsIn_of_word hname]
  have hvalueWords : wordsIn (" " ++ (a.type ++ ("()" ++ u))) = [a.type] :=
    wordsIn_spaced htype (isGap_append (by decide) hu)
  rw [declaration?]
  rw [declaration_eq, cut_char_append hkey, cut_char_of_notMem hvalue, List.map_cons,
    List.map_singleton, hkeyWords, hvalueWords]

theorem wordsIn_declaration (hname : IsWord a.name) :
    wordsIn ("\n  " ++ (a.declaration ++ u)) ≠ [] := by
  rw [declaration_eq, List.append_assoc, wordsIn_append_gap (by decide),
    wordsIn_append_word hname (by decide)]
  exact List.cons_ne_nil _ _

theorem comma_notMem_declaration (hname : IsWord a.name) (htype : IsWord a.type) (hu : ',' ∉ u) :
    ',' ∉ "\n  " ++ (a.declaration ++ u) := by
  rw [declaration_eq]
  refine notMem_append (notMem_append (by decide) (hname.notMem rfl)) ?_
  apply List.not_mem_cons_of_ne_of_not_mem (by decide)
  exact notMem_append (by decide)
    (notMem_append (htype.notMem rfl) (notMem_append (by decide) hu))

theorem declarations_of_schema {as : List Attribute}
    (has : ∀ a ∈ as, IsWord a.name ∧ IsWord a.type) (hne : as ≠ []) :
    declarations? ("\n  " ++ (join ",\n  " (as.map Attribute.declaration) ++ "\n")) =
      some (as.map fun a => (a.name, a.type)) := by
  induction as with
  | nil => exact absurd rfl hne
  | cons a rest ih =>
    obtain ⟨hname, htype⟩ := has a List.mem_cons_self
    cases rest with
    | nil =>
      rw [declarations?]
      rw [List.map_singleton, join,
        cut_char_of_notMem (comma_notMem_declaration hname htype (by decide)),
        List.filter_cons_of_pos (by exact decide_eq_true (wordsIn_declaration hname)),
        List.filter_nil, List.mapM_cons,
        declaration_of_attribute hname htype (by decide) (by decide)]
      rfl
    | cons b rest =>
      have ih := ih (fun c hc => has c (List.mem_cons_of_mem a hc)) (List.cons_ne_nil b rest)
      have hjoin : "\n  " ++ (join ",\n  " ((a :: b :: rest).map Attribute.declaration) ++ "\n") =
          "\n  " ++ (a.declaration ++ ([] : Text)) ++
            ',' :: ("\n  " ++ (join ",\n  " ((b :: rest).map Attribute.declaration) ++ "\n")) := by
        rw [List.map_cons, join_cons _ (by simp)]
        simp only [List.append_assoc, List.append_nil]
        rfl
      unfold declarations? at ih ⊢
      rw [hjoin, cut_char_append (comma_notMem_declaration hname htype List.not_mem_nil),
        List.filter_cons_of_pos (by exact decide_eq_true (wordsIn_declaration hname)),
        List.mapM_cons, declaration_of_attribute hname htype (by decide) List.not_mem_nil, ih]
      rfl

end Declarations

theorem notMem_declarations {schema : Schema} {c : Char}
    (hschema : ∀ a ∈ schema.attributes, c ∉ a.name ∧ c ∉ a.type) (hc : c ∉ (",\n : ()" : Text)) :
    c ∉ schema.declarations := by
  have hsigns : ∀ t : Text, t ⊆ (",\n : ()" : Text) → c ∉ t := fun _ ht h => hc (ht h)
  intro h
  rcases mem_join h with h | ⟨t, ht, h⟩
  · exact hsigns _ (by decide) h
  · obtain ⟨a, ha, rfl⟩ := List.mem_map.1 ht
    obtain ⟨hname, htype⟩ := hschema a ha
    have hkey : c ∉ a.name ++ (": " : Text) := notMem_append hname (hsigns _ (by decide))
    exact notMem_append (notMem_append hkey htype) (hsigns _ (by decide)) h

theorem declarations_eq_nil {schema : Schema} (h : schema.declarations = []) :
    schema.attributes = [] := by
  rw [Schema.declarations] at h
  cases hattributes : schema.attributes with
  | nil => rfl
  | cons a rest =>
    rw [hattributes, List.map_cons] at h
    cases rest with
    | nil => exact absurd (List.append_eq_nil_iff.1 h).2 (by decide)
    | cons b rest =>
      rw [List.map_cons, join_cons _ (List.cons_ne_nil _ _), List.append_assoc] at h
      exact absurd (List.append_eq_nil_iff.1 (List.append_eq_nil_iff.1 h).2).1 (by decide)

section Elements

variable {field : Text} {u : Text}

theorem element_of_words (hmodule : IsWord module) (hfield : IsWord field) (u : Text) :
    element? (module ++ ("')." ++ (field ++ (")" ++ u)))) = some (module, field) := by
  have hfirst : firstWord (module ++ ("')." ++ (field ++ (")" ++ u)))) = module :=
    firstWord_append hmodule rfl _
  have hdrop : (module ++ ("')." ++ (field ++ (")" ++ u)))).dropWhile isWordChar =
      "')." ++ (field ++ (")" ++ u)) := dropWhile_append hmodule rfl _
  have hsecond : firstWord (field ++ (")" ++ u)) = field := firstWord_append hfield rfl _
  have hstarts : startsWith "')." ("')." ++ (field ++ (")" ++ u))) = true := rfl
  rw [element?]
  rw [hfirst, hdrop, if_pos hstarts]
  exact congrArg (fun f => some (module, f)) hsecond

theorem elements_cons (hmodule : IsWord module) (hfield : IsWord field)
    {found : List (Text × Text)} (hu : (elementMarker.after u).mapM element? = some found) :
    (elementMarker.after ("\n    " ++ (viewElement module field ++ u))).mapM element? =
      some ((module, field) :: found) := by
  have hmarker : elementMarker.text = "\n    " ++ "div(state.get('" := by decide
  have htext : "\n    " ++ (viewElement module field ++ u) =
      elementMarker.text ++ (module ++ ("')." ++ (field ++ (")" ++ u)))) := by
    rw [hmarker]
    unfold viewElement
    simp only [List.append_assoc]
  have hbetween : Text.passes elementMarker.text "')." = true := by decide
  have hend : Text.passes elementMarker.text ")" = true := by decide
  rw [htext, Marker.after_marker, Marker.after_word hmodule, Marker.after_append hbetween,
    Marker.after_word hfield, Marker.after_append hend, List.mapM_cons,
    element_of_words hmodule hfield, hu]
  rfl

theorem elements_of_viewBody (hmodule : IsWord module) (hfields : ∀ f ∈ fields, IsWord f)
    (hu : elementMarker.after u = []) :
    (elementMarker.after (viewBody module fields ++ u)).mapM element? =
      some (fields.map (module, ·)) := by
  induction fields with
  | nil =>
    change (elementMarker.after u).mapM element? = some []
    rw [hu]
    rfl
  | cons f rest ih =>
    have hf : IsWord f := hfields f List.mem_cons_self
    cases rest with
    | nil =>
      have hlast : viewBody module [f] ++ u = "\n    " ++ (viewElement module f ++ u) :=
        List.append_assoc _ _ _
      rw [hlast]
      exact elements_cons hmodule hf (by rw [hu]; rfl)
    | cons g rest =>
      have hnext : viewBody module (f :: g :: rest) ++ u =
          "\n    " ++ (viewElement module f ++ ("," ++ (viewBody module (g :: rest) ++ u))) := by
        simp only [viewBody, List.map_cons, join, List.append_assoc]
        rfl
      have hcomma : Text.passes elementMarker.text "," = true := by decide
      rw [hnext]
      apply elements_cons hmodule hf
      rw [Marker.after_append hcomma]
      exact ih fun h hh => hfields h (List.mem_cons_of_mem f hh)

end Elements

end Scaffold.Naming
