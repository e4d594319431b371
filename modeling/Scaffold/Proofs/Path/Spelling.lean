import Scaffold.Proofs.Path

namespace Scaffold

theorem Text.mem_join_of_mem {separator t : Text} {ts : List Text} {c : Char} (ht : t ∈ ts)
    (hc : c ∈ t) : c ∈ join separator ts := by
  induction ts with
  | nil => cases ht
  | cons u rest ih =>
    cases rest with
    | nil =>
      cases List.mem_singleton.1 ht
      exact hc
    | cons v rest =>
      rw [join_cons _ (List.cons_ne_nil v rest), List.append_assoc]
      rcases List.mem_cons.1 ht with rfl | ht
      · exact List.mem_append_left _ hc
      · exact List.mem_append_right u (List.mem_append_right separator (ih ht))

namespace Path

variable {p : Path} {steps : List Step} {c : Char}

theorem Step.toText_ne_nil (s : Step) : s.toText ≠ [] := by
  cases s with
  | up => exact List.cons_ne_nil _ _
  | into name => exact name.property.1

theorem Step.slash_notMem (s : Step) : '/' ∉ s.toText := by
  cases s with
  | up => decide
  | into name => exact name.property.2.1

theorem Step.ofText?_toText (s : Step) : ofText? s.toText = some s := by
  cases s with
  | up => rfl
  | into name =>
    obtain ⟨t, ht⟩ := name
    rw [toText, ofText?, if_neg ht.2.2.2, dif_pos ht]

theorem cut_components (hne : steps ≠ []) :
    Text.cut (· = '/') (Text.join ['/'] (steps.map Step.toText)) = steps.map Step.toText := by
  apply Text.cut_join (mt List.map_eq_nil_iff.1 hne)
  rw [List.forall_mem_map]
  exact fun s _ => s.slash_notMem

theorem filterMap_components (steps : List Step) :
    (Text.cut (· = '/') (Text.join ['/'] (steps.map Step.toText))).filterMap Step.ofText? =
      steps := by
  by_cases hne : steps = []
  · subst hne
    rfl
  · rw [cut_components hne, List.filterMap_map]
    exact (List.filterMap_congr fun s _ => s.ofText?_toText).trans List.filterMap_some

theorem head?_components (h : c ∈ (Text.join ['/'] (steps.map Step.toText)).head?) : c ≠ '/' := by
  cases steps with
  | nil => cases h
  | cons s rest =>
    obtain ⟨d, more, hd⟩ := List.exists_cons_of_ne_nil s.toText_ne_nil
    have hslash : d ≠ '/' := fun heq => s.slash_notMem (hd ▸ heq ▸ List.mem_cons_self)
    have hpre : Text.join ['/'] [s.toText] <+: Text.join ['/'] ((s :: rest).map Step.toText) :=
      Text.join_append_left ['/'] [s.toText] (rest.map Step.toText)
    obtain ⟨tail, htail⟩ := hpre
    rw [← htail, Text.join, hd] at h
    cases h
    exact hslash

theorem anchorOf_components (anchor : Anchor) (steps : List Step) :
    anchorOf (anchor.toText ++ Text.join ['/'] (steps.map Step.toText)) = anchor := by
  cases hrest : Text.join ['/'] (steps.map Step.toText) with
  | nil => cases anchor <;> rfl
  | cons c rest =>
    have hc : c ≠ '/' := head?_components (by rw [hrest]; rfl)
    cases anchor with
    | relative =>
      change anchorOf (c :: rest) = .relative
      simp [anchorOf, hc]
    | root =>
      change anchorOf ('/' :: c :: rest) = .root
      simp [anchorOf, hc]
    | doubleRoot =>
      change anchorOf ('/' :: '/' :: c :: rest) = .doubleRoot
      simp [anchorOf, hc]

theorem ofText_toText (p : Path) : ofText p.toText = p := by
  obtain ⟨anchor, steps⟩ := p
  rw [toText]
  split
  · rename_i hempty
    obtain ⟨rfl, rfl⟩ := hempty
    rfl
  · have hsteps : (Text.cut (· = '/')
        (anchor.toText ++ Text.join ['/'] (steps.map Step.toText))).filterMap Step.ofText? =
          steps := by
      cases anchor with
      | relative => exact filterMap_components steps
      | root => exact filterMap_components steps
      | doubleRoot => exact filterMap_components steps
    exact congrArg₂ Path.mk (anchorOf_components anchor steps) hsteps

theorem toText_injective : Function.Injective toText :=
  Function.LeftInverse.injective ofText_toText

theorem toText_eq_dot_iff : p.toText = "." ↔ p = ⟨.relative, []⟩ :=
  toText_injective.eq_iff' rfl

theorem cut_toText (hrelative : p.anchor = .relative) (hdot : p.toText ≠ ".") :
    Text.cut (· = '/') p.toText = p.steps.map Step.toText := by
  have hne : p.steps ≠ [] := fun hnil => hdot (if_pos ⟨hrelative, hnil⟩)
  rw [toText, if_neg fun h => hne h.2, hrelative]
  exact cut_components hne

theorem mem_toText (hslash : c ≠ '/') (hdot : c ≠ '.') :
    c ∈ p.toText ↔ ∃ name, .into name ∈ p.steps ∧ c ∈ name.val := by
  have hanchor : c ∉ p.anchor.toText := by
    cases p.anchor <;> simp [Anchor.toText, hslash]
  constructor
  · intro hc
    rw [toText] at hc
    split at hc
    · exact absurd (List.mem_singleton.1 hc) hdot
    · have hcomponents := (List.mem_append.1 hc).resolve_left hanchor
      rcases Text.mem_join hcomponents with hsep | ⟨t, ht, hmem⟩
      · exact absurd (List.mem_singleton.1 hsep) hslash
      · obtain ⟨s, hs, rfl⟩ := List.mem_map.1 ht
        cases s with
        | up => simp [Step.toText, hdot] at hmem
        | into name => exact ⟨name, hs, hmem⟩
  · rintro ⟨name, hname, hc⟩
    rw [toText, if_neg fun h => List.ne_nil_of_mem hname h.2]
    exact List.mem_append_right _ (Text.mem_join_of_mem (List.mem_map_of_mem hname) hc)

end Path

end Scaffold
