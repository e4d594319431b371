import Mathlib.Data.List.TakeWhile
import Scaffold.Proofs.Text.Basic
import Scaffold.Text.Raw

namespace Scaffold.Text

variable {α : Type _} {p : α → Bool} {t u : List α} {c : α}

theorem trimEnd_eq_self (h : ∀ c ∈ t.getLast?, p c = false) : trimEnd p t = t := by
  induction t with
  | nil => rfl
  | cons c rest ih =>
    cases rest with
    | nil =>
      have hc : p c = false := h c rfl
      rw [trimEnd, trimEnd, hc]
      rfl
    | cons d rest =>
      have hrest : trimEnd p (d :: rest) = d :: rest := by
        apply ih
        intro e he
        exact h e (by rwa [List.getLast?_cons_cons])
      rw [trimEnd, hrest]

theorem trimEnd_append_of_forall (hu : ∀ c ∈ u, p c = true) (t : List α) :
    trimEnd p (t ++ u) = trimEnd p t := by
  induction t with
  | nil => exact trimEnd_eq_nil_iff.2 hu
  | cons c rest ih =>
    rw [List.cons_append, trimEnd, ih]
    rfl

theorem getLast?_trimEnd (h : c ∈ (trimEnd p t).getLast?) : p c = false := by
  induction t with
  | nil => cases h
  | cons d rest ih =>
    rw [trimEnd] at h
    split at h
    · rename_i hrest
      by_cases hd : p d = true
      · rw [if_pos hd] at h
        cases h
      · rw [if_neg hd] at h
        cases h
        exact Bool.eq_false_iff.2 hd
    · rename_i hne
      obtain ⟨e, kept, hkept⟩ := List.exists_cons_of_ne_nil hne
      rw [hkept, List.getLast?_cons_cons, ← hkept] at h
      exact ih h

theorem exists_trimEnd (p : α → Bool) (t : List α) :
    ∃ after, t = trimEnd p t ++ after ∧ ∀ c ∈ after, p c = true := by
  induction t with
  | nil => exact ⟨[], rfl, nofun⟩
  | cons c rest ih =>
    obtain ⟨after, heq, hafter⟩ := ih
    rw [trimEnd]
    split
    · rename_i hnone
      rw [hnone] at heq
      split
      · rename_i hc
        exact ⟨c :: rest, rfl, List.forall_mem_cons.2 ⟨hc, heq ▸ hafter⟩⟩
      · exact ⟨after, congrArg (c :: ·) heq, hafter⟩
    · exact ⟨after, congrArg (c :: ·) heq, hafter⟩

theorem trimEnd_isPrefix (p : α → Bool) (t : List α) : trimEnd p t <+: t := by
  obtain ⟨after, heq, -⟩ := exists_trimEnd p t
  exact ⟨after, heq.symm⟩

theorem mem_of_mem_trim (h : c ∈ trim p t) : c ∈ t :=
  (List.dropWhile_sublist p).subset ((trimEnd_isPrefix p _).subset h)

theorem exists_trim (p : α → Bool) (t : List α) : ∃ before after,
    t = before ++ trim p t ++ after ∧ (∀ c ∈ before, p c = true) ∧ ∀ c ∈ after, p c = true := by
  obtain ⟨after, heq, hafter⟩ := exists_trimEnd p (t.dropWhile p)
  refine ⟨t.takeWhile p, after, ?_, fun c hc => List.mem_takeWhile_imp hc, hafter⟩
  rw [trim, List.append_assoc, ← heq, List.takeWhile_append_dropWhile]

theorem trim_append {before after : List α} (hbefore : ∀ c ∈ before, p c = true)
    (hafter : ∀ c ∈ after, p c = true) (hfirst : ∀ c ∈ t.head?, p c = false)
    (hlast : ∀ c ∈ t.getLast?, p c = false) : trim p (before ++ t ++ after) = t := by
  rw [trim, List.append_assoc, List.dropWhile_append_of_pos hbefore]
  cases t with
  | nil =>
    refine trimEnd_eq_nil_iff.2 fun c hc => hafter c ?_
    exact (List.dropWhile_sublist p).subset hc
  | cons c rest =>
    have hc : ¬ p c = true := by simp [hfirst c rfl]
    rw [List.cons_append, List.dropWhile_cons_of_neg hc, ← List.cons_append,
      trimEnd_append_of_forall hafter, trimEnd_eq_self hlast]

/-- A list that neither begins nor ends with an element that satisfies `p`. -/
structure Bare (p : α → Bool) (t : List α) : Prop where
  first : ∀ c ∈ t.head?, p c = false
  last : ∀ c ∈ t.getLast?, p c = false

instance (p : α → Bool) (t : List α) : Decidable (Bare p t) :=
  have hnone (o : Option α) : o.all (!p ·) = true ↔ ∀ c ∈ o, p c = false := by
    cases o <;> simp
  decidable_of_iff (t.head?.all (!p ·) ∧ t.getLast?.all (!p ·))
    ⟨fun h => ⟨(hnone _).1 h.1, (hnone _).1 h.2⟩,
      fun h => ⟨(hnone _).2 h.first, (hnone _).2 h.last⟩⟩

theorem bare_trim (p : α → Bool) (t : List α) : Bare p (trim p t) where
  first := by
    intro c hc
    obtain ⟨rest, hrest⟩ := List.head?_eq_some_iff.1 hc
    have hpre : c :: rest <+: t.dropWhile p := hrest ▸ trimEnd_isPrefix p _
    obtain ⟨more, hmore⟩ := hpre
    have hhead := List.head?_dropWhile_not p t
    rw [← hmore] at hhead
    exact hhead
  last := fun _ => getLast?_trimEnd

theorem trim_of_head (h : ∀ c ∈ t.head?, p c = false) : trim p t = trimEnd p t := by
  cases t with
  | nil => rfl
  | cons c rest =>
    have hc : p c = false := h c rfl
    rw [trim, List.dropWhile_cons_of_neg (by simp [hc])]

theorem Bare.trim_eq (h : Bare p t) : trim p t = t :=
  (trim_of_head h.first).trans (trimEnd_eq_self h.last)

theorem trim_eq_nil_iff : trim p t = [] ↔ ∀ c ∈ t, p c = true := by
  refine ⟨fun h => ?_, fun h => ?_⟩
  · obtain ⟨before, after, heq, hbefore, hafter⟩ := exists_trim p t
    rw [heq, h, List.append_nil]
    exact fun c hc => (List.mem_append.1 hc).elim (hbefore c) (hafter c)
  · rw [trim, List.dropWhile_eq_nil_iff.2 h]
    rfl

theorem trim_map {β : Type _} {q : β → Bool} {f : α → β} (h : ∀ c, q (f c) = p c) (t : List α) :
    trim q (t.map f) = (trim p t).map f := by
  have hend (t : List α) : trimEnd q (t.map f) = (trimEnd p t).map f := by
    induction t with
    | nil => rfl
    | cons c rest ih =>
      rw [List.map_cons, trimEnd, trimEnd, ih, h]
      cases trimEnd p rest with
      | nil => cases p c <;> rfl
      | cons => rfl
  have hpq : q ∘ f = p := funext h
  rw [trim, trim, List.dropWhile_map, hpq, hend]

/-- A text that neither begins nor ends with a blank. -/
abbrev Trimmed (t : Text) : Prop :=
  Bare isBlank t

theorem trimmed_strip (t : Text) : Trimmed (strip t) :=
  bare_trim isBlank t

theorem Trimmed.strip_eq {t : Text} (h : Trimmed t) : strip t = t :=
  h.trim_eq

theorem strip_of_head {t : Text} (h : ∀ c ∈ t.head?, isBlank c = false) :
    strip t = trimEnd isBlank t :=
  trim_of_head h

end Scaffold.Text

namespace Scaffold.RawText

/-- A raw text that neither begins nor ends with a blank. -/
abbrev Trimmed (t : RawText) : Prop :=
  Text.Bare RawChar.isBlank t

theorem trimmed_strip (t : RawText) : Trimmed t.strip :=
  Text.bare_trim RawChar.isBlank t

theorem strip_raw (t : Text) : t.raw.strip = t.strip.raw :=
  Text.trim_map (fun _ => rfl) t

end Scaffold.RawText
