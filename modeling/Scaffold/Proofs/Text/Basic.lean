import Mathlib.Data.List.Infix
import Scaffold.Text.Basic

namespace Scaffold.Text

variable {p : Char → Bool} {t u : Text} {c : Char}

theorem notMem_append (ht : c ∉ t) (hu : c ∉ u) : c ∉ t ++ u :=
  fun h => (List.mem_append.1 h).elim ht hu

theorem cut_separated (hc : p c = true) (t u : Text) :
    cut p (t ++ c :: u) = cut p t ++ cut p u := by
  induction t with
  | nil => exact if_pos hc
  | cons d rest ih =>
    rw [List.cons_append, cut, cut, ih]
    by_cases hd : p d = true
    · rw [if_pos hd, if_pos hd]
      rfl
    · rw [if_neg hd, if_neg hd]
      obtain ⟨piece, pieces, hpieces⟩ := List.exists_cons_of_ne_nil (cut_ne_nil p rest)
      rw [hpieces]
      rfl

theorem cut_of_forall (ht : ∀ d ∈ t, p d = false) : cut p t = [t] := by
  induction t with
  | nil => rfl
  | cons d rest ih =>
    have hd : p d = false := ht d List.mem_cons_self
    rw [cut, ih fun e he => ht e (List.mem_cons_of_mem d he), hd]
    rfl

theorem cut_append (ht : ∀ d ∈ t, p d = false) (hc : p c = true) (u : Text) :
    cut p (t ++ c :: u) = t :: cut p u := by
  rw [cut_separated hc, cut_of_forall ht]
  rfl

theorem cut_char_append (ht : c ∉ t) (u : Text) :
    cut (· = c) (t ++ c :: u) = t :: cut (· = c) u := by
  apply cut_append
  · intro d hd
    exact decide_eq_false fun h => ht (h ▸ hd)
  · exact decide_eq_true rfl

theorem cut_char_of_notMem (ht : c ∉ t) : cut (· = c) t = [t] := by
  apply cut_of_forall
  intro d hd
  exact decide_eq_false fun h => ht (h ▸ hd)

theorem cut_join {ts : List Text} (hne : ts ≠ []) (h : ∀ t ∈ ts, c ∉ t) :
    cut (· = c) (join [c] ts) = ts := by
  induction ts with
  | nil => exact absurd rfl hne
  | cons t rest ih =>
    have ht : c ∉ t := h t List.mem_cons_self
    cases rest with
    | nil => exact cut_char_of_notMem ht
    | cons u rest =>
      rw [join_cons _ (List.cons_ne_nil u rest), List.append_assoc, List.singleton_append,
        cut_char_append ht,
        ih (List.cons_ne_nil u rest) fun v hv => h v (List.mem_cons_of_mem t hv)]

section

variable {α : Type _} [DecidableEq α] {c : α} {t : List α}

theorem cutFirst_of_notMem (ht : c ∉ t) : cutFirst c t = none := by
  induction t with
  | nil => rfl
  | cons d rest ih =>
    have hd : d ≠ c := fun h => ht (h ▸ List.mem_cons_self)
    rw [cutFirst, if_neg hd, ih fun h => ht (List.mem_cons_of_mem d h)]
    rfl

theorem cutFirst_of_mem (ht : c ∈ t) :
    cutFirst c t = some (t.takeWhile (· ≠ c), (t.dropWhile (· ≠ c)).tail) := by
  induction t with
  | nil => cases ht
  | cons d rest ih =>
    by_cases hd : d = c
    · subst hd
      rw [cutFirst, if_pos rfl, List.takeWhile_cons_of_neg (by simp),
        List.dropWhile_cons_of_neg (by simp)]
      rfl
    · have hrest : c ∈ rest := (List.mem_cons.1 ht).resolve_left (Ne.symm hd)
      rw [cutFirst, if_neg hd, ih hrest, List.takeWhile_cons_of_pos (by simp [hd]),
        List.dropWhile_cons_of_pos (by simp [hd])]
      rfl

theorem takeWhile_append_tail (ht : c ∈ t) :
    t.takeWhile (· ≠ c) ++ c :: (t.dropWhile (· ≠ c)).tail = t := by
  induction t with
  | nil => cases ht
  | cons d rest ih =>
    by_cases hd : d = c
    · subst hd
      rw [List.takeWhile_cons_of_neg (by simp), List.dropWhile_cons_of_neg (by simp)]
      rfl
    · have hrest : c ∈ rest := (List.mem_cons.1 ht).resolve_left (Ne.symm hd)
      rw [List.takeWhile_cons_of_pos (by simp [hd]), List.dropWhile_cons_of_pos (by simp [hd]),
        List.cons_append, ih hrest]

theorem cutFirst_append (ht : c ∉ t) (u : List α) : cutFirst c (t ++ c :: u) = some (t, u) := by
  induction t with
  | nil => exact if_pos rfl
  | cons d rest ih =>
    have hd : d ≠ c := fun h => ht (h ▸ List.mem_cons_self)
    rw [List.cons_append, cutFirst, if_neg hd, ih fun h => ht (List.mem_cons_of_mem d h)]
    rfl

theorem takeWhile_append_of_notMem (ht : c ∉ t) (u : List α) :
    (t ++ u).takeWhile (· ≠ c) = t ++ u.takeWhile (· ≠ c) := by
  apply List.takeWhile_append_of_pos
  intro d hd
  exact decide_eq_true fun h => ht (h ▸ hd)

end

theorem takeWhile_append_of_mem (ht : c ∈ t) (u : Text) :
    (t ++ u).takeWhile (· ≠ c) = t.takeWhile (· ≠ c) := by
  obtain ⟨before, after, rfl⟩ := List.append_of_mem ht
  induction before with
  | nil => simp
  | cons d rest ih =>
    have ih := ih (List.mem_append_right rest List.mem_cons_self)
    by_cases hd : d = c
    · simp [hd]
    · simpa [List.takeWhile_cons, hd] using ih

theorem join_append_left (separator : Text) (ts us : List Text) :
    join separator ts <+: join separator (ts ++ us) := by
  induction ts with
  | nil => exact List.nil_prefix
  | cons t rest ih =>
    cases rest with
    | nil =>
      cases us with
      | nil => exact List.prefix_rfl
      | cons u us =>
        change t <+: t ++ separator ++ join separator (u :: us)
        rw [List.append_assoc]
        exact List.prefix_append _ _
    | cons s rest => exact (List.prefix_append_right_inj (t ++ separator)).2 ih

theorem join_concat {ts : List Text} (hne : ts ≠ []) (separator t : Text) :
    join separator (ts ++ [t]) = join separator ts ++ (separator ++ t) := by
  induction ts with
  | nil => exact absurd rfl hne
  | cons u ts ih =>
    cases ts with
    | nil => exact List.append_assoc u separator t
    | cons v ts =>
      have hne : v :: ts ≠ [] := List.cons_ne_nil v ts
      rw [List.cons_append, join_cons _ (List.append_ne_nil_of_left_ne_nil hne _), ih hne,
        join_cons _ hne, List.append_assoc _ (join separator (v :: ts))]

theorem mem_join {separator : Text} {ts : List Text} (h : c ∈ join separator ts) :
    c ∈ separator ∨ ∃ t ∈ ts, c ∈ t := by
  induction ts with
  | nil => cases h
  | cons t rest ih =>
    cases rest with
    | nil => exact .inr ⟨t, List.mem_cons_self, h⟩
    | cons u rest =>
      rw [join_cons _ (List.cons_ne_nil u rest), List.mem_append, List.mem_append] at h
      rcases h with (h | h) | h
      · exact .inr ⟨t, List.mem_cons_self, h⟩
      · exact .inl h
      · rcases ih h with h | ⟨v, hv, hc⟩
        · exact .inl h
        · exact .inr ⟨v, List.mem_cons_of_mem t hv, hc⟩

theorem trimEnd_append (h : trimEnd p u ≠ []) (t : Text) :
    trimEnd p (t ++ u) = t ++ trimEnd p u := by
  induction t with
  | nil => rfl
  | cons c rest ih =>
    rw [List.cons_append, trimEnd, ih]
    split
    · rename_i hnone
      exact absurd (List.append_eq_nil_iff.1 hnone).2 h
    · rfl

theorem trimEnd_append_of_last (h : ∀ c ∈ t.getLast?, p c = false) (u : Text) :
    trimEnd p (t ++ u) = t ++ trimEnd p u := by
  induction t with
  | nil => rfl
  | cons d rest ih =>
    cases rest with
    | nil =>
      have hd : p d = false := h d rfl
      rw [List.singleton_append, List.singleton_append, trimEnd]
      split
      · rename_i hnone
        rw [if_neg (by simp [hd]), hnone]
      · rfl
    | cons e rest =>
      rw [List.cons_append, trimEnd, ih fun c hc => h c (by rwa [List.getLast?_cons_cons])]
      rfl

theorem trim_of_ends {c : Char} {before : Text} (hc : p c = false) (hne : trimEnd p u ≠ [])
    (h : c :: t = before ++ u) : trim p (c :: t) = before ++ trimEnd p u := by
  rw [trim]
  rw [List.dropWhile_cons_of_neg (by simp [hc]), h, trimEnd_append hne]

end Scaffold.Text
