import Scaffold.Proofs.Text.Case
import Scaffold.Proofs.Text.Runs

namespace Scaffold.Text

/-- A word is not empty and has no word break. -/
structure Unbroken (w : Text) : Prop where
  ne_nil : w ≠ []
  all : ∀ c ∈ w, isWordBreak c = false

instance (w : Text) : Decidable (Unbroken w) :=
  decidable_of_iff (w ≠ [] ∧ w.all (!isWordBreak ·) = true)
    ⟨fun h => ⟨h.1, by simpa using h.2⟩, fun h => ⟨h.ne_nil, by simpa using h.all⟩⟩

/-- A text spells words with word breaks between neighbours, and perhaps some at the ends. -/
inductive SpellsWords : List Text → Text → Prop where
  | nil : SpellsWords [] []
  | gap {c ws t} : isWordBreak c = true → SpellsWords ws t → SpellsWords ws (c :: t)
  | last {w} : Unbroken w → SpellsWords [w] w
  | word {w c ws t} : Unbroken w → isWordBreak c = true → SpellsWords ws t →
      SpellsWords (w :: ws) (w ++ c :: t)

variable {t u w : Text} {ws : List Text} {c d : Char}

theorem Unbroken.words_eq (h : Unbroken w) : words w = [w] :=
  runs_of_forall h.ne_nil h.all

theorem SpellsWords.words_eq (h : SpellsWords ws t) : words t = ws := by
  induction h with
  | nil => rfl
  | gap hc _ ih => exact (runs_cons hc _).trans ih
  | last hw => exact hw.words_eq
  | @word w c ws t hw hc _ ih =>
    have hcut : words (w ++ c :: t) = words w ++ words t := runs_separated hc w t
    rw [hcut, hw.words_eq, ih]
    rfl

theorem Unbroken.cons (h : Unbroken w) (hc : isWordBreak c = false) : Unbroken (c :: w) :=
  ⟨List.cons_ne_nil c w, List.forall_mem_cons.2 ⟨hc, h.all⟩⟩

/-- A character that is no word break is a word of its own or goes on with one. -/
theorem SpellsWords.cons_letter (h : SpellsWords ws t) (hc : isWordBreak c = false) :
    ∃ ws, SpellsWords ws (c :: t) := by
  have hsingle : Unbroken [c] := ⟨List.cons_ne_nil c [], List.forall_mem_singleton.2 hc⟩
  cases h with
  | nil => exact ⟨_, .last hsingle⟩
  | gap hd ht => exact ⟨_, .word hsingle hd ht⟩
  | last hw => exact ⟨_, .last (hw.cons hc)⟩
  | word hw hd ht => exact ⟨_, .word (hw.cons hc) hd ht⟩

theorem exists_spellsWords (t : Text) : ∃ ws, SpellsWords ws t := by
  induction t with
  | nil => exact ⟨[], .nil⟩
  | cons c rest ih =>
    obtain ⟨ws, hws⟩ := ih
    by_cases hc : isWordBreak c = true
    · exact ⟨ws, .gap hc hws⟩
    · exact hws.cons_letter (Bool.eq_false_iff.2 hc)

theorem words_eq_nil : words t = [] ↔ ∀ c ∈ t, isWordBreak c = true := by
  constructor
  · intro h
    obtain ⟨ws, hws⟩ := exists_spellsWords t
    rw [hws.words_eq] at h
    induction hws with
    | nil => nofun
    | gap hc _ ih => exact List.forall_mem_cons.2 ⟨hc, ih h⟩
    | last => cases h
    | word => cases h
  · intro h
    induction t with
    | nil => rfl
    | cons c rest ih =>
      obtain ⟨hc, hrest⟩ := List.forall_mem_cons.1 h
      exact (runs_cons hc rest).trans (ih hrest)

theorem unbroken_of_mem_words (h : w ∈ words t) : Unbroken w := by
  obtain ⟨hne, -, hall⟩ := of_mem_runs h
  exact ⟨hne, hall⟩

def wordBreaks : CodePoints :=
  ('-'.toNat, '-'.toNat) :: ('_'.toNat, '_'.toNat) :: (whiteSpace ++ informationSeparators)

theorem has_wordBreaks : wordBreaks.has c = isWordBreak c := by
  have hsingle (d : Char) : (decide (d.toNat ≤ c.toNat) && decide (c.toNat ≤ d.toNat)) =
      decide (c = d) := by
    rw [← Bool.decide_and, decide_eq_decide, ← Char.toNat_inj]
    omega
  simp only [wordBreaks, CodePoints.has, List.any_cons, List.any_append, hsingle, isWordBreak,
    isBlank, isWhiteSpace, Bool.or_assoc]

theorem misses_wordBreaks : Misses wordBreaks lowerSpecials lowerRuns ∧
    Misses wordBreaks titleSpecials titleRuns :=
  ⟨⟨by decide, by decide, by decide +kernel⟩, ⟨by decide, by decide +kernel, by decide +kernel⟩⟩

/-- No case mapping turns another character into a word break. -/
theorem isWordBreak_caseImage {specials : List (Nat × List Nat)} {runs : List CaseRun}
    (hmisses : Misses wordBreaks specials runs) (hc : isWordBreak c = false)
    (hd : d ∈ caseImage specials runs c) : isWordBreak d = false := by
  rw [← Bool.not_eq_true]
  intro hbreak
  rw [← has_wordBreaks] at hbreak
  obtain ⟨rfl, -⟩ := hmisses.eq_of_has hd hbreak
  rw [has_wordBreaks, hc] at hbreak
  cases hbreak

theorem isWordBreak_lowerAfter {before : Text} (h : ∀ c ∈ t, isWordBreak c = false) :
    ∀ d ∈ lowerAfter before t, isWordBreak d = false := by
  intro d hd
  obtain ⟨c, hc, hd | rfl | rfl⟩ := of_mem_lowerAfter hd
  · exact isWordBreak_caseImage misses_wordBreaks.1 (h c hc) hd
  · decide
  · decide

theorem isWordBreak_capitalize (h : ∀ c ∈ t, isWordBreak c = false) :
    ∀ d ∈ capitalize t, isWordBreak d = false := by
  cases t with
  | nil => nofun
  | cons c rest =>
    obtain ⟨hc, hrest⟩ := List.forall_mem_cons.1 h
    rw [capitalize]
    refine List.forall_mem_append.2 ⟨?_, isWordBreak_lowerAfter hrest⟩
    exact fun d hd => isWordBreak_caseImage misses_wordBreaks.2 hc hd

theorem camelCase_of_words (h : words t = (c :: w) :: ws) :
    camelCase t = lowerChar c ++ w ++ (ws.map capitalize).flatten := by
  rw [camelCase, h]

theorem exists_first_word (h : words t ≠ []) : ∃ c w ws, words t = (c :: w) :: ws := by
  obtain ⟨first, ws, hwords⟩ := List.exists_cons_of_ne_nil h
  have hfirst : Unbroken first := unbroken_of_mem_words (hwords ▸ List.mem_cons_self)
  obtain ⟨c, w, rfl⟩ := List.exists_cons_of_ne_nil hfirst.ne_nil
  exact ⟨c, w, ws, hwords⟩

theorem camelCase_eq_nil : camelCase t = [] ↔ ∀ c ∈ t, isWordBreak c = true := by
  rw [← words_eq_nil]
  constructor
  · intro h
    by_contra hne
    obtain ⟨c, w, ws, hwords⟩ := exists_first_word hne
    rw [camelCase_of_words hwords, List.append_assoc] at h
    exact lowerChar_ne_nil c (List.append_eq_nil_iff.1 h).1
  · intro h
    rw [camelCase, h]

theorem isWordBreak_camelCase (t : Text) : ∀ d ∈ camelCase t, isWordBreak d = false := by
  by_cases hne : words t = []
  · rw [camelCase, hne]
    nofun
  · obtain ⟨c, w, ws, hwords⟩ := exists_first_word hne
    have hunbroken : ∀ v ∈ (c :: w) :: ws, Unbroken v := fun v hv =>
      unbroken_of_mem_words (hwords ▸ hv)
    obtain ⟨hfirst, hothers⟩ := List.forall_mem_cons.1 hunbroken
    obtain ⟨hc, hw⟩ := List.forall_mem_cons.1 hfirst.all
    rw [camelCase_of_words hwords]
    refine List.forall_mem_append.2 ⟨List.forall_mem_append.2 ⟨?_, hw⟩, ?_⟩
    · exact fun d hd => isWordBreak_caseImage misses_wordBreaks.1 hc hd
    · intro d hd
      obtain ⟨capitalized, hmem, hd⟩ := List.mem_flatten.1 hd
      obtain ⟨v, hv, rfl⟩ := List.mem_map.1 hmem
      exact isWordBreak_capitalize (hothers v hv).all d hd

theorem camelCase_camelCase (t : Text) : camelCase (camelCase t) = camelCase t := by
  by_cases hne : words t = []
  · rw [camelCase_eq_nil.2 (words_eq_nil.1 hne)]
    rfl
  · obtain ⟨c, w, ws, hwords⟩ := exists_first_word hne
    obtain ⟨d, more, hlower⟩ := List.exists_cons_of_ne_nil (lowerChar_ne_nil c)
    have hcamel : camelCase t = d :: (more ++ w ++ (ws.map capitalize).flatten) := by
      rw [camelCase_of_words hwords, hlower]
      rfl
    have hsingle : words (camelCase t) = [camelCase t] :=
      Unbroken.words_eq ⟨hcamel ▸ List.cons_ne_nil _ _, isWordBreak_camelCase t⟩
    rw [hcamel] at hsingle ⊢
    rw [camelCase_of_words hsingle, lowerChar_of_lowerChar hlower]
    simp

/--
The words of a text in camel case have no word break left among them. Nothing is left of a text just
if it had nothing else. All that matters about a text is which words it spells, and every text
spells some; and what is in camel case stays as it is.
-/
theorem camelCase_exact (t : Text) :
    (∀ d ∈ camelCase t, isWordBreak d = false) ∧
    (camelCase t = [] ↔ ∀ c ∈ t, isWordBreak c = true) ∧
    (∃ ws, SpellsWords ws t) ∧
    (∀ ws u, SpellsWords ws t → SpellsWords ws u → camelCase u = camelCase t) ∧
    camelCase (camelCase t) = camelCase t := by
  refine ⟨isWordBreak_camelCase t, camelCase_eq_nil, exists_spellsWords t, ?_,
    camelCase_camelCase t⟩
  intro ws u ht hu
  rw [camelCase, camelCase, hu.words_eq, ht.words_eq]

theorem camelCase_exact_sigma :
    SpellsWords ["İx", "ΣΑΣ"] "İx-ΣΑΣ" ∧ SpellsWords ["İx", "ΣΑΣ"] "_İx \u3000ΣΑΣ\x1c" ∧
    camelCase "_İx \u3000ΣΑΣ\x1c" = camelCase "İx-ΣΑΣ" ∧ camelCase "İx-ΣΑΣ" = "i\u0307xΣας" := by
  have hfirst : Unbroken "İx" := by decide
  have hsecond : Unbroken "ΣΑΣ" := by decide
  have hhyphen : SpellsWords ["İx", "ΣΑΣ"] "İx-ΣΑΣ" :=
    .word (c := '-') hfirst (by decide) (.last hsecond)
  have hspaces : SpellsWords ["İx", "ΣΑΣ"] "_İx \u3000ΣΑΣ\x1c" :=
    .gap (c := '_') (by decide) <| .word (c := ' ') hfirst (by decide) <|
      .gap (c := '\u3000') (by decide) <| .word (c := '\x1c') hsecond (by decide) .nil
  obtain ⟨-, -, -, hsame, -⟩ := camelCase_exact "İx-ΣΑΣ"
  exact ⟨hhyphen, hspaces, hsame _ _ hhyphen hspaces, by decide +kernel⟩

end Scaffold.Text
