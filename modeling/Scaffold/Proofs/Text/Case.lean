import Scaffold.Text.Case

namespace Scaffold.Text

/-- Where a run takes a code point, whether or not the run covers it. -/
def CaseRun.shifted (run : CaseRun) (n : Nat) : Nat :=
  (n + run.shift).toNat

/-- No code point that the first run gives is one that the second run covers. Where they overlap,
one has the even and the other the odd code points. -/
def CaseRun.Apart (r q : CaseRun) : Prop :=
  r.shifted r.last < q.first ∨ q.last < r.shifted r.first ∨
    q.step = 2 ∧ (r.step = 2 ∨ r.first = r.last) ∧ (r.shifted r.first + q.first) % 2 = 1

instance (r q : CaseRun) : Decidable (r.Apart q) :=
  inferInstanceAs (Decidable (_ ∨ _))

/-- No mapping of a table gives a character of a set of code points. -/
structure Misses (points : CodePoints) (specials : List (Nat × List Nat)) (runs : List CaseRun) :
    Prop where
  positive : ∀ range ∈ points, 0 < range.1
  specials : ∀ range ∈ points, ∀ entry ∈ specials, ∀ n ∈ entry.2, n < range.1 ∨ range.2 < n
  runs : ∀ range ∈ points, ∀ run ∈ runs,
    run.shifted run.last < range.1 ∨ range.2 < run.shifted run.first

variable {points : CodePoints} {specials : List (Nat × List Nat)} {runs : List CaseRun}
  {r q run : CaseRun} {m n : Nat} {c d : Char} {t before : Text}

theorem CodePoints.has_iff : points.has c = true ↔
    ∃ range ∈ points, range.1 ≤ c.toNat ∧ c.toNat ≤ range.2 := by
  simp [CodePoints.has]

theorem toNat_ofNat (n : Nat) : (Char.ofNat n).toNat = n ∨ (Char.ofNat n).toNat = 0 := by
  by_cases hvalid : n.isValidChar
  · have hn : Char.ofNat n = Char.ofNatAux n hvalid := dif_pos hvalid
    exact .inl (congrArg Char.toNat hn)
  · have hn : Char.ofNat n = ⟨0, .inl (by decide)⟩ := dif_neg hvalid
    exact .inr (congrArg Char.toNat hn)

namespace CaseRun

theorem image?_eq_some : run.image? n = some m ↔
    (run.first ≤ n ∧ n ≤ run.last ∧ (n - run.first) % run.step = 0) ∧ run.shifted n = m := by
  rw [image?]
  split
  · rename_i h
    exact ⟨fun heq => ⟨h, Option.some.inj heq⟩, fun heq => congrArg some heq.2⟩
  · rename_i h
    exact ⟨nofun, fun heq => absurd heq.1 h⟩

theorem shifted_bounds (h : run.image? n = some m) :
    run.shifted run.first ≤ m ∧ m ≤ run.shifted run.last := by
  obtain ⟨⟨hfirst, hlast, -⟩, rfl⟩ := image?_eq_some.1 h
  unfold shifted
  omega

theorem image?_of_lt (h : n < run.first) : run.image? n = none :=
  if_neg fun hcovers => absurd hcovers.1 (Nat.not_le.2 h)

theorem Apart.image?_eq_none (h : r.Apart q) (hshift : 0 ≤ r.first + r.shift)
    (hm : r.image? n = some m) : q.image? m = none := by
  obtain ⟨hlow, hhigh⟩ := shifted_bounds hm
  obtain ⟨⟨hfirst, hlast, hstep⟩, rfl⟩ := image?_eq_some.1 hm
  rw [Option.eq_none_iff_forall_ne_some]
  rintro k hk
  obtain ⟨⟨hqfirst, hqlast, hqstep⟩, -⟩ := image?_eq_some.1 hk
  rcases h with h | h | ⟨hq, hr, hodd⟩
  · omega
  · omega
  · rw [hq] at hqstep
    have heven : (n - r.first) % 2 = 0 := by
      rcases hr with hr | hr
      · rwa [hr] at hstep
      · omega
    unfold shifted at *
    omega

end CaseRun

theorem of_mem_caseImage (h : d ∈ caseImage specials runs c) :
    (∃ images, (c.toNat, images) ∈ specials ∧ ∃ n ∈ images, d = Char.ofNat n) ∨
    (∃ run ∈ runs, ∃ n, run.image? c.toNat = some n ∧ d = Char.ofNat n) ∨
    (d = c ∧ ∀ run ∈ runs, run.image? c.toNat = none) := by
  rw [caseImage] at h
  split at h
  · rename_i images hlookup
    obtain ⟨l₁, l₂, rfl, -⟩ := List.lookup_eq_some_iff.1 hlookup
    obtain ⟨n, hn, rfl⟩ := List.mem_map.1 h
    exact .inl ⟨images, List.mem_append_right l₁ List.mem_cons_self, n, hn, rfl⟩
  · have hd := List.mem_singleton.1 h
    cases hrun : runs.findSome? (·.image? c.toNat) with
    | some n =>
      rw [hrun] at hd
      obtain ⟨run, hmem, himage⟩ := List.exists_of_findSome?_eq_some hrun
      exact .inr (.inl ⟨run, hmem, n, himage, hd⟩)
    | none =>
      rw [hrun] at hd
      exact .inr (.inr ⟨hd, List.findSome?_eq_none_iff.1 hrun⟩)

theorem caseImage_ne_nil (h : ∀ entry ∈ specials, entry.2 ≠ []) :
    caseImage specials runs c ≠ [] := by
  rw [caseImage]
  split
  · rename_i images hlookup
    obtain ⟨l₁, l₂, rfl, -⟩ := List.lookup_eq_some_iff.1 hlookup
    have hne : images ≠ [] := h (c.toNat, images) (List.mem_append_right l₁ List.mem_cons_self)
    exact mt List.map_eq_nil_iff.1 hne
  · exact List.cons_ne_nil _ _

theorem Misses.eq_of_has (h : Misses points specials runs) (hd : d ∈ caseImage specials runs c)
    (hpoints : points.has d = true) : d = c ∧ ∀ run ∈ runs, run.image? c.toNat = none := by
  obtain ⟨range, hrange, hfirst, hlast⟩ := CodePoints.has_iff.1 hpoints
  have hpositive := h.positive range hrange
  rcases of_mem_caseImage hd with
    ⟨images, himages, n, hn, rfl⟩ | ⟨run, hrun, n, himage, rfl⟩ | hself
  · have := h.specials range hrange _ himages n hn
    have := toNat_ofNat n
    omega
  · have := h.runs range hrange run hrun
    have := CaseRun.shifted_bounds himage
    have := toNat_ofNat n
    omega
  · exact hself

theorem apart_lowerRuns : ∀ r ∈ lowerRuns, ∀ q ∈ lowerRuns, r.Apart q := by
  -- there are so many pairs that the decision is left to comparisons of numbers
  have hall : (lowerRuns.all fun r => lowerRuns.all fun q =>
      Nat.blt (r.shifted r.last) q.first || Nat.blt q.last (r.shifted r.first) ||
        decide (q.step = 2 ∧ (r.step = 2 ∨ r.first = r.last) ∧
          (r.shifted r.first + q.first) % 2 = 1)) = true := by
    decide +kernel
  intro r hr q hq
  have hpair := List.all_eq_true.1 (List.all_eq_true.1 hall r hr) q hq
  rw [Bool.or_eq_true, Bool.or_eq_true, Nat.blt_eq, Nat.blt_eq, decide_eq_true_iff,
    or_assoc] at hpair
  exact hpair

/-- What is read off the single runs: none covers the null character, none gives the one character
with a special lower case or a capital letter of ASCII, and one run alone covers characters of
ASCII. -/
theorem range_lowerRuns : ∀ r ∈ lowerRuns, (0 < r.first ∧ 0 ≤ r.first + r.shift) ∧
    (r.shifted r.last < 'İ'.toNat ∨ 'İ'.toNat < r.shifted r.first) ∧
    (r.shifted r.last < 0x41 ∨ 0x5A < r.shifted r.first) ∧
    (r.first = 0x41 ∧ r.last = 0x5A ∨ 128 ≤ r.first) := by
  decide +kernel

theorem lowerChar_eq_self (hspecial : c ≠ 'İ') (hruns : ∀ r ∈ lowerRuns, r.image? c.toNat = none) :
    lowerChar c = [c] := by
  have hbeq : (c.toNat == 0x130) = false := beq_false_of_ne (mt (@Char.toNat_inj c 'İ').1 hspecial)
  have hlookup : lowerSpecials.lookup c.toNat = none := by
    rw [lowerSpecials, List.lookup_cons, hbeq]
    rfl
  rw [lowerChar, caseImage, hlookup, List.findSome?_eq_none_iff.2 hruns]
  rfl

theorem lowerChar_ne_nil (c : Char) : lowerChar c ≠ [] :=
  caseImage_ne_nil (by decide)

def capitals : CodePoints :=
  [(0x41, 0x5A)]

theorem misses_capitals : Misses capitals lowerSpecials lowerRuns :=
  ⟨by decide, by decide, fun range hrange run hrun => by
    cases List.mem_singleton.1 hrange
    exact (range_lowerRuns run hrun).2.2.1⟩

theorem has_capitals : capitals.has c = c.isUpper := by
  have hupper : c.isUpper = decide (0x41 ≤ c.toNat ∧ c.toNat ≤ 0x5A) := rfl
  rw [Bool.eq_iff_iff, CodePoints.has_iff, hupper]
  simp only [capitals, List.mem_singleton, exists_eq_left, decide_eq_true_eq]

theorem lowerChar_ascii (hascii : c.toNat < 128) (hupper : c.isUpper = false) :
    lowerChar c = [c] := by
  apply lowerChar_eq_self
  · rintro rfl
    exact absurd hascii (by decide)
  · intro r hr
    rw [← has_capitals, ← Bool.not_eq_true, CodePoints.has_iff] at hupper
    rw [CaseRun.image?, if_neg]
    rintro ⟨hfirst, hlast, -⟩
    rcases (range_lowerRuns r hr).2.2.2 with ⟨hr, hr'⟩ | hr
    · exact hupper ⟨_, List.mem_cons_self, hr ▸ hfirst, hr' ▸ hlast⟩
    · omega

/-- The lower case of a character begins with a character that is its own lower case. -/
theorem lowerChar_of_lowerChar (h : lowerChar c = d :: t) : lowerChar d = [d] := by
  have hdotted : lowerChar 'İ' = ['i', '\u0307'] := by decide
  have hmem : d ∈ lowerChar c := h ▸ List.mem_cons_self
  rcases of_mem_caseImage hmem with ⟨images, himages, -⟩ | ⟨r, hr, n, himage, rfl⟩ | ⟨rfl, hruns⟩
  · have hc : c = 'İ' := Char.toNat_inj.1 (Prod.mk.inj (List.mem_singleton.1 himages)).1
    rw [hc, hdotted] at h
    cases h
    exact lowerChar_ascii (by decide) (by decide)
  · obtain ⟨⟨-, hshift⟩, hspecial, -⟩ := range_lowerRuns r hr
    have hbounds := CaseRun.shifted_bounds himage
    apply lowerChar_eq_self
    · intro heq
      have := heq ▸ toNat_ofNat n
      have : 'İ'.toNat ≠ 0 := by decide
      omega
    · intro q hq
      rcases toNat_ofNat n with hn | hn <;> rw [hn]
      · exact (apart_lowerRuns r hr q hq).image?_eq_none hshift himage
      · exact CaseRun.image?_of_lt (range_lowerRuns q hq).1.1
  · refine lowerChar_eq_self ?_ hruns
    rintro rfl
    rw [hdotted] at h
    cases h

theorem of_mem_lowerAfter (h : d ∈ lowerAfter before t) :
    ∃ c ∈ t, d ∈ lowerChar c ∨ d = 'ς' ∨ d = 'σ' := by
  induction t generalizing before with
  | nil => cases h
  | cons c rest ih =>
    rw [lowerAfter] at h
    rcases List.mem_append.1 h with h | h
    · refine ⟨c, List.mem_cons_self, ?_⟩
      split at h
      · have hd := List.mem_singleton.1 h
        split at hd
        · exact .inr (.inl hd)
        · exact .inr (.inr hd)
      · exact .inl h
    · obtain ⟨e, he, hd⟩ := ih h
      exact ⟨e, List.mem_cons_of_mem c he, hd⟩

theorem lowerAfter_eq_self (h : ∀ c ∈ t, c ≠ 'Σ' ∧ lowerChar c = [c]) :
    lowerAfter before t = t := by
  induction t generalizing before with
  | nil => rfl
  | cons c rest ih =>
    obtain ⟨⟨hc, hlower⟩, hrest⟩ := List.forall_mem_cons.1 h
    rw [lowerAfter, ih hrest, if_neg hc, hlower]
    rfl

theorem isUpper_lower (h : d ∈ lower t) : d.isUpper = false := by
  rw [← Bool.not_eq_true, ← has_capitals]
  intro hcapital
  obtain ⟨c, -, hd | rfl | rfl⟩ := of_mem_lowerAfter h
  · obtain ⟨rfl, hruns⟩ := misses_capitals.eq_of_has hd hcapital
    obtain ⟨range, hrange, hfirst, hlast⟩ := CodePoints.has_iff.1 hcapital
    cases List.mem_singleton.1 hrange
    have hrun := hruns ⟨0x41, 0x5A, 1, 32⟩ List.mem_cons_self
    rw [CaseRun.image?, if_pos ⟨hfirst, hlast, Nat.mod_one _⟩] at hrun
    cases hrun
  · exact absurd hcapital (by decide)
  · exact absurd hcapital (by decide)

end Scaffold.Text
