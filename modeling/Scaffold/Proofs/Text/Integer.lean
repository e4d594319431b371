import Mathlib.Data.List.TakeWhile
import Mathlib.Data.Nat.Digits.Defs
import Scaffold.Proofs.Text.Strip
import Scaffold.Text.Digit

namespace Scaffold.Text

variable {t : Text} {c : Char} {d : Nat} {digits : List Nat}
  {groups : List Text} {n : Int}

/-- Groups of digits of any script, none of them empty, and the values of the digits. -/
structure Groups (groups : List Text) (digits : List Nat) : Prop where
  ne_nil : groups ≠ []
  filled : ∀ group ∈ groups, group ≠ []
  values : groups.flatten.map digitValue? = digits.map some

/-- What can stand before the digits of a number, each with the factor it stands for. -/
def signs : List (Text × Int) :=
  [("", 1), ("+", 1), ("-", -1)]

/--
A text spells an integer in decimal notation: a sign and groups of digits with underscores between
them, `digitLimit` digits at most, and white space at either end.
-/
def SpellsInteger (t : Text) (n : Int) : Prop :=
  ∃ before sign groups digits after,
    t = before ++ (sign.1 ++ join "_" groups) ++ after ∧
    (∀ c ∈ before, isWhiteSpace c = true) ∧ (∀ c ∈ after, isWhiteSpace c = true) ∧
    sign ∈ signs ∧ Groups groups digits ∧ digits.length ≤ digitLimit ∧
    n = sign.2 * (Nat.ofDigits 10 digits.reverse : Nat)

theorem digitValue?_of_isWhiteSpace (h : isWhiteSpace c = true) : digitValue? c = none := by
  have hapart : ∀ z ∈ zeros, ∀ range ∈ whiteSpace, z + 9 < range.1 ∨ range.2 < z := by decide
  obtain ⟨range, hrange, hc⟩ := List.any_eq_true.1 h
  simp only [Bool.and_eq_true, decide_eq_true_eq] at hc
  rw [digitValue?, Option.map_eq_none_iff, List.find?_eq_none]
  intro z hz hdigit
  simp only [Bool.and_eq_true, decide_eq_true_eq] at hdigit
  have := hapart z hz range hrange
  omega

theorem isWhiteSpace_of_digit (h : digitValue? c = some d) : isWhiteSpace c = false := by
  by_contra hspace
  rw [digitValue?_of_isWhiteSpace (by simpa using hspace)] at h
  cases h

theorem ne_of_digit {e : Char} (h : digitValue? c = some d) (he : digitValue? e = none) :
    c ≠ e := by
  rintro rfl
  rw [he] at h
  cases h

theorem valueOfDigits_eq (digits : List Nat) :
    valueOfDigits digits = Nat.ofDigits 10 digits.reverse := by
  rw [Nat.ofDigits_eq_foldr, List.foldr_reverse]
  simp only [valueOfDigits, Nat.cast_id, Nat.add_comm]

theorem groupedDigits?_underscore (h : digitValue? c = some d) (t : Text) :
    groupedDigits? (c :: '_' :: t) = (groupedDigits? t).map (d :: ·) := by
  rw [groupedDigits?, h]
  cases groupedDigits? t <;> rfl

theorem groupedDigits?_digit {e : Char} {f : Nat} (h : digitValue? c = some d)
    (he : digitValue? e = some f) (t : Text) :
    groupedDigits? (c :: e :: t) = (groupedDigits? (e :: t)).map (d :: ·) := by
  have hne : e ≠ '_' := ne_of_digit he (by decide)
  rw [groupedDigits?, h]
  · cases groupedDigits? (e :: t) <;> rfl
  · nofun
  · exact fun _ heq => hne (List.cons.inj heq).1

/-- A group of digits is read to its end, and what follows it after an underscore is read as well.
-/
theorem groupedDigits?_group (h : t.map digitValue? = digits.map some) (hne : t ≠ []) :
    groupedDigits? t = some digits ∧
      ∀ rest, groupedDigits? (t ++ '_' :: rest) = (groupedDigits? rest).map (digits ++ ·) := by
  induction t generalizing digits with
  | nil => exact absurd rfl hne
  | cons c rest ih =>
    obtain ⟨d, ds, rfl, hc, hds⟩ := List.map_eq_cons_iff.1 h.symm
    cases rest with
    | nil =>
      cases List.map_eq_nil_iff.1 hds
      refine ⟨?_, groupedDigits?_underscore hc.symm⟩
      rw [groupedDigits?, ← hc]
      rfl
    | cons e rest =>
      obtain ⟨f, fs, rfl, he, -⟩ := List.map_eq_cons_iff.1 hds
      obtain ⟨halone, hjoined⟩ := ih hds.symm (List.cons_ne_nil _ _)
      constructor
      · rw [groupedDigits?_digit hc.symm he.symm, halone]
        rfl
      · intro more
        rw [List.cons_append, List.cons_append, groupedDigits?_digit hc.symm he.symm,
          ← List.cons_append, hjoined, Option.map_map]
        rfl

theorem groupedDigits?_join (h : Groups groups digits) :
    groupedDigits? (join "_" groups) = some digits := by
  obtain ⟨hne, hfilled, hvalues⟩ := h
  induction groups generalizing digits with
  | nil => exact absurd rfl hne
  | cons group rest ih =>
    obtain ⟨hgroup, hrest⟩ := List.forall_mem_cons.1 hfilled
    rw [List.flatten_cons, List.map_append] at hvalues
    obtain ⟨first, others, rfl, hfirst, hothers⟩ := List.map_eq_append_iff.1 hvalues.symm
    obtain ⟨halone, hjoined⟩ := groupedDigits?_group hfirst.symm hgroup
    cases rest with
    | nil =>
      cases List.map_eq_nil_iff.1 hothers
      rwa [List.append_nil]
    | cons next rest =>
      rw [join_cons _ (List.cons_ne_nil next rest), List.append_assoc]
      exact (hjoined _).trans (congrArg _ (ih (List.cons_ne_nil next rest) hrest hothers.symm))

theorem Groups.cons (h : Groups groups digits) (hc : digitValue? c = some d) :
    Groups ([c] :: groups) (d :: digits) ∧
      ∃ more, join "_" more = c :: join "_" groups ∧ Groups more (d :: digits) := by
  obtain ⟨hne, hfilled, hvalues⟩ := h
  obtain ⟨group, rest, rfl⟩ := List.exists_cons_of_ne_nil hne
  have hmore : (c :: (group :: rest).flatten).map digitValue? = (d :: digits).map some := by
    rw [List.map_cons, List.map_cons, hvalues, hc]
  refine ⟨⟨List.cons_ne_nil _ _, List.forall_mem_cons.2 ⟨List.cons_ne_nil c [], hfilled⟩, hmore⟩,
    (c :: group) :: rest, ?_, List.cons_ne_nil _ _, ?_, hmore⟩
  · cases rest <;> rfl
  · exact List.forall_mem_cons.2 ⟨List.cons_ne_nil c group, (List.forall_mem_cons.1 hfilled).2⟩

theorem exists_groups (h : groupedDigits? t = some digits) :
    ∃ groups, t = join "_" groups ∧ Groups groups digits := by
  fun_induction groupedDigits? t generalizing digits with
  | case1 => cases h
  | case2 c =>
    obtain ⟨d, hc, rfl⟩ := Option.map_eq_some_iff.1 h
    refine ⟨[[c]], rfl, List.cons_ne_nil _ _, ?_, ?_⟩
    · exact List.forall_mem_singleton.2 (List.cons_ne_nil c [])
    · exact congrArg ([·]) hc
  | case3 c rest ih =>
    obtain ⟨d, hc, hrest⟩ := Option.bind_eq_some_iff.1 h
    obtain ⟨ds, hds, heq⟩ := Option.bind_eq_some_iff.1 hrest
    cases heq
    obtain ⟨groups, rfl, hgroups⟩ := ih hds
    refine ⟨[c] :: groups, ?_, (hgroups.cons hc).1⟩
    rw [join_cons _ hgroups.ne_nil]
    rfl
  | case4 c rest hnil hunderscore ih =>
    obtain ⟨d, hc, hrest⟩ := Option.bind_eq_some_iff.1 h
    obtain ⟨ds, hds, heq⟩ := Option.bind_eq_some_iff.1 hrest
    cases heq
    obtain ⟨groups, rfl, hgroups⟩ := ih hds
    obtain ⟨more, hmore, hgroups⟩ := (hgroups.cons hc).2
    exact ⟨more, hmore.symm, hgroups⟩

theorem mem_ends_join {separator : Text} (hfilled : ∀ u ∈ groups, u ≠ [])
    (h : c ∈ (join separator groups).head? ∨ c ∈ (join separator groups).getLast?) :
    c ∈ groups.flatten := by
  induction groups with
  | nil => rcases h with h | h <;> cases h
  | cons u rest ih =>
    obtain ⟨hu, hrest⟩ := List.forall_mem_cons.1 hfilled
    rw [List.flatten_cons, List.mem_append]
    cases rest with
    | nil => exact .inl (h.elim List.mem_of_mem_head? List.mem_of_mem_getLast?)
    | cons v rest =>
      have hjoin : join separator (v :: rest) ≠ [] := by
        have hv := hrest v List.mem_cons_self
        cases rest with
        | nil => exact hv
        | cons w rest => simp [join_cons, hv]
      rw [join_cons _ (List.cons_ne_nil v rest)] at h
      rcases h with h | h
      · rw [List.append_assoc, List.head?_append_of_ne_nil _ hu] at h
        exact .inl (List.mem_of_mem_head? h)
      · rw [List.getLast?_append_of_ne_nil _ hjoin] at h
        exact .inr (ih hrest (.inr h))

theorem Groups.digit_of_mem (h : Groups groups digits) (hc : c ∈ groups.flatten) :
    ∃ d, digitValue? c = some d := by
  have hmem : digitValue? c ∈ groups.flatten.map digitValue? := List.mem_map_of_mem hc
  rw [h.values] at hmem
  obtain ⟨d, -, hd⟩ := List.mem_map.1 hmem
  exact ⟨d, hd.symm⟩

theorem Groups.digit_of_mem_ends (h : Groups groups digits)
    (hc : c ∈ (join "_" groups).head? ∨ c ∈ (join "_" groups).getLast?) :
    ∃ d, digitValue? c = some d :=
  h.digit_of_mem (mem_ends_join h.filled hc)

theorem Groups.exists_cons (h : Groups groups digits) :
    ∃ c rest d, join "_" groups = c :: rest ∧ digitValue? c = some d := by
  cases hjoin : join "_" groups with
  | nil =>
    have hdigits := groupedDigits?_join h
    rw [hjoin] at hdigits
    cases hdigits
  | cons c rest =>
    obtain ⟨d, hd⟩ := h.digit_of_mem_ends (.inl (hjoin ▸ rfl) : c ∈ _ ∨ _)
    exact ⟨c, rest, d, rfl, hd⟩

theorem exists_sign (t : Text) : ∃ sign ∈ signs, t = sign.1 ++ (cutSign t).2 ∧
    ∀ n : Int, (if (cutSign t).1 then -n else n) = sign.2 * n := by
  unfold cutSign
  split
  · exact ⟨("-", -1), by simp [signs], rfl, fun n => (Int.neg_one_mul n).symm⟩
  · exact ⟨("+", 1), by simp [signs], rfl, fun n => (Int.one_mul n).symm⟩
  · exact ⟨("", 1), by simp [signs], rfl, fun n => (Int.one_mul n).symm⟩

theorem cutSign_append {sign : Text × Int} (hsign : sign ∈ signs) (hc : digitValue? c = some d)
    (rest : Text) : (cutSign (sign.1 ++ c :: rest)).2 = c :: rest ∧
      ∀ n : Int, (if (cutSign (sign.1 ++ c :: rest)).1 then -n else n) = sign.2 * n := by
  simp only [signs, List.mem_cons, List.not_mem_nil, or_false] at hsign
  rcases hsign with rfl | rfl | rfl
  · have hcut : cutSign (c :: rest) = (false, c :: rest) := by
      rw [cutSign]
      · exact fun _ h => ne_of_digit hc (by decide) (List.cons.inj h).1
      · exact fun _ h => ne_of_digit hc (by decide) (List.cons.inj h).1
    exact ⟨congrArg Prod.snd hcut, fun n => by simp [hcut]⟩
  · exact ⟨rfl, fun n => (Int.one_mul n).symm⟩
  · exact ⟨rfl, fun n => (Int.neg_one_mul n).symm⟩

theorem int?_eq_some_iff : int? t = some n ↔
    ∃ digits, groupedDigits? (cutSign (trim isWhiteSpace t)).2 = some digits ∧
      digits.length ≤ digitLimit ∧
      (if (cutSign (trim isWhiteSpace t)).1 then -(valueOfDigits digits : Int)
        else valueOfDigits digits) = n := by
  constructor
  · intro h
    obtain ⟨digits, hdigits, h⟩ := Option.bind_eq_some_iff.1 h
    split at h
    · rename_i hshort
      exact ⟨digits, hdigits, hshort, Option.some.inj h⟩
    · cases h
  · rintro ⟨digits, hdigits, hshort, rfl⟩
    exact Option.bind_eq_some_iff.2 ⟨digits, hdigits, if_pos hshort⟩

/-- A text is read as an integer just if it spells it. -/
theorem int?_eq_some : int? t = some n ↔ SpellsInteger t n := by
  rw [int?_eq_some_iff]
  constructor
  · rintro ⟨digits, hdigits, hshort, rfl⟩
    obtain ⟨before, after, htrim, hbefore, hafter⟩ := exists_trim isWhiteSpace t
    obtain ⟨sign, hsign, hcut, hvalue⟩ := exists_sign (trim isWhiteSpace t)
    obtain ⟨groups, hjoin, hgroups⟩ := exists_groups hdigits
    rw [hcut, hjoin] at htrim
    refine ⟨before, sign, groups, digits, after, htrim, hbefore, hafter, hsign, hgroups, hshort, ?_⟩
    rw [hvalue, valueOfDigits_eq]
  · rintro ⟨before, sign, groups, digits, after, rfl, hbefore, hafter, hsign, hgroups, hshort, rfl⟩
    have hread := groupedDigits?_join hgroups
    have hends := @hgroups.digit_of_mem_ends
    have hspace : ∀ sign ∈ signs, sign.1.any isWhiteSpace = false := by decide
    obtain ⟨c, rest, d, hjoin, hc⟩ := hgroups.exists_cons
    rw [hjoin] at hread hends ⊢
    have hsigned : trim isWhiteSpace (before ++ (sign.1 ++ c :: rest) ++ after) =
        sign.1 ++ c :: rest := by
      apply trim_append hbefore hafter
      · intro e he
        by_cases hs : sign.1 = []
        · rw [hs, List.nil_append] at he
          exact (hends e (.inl he)).elim fun _ => isWhiteSpace_of_digit
        · rw [List.head?_append_of_ne_nil _ hs] at he
          have hnone := List.any_eq_false.1 (hspace sign hsign) e (List.mem_of_mem_head? he)
          simpa using hnone
      · intro e he
        rw [List.getLast?_append_of_ne_nil _ (List.cons_ne_nil c rest)] at he
        exact (hends e (.inr he)).elim fun _ => isWhiteSpace_of_digit
    obtain ⟨hcut, hvalue⟩ := cutSign_append hsign hc rest
    rw [hsigned, hcut]
    refine ⟨digits, hread, hshort, ?_⟩
    rw [hvalue, valueOfDigits_eq]

theorem int?_eq_none : int? t = none ↔ ¬ ∃ n, SpellsInteger t n := by
  simp only [← int?_eq_some, ← Option.isSome_iff_exists, Option.not_isSome_iff_eq_none]

end Scaffold.Text
