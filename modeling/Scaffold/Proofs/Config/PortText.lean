import Scaffold.Config.Port
import Scaffold.Proofs.Json.Number
import Scaffold.Proofs.Text.Integer

namespace Scaffold

namespace Text

/-- The values of the digits in a text, of whatever script, without regard to anything else in it.
-/
def digitsIn (t : Text) : List Nat :=
  t.filterMap digitValue?

/-- The number that the digits in a text spell. -/
def digitsValue (t : Text) : Nat :=
  valueOfDigits (digitsIn t)

variable {p : Char → Bool} {t u : Text} {c : Char} {digits : List Nat} {n : Int}

theorem digitsIn_append (t u : Text) : digitsIn (t ++ u) = digitsIn t ++ digitsIn u :=
  List.filterMap_append

theorem digitsIn_eq_nil (h : ∀ c ∈ t, digitValue? c = none) : digitsIn t = [] :=
  List.filterMap_eq_nil_iff.2 h

theorem digitsIn_cons_of_none (h : digitValue? c = none) (t : Text) :
    digitsIn (c :: t) = digitsIn t :=
  List.filterMap_cons_none h

theorem digitsValue_zero (t : Text) : digitsValue ('0' :: t) = digitsValue t := by
  have hzero : digitValue? '0' = some 0 := by decide
  rw [digitsValue, digitsIn, List.filterMap_cons_some hzero]
  rfl

theorem digitsIn_trim (t : Text) : digitsIn (trim isWhiteSpace t) = digitsIn t := by
  obtain ⟨before, after, heq, hbefore, hafter⟩ := exists_trim isWhiteSpace t
  have hnone {u : Text} (hu : ∀ c ∈ u, isWhiteSpace c = true) : digitsIn u = [] :=
    digitsIn_eq_nil fun c hc => digitValue?_of_isWhiteSpace (hu c hc)
  rw [congrArg digitsIn heq, digitsIn_append, digitsIn_append, hnone hbefore, hnone hafter,
    List.append_nil]
  rfl

theorem flatten_cut (p : Char → Bool) (t : Text) : (cut p t).flatten = t.filter (!p ·) := by
  induction t with
  | nil => rfl
  | cons c rest ih =>
    rw [cut]
    split
    · rename_i hc
      rw [List.filter_cons_of_neg (by simp [hc]), ← ih]
      rfl
    · rename_i hc
      obtain ⟨piece, pieces, hpieces⟩ := List.exists_cons_of_ne_nil (cut_ne_nil p rest)
      rw [List.filter_cons_of_pos (by simpa using hc), ← ih, hpieces]
      rfl

theorem digitsIn_filter (hp : ∀ c, p c = false → digitValue? c = none) (t : Text) :
    digitsIn (t.filter p) = digitsIn t := by
  rw [digitsIn, List.filterMap_filter]
  refine List.filterMap_congr fun c _ => ?_
  cases hc : p c with
  | true => rfl
  | false => exact (hp c hc).symm

theorem of_mem_grouped (h : groupedDigits? t = some digits) (hc : c ∈ t) :
    (∃ d, digitValue? c = some d) ∨ c = '_' := by
  obtain ⟨groups, rfl, hgroups⟩ := exists_groups h
  rcases mem_join hc with hc | ⟨group, hgroup, hc⟩
  · exact .inr (List.mem_singleton.1 hc)
  · exact .inl (hgroups.digit_of_mem (List.mem_flatten_of_mem hgroup hc))

theorem notMem_grouped (h : groupedDigits? t = some digits) (hdigit : digitValue? c = none)
    (hunderscore : c ≠ '_') : c ∉ t := by
  intro hmem
  rcases of_mem_grouped h hmem with ⟨d, hd⟩ | hc
  · cases hdigit.symm.trans hd
  · exact hunderscore hc

theorem digitsIn_of_grouped (h : groupedDigits? t = some digits) : digitsIn t = digits := by
  fun_induction groupedDigits? t generalizing digits with
  | case1 => cases h
  | case2 c =>
    obtain ⟨d, hc, rfl⟩ := Option.map_eq_some_iff.1 h
    exact List.filterMap_cons_some hc
  | case3 c rest ih =>
    obtain ⟨d, hc, hrest⟩ := Option.bind_eq_some_iff.1 h
    obtain ⟨ds, hds, heq⟩ := Option.bind_eq_some_iff.1 hrest
    cases heq
    rw [digitsIn, List.filterMap_cons_some hc]
    exact congrArg (d :: ·) (ih hds)
  | case4 c rest _ _ ih =>
    obtain ⟨d, hc, hrest⟩ := Option.bind_eq_some_iff.1 h
    obtain ⟨ds, hds, heq⟩ := Option.bind_eq_some_iff.1 hrest
    cases heq
    rw [digitsIn, List.filterMap_cons_some hc]
    exact congrArg (d :: ·) (ih hds)

theorem exists_parts_of_int? (h : int? t = some n) : ∃ sign ∈ signs, ∃ rest digits,
    trim isWhiteSpace t = sign.1 ++ rest ∧ groupedDigits? rest = some digits ∧
      digits.length ≤ digitLimit ∧ n = sign.2 * valueOfDigits digits := by
  obtain ⟨digits, hdigits, hshort, rfl⟩ := int?_eq_some_iff.1 h
  obtain ⟨sign, hsign, hcut, hvalue⟩ := exists_sign (trim isWhiteSpace t)
  exact ⟨sign, hsign, _, digits, hcut, hdigits, hshort, hvalue _⟩

theorem digitsIn_of_int? {sign : Text × Int} {rest : Text} (hsign : sign ∈ signs)
    (hcut : trim isWhiteSpace t = sign.1 ++ rest) (hdigits : groupedDigits? rest = some digits) :
    digitsIn t = digits := by
  have hnone : ∀ sign ∈ signs, digitsIn sign.1 = [] := by decide
  rw [← digitsIn_trim, hcut, digitsIn_append, hnone sign hsign, digitsIn_of_grouped hdigits]
  rfl

theorem notMem_of_int? {sign : Text × Int} {rest : Text}
    (hcut : trim isWhiteSpace t = sign.1 ++ rest) (hdigits : groupedDigits? rest = some digits)
    (hspace : isWhiteSpace c = false) (hsign : c ∉ sign.1) (hdigit : digitValue? c = none)
    (hunderscore : c ≠ '_') : c ∉ t := by
  obtain ⟨before, after, htrim, hbefore, hafter⟩ := exists_trim isWhiteSpace t
  have hnotMem {u : Text} (hu : ∀ c ∈ u, isWhiteSpace c = true) : c ∉ u := fun hmem =>
    Bool.false_ne_true (hspace.symm.trans (hu c hmem))
  have hrest : c ∉ rest := notMem_grouped hdigits hdigit hunderscore
  rw [htrim, hcut]
  exact notMem_append (notMem_append (hnotMem hbefore) (notMem_append hsign hrest)) (hnotMem hafter)

/-- A text that is read as an integer is read as the number that its digits spell, up to the sign.
-/
theorem natAbs_of_int? (h : int? t = some n) : n.natAbs = digitsValue t ∧ '.' ∉ t := by
  obtain ⟨sign, hsign, rest, digits, hcut, hdigits, -, rfl⟩ := exists_parts_of_int? h
  have hsigns : ∀ sign ∈ signs, sign.2.natAbs = 1 ∧ '.' ∉ sign.1 := by decide
  obtain ⟨hunit, hpoint⟩ := hsigns sign hsign
  constructor
  · rw [Int.natAbs_mul, hunit, Nat.one_mul, digitsValue, digitsIn_of_int? hsign hcut hdigits]
    rfl
  · exact notMem_of_int? hcut hdigits (by decide) hpoint (by decide) (by decide)

theorem digitValue?_of_isDigit (h : c.isDigit = true) :
    digitValue? c = some (c.toNat - '0'.toNat) := by
  have hfirst : (decide (0x30 ≤ c.toNat) && decide (c.toNat ≤ 0x30 + 9)) = true := h
  have hfind : zeros.find? (fun z => z ≤ c.toNat && c.toNat ≤ z + 9) = some 0x30 :=
    List.find?_cons_of_pos hfirst
  rw [digitValue?, hfind]
  rfl

theorem digitsIn_of_isDigit (h : ∀ c ∈ t, c.isDigit = true) :
    digitsIn t = t.map fun c => c.toNat - '0'.toNat := by
  rw [digitsIn, ← List.filterMap_eq_map']
  exact List.filterMap_congr fun c hc => digitValue?_of_isDigit (h c hc)

theorem digitsValue_of_isDigit (h : ∀ c ∈ t, c.isDigit = true) :
    digitsValue t = Nat.ofDigitChars 10 t 0 := by
  rw [digitsValue, digitsIn_of_isDigit h, valueOfDigits, List.foldl_map]
  rfl

end Text

namespace Port

open Text

variable {t u : Text} {last : Char} {n : Int}

theorem digitsValue_dropZeros_go (hlast : last = '0' ∨ last = '_') (hpoint : '.' ∉ t)
    (h : dropZeros?.go last t = some u) : digitsValue u = digitsValue t ∧ '.' ∉ u := by
  induction t generalizing last with
  | nil =>
    cases h
    rcases hlast with rfl | rfl <;> decide
  | cons c rest ih =>
    obtain ⟨hc, hrest⟩ := not_or.1 (mt List.mem_cons.2 hpoint)
    rw [dropZeros?.go] at h
    split at h
    · rename_i hskip
      have hskip : c = '0' ∨ c = '_' := by simpa using hskip
      obtain ⟨hvalue, hnone⟩ := ih hskip hrest h
      refine ⟨?_, hnone⟩
      rcases hskip with rfl | rfl
      · rw [hvalue, digitsValue_zero]
      · rw [hvalue, digitsValue, digitsValue, digitsIn_cons_of_none (by decide)]
    · split at h
      · cases h
        exact ⟨rfl, hpoint⟩
      · rw [if_neg (Ne.symm hc)] at h
        cases h

theorem digitsValue_dropZeros? (hpoint : '.' ∉ t) (h : dropZeros? t = some u) :
    digitsValue u = digitsValue t ∧ '.' ∉ u := by
  cases t with
  | nil => cases h
  | cons c rest =>
    have hrest : '.' ∉ rest := fun hmem => hpoint (List.mem_cons_of_mem c hmem)
    rw [dropZeros?] at h
    split at h
    · rename_i hc
      subst hc
      rw [digitsValue_zero]
      exact digitsValue_dropZeros_go (.inl rfl) hrest h
    · split at h
      · cases h
        exact ⟨rfl, hpoint⟩
      · cases h

theorem digitsValue_dropUnderscores (t : Text) :
    digitsValue (dropUnderscores t) = digitsValue t := by
  have hunderscore : ∀ c : Char, (!decide (c = '_')) = false → digitValue? c = none := by
    intro c hc
    have hc : c = '_' := by simpa using hc
    rw [hc]
    decide
  rw [dropUnderscores]
  split
  · rfl
  · rw [digitsValue, flatten_cut, digitsIn_filter hunderscore]
    rfl

theorem dropZeroFraction_of_notMem (h : '.' ∉ t) : dropZeroFraction t = t := by
  rw [dropZeroFraction, cutFirst_of_notMem h]

theorem digitsValue_cleanDigits? (hpoint : '.' ∉ t) (h : cleanDigits? t = some u) :
    digitsValue u = digitsValue t := by
  obtain ⟨v, hv, hu⟩ := Option.bind_eq_some_iff.1 h
  obtain ⟨hvalue, hnone⟩ := digitsValue_dropZeros? hpoint hv
  cases hu
  rw [dropZeroFraction_of_notMem hnone, digitsValue_dropUnderscores, hvalue]

theorem digitsValue_clean? (hpoint : '.' ∉ t) (h : clean? t = some u) :
    digitsValue u = digitsValue t := by
  have htrim : digitsValue (trim isWhiteSpace t) = digitsValue t :=
    congrArg valueOfDigits (digitsIn_trim t)
  replace hpoint : '.' ∉ trim isWhiteSpace t := fun hmem => hpoint (mem_of_mem_trim hmem)
  have hsign {c : Char} (hc : digitValue? c = none) (v : Text) :
      digitsValue (c :: v) = digitsValue v :=
    congrArg valueOfDigits (digitsIn_cons_of_none hc v)
  rw [← htrim]
  rw [clean?] at h
  split at h
  · cases h
  · rename_i digits _ heq
    rw [heq] at hpoint ⊢
    rw [hsign (by decide)]
    exact digitsValue_cleanDigits? (fun hmem => hpoint (List.mem_cons_of_mem _ hmem)) h
  · rename_i digits heq
    obtain ⟨v, hv, rfl⟩ := Option.map_eq_some_iff.1 h
    rw [heq] at hpoint ⊢
    rw [hsign (by decide), hsign (by decide)]
    exact digitsValue_cleanDigits? (fun hmem => hpoint (List.mem_cons_of_mem _ hmem)) hv
  · exact digitsValue_cleanDigits? hpoint h

open Json.Number in
theorem whole_of_scan {bounded : Bool} (h : scan bounded t = .found (.whole n) []) :
    ∃ negative digits, t = minus negative ++ digits ∧ (∀ c ∈ digits, c.isDigit = true) ∧
      n = signed negative digits := by
  obtain ⟨u, rfl, p, hp, -, hnumber⟩ := spells_of_scan h
  cases hp with
  | @mk negative digits _ _ f x hd hf hx =>
    cases hf with
    | places => cases hnumber
    | absent =>
      cases hx with
      | present => cases hnumber
      | absent =>
        cases hnumber
        refine ⟨negative, digits, by simp only [List.append_nil], ?_, rfl⟩
        cases hd with
        | zero => exact fun c hc => by cases List.mem_singleton.1 hc; rfl
        | digits _ hall => exact hall

theorem natAbs_of_scan {bounded : Bool} (h : Json.Number.scan bounded t = .found (.whole n) []) :
    n.natAbs = digitsValue t := by
  obtain ⟨negative, digits, rfl, hdigits, rfl⟩ := whole_of_scan h
  have hvalue : digitsValue (Json.Number.minus negative ++ digits) = digitsValue digits := by
    cases negative with
    | true => exact congrArg valueOfDigits (digitsIn_cons_of_none (by decide) digits)
    | false => rfl
  rw [hvalue, digitsValue_of_isDigit hdigits, Json.Number.signed]
  cases negative with
  | true => exact Int.natAbs_neg _
  | false => rfl

theorem scan_of_integerOfText (h : integerOfText t = .ok n) :
    Json.Number.scan true t = .found (.whole n) [] ∨
      ∃ u, clean? t = some u ∧ Json.Number.scan true u = .found (.whole n) [] := by
  rw [integerOfText] at h
  split at h
  · rename_i hscan
    cases h
    exact .inl hscan
  · cases h
  · split at h
    · rename_i hscan
      cases h
      exact .inr (Option.map_eq_some_iff.1 hscan)
    · cases h

/-- Where no fraction is dropped, a text is read as the number that its digits spell, up to the
sign. -/
theorem natAbs_of_integerOfText (hpoint : '.' ∉ t) (h : integerOfText t = .ok n) :
    n.natAbs = digitsValue t := by
  rcases scan_of_integerOfText h with hscan | ⟨u, hclean, hscan⟩
  · exact natAbs_of_scan hscan
  · rw [natAbs_of_scan hscan, digitsValue_clean? hpoint hclean]

/-- Digits of ASCII, and underscores. -/
def IsAsciiGroups (t : Text) : Prop :=
  ∀ c ∈ t, c.isDigit = true ∨ c = '_'

theorem dropZeros?_of_ne {c : Char} (hc : c.isDigit = true) (hzero : c ≠ '0') (rest : Text) :
    dropZeros? (c :: rest) = some (c :: rest) := by
  have hopens : opensNumber c = true := by simp [opensNumber, hzero, hc]
  rw [dropZeros?, if_neg hzero, if_pos hopens]

theorem dropZeros?_go_digit {c : Char} (hc : c.isDigit = true) (last : Char) (rest : Text) :
    dropZeros?.go last (c :: rest) = dropZeros? (c :: rest) := by
  have hunderscore : c ≠ '_' := by
    rintro rfl
    cases hc
  by_cases hzero : c = '0'
  · rw [dropZeros?.go, dropZeros?, if_pos (by simp [hzero]), if_pos hzero]
  · have hopens : opensNumber c = true := by simp [opensNumber, hzero, hc]
    rw [dropZeros?.go, dropZeros?_of_ne hc hzero, if_neg (by simp [hzero, hunderscore]),
      if_pos hopens]

theorem head_of_grouped {digits : List Nat} (h : groupedDigits? t = some digits)
    (hascii : IsAsciiGroups t) : ∃ c rest, t = c :: rest ∧ c.isDigit = true := by
  obtain ⟨groups, rfl, hgroups⟩ := exists_groups h
  obtain ⟨c, rest, d, hjoin, hd⟩ := hgroups.exists_cons
  have hc := hascii c (hjoin ▸ List.mem_cons_self)
  exact ⟨c, rest, hjoin, hc.resolve_right (ne_of_digit hd (by decide))⟩

/-- What remains of digits without the zeros in front of them. -/
structure Remains (t : Text) (digits : List Nat) (u : Text) : Prop where
  dropped : dropZeros? t = some u
  grouped : ∃ ds, groupedDigits? u = some ds ∧ ds.length ≤ digits.length
  subset : u ⊆ t
  head : u = ['0'] ∨ u.head? ≠ some '0'

theorem Remains.cons_zero {rest more : Text} {digits : List Nat} (h : Remains rest digits u)
    (hdropped : dropZeros?.go '0' more = dropZeros? rest) (hsub : rest ⊆ more) (d : Nat) :
    Remains ('0' :: more) (d :: digits) u where
  dropped := hdropped.trans h.dropped
  grouped := by
    obtain ⟨ds, hds, hlength⟩ := h.grouped
    exact ⟨ds, hds, Nat.le_succ_of_le hlength⟩
  subset := fun _ hc => List.mem_cons_of_mem _ (hsub (h.subset hc))
  head := h.head

theorem exists_remains {t : Text} {digits : List Nat} (h : groupedDigits? t = some digits)
    (hascii : IsAsciiGroups t) : ∃ u, Remains t digits u := by
  have hzeroValue : digitValue? '0' = some 0 := by decide
  obtain ⟨c, rest, rfl, hc⟩ := head_of_grouped h hascii
  by_cases hzero : c = '0'
  · subst hzero
    obtain ⟨-, hrest⟩ := List.forall_mem_cons.1 hascii
    cases rest with
    | nil =>
      cases h
      exact ⟨['0'], rfl, ⟨[0], rfl, Nat.le_refl _⟩, List.Subset.refl _, .inl rfl⟩
    | cons e more =>
      obtain ⟨he, hmore⟩ := List.forall_mem_cons.1 hrest
      rcases he with he | rfl
      · rw [groupedDigits?_digit hzeroValue (digitValue?_of_isDigit he)] at h
        obtain ⟨ds, hds, rfl⟩ := Option.map_eq_some_iff.1 h
        obtain ⟨u, hu⟩ := exists_remains hds hrest
        exact ⟨u, hu.cons_zero (dropZeros?_go_digit he '0' more) (List.Subset.refl _) 0⟩
      · rw [groupedDigits?_underscore hzeroValue] at h
        obtain ⟨ds, hds, rfl⟩ := Option.map_eq_some_iff.1 h
        obtain ⟨u, hu⟩ := exists_remains hds hmore
        obtain ⟨e, last, rfl, he⟩ := head_of_grouped hds hmore
        have hdropped : dropZeros?.go '0' ('_' :: e :: last) = dropZeros? (e :: last) :=
          dropZeros?_go_digit he '_' last
        exact ⟨u, hu.cons_zero hdropped (List.subset_cons_self _ _) 0⟩
  · exact ⟨c :: rest, dropZeros?_of_ne hc hzero rest, ⟨digits, h, Nat.le_refl _⟩,
      List.Subset.refl _, .inr fun hhead => hzero (Option.some.inj hhead)⟩
termination_by t.length

theorem dropUnderscores_of_grouped {digits : List Nat} (h : groupedDigits? t = some digits) :
    dropUnderscores t = t.filter (fun c => !decide (c = '_')) ∧
      (dropUnderscores t).length = digits.length := by
  obtain ⟨groups, rfl, hgroups⟩ := exists_groups h
  have hunderscore : ∀ group ∈ groups, '_' ∉ group := by
    intro group hgroup hmem
    obtain ⟨d, hd⟩ := hgroups.digit_of_mem (List.mem_flatten_of_mem hgroup hmem)
    exact ne_of_digit hd (by decide) rfl
  have hcut : cut (· = '_') (join "_" groups) = groups := cut_join hgroups.ne_nil hunderscore
  have hfilled : groups.any List.isEmpty = false := by
    rw [List.any_eq_false]
    intro group hgroup
    simpa using hgroups.filled group hgroup
  have hdrop : dropUnderscores (join "_" groups) = groups.flatten := by
    rw [dropUnderscores, hcut]
    exact if_neg (by simp [hfilled])
  constructor
  · rw [hdrop, ← flatten_cut, hcut]
  · have hlength := congrArg List.length hgroups.values
    rwa [List.length_map, List.length_map, ← hdrop] at hlength

theorem cleanDigits?_of_grouped {digits : List Nat} (h : groupedDigits? t = some digits)
    (hascii : IsAsciiGroups t) :
    ∃ u, cleanDigits? t = some u ∧ Json.Number.Whole u ∧ u.length ≤ digits.length := by
  obtain ⟨v, hv⟩ := exists_remains h hascii
  obtain ⟨ds, hds, hlength⟩ := hv.grouped
  have hvascii : IsAsciiGroups v := fun c hc => hascii c (hv.subset hc)
  obtain ⟨hfilter, hcount⟩ := dropUnderscores_of_grouped hds
  refine ⟨dropUnderscores v, ?_, ?_, hcount ▸ hlength⟩
  · rw [cleanDigits?, hv.dropped]
    exact congrArg (some <| dropUnderscores ·)
      (dropZeroFraction_of_notMem (notMem_grouped hds (by decide) (by decide)))
  · obtain ⟨c, rest, rfl, hc⟩ := head_of_grouped hds hvascii
    rcases hv.head with hzero | hhead
    · rw [hzero]
      exact .zero
    · have hall : ∀ d ∈ (c :: rest).filter fun c => !decide (c = '_'), d.isDigit = true := by
        intro d hd
        obtain ⟨hmem, hne⟩ := List.mem_filter.1 hd
        exact (hvascii d hmem).resolve_right (by simpa using hne)
      have hunderscore : c ≠ '_' := by
        rintro rfl
        cases hc
      rw [hfilter]
      rw [List.filter_cons_of_pos (by simp [hunderscore])] at hall ⊢
      exact .digits (fun hzero => hhead (hzero ▸ rfl)) hall

theorem clean?_of_digit {c : Char} {rest : Text}
    (htrim : trim isWhiteSpace t = c :: rest ∨ trim isWhiteSpace t = '+' :: c :: rest)
    (hc : c.isDigit = true) : clean? t = cleanDigits? (c :: rest) := by
  have hplus : c ≠ '+' := by
    rintro rfl
    cases hc
  have hminus : c ≠ '-' := by
    rintro rfl
    cases hc
  rw [clean?]
  rcases htrim with htrim | htrim <;> rw [htrim]
  · split <;> simp_all
  · split <;> simp_all

theorem exists_integerOfText (hclean : clean? t = some u)
    (hscan : Json.Number.scan true u = .found (.whole n) [])
    (hlong : Json.Number.scan true t ≠ .tooLong) : ∃ m, integerOfText t = .ok m := by
  rw [integerOfText]
  split
  · exact ⟨_, rfl⟩
  · rename_i htooLong
    exact absurd htooLong hlong
  · rw [hclean, Option.map_some, hscan]
    exact ⟨n, rfl⟩

theorem scan_ne_tooLong (h : (digitsIn t).length ≤ digitLimit) (bounded : Bool) :
    Json.Number.scan bounded t ≠ .tooLong := by
  intro hlong
  obtain ⟨before, digits, rest, rfl, hall, hlimit⟩ := Json.Number.digits_of_scan hlong
  rw [digitsIn_append, digitsIn_append, digitsIn_of_isDigit hall, List.length_append,
    List.length_append, List.length_map] at h
  omega

theorem nonneg_of_scan {bounded : Bool} (hminus : '-' ∉ t)
    (h : Json.Number.scan bounded t = .found (.whole n) []) : 0 ≤ n := by
  obtain ⟨negative, digits, rfl, -, rfl⟩ := whole_of_scan h
  cases negative with
  | true => exact absurd List.mem_cons_self hminus
  | false => exact Int.natCast_nonneg _

open Json.Number in
theorem scan_of_whole (hu : Whole u) (hlength : u.length ≤ digitLimit) (bounded : Bool) :
    scan bounded u = .found (.whole (signed false u)) [] := by
  have hends : Ends [] := nofun
  have hspells : Parts.Spells ⟨false, u, none, none⟩ (minus false ++ (u ++ ([] ++ []))) :=
    .mk false hu .absent .absent
  rw [List.append_nil, List.append_nil] at hspells
  have hlong : (⟨false, u, none, none⟩ : Parts).tooLong bounded = false := by
    rw [Parts.tooLong, decide_eq_false (Nat.not_lt.2 hlength), Bool.and_false]
  have hscan := scan_of_spells ⟨_, hspells, hlong, rfl⟩ hends
  rwa [List.append_nil] at hscan

/-- A positive number that a text spells in digits of ASCII is read out of it. -/
theorem integerOfText_of_spells (h : SpellsInteger t n) (hpositive : 1 ≤ n)
    (hascii : ∀ c ∈ t, ∀ d, digitValue? c = some d → c.isDigit = true) :
    integerOfText t = .ok n := by
  have hread : int? t = some n := int?_eq_some.2 h
  obtain ⟨sign, hsign, rest, digits, hcut, hdigits, hshort, hn⟩ := exists_parts_of_int? hread
  have hsigns : sign.1 = [] ∨ sign.1 = ['+'] := by
    simp only [signs, List.mem_cons, List.not_mem_nil, or_false] at hsign
    rcases hsign with rfl | rfl | rfl
    · exact .inl rfl
    · exact .inr rfl
    · omega
  have hrest : IsAsciiGroups rest := by
    intro c hc
    have hmem : c ∈ t := mem_of_mem_trim (hcut ▸ List.mem_append_right _ hc)
    exact (of_mem_grouped hdigits hc).imp_left fun hdigit => hdigit.elim (hascii c hmem)
  have hminus : '-' ∉ t := by
    refine notMem_of_int? hcut hdigits (by decide) ?_ (by decide) (by decide)
    rcases hsigns with hs | hs <;> rw [hs] <;> decide
  obtain ⟨u, hclean, hwhole, hlength⟩ := cleanDigits?_of_grouped hdigits hrest
  have hscan := scan_of_whole hwhole (Nat.le_trans hlength hshort) true
  obtain ⟨c, more, rfl, hc⟩ := head_of_grouped hdigits hrest
  have htrim : trim isWhiteSpace t = c :: more ∨ trim isWhiteSpace t = '+' :: c :: more := by
    rw [hcut]
    exact hsigns.imp (fun hs => by rw [hs]; rfl) (fun hs => by rw [hs]; rfl)
  have hcleaned : clean? t = some u := (clean?_of_digit htrim hc).trans hclean
  have hlong : (digitsIn t).length ≤ digitLimit := by rwa [digitsIn_of_int? hsign hcut hdigits]
  obtain ⟨m, hm⟩ := exists_integerOfText hcleaned hscan (scan_ne_tooLong hlong true)
  have hnonneg : 0 ≤ m := by
    rcases scan_of_integerOfText hm with hscan | ⟨v, hv, hscan'⟩
    · exact nonneg_of_scan hminus hscan
    · cases hcleaned.symm.trans hv
      cases hscan.symm.trans hscan'
      exact Int.natCast_nonneg _
  obtain ⟨hvalue, hpoint⟩ := natAbs_of_int? hread
  have hsame := (natAbs_of_integerOfText hpoint hm).trans hvalue.symm
  have hmn : m = n := by omega
  rw [hm, hmn]

end Port

end Scaffold
