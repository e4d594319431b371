import Mathlib.Data.List.TakeWhile
import Scaffold.Json.Number

namespace Scaffold.Json.Number

/-- The digits of a whole part: a zero, or digits of which the first is no zero. -/
inductive Whole : Text → Prop where
  | zero : Whole ['0']
  | digits {c rest} : c ≠ '0' → (∀ d ∈ c :: rest, d.isDigit = true) → Whole (c :: rest)

/-- The digits of a fraction, and the text of the fraction. -/
inductive Fraction : Option Text → Text → Prop where
  | absent : Fraction none []
  | places {c rest} : (∀ d ∈ c :: rest, d.isDigit = true) →
      Fraction (some (c :: rest)) ('.' :: c :: rest)

inductive Sign : Bool → Text → Prop where
  | absent : Sign false []
  | plus : Sign false ['+']
  | minus : Sign true ['-']

/-- The natural number that digits spell, with a sign. -/
def signed (negative : Bool) (digits : Text) : Int :=
  let n : Int := Nat.ofDigitChars 10 digits 0
  if negative then -n else n

def minus (negative : Bool) : Text :=
  if negative then ['-'] else []

/-- An exponent, and its text. -/
inductive Exponent : Option Int → Text → Prop where
  | absent : Exponent none []
  | present {e negative sign digits} : e = 'e' ∨ e = 'E' → Sign negative sign → digits ≠ [] →
      (∀ d ∈ digits, d.isDigit = true) →
      Exponent (some (signed negative digits)) (e :: (sign ++ digits))

/-- What the notation of a number says. -/
structure Parts where
  negative : Bool
  digits : Text
  fraction : Option Text
  exponent : Option Int

namespace Parts

def number (p : Parts) : Number :=
  let places := p.fraction.getD []
  if p.fraction.isNone && p.exponent.isNone then .whole (signed p.negative p.digits)
  else .decimal (signed p.negative (p.digits ++ places)) (p.exponent.getD 0 - places.length)

def tooLong (bounded : Bool) (p : Parts) : Bool :=
  ((p.fraction.isNone && p.exponent.isNone) || bounded) && Text.digitLimit < p.digits.length

inductive Spells : Parts → Text → Prop where
  | mk (negative) {digits fraction exponent f x} : Whole digits → Fraction fraction f →
      Exponent exponent x → Spells ⟨negative, digits, fraction, exponent⟩
        (minus negative ++ (digits ++ (f ++ x)))

end Parts

/-- Nothing that a number could go on with. -/
def Ends (rest : Text) : Prop :=
  ∀ c ∈ rest.head?, c.isDigit = false ∧ c ≠ '.' ∧ c ≠ 'e' ∧ c ≠ 'E'

variable {t f x rest digits places : Text} {c : Char} {bounded negative : Bool} {n : Number}
  {fraction : Option Text} {exponent : Option Int} {p : Parts}

theorem Ends.head_digits (h : Ends rest) : ∀ c ∈ rest.head?, c.isDigit = false :=
  fun c hc => (h c hc).1

theorem spanDigits_append (hdigits : ∀ c ∈ digits, c.isDigit = true)
    (h : ∀ c ∈ rest.head?, c.isDigit = false) : spanDigits (digits ++ rest) = (digits, rest) := by
  have htake : rest.takeWhile Char.isDigit = [] := by
    cases rest with
    | nil => rfl
    | cons c rest => exact List.takeWhile_cons_of_neg (by simp [h c rfl])
  have hdrop : rest.dropWhile Char.isDigit = rest := by
    cases rest with
    | nil => rfl
    | cons c rest => exact List.dropWhile_cons_of_neg (by simp [h c rfl])
  rw [spanDigits, List.takeWhile_append_of_pos hdigits, List.dropWhile_append_of_pos hdigits, htake,
    hdrop, List.append_nil]

theorem spanDigits_eq (h : spanDigits t = (digits, rest)) :
    t = digits ++ rest ∧ ∀ c ∈ digits, c.isDigit = true := by
  cases h
  refine ⟨List.takeWhile_append_dropWhile.symm, ?_⟩
  intro c hc
  exact List.mem_takeWhile_imp hc

theorem spanWhole_append (hd : Whole digits) (h : ∀ c ∈ rest.head?, c.isDigit = false) :
    spanWhole (digits ++ rest) = some (digits, rest) := by
  cases hd with
  | zero => rfl
  | digits hc hall =>
    have hspan := spanDigits_append hall h
    rw [List.cons_append, spanWhole, if_pos (hall _ List.mem_cons_self), ← List.cons_append, hspan]
    exact fun hzero => hc hzero

theorem spanWhole_eq_some (h : spanWhole t = some (digits, rest)) :
    t = digits ++ rest ∧ Whole digits := by
  unfold spanWhole at h
  split at h
  · cases h
    exact ⟨rfl, .zero⟩
  · rename_i c more hc
    split at h
    · rename_i hdigit
      obtain ⟨heq, hall⟩ := spanDigits_eq (Option.some.inj h)
      refine ⟨heq, ?_⟩
      cases digits with
      | nil =>
        have hfirst := (Prod.mk.inj (Option.some.inj h)).1
        rw [List.takeWhile_cons_of_pos hdigit] at hfirst
        cases hfirst
      | cons d digits =>
        obtain ⟨rfl, -⟩ := List.cons.inj heq
        exact .digits (fun hzero => hc (hzero ▸ rfl)) hall
    · cases h
  · cases h

theorem head_exponent (hx : Exponent exponent x) (h : Ends rest) :
    ∀ c ∈ (x ++ rest).head?, c.isDigit = false ∧ c ≠ '.' := by
  intro c hc
  cases hx with
  | absent => exact ⟨(h c hc).1, (h c hc).2.1⟩
  | present he =>
    cases hc
    rcases he with rfl | rfl <;> decide

theorem head_fraction (hf : Fraction fraction f)
    (h : ∀ c ∈ rest.head?, c.isDigit = false ∧ c ≠ '.') :
    ∀ c ∈ (f ++ rest).head?, c.isDigit = false := by
  intro c hc
  cases hf with
  | absent => exact (h c hc).1
  | places =>
    cases hc
    rfl

theorem spanFraction_append (hf : Fraction fraction f)
    (h : ∀ c ∈ rest.head?, c.isDigit = false ∧ c ≠ '.') :
    spanFraction (f ++ rest) = fraction.map (·, rest) := by
  cases hf with
  | absent =>
    rw [List.nil_append]
    unfold spanFraction
    split
    · exact absurd rfl (h '.' rfl).2
    · rfl
  | places hall =>
    have hspan := spanDigits_append hall fun c hc => (h c hc).1
    rw [List.cons_append, List.cons_append, spanFraction, if_pos (hall _ List.mem_cons_self),
      ← List.cons_append, hspan]
    rfl

theorem spanFraction_eq (t : Text) : ∃ fraction f rest, t = f ++ rest ∧ Fraction fraction f ∧
    spanFraction t = fraction.map (·, rest) := by
  cases hspan : spanFraction t with
  | none => exact ⟨none, [], t, rfl, .absent, rfl⟩
  | some result =>
    obtain ⟨places, rest⟩ := result
    unfold spanFraction at hspan
    split at hspan
    · rename_i c more
      split at hspan
      · rename_i hc
        obtain ⟨heq, hall⟩ := spanDigits_eq (Option.some.inj hspan)
        cases places with
        | nil =>
          have hfirst := (Prod.mk.inj (Option.some.inj hspan)).1
          rw [List.takeWhile_cons_of_pos hc] at hfirst
          cases hfirst
        | cons d places =>
          refine ⟨some (d :: places), '.' :: d :: places, rest, ?_, .places hall, rfl⟩
          rw [heq]
          rfl
      · cases hspan
    · cases hspan

theorem cutSign_append {sign : Text} (hsign : Sign negative sign) (hne : digits ≠ [])
    (hall : ∀ c ∈ digits, c.isDigit = true) (rest : Text) :
    Text.cutSign (sign ++ digits ++ rest) = (negative, digits ++ rest) := by
  cases hsign with
  | absent =>
    obtain ⟨d, digits, rfl⟩ := List.exists_cons_of_ne_nil hne
    have hd := hall d List.mem_cons_self
    rw [List.nil_append, List.cons_append, Text.cutSign]
    · rintro _ heq
      rw [(List.cons.inj heq).1] at hd
      cases hd
    · rintro _ heq
      rw [(List.cons.inj heq).1] at hd
      cases hd
  | plus => rfl
  | minus => rfl

theorem cutSign_eq (h : Text.cutSign t = (negative, rest)) :
    ∃ sign, t = sign ++ rest ∧ Sign negative sign := by
  unfold Text.cutSign at h
  split at h <;> cases h
  · exact ⟨['-'], rfl, .minus⟩
  · exact ⟨['+'], rfl, .plus⟩
  · exact ⟨[], rfl, .absent⟩

theorem spanExponent_of_ends (h : Ends rest) : spanExponent rest = none := by
  cases rest with
  | nil => rfl
  | cons c rest =>
    obtain ⟨-, -, he, hE⟩ := h c rfl
    rw [spanExponent, if_neg (not_or.2 ⟨he, hE⟩)]

theorem spanExponent_append (hx : Exponent exponent x) (h : Ends rest) :
    spanExponent (x ++ rest) = exponent.map (·, rest) := by
  cases hx with
  | absent => exact spanExponent_of_ends h
  | present he hsign hne hall =>
    have hspan := spanDigits_append hall h.head_digits
    rw [List.cons_append, spanExponent, if_pos he, cutSign_append hsign hne hall]
    obtain ⟨d, digits, rfl⟩ := List.exists_cons_of_ne_nil hne
    simp only [hspan]
    rfl

theorem spanExponent_eq (t : Text) : ∃ exponent x rest, t = x ++ rest ∧ Exponent exponent x ∧
    spanExponent t = exponent.map (·, rest) := by
  cases hspan : spanExponent t with
  | none => exact ⟨none, [], t, rfl, .absent, rfl⟩
  | some result =>
    obtain ⟨n, rest⟩ := result
    unfold spanExponent at hspan
    split at hspan
    · rename_i e more
      split at hspan
      · rename_i he
        split at hspan
        rename_i negative unsigned hsign
        obtain ⟨sign, rfl, hsigned⟩ := cutSign_eq hsign
        split at hspan
        · cases hspan
        · rename_i digits _ hne hdigits
          obtain ⟨heq, hall⟩ := spanDigits_eq hdigits
          cases hspan
          refine ⟨_, e :: (sign ++ digits), rest, ?_, .present he hsigned ?_ hall, rfl⟩
          · rw [List.cons_append, List.append_assoc, ← heq]
          · rintro rfl
            exact hne rfl
      · cases hspan
    · cases hspan

theorem scan_of_spans (bounded negative : Bool) (hd : Whole digits) (hf : Fraction fraction f)
    (hx : Exponent exponent x)
    (hwhole : spanWhole (digits ++ (f ++ (x ++ rest))) = some (digits, f ++ (x ++ rest)))
    (hfraction : spanFraction (f ++ (x ++ rest)) = fraction.map (·, x ++ rest))
    (hexponent : spanExponent (x ++ rest) = exponent.map (·, rest)) :
    scan bounded (minus negative ++ (digits ++ (f ++ (x ++ rest)))) =
      if (⟨negative, digits, fraction, exponent⟩ : Parts).tooLong bounded then .tooLong
      else .found (⟨negative, digits, fraction, exponent⟩ : Parts).number rest := by
  have hafter : ((fraction.map (·, x ++ rest)).map Prod.snd).getD (f ++ (x ++ rest)) =
      x ++ rest := by
    cases hf <;> rfl
  have hend : ((exponent.map (·, rest)).map Prod.snd).getD (x ++ rest) = rest := by
    cases hx <;> rfl
  rw [scan.eq_def]
  split
  rename_i sign unsigned hsign
  have hunsigned : sign = negative ∧ unsigned = digits ++ (f ++ (x ++ rest)) := by
    cases negative with
    | true =>
      cases hsign
      exact ⟨rfl, rfl⟩
    | false =>
      split at hsign
      · rename_i hminus
        cases hd with
        | zero => cases hminus
        | digits _ hall =>
          cases hminus
          exact absurd (hall '-' List.mem_cons_self) (by decide)
      · cases hsign
        exact ⟨rfl, rfl⟩
  obtain ⟨rfl, rfl⟩ := hunsigned
  simp only [hwhole, hfraction, hafter, hexponent, hend]
  cases hf with
  | absent =>
    cases hx with
    | absent =>
      simp only [Option.map_none, Option.getD_none, List.append_nil]
      rfl
    | present => rfl
  | places => cases hx <;> rfl

theorem scan_of_parts {u : Text} (hp : p.Spells u) (h : Ends rest) : scan bounded (u ++ rest) =
    if p.tooLong bounded then .tooLong else .found p.number rest := by
  cases hp with
  | mk negative hd hf hx =>
    have hexponent := head_exponent hx h
    have hscan := scan_of_spans bounded negative hd hf hx
      (spanWhole_append hd (head_fraction hf hexponent)) (spanFraction_append hf hexponent)
      (spanExponent_append hx h)
    simpa only [List.append_assoc] using hscan

/-- Whatever is scanned has the parts of a number. -/
theorem parts_of_scan (bounded : Bool) (t : Text) : scan bounded t = .missing ∨
    ∃ (p : Parts) (u rest : Text), t = u ++ rest ∧ p.Spells u ∧
      scan bounded t = if p.tooLong bounded then .tooLong else .found p.number rest := by
  obtain ⟨negative, unsigned, ht, hmissing⟩ : ∃ negative unsigned, t = minus negative ++ unsigned ∧
      (spanWhole unsigned = none → scan bounded t = .missing) := by
    by_cases hminus : ∃ rest, t = '-' :: rest
    · obtain ⟨rest, rfl⟩ := hminus
      refine ⟨true, rest, rfl, fun h => ?_⟩
      rw [scan.eq_def]
      simp only [h]
    · refine ⟨false, t, rfl, fun h => ?_⟩
      rw [scan.eq_def]
      split
      rename_i hsign
      split at hsign
      · exact absurd ⟨_, rfl⟩ hminus
      · cases hsign
        simp only [h]
  cases hwhole : spanWhole unsigned with
  | none => exact .inl (hmissing hwhole)
  | some result =>
    obtain ⟨digits, more⟩ := result
    obtain ⟨rfl, hd⟩ := spanWhole_eq_some hwhole
    obtain ⟨fraction, f, more, rfl, hf, hfraction⟩ := spanFraction_eq more
    obtain ⟨exponent, x, rest, rfl, hx, hexponent⟩ := spanExponent_eq more
    subst ht
    refine .inr ⟨⟨negative, digits, fraction, exponent⟩, _, rest, ?_, .mk negative hd hf hx,
      scan_of_spans bounded negative hd hf hx hwhole hfraction hexponent⟩
    simp only [List.append_assoc]

theorem scan_of_long (bounded : Bool) (hd : Whole digits)
    (hlong : Text.digitLimit < digits.length) :
    scan bounded digits = .tooLong := by
  have hends : Ends [] := nofun
  have hscan : scan bounded (_ ++ []) = _ := scan_of_parts (.mk false hd .absent .absent) hends
  simpa [minus, Parts.tooLong, hlong] using hscan

/-- A text that spells a number whose whole part is not too long. -/
def Spells (bounded : Bool) (n : Number) (t : Text) : Prop :=
  ∃ p : Parts, p.Spells t ∧ p.tooLong bounded = false ∧ p.number = n

theorem scan_of_spells (hn : Spells bounded n t) (h : Ends rest) :
    scan bounded (t ++ rest) = .found n rest := by
  obtain ⟨p, hp, hlong, rfl⟩ := hn
  rw [scan_of_parts hp h, hlong]
  rfl

theorem spells_of_scan (h : scan bounded t = .found n rest) :
    ∃ u, t = u ++ rest ∧ Spells bounded n u := by
  rcases parts_of_scan bounded t with hmissing | ⟨p, u, more, rfl, hp, hscan⟩
  · rw [hmissing] at h
    cases h
  · rw [hscan] at h
    split at h
    · cases h
    · cases h
      exact ⟨u, rfl, p, hp, Bool.eq_false_iff.2 ‹_›, rfl⟩

theorem digits_of_scan (h : scan bounded t = .tooLong) : ∃ before digits rest,
    t = before ++ (digits ++ rest) ∧ (∀ c ∈ digits, c.isDigit = true) ∧
      Text.digitLimit < digits.length := by
  rcases parts_of_scan bounded t with hmissing | ⟨p, u, more, rfl, hp, hscan⟩
  · rw [hmissing] at h
    cases h
  · rw [hscan] at h
    split at h
    · rename_i hlong
      have hlong := of_decide_eq_true (Bool.and_eq_true_iff.1 hlong).2
      cases hp with
      | @mk negative digits _ _ f x hd hf hx =>
        refine ⟨minus negative, digits, f ++ (x ++ more), ?_, ?_, hlong⟩
        · simp only [List.append_assoc]
        · cases hd with
          | zero => exact fun c hc => by cases List.mem_singleton.1 hc; rfl
          | digits _ hall => exact hall
    · cases h

theorem toDigits_head {n : Nat} (h : 0 < n) :
    ∃ d digits, Nat.toDigits 10 n = d :: digits ∧ d ≠ '0' := by
  induction n using Nat.strongRecOn with
  | ind n ih =>
    by_cases hn : n < 10
    · have hdigit : ∀ m : Fin 10, 0 < m.val → m.val.digitChar ≠ '0' := by decide
      exact ⟨n.digitChar, [], Nat.toDigits_of_lt_base hn, hdigit ⟨n, hn⟩ h⟩
    · have hn := Nat.le_of_not_lt hn
      obtain ⟨d, digits, heq, hd⟩ := ih (n / 10) (by omega) (by omega)
      refine ⟨d, digits ++ [(n % 10).digitChar], ?_, hd⟩
      rw [Nat.toDigits_of_base_le (by decide) hn, heq]
      rfl

theorem length_toDigits_le {n : Nat} (h : n < Text.numberLimit) :
    (Nat.toDigits 10 n).length ≤ Text.digitLimit := by
  have hlimit : 0 < Text.digitLimit := by decide
  unfold Text.numberLimit at h
  generalize Text.digitLimit = k at h hlimit ⊢
  exact (Nat.length_toDigits_le_iff (by decide) hlimit).2 h

theorem whole_toDigits (n : Nat) : Whole (Nat.toDigits 10 n) := by
  by_cases hn : 0 < n
  · have hall : ∀ c ∈ Nat.toDigits 10 n, c.isDigit = true := fun c hc =>
      Nat.isDigit_of_mem_toDigits (by decide) (by decide) hc
    obtain ⟨d, digits, heq, hd⟩ := toDigits_head hn
    rw [heq] at hall ⊢
    exact .digits hd hall
  · cases Nat.eq_zero_of_not_pos hn
    exact .zero

theorem spells_toDigits {n : Nat} (negative : Bool) (hn : n < Text.numberLimit) :
    Spells bounded (.whole (if negative then -(n : Int) else n))
      (minus negative ++ Nat.toDigits 10 n) := by
  have hshort := decide_eq_false (Nat.not_lt.2 (length_toDigits_le hn))
  have hspells := Parts.Spells.mk negative (whole_toDigits n) .absent .absent
  rw [List.append_nil, List.append_nil] at hspells
  refine ⟨_, hspells, ?_, ?_⟩
  · rw [Parts.tooLong, hshort, Bool.and_false]
  · rw [Parts.number, signed, Nat.ofDigitChars_ten_toDigits]
    rfl

theorem spells_ofInt {m : Int} (bounded : Bool) (hm : m.natAbs < Text.numberLimit) :
    Spells bounded (.whole m) (Text.ofInt m) := by
  cases m with
  | ofNat n => exact spells_toDigits false hm
  | negSucc n => exact spells_toDigits true hm

end Scaffold.Json.Number
