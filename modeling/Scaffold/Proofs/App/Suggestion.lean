import Mathlib.Data.List.Basic
import Scaffold.App.Name
import Scaffold.Proofs.Text.Case
import Scaffold.Proofs.Text.Runs
import Scaffold.Proofs.Text.Strip

namespace Scaffold.AppName

open Text

/-- Small letters and digits of ASCII, and the underscore. -/
def isSlugChar (c : Char) : Bool :=
  c.isLower || c.isDigit || c = '_'

structure IsPart (t : Text) : Prop where
  ne_nil : t ≠ []
  all : ∀ c ∈ t, isSlugChar c = true

/-- One part, or several with a hyphen between neighbours: `[a-z0-9_]+(-[a-z0-9_]+)*`. -/
inductive IsSlug : Text → Prop where
  | part {t} : IsPart t → IsSlug t
  | hyphen {t u} : IsPart t → IsSlug u → IsSlug (t ++ '-' :: u)

variable {t u before suggestion : Text} {c : Char} {parts : List Text} {fault : Fault}

theorem IsPart.hyphen_notMem (h : IsPart t) : '-' ∉ t := by
  intro hmem
  exact absurd (h.all '-' hmem) (by decide)

theorem isSlug_join (hne : parts ≠ []) (h : ∀ part ∈ parts, IsPart part) :
    IsSlug (join "-" parts) := by
  induction parts with
  | nil => exact absurd rfl hne
  | cons part rest ih =>
    obtain ⟨hpart, hrest⟩ := List.forall_mem_cons.1 h
    cases rest with
    | nil => exact .part hpart
    | cons next rest =>
      rw [join_cons _ (List.cons_ne_nil next rest), List.append_assoc]
      exact .hyphen hpart (ih (List.cons_ne_nil next rest) hrest)

theorem IsSlug.exists_parts (h : IsSlug t) :
    ∃ parts, parts ≠ [] ∧ (∀ part ∈ parts, IsPart part) ∧ t = join "-" parts := by
  induction h with
  | @part t ht => exact ⟨[t], List.cons_ne_nil t [], List.forall_mem_singleton.2 ht, rfl⟩
  | @hyphen t u ht _ ih =>
    obtain ⟨parts, hne, hparts, rfl⟩ := ih
    refine ⟨t :: parts, List.cons_ne_nil t parts, List.forall_mem_cons.2 ⟨ht, hparts⟩, ?_⟩
    rw [join_cons _ hne, List.append_assoc]
    rfl

theorem IsSlug.ne_nil (h : IsSlug t) : t ≠ [] := by
  cases h with
  | part ht => exact ht.ne_nil
  | hyphen => exact List.append_ne_nil_of_right_ne_nil _ (List.cons_ne_nil _ _)

theorem IsSlug.mem (h : IsSlug t) (hc : c ∈ t) : isSlugChar c = true ∨ c = '-' := by
  induction h with
  | part ht => exact .inl (ht.all c hc)
  | hyphen ht _ ih =>
    rcases List.mem_append.1 hc with hc | hc
    · exact .inl (ht.all c hc)
    · exact (List.mem_cons.1 hc).elim .inr ih

/-- What matters about the characters of a slug: they are in lower case, kept as they are, not
trimmed off, and no separators of paths or of messages. -/
structure Tame (c : Char) : Prop where
  lower : c ≠ 'Σ' ∧ lowerChar c = [c]
  safe : isSafe c = true
  blank : isBlank c = false
  apart : c ∉ (".(/\\" : Text)

theorem tame_of_isSlugChar (h : isSlugChar c = true ∨ c = '-') : Tame c := by
  have hascii : c.toNat < 128 := by
    have hlower : c.isLower = (decide (0x61 ≤ c.toNat) && decide (c.toNat ≤ 0x7A)) := rfl
    have hdigit : c.isDigit = (decide (0x30 ≤ c.toNat) && decide (c.toNat ≤ 0x39)) := rfl
    simp only [isSlugChar, hlower, hdigit, Bool.or_eq_true, Bool.and_eq_true,
      decide_eq_true_eq] at h
    rcases h with ((⟨-, h⟩ | ⟨-, h⟩) | rfl) | rfl
    · exact Nat.lt_of_le_of_lt h (by decide)
    · exact Nat.lt_of_le_of_lt h (by decide)
    · decide
    · decide
  have hall : ∀ n < 128, isSlugChar (Char.ofNat n) = true ∨ Char.ofNat n = '-' →
      (Char.ofNat n).isUpper = false ∧ isSafe (Char.ofNat n) = true ∧
        isBlank (Char.ofNat n) = false ∧ Char.ofNat n ∉ (".(/\\" : Text) := by
    decide +kernel
  have hc := hall c.toNat hascii
  rw [Char.ofNat_toNat] at hc
  obtain ⟨hupper, hsafe, hblank, hapart⟩ := hc h
  refine ⟨⟨?_, lowerChar_ascii hascii hupper⟩, hsafe, hblank, hapart⟩
  rintro rfl
  exact absurd hascii (by decide)

theorem IsSlug.tame (h : IsSlug t) : ∀ c ∈ t, Tame c :=
  fun _ hc => tame_of_isSlugChar (h.mem hc)

theorem IsSlug.paren_notMem (h : IsSlug t) : '(' ∉ t :=
  fun hmem => (h.tame '(' hmem).apart (by decide)

/-- The text in lower case with a hyphen in place of each character that is not safe. -/
def hyphenated (t : Text) : Text :=
  t.strip.lower.map fun c => if isSafe c then c else '-'

theorem sanitize_eq (t : Text) : sanitize t = join "-" (runs (· = '-') (hyphenated t)) :=
  rfl

theorem of_mem_hyphenated (h : c ∈ hyphenated t) (hc : c ≠ '-') : isSlugChar c = true := by
  obtain ⟨d, hd, rfl⟩ := List.mem_map.1 h
  have hupper : d.isUpper = false := isUpper_lower hd
  split at hc
  · rename_i hsafe
    rw [if_pos hsafe]
    have hletter : d.isAlphanum = (d.isUpper || d.isLower || d.isDigit) := rfl
    simp only [isSafe, hletter, hupper, Bool.false_or, Bool.or_eq_true, decide_eq_true_eq] at hsafe
    simpa [isSlugChar, hc] using hsafe
  · exact absurd rfl hc

theorem isPart_of_mem_runs {part : Text} (h : part ∈ runs (· = '-') (hyphenated t)) :
    IsPart part := by
  obtain ⟨hne, hsub, hhyphen⟩ := of_mem_runs h
  exact ⟨hne, fun c hc => of_mem_hyphenated (hsub hc) (of_decide_eq_false (hhyphen c hc))⟩

theorem sanitize_slug (t : Text) : sanitize t = [] ∨ IsSlug (sanitize t) := by
  rw [sanitize_eq]
  by_cases hnone : runs (· = '-') (hyphenated t) = []
  · exact .inl (hnone ▸ rfl)
  · exact .inr (isSlug_join hnone fun _ hpart => isPart_of_mem_runs hpart)

theorem IsSlug.hyphenated_eq (h : IsSlug t) : hyphenated t = t := by
  have htrimmed : Trimmed t :=
    ⟨fun c hc => (h.tame c (List.mem_of_mem_head? hc)).blank,
      fun c hc => (h.tame c (List.mem_of_mem_getLast? hc)).blank⟩
  have hlower : lower t = t := lowerAfter_eq_self fun c hc => (h.tame c hc).lower
  have hsafe : ∀ c ∈ t, (if isSafe c then c else '-') = id c :=
    fun c hc => if_pos (h.tame c hc).safe
  rw [hyphenated, htrimmed.strip_eq, hlower, List.map_congr_left hsafe, List.map_id]

theorem IsSlug.sanitize_eq_self (h : IsSlug t) : sanitize t = t := by
  obtain ⟨parts, hne, hparts, rfl⟩ := h.exists_parts
  have hcut : cut (· = '-') (join "-" parts) = parts :=
    cut_join hne fun part hpart => (hparts part hpart).hyphen_notMem
  rw [sanitize_eq, h.hyphenated_eq, runs, hcut, List.filter_eq_self.2]
  intro part hpart
  exact decide_eq_true (hparts part hpart).ne_nil

theorem IsSlug.check_eq (h : IsSlug t) : check t = .ok () := by
  obtain ⟨c, rest, rfl⟩ := List.exists_cons_of_ne_nil h.ne_nil
  have hblank : Text.blank (c :: rest) = false := by
    rw [Text.blank, List.all_cons, (h.tame c List.mem_cons_self).blank]
    rfl
  have hapart : ∀ d ∈ (".(/\\" : Text), d ∉ c :: rest := fun d hd hmem =>
    (h.tame d hmem).apart hd
  rw [check, hblank, if_neg Bool.false_ne_true, if_neg]
  rintro (hdot | hdots | hslash | hback)
  · exact hapart '.' (by decide) (hdot ▸ List.mem_cons_self)
  · exact hapart '.' (by decide) (hdots ▸ List.mem_cons_self)
  · exact hapart '/' (by decide) hslash
  · exact hapart '\\' (by decide) hback

theorem message_notSingle (hne : u ≠ []) : (Fault.notSingle u).message =
    "must be a single directory name " ++ '(' :: ("try '" ++ (u ++ "')")) := by
  obtain ⟨c, rest, rfl⟩ := List.exists_cons_of_ne_nil hne
  have hopening : ("must be a single directory name (try '" : Text) =
      "must be a single directory name " ++ '(' :: "try '".toList := by
    decide
  have hmessage : (Fault.notSingle (c :: rest)).message =
      "must be a single directory name (try '" ++ (c :: rest) ++ "')" := rfl
  rw [hmessage, hopening, List.append_assoc, List.append_assoc, List.cons_append]

/-- Of a message that ends in a suggestion, the suggestion is what the refused name is sanitized
to. -/
theorem suggestion_eq (h : check t = .error fault)
    (hmessage : fault.message = before ++ ("(try '" ++ suggestion ++ "')")) :
    suggestion = sanitize t ∧ sanitize t ≠ [] := by
  have hparen : '(' ∈ fault.message := by
    rw [hmessage]
    exact List.mem_append_right before List.mem_cons_self
  rw [check] at h
  split at h
  · cases h
    exact absurd hparen (by decide)
  · split at h
    · cases h
      rcases sanitize_slug t with hnone | hslug
      · rw [hnone] at hparen
        exact absurd hparen (by decide)
      · have hbefore : '(' ∉ ("must be a single directory name " : Text) := by decide
        have hafter : '(' ∉ "try '" ++ (sanitize t ++ "')") :=
          notMem_append (by decide) (notMem_append hslug.paren_notMem (by decide))
        rw [message_notSingle hslug.ne_nil] at hmessage
        obtain ⟨-, -, hsuggestion⟩ :=
          (List.append_cons_inj_of_notMem hbefore hafter).1 hmessage
        have hquoted := List.append_cancel_left hsuggestion
        exact ⟨(List.append_cancel_right hquoted).symm, hslug.ne_nil⟩
    · cases h

/--
Sanitizing gives nothing or a slug. It leaves alone what is a slug or empty and nothing else, so
that it changes nothing the second time. Slugs are accepted as names, and so is each name that the
report about a refused one suggests.
-/
theorem sanitize_exact (t : Text) :
    (sanitize t = [] ∨ IsSlug (sanitize t)) ∧
    sanitize (sanitize t) = sanitize t ∧
    (sanitize t = t ↔ t = [] ∨ IsSlug t) ∧
    (sanitize t ≠ [] → check (sanitize t) = .ok ()) ∧
    ∀ fault before suggestion, check t = .error fault →
      fault.message = before ++ ("(try '" ++ suggestion ++ "')") → check suggestion = .ok () := by
  have hfixed : ∀ u, u = [] ∨ IsSlug u → sanitize u = u := by
    rintro u (rfl | hu)
    · rfl
    · exact hu.sanitize_eq_self
  have hcheck (hne : sanitize t ≠ []) : check (sanitize t) = .ok () :=
    ((sanitize_slug t).resolve_left hne).check_eq
  refine ⟨sanitize_slug t, hfixed _ (sanitize_slug t), ⟨?_, hfixed t⟩, hcheck, ?_⟩
  · intro h
    rw [← h]
    exact sanitize_slug t
  · intro fault before suggestion hfault hmessage
    obtain ⟨rfl, hne⟩ := suggestion_eq hfault hmessage
    exact hcheck hne

/-- The Kelvin sign is a small k in lower case, and no other letter beyond ASCII is kept. -/
theorem sanitize_exact_kelvin :
    check "../ÜnÏ \u212a_9 " = .error (.notSingle "n-k_9") ∧
    (Fault.notSingle "n-k_9").message =
      "must be a single directory name " ++ ("(try '" ++ "n-k_9".toList ++ "')") ∧
    check "n-k_9" = .ok () := by
  obtain ⟨-, -, -, -, hsuggested⟩ := sanitize_exact "../ÜnÏ \u212a_9 "
  have hrefused : check "../ÜnÏ \u212a_9 " = .error (.notSingle "n-k_9") := by decide +kernel
  have hmessage : (Fault.notSingle "n-k_9").message =
      "must be a single directory name " ++ ("(try '" ++ "n-k_9".toList ++ "')") := by decide
  exact ⟨hrefused, hmessage, hsuggested _ _ _ hrefused hmessage⟩

end Scaffold.AppName
