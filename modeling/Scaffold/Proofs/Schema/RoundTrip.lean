import Mathlib.Data.List.TakeWhile
import Scaffold.Proofs.Schema.Tokens

namespace Scaffold

namespace Attribute

/-- A name and a type that a token can say. -/
structure Printable (pair : RawText × RawText) : Prop where
  name_ne : pair.1 ≠ []
  name_colon : .char ':' ∉ pair.1
  name_trimmed : pair.1.Trimmed
  type_ne : pair.2 ≠ []
  type_trimmed : pair.2.Trimmed

instance (pair : RawText × RawText) : Decidable (Printable pair) :=
  decidable_of_iff
    (pair.1 ≠ [] ∧ .char ':' ∉ pair.1 ∧ pair.1.Trimmed ∧ pair.2 ≠ [] ∧ pair.2.Trimmed)
    ⟨fun h => ⟨h.1, h.2.1, h.2.2.1, h.2.2.2.1, h.2.2.2.2⟩,
      fun h => ⟨h.name_ne, h.name_colon, h.name_trimmed, h.type_ne, h.type_trimmed⟩⟩

def tokenOf (pair : RawText × RawText) : RawText :=
  pair.1 ++ .char ':' :: pair.2

def recordOf (pair : RawText × RawText) : Entries (Json RawText) :=
  toFields pair.1 pair.2

variable {pair : RawText × RawText} {token : RawText}

theorem before_tokenOf (h : .char ':' ∉ pair.1) : before (tokenOf pair) = pair.1 := by
  rw [before, tokenOf, Text.takeWhile_append_of_notMem h]
  exact List.append_nil pair.1

theorem after_tokenOf (h : .char ':' ∉ pair.1) : after (tokenOf pair) = pair.2 := by
  have hname : ∀ c ∈ pair.1, decide (c ≠ .char ':') = true := by
    intro c hc
    exact decide_eq_true fun heq => h (heq ▸ hc)
  rw [after, tokenOf, List.dropWhile_append_of_pos hname]
  rfl

theorem Printable.pairIn_tokenOf (h : Printable pair) : pairIn (tokenOf pair) = pair := by
  rw [pairIn, nameIn, typeIn, before_tokenOf h.name_colon, after_tokenOf h.name_colon]
  exact Prod.ext h.name_trimmed.trim_eq h.type_trimmed.trim_eq

theorem not_blank_of_trimmed {t : RawText} (hne : t ≠ []) (h : t.Trimmed) : ¬ Blank t :=
  fun hblank => hne (h.trim_eq.symm.trans (Text.trim_eq_nil_iff.2 hblank))

theorem Printable.wellFormed (h : Printable pair) : WellFormed (tokenOf pair) where
  colon := List.mem_append_right _ List.mem_cons_self
  name := by
    rw [before_tokenOf h.name_colon]
    exact not_blank_of_trimmed h.name_ne h.name_trimmed
  type := by
    rw [after_tokenOf h.name_colon]
    exact not_blank_of_trimmed h.type_ne h.type_trimmed

theorem WellFormed.printable (h : WellFormed token) : Printable (pairIn token) where
  name_ne := h.nameIn_ne
  name_colon := by
    intro hmem
    have htake := List.mem_takeWhile_imp (Text.mem_of_mem_trim hmem)
    exact of_decide_eq_true htake rfl
  name_trimmed := RawText.trimmed_strip _
  type_ne := h.typeIn_ne
  type_trimmed := RawText.trimmed_strip _

theorem Printable.exists_attribute (h : Printable pair) (htext : surrogateProblems pair = []) :
    ∃ a : Attribute, pair = rawPair (a.name, a.type) ∧ ofFields (recordOf pair) = .ok a :=
  (ofFields_toFields h.name_ne h.type_ne).resolve_right fun hne => hne.1 htext

theorem Printable.ofFields_eq_error (h : Printable pair) (hne : surrogateProblems pair ≠ []) :
    ofFields (recordOf pair) = .error (surrogateProblems pair) := by
  rcases ofFields_toFields h.name_ne h.type_ne with ⟨a, hpair, -⟩ | ⟨-, herror⟩
  · rw [show pair = rawPair (a.name, a.type) from hpair, surrogateProblems_rawPair] at hne
    exact absurd rfl hne
  · exact herror

theorem rawPair_toToken (a : Attribute) : tokenOf (rawPair (a.name, a.type)) = a.toToken.raw := by
  rw [toToken, Text.raw, List.map_append, List.map_append, List.append_assoc]
  rfl

end Attribute

namespace Schema

open Attribute (Printable WellFormed nameIn pairIn tokenOf recordOf rawPair surrogateProblems)

variable {s : Schema} {attributes : List Attribute} {pairs earlier later : List (RawText × RawText)}
  {pair : RawText × RawText} {seen ts : List Text} {t name : Text}

/-- A name that stands earlier in a list whose names up to there are distinct. -/
def FirstRepeat {α : Type} (name : α) (names : List α) : Prop :=
  ∃ earlier later, names = earlier ++ name :: later ∧ earlier.Nodup ∧ name ∈ earlier

theorem FirstRepeat.mem {α : Type} {name : α} {names : List α} (h : FirstRepeat name names) :
    name ∈ names := by
  obtain ⟨earlier, later, rfl, -, hmem⟩ := h
  exact List.mem_append_left _ hmem

theorem FirstRepeat.not_nodup {α : Type} {name : α} {names : List α} (h : FirstRepeat name names) :
    ¬ names.Nodup := by
  obtain ⟨earlier, later, rfl, -, hmem⟩ := h
  intro hnodup
  exact (List.nodup_append.1 hnodup).2.2 name hmem name List.mem_cons_self rfl

theorem firstRepeat?_eq_some (h : firstRepeat? seen ts = some t) :
    ∃ earlier later, ts = earlier ++ t :: later ∧ earlier.Nodup ∧ (∀ u ∈ earlier, u ∉ seen) ∧
      (t ∈ seen ∨ t ∈ earlier) := by
  induction ts generalizing seen with
  | nil => cases h
  | cons u rest ih =>
    rw [firstRepeat?] at h
    split at h
    · rename_i hu
      cases h
      exact ⟨[], rest, rfl, List.nodup_nil, List.forall_mem_nil _, .inl hu⟩
    · rename_i hu
      obtain ⟨earlier, later, rfl, hnodup, hseen, ht⟩ := ih h
      have hfresh : ∀ v ∈ earlier, v ≠ u ∧ v ∉ seen := fun v hv =>
        ⟨fun heq => hseen v hv (heq ▸ List.mem_cons_self),
          fun hmem => hseen v hv (List.mem_cons_of_mem u hmem)⟩
      refine ⟨u :: earlier, later, rfl, ?_, ?_, ?_⟩
      · exact List.nodup_cons.2 ⟨fun hmem => (hfresh u hmem).1 rfl, hnodup⟩
      · exact List.forall_mem_cons.2 ⟨hu, fun v hv => (hfresh v hv).2⟩
      · rcases ht with ht | ht
        · rcases List.mem_cons.1 ht with rfl | ht
          · exact .inr List.mem_cons_self
          · exact .inl ht
        · exact .inr (List.mem_cons_of_mem u ht)

theorem ofAttributes_of_repeat (h : firstRepeat? [] (attributes.map (·.name)) = some name) :
    ofAttributes attributes = .error (.duplicateAttribute name) := by
  rw [ofAttributes]
  split
  · rename_i hnone
    rw [hnone] at h
    cases h
  · rename_i hsome
    rw [hsome] at h
    cases h
    rfl

theorem FirstRepeat.map {α β : Type} {name : α} {names : List α} (h : FirstRepeat name names)
    {f : α → β} (hf : Function.Injective f) : FirstRepeat (f name) (names.map f) := by
  obtain ⟨earlier, later, rfl, hnodup, hmem⟩ := h
  exact ⟨earlier.map f, later.map f, List.map_append, hnodup.map hf, List.mem_map_of_mem hmem⟩

theorem nodup_or_firstRepeat (ts : List Text) :
    ts.Nodup ∨ ∃ name, firstRepeat? [] ts = some name ∧ FirstRepeat name ts := by
  cases h : firstRepeat? [] ts with
  | none => exact .inl (firstRepeat?_eq_none h).1
  | some name =>
    obtain ⟨earlier, later, hsplit, hnodup, -, hname⟩ := firstRepeat?_eq_some h
    exact .inr ⟨name, rfl, earlier, later, hsplit, hnodup, hname.resolve_left List.not_mem_nil⟩

/-- Pairs that tokens can say and whose names and types are texts. -/
def Sayable (pairs : List (RawText × RawText)) : Prop :=
  ∀ pair ∈ pairs, Printable pair ∧ surrogateProblems pair = []

theorem exists_attributes (h : Sayable pairs) : ∃ attributes : List Attribute,
    (attributes.map fun a => rawPair (a.name, a.type)) = pairs ∧
      (pairs.map recordOf).mapM Attribute.ofFields = .ok attributes := by
  induction pairs with
  | nil => exact ⟨[], rfl, rfl⟩
  | cons pair rest ih =>
    obtain ⟨⟨hpair, htext⟩, hrest⟩ := List.forall_mem_cons.1 h
    obtain ⟨attributes, rfl, hmapM⟩ := ih hrest
    obtain ⟨a, rfl, ha⟩ := hpair.exists_attribute htext
    refine ⟨a :: attributes, rfl, ?_⟩
    rw [List.map_cons, List.mapM_cons, ha, hmapM]
    rfl

theorem map_pairIn_tokenOf (h : ∀ pair ∈ pairs, Printable pair) :
    (pairs.map tokenOf).map pairIn = pairs := by
  rw [List.map_map]
  conv_rhs => rw [← List.map_id pairs]
  exact List.map_congr_left fun pair hpair => (h pair hpair).pairIn_tokenOf

theorem map_nameIn_tokenOf (h : ∀ pair ∈ pairs, Printable pair) :
    (pairs.map tokenOf).map nameIn = pairs.map Prod.fst := by
  conv_rhs => rw [← map_pairIn_tokenOf h, List.map_map]
  rfl

theorem acceptable_tokenOf (h : Sayable pairs) (hnodup : (pairs.map Prod.fst).Nodup) :
    Acceptable (pairs.map tokenOf) where
  wellFormed := List.forall_mem_map.2 fun pair hpair => (h pair hpair).1.wellFormed
  text := List.forall_mem_map.2 fun pair hpair =>
    (h pair hpair).1.pairIn_tokenOf.symm ▸ (h pair hpair).2
  nodup := map_nameIn_tokenOf (fun pair hpair => (h pair hpair).1) ▸ hnodup

theorem ofTokens_tokenOf (h : Sayable pairs) (hnodup : (pairs.map Prod.fst).Nodup) :
    ∃ s, ofTokens (pairs.map tokenOf) = .ok s ∧ s.pairs.map rawPair = pairs := by
  obtain ⟨s, hs⟩ := ofTokens_succeeds (acceptable_tokenOf h hnodup)
  exact ⟨s, hs, (ofTokens_eq_ok hs).2.trans (map_pairIn_tokenOf fun pair hpair => (h pair hpair).1)⟩

theorem ofTokens_tokenOf_of_repeat (h : Sayable pairs)
    (hrepeat : FirstRepeat name.raw (pairs.map Prod.fst)) (rest : List RawText) :
    ofTokens (pairs.map tokenOf ++ rest) = .error (.duplicate name) := by
  obtain ⟨earlier, later, hsplit, hnodup, hmem⟩ := hrepeat
  obtain ⟨first, second, rfl, rfl, hsecond⟩ := List.map_eq_append_iff.1 hsplit
  obtain ⟨pair, others, rfl, hname, -⟩ := List.map_eq_cons_iff.1 hsecond
  obtain ⟨hfirst, hothers⟩ := List.forall_mem_append.1 h
  obtain ⟨hpair, htext⟩ := hothers pair List.mem_cons_self
  have hpairIn := hpair.pairIn_tokenOf
  have hin : nameIn (tokenOf pair) = name.raw := (congrArg Prod.fst hpairIn).trans hname
  rw [← map_nameIn_tokenOf fun pair hpair => (hfirst pair hpair).1, ← hin] at hmem
  rw [List.map_append, List.map_cons, List.append_assoc, List.cons_append]
  exact ofTokens_of_refused (acceptable_tokenOf hfirst hnodup)
    (.duplicate hpair.wellFormed (hpairIn.symm ▸ htext) hin hmem) _

theorem ofTokens_tokenOf_of_surrogate (h : Sayable earlier)
    (hnodup : (earlier.map Prod.fst).Nodup) (hpair : Printable pair)
    (hne : surrogateProblems pair ≠ []) (rest : List RawText) :
    ofTokens (earlier.map tokenOf ++ tokenOf pair :: rest) =
      .error (.invalid (surrogateProblems pair)) := by
  have hpairIn := hpair.pairIn_tokenOf
  have hrefused : Refused ((earlier.map tokenOf).map nameIn) (tokenOf pair)
      (.invalid (surrogateProblems (pairIn (tokenOf pair)))) :=
    .invalid hpair.wellFormed (hpairIn.symm ▸ hne)
  rw [hpairIn] at hrefused
  exact ofTokens_of_refused (acceptable_tokenOf h hnodup) hrefused rest

theorem ofRecords_recordOf (h : Sayable pairs) : ∃ attributes : List Attribute,
    (attributes.map fun a => rawPair (a.name, a.type)) = pairs ∧
      ofRecords (pairs.map recordOf) =
        (ofAttributes attributes).mapError fun fault => [.ofWhole fault] := by
  obtain ⟨attributes, hpairs, hmapM⟩ := exists_attributes h
  refine ⟨attributes, hpairs, ?_⟩
  rw [ofRecords, hmapM]
  rfl

theorem ofRecords_of_surrogate (h : Sayable earlier) (hpair : Printable pair)
    (hne : surrogateProblems pair ≠ []) (later : List (RawText × RawText)) :
    ofRecords ((earlier ++ pair :: later).map recordOf) = .error (surrogateProblems pair) := by
  obtain ⟨attributes, -, hmapM⟩ := exists_attributes h
  rw [ofRecords, List.map_append, List.map_cons, List.mapM_append, hmapM, List.mapM_cons,
    hpair.ofFields_eq_error hne]
  rfl

theorem sayable_or_surrogate (h : ∀ pair ∈ pairs, Printable pair) :
    Sayable pairs ∨ ∃ earlier pair later, pairs = earlier ++ pair :: later ∧ Sayable earlier ∧
      Printable pair ∧ surrogateProblems pair ≠ [] := by
  induction pairs with
  | nil => exact .inl nofun
  | cons pair rest ih =>
    obtain ⟨hpair, hrest⟩ := List.forall_mem_cons.1 h
    by_cases htext : surrogateProblems pair = []
    · rcases ih hrest with hrest | ⟨earlier, bad, later, rfl, hearlier, hbad⟩
      · exact .inl (List.forall_mem_cons.2 ⟨⟨hpair, htext⟩, hrest⟩)
      · exact .inr ⟨pair :: earlier, bad, later, rfl,
          List.forall_mem_cons.2 ⟨⟨hpair, htext⟩, hearlier⟩, hbad⟩
    · exact .inr ⟨[], pair, rest, rfl, nofun, hpair, htext⟩

theorem map_fst_rawPair (attributes : List Attribute) :
    (attributes.map fun a => rawPair (a.name, a.type)).map Prod.fst =
      (attributes.map (·.name)).map Text.raw := by
  rw [List.map_map, List.map_map]
  rfl

theorem names_of_sayable (h : Sayable pairs) :
    (pairs.map Prod.fst).Nodup ∨ ∃ name : Text, FirstRepeat name.raw (pairs.map Prod.fst) := by
  obtain ⟨attributes, rfl, -⟩ := exists_attributes h
  rw [map_fst_rawPair]
  rcases nodup_or_firstRepeat (attributes.map (·.name)) with hnodup | ⟨name, -, hname⟩
  · exact .inl (hnodup.map RawText.raw_injective)
  · exact .inr ⟨name, hname.map RawText.raw_injective⟩

/-- Names and types that are texts mean the same as tokens and as records. -/
theorem agree_of_sayable (h : Sayable pairs) :
    (∃ s, ofTokens (pairs.map tokenOf) = .ok s ∧ ofRecords (pairs.map recordOf) = .ok s ∧
        s.pairs.map rawPair = pairs) ∨
      ∃ name : Text, FirstRepeat name.raw (pairs.map Prod.fst) ∧
        ofTokens (pairs.map tokenOf) = .error (.duplicate name) ∧
        ofRecords (pairs.map recordOf) = .error [.ofWhole (.duplicateAttribute name)] := by
  obtain ⟨attributes, hpairs, hrecords⟩ := ofRecords_recordOf h
  have hnames : pairs.map Prod.fst = (attributes.map (·.name)).map Text.raw :=
    hpairs ▸ map_fst_rawPair attributes
  rw [hrecords]
  rcases nodup_or_firstRepeat (attributes.map (·.name)) with hnodup | ⟨name, hsome, hname⟩
  · obtain ⟨s, hs, hsame⟩ := ofTokens_tokenOf h (hnames ▸ hnodup.map RawText.raw_injective)
    have hattributes : s.attributes = attributes := by
      rw [← hpairs, Schema.pairs, List.map_map] at hsame
      exact List.map_injective_iff.2
        (Attribute.rawPair_injective.comp Attribute.pair_injective) hsame
    refine .inl ⟨s, hs, ?_, hsame⟩
    rw [← hattributes, s.ofAttributes_attributes]
    rfl
  · have hraw : FirstRepeat name.raw (pairs.map Prod.fst) :=
      hnames ▸ hname.map RawText.raw_injective
    refine .inr ⟨name, hraw, ?_, ?_⟩
    · rw [← List.append_nil (pairs.map tokenOf)]
      exact ofTokens_tokenOf_of_repeat h hraw []
    · rw [ofAttributes_of_repeat hsome]
      rfl

/--
Names and types mean the same as tokens and as records, unless a lone surrogate is in the way: both
are refused then, and tokens only report a name that is repeated before it. Tokens are what a schema
that was read from tokens is printed as.
-/
theorem tokens_and_records_agree :
    (∀ pairs, (∀ pair ∈ pairs, Printable pair) →
      (∃ s, ofTokens (pairs.map tokenOf) = .ok s ∧ ofRecords (pairs.map recordOf) = .ok s ∧
          s.pairs.map rawPair = pairs) ∨
        (∃ name : Text, FirstRepeat name.raw (pairs.map Prod.fst) ∧
          ofTokens (pairs.map tokenOf) = .error (.duplicate name) ∧
          ofRecords (pairs.map recordOf) = .error [.ofWhole (.duplicateAttribute name)]) ∨
        ∃ earlier pair later, pairs = earlier ++ pair :: later ∧ Sayable earlier ∧
          surrogateProblems pair ≠ [] ∧
          ofRecords (pairs.map recordOf) = .error (surrogateProblems pair) ∧
          ((earlier.map Prod.fst).Nodup ∧
              ofTokens (pairs.map tokenOf) = .error (.invalid (surrogateProblems pair)) ∨
            ∃ name : Text, FirstRepeat name.raw (earlier.map Prod.fst) ∧
              ofTokens (pairs.map tokenOf) = .error (.duplicate name))) ∧
      ∀ tokens s, ofTokens tokens = .ok s →
        (∀ pair ∈ s.pairs, Printable (rawPair pair)) ∧
          ofTokens (s.toTokens.map Text.raw) = .ok s := by
  constructor
  · intro pairs h
    rcases sayable_or_surrogate h with h | ⟨earlier, pair, later, rfl, hearlier, hpair, hne⟩
    · rcases agree_of_sayable h with hsame | hrepeat
      · exact .inl hsame
      · exact .inr (.inl hrepeat)
    · refine .inr (.inr ⟨earlier, pair, later, rfl, hearlier, hne,
        ofRecords_of_surrogate hearlier hpair hne later, ?_⟩)
      rw [List.map_append, List.map_cons]
      rcases names_of_sayable hearlier with hnodup | ⟨name, hname⟩
      · exact .inl ⟨hnodup, ofTokens_tokenOf_of_surrogate hearlier hnodup hpair hne _⟩
      · exact .inr ⟨name, hname, ofTokens_tokenOf_of_repeat hearlier hname _⟩
  · intro tokens s hs
    obtain ⟨hacceptable, hpairs⟩ := ofTokens_eq_ok hs
    have hsayable : Sayable (s.pairs.map rawPair) := by
      intro pair hpair
      rw [show s.pairs.map rawPair = tokens.map pairIn from hpairs] at hpair
      obtain ⟨token, htoken, rfl⟩ := List.mem_map.1 hpair
      exact ⟨(hacceptable.wellFormed token htoken).printable, hacceptable.text token htoken⟩
    obtain ⟨s', hs', hsame⟩ := ofTokens_tokenOf hsayable s.nodup_rawPairs
    cases eq_of_pairs (List.map_injective_iff.2 Attribute.rawPair_injective hsame)
    have htokens : s.toTokens.map Text.raw = (s.pairs.map rawPair).map tokenOf := by
      rw [toTokens, Schema.pairs, List.map_map, List.map_map, List.map_map]
      exact List.map_congr_left fun a _ => (Attribute.rawPair_toToken a).symm
    rw [htokens]
    exact ⟨fun pair hpair => (hsayable _ (List.mem_map_of_mem hpair)).1, hs'⟩

theorem tokens_and_records_agree_article :
    (∃ s, ofTokens ["the title:string", "meta:a:b"] = .ok s ∧
        ofRecords [Attribute.toFields "the title" "string", Attribute.toFields "meta" "a:b"] =
          .ok s ∧
        ofTokens (s.toTokens.map Text.raw) = .ok s) ∧
      ofTokens ["title:string", "title:text"] = .error (.duplicate "title") ∧
      ofRecords [Attribute.toFields "title" "string", Attribute.toFields "title" "text"] =
        .error [.ofWhole (.duplicateAttribute "title")] := by
  obtain ⟨hagree, hinverse⟩ := tokens_and_records_agree
  have hnone {text : List (Text × Text)} {earlier later : List (RawText × RawText)}
      {pair : RawText × RawText} (hsplit : text.map rawPair = earlier ++ pair :: later) :
      surrogateProblems pair = [] := by
    have hmem : pair ∈ text.map rawPair := hsplit ▸ by simp
    obtain ⟨t, -, rfl⟩ := List.mem_map.1 hmem
    exact Attribute.surrogateProblems_rawPair t
  let titleAndMeta : List (Text × Text) := [("the title", "string"), ("meta", "a:b")]
  let titleTwice : List (Text × Text) := [("title", "string"), ("title", "text")]
  constructor
  · rcases hagree (titleAndMeta.map rawPair) (by decide) with
      ⟨s, htokens, hrecords, -⟩ | ⟨name, hfirst, -, -⟩ | ⟨_, pair, _, hsplit, -, hne, -⟩
    · exact ⟨s, htokens, hrecords, (hinverse _ s htokens).2⟩
    · exact absurd (by decide) hfirst.not_nodup
    · exact absurd (hnone hsplit) hne
  · rcases hagree (titleTwice.map rawPair) (by decide) with
      ⟨s, -, -, hpairs⟩ | ⟨name, hfirst, htokens, hrecords⟩ | ⟨_, pair, _, hsplit, -, hne, -⟩
    · exact absurd (hpairs ▸ s.nodup_rawPairs) (by decide)
    · have hmem : name.raw ∈ (["title", "title"] : List RawText) := hfirst.mem
      have hname : name.raw = Text.raw "title" := by simpa using hmem
      cases RawText.raw_injective hname
      exact ⟨htokens, hrecords⟩
    · exact absurd (hnone hsplit) hne

/-- A name with a lone surrogate is refused in both forms, before the name that is repeated. -/
theorem surrogate_disagrees :
    let pairs : List (RawText × RawText) :=
      [("a", "string"), ([.surrogate 0x4FF], "string"), ("a", "string")]
    (∀ pair ∈ pairs, Printable pair) ∧
      ¬ ((∃ s, ofTokens (pairs.map tokenOf) = .ok s ∧ ofRecords (pairs.map recordOf) = .ok s) ∨
        ∃ name, ofTokens (pairs.map tokenOf) = .error (.duplicate name) ∧
          ofRecords (pairs.map recordOf) = .error [.ofWhole (.duplicateAttribute name)]) := by
  intro pairs
  have hprintable : ∀ pair ∈ pairs, Printable pair := by decide
  have hearlier : Sayable [("a", "string")] := by
    intro pair hpair
    cases List.mem_singleton.1 hpair
    exact ⟨by decide, by decide⟩
  have herror := ofTokens_tokenOf_of_surrogate hearlier (by decide)
    (hprintable ([.surrogate 0x4FF], "string") (by decide)) (by decide)
    [tokenOf ("a", "string")]
  refine ⟨hprintable, ?_⟩
  rintro (⟨s, hs, -⟩ | ⟨name, hname, -⟩)
  · cases herror.symm.trans hs
  · cases herror.symm.trans hname

end Schema

end Scaffold
