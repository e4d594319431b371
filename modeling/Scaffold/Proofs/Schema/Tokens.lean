import Mathlib.Data.List.Nodup
import Scaffold.Proofs.Entries
import Scaffold.Proofs.Text.Strip
import Scaffold.Schema

namespace Scaffold

open Validation (Problem)

namespace Attribute

/-- What stands before the first colon of a token. -/
def before (token : RawText) : RawText :=
  token.takeWhile (· ≠ .char ':')

def after (token : RawText) : RawText :=
  (token.dropWhile (· ≠ .char ':')).tail

def nameIn (token : RawText) : RawText :=
  (before token).strip

def typeIn (token : RawText) : RawText :=
  (after token).strip

def pairIn (token : RawText) : RawText × RawText :=
  (nameIn token, typeIn token)

def Blank (t : RawText) : Prop :=
  ∀ c ∈ t, c.isBlank = true

instance (t : RawText) : Decidable (Blank t) :=
  inferInstanceAs (Decidable (∀ c ∈ t, c.isBlank = true))

structure WellFormed (token : RawText) : Prop where
  colon : .char ':' ∈ token
  name : ¬ Blank (before token)
  type : ¬ Blank (after token)

instance (token : RawText) : Decidable (WellFormed token) :=
  decidable_of_iff (.char ':' ∈ token ∧ ¬ Blank (before token) ∧ ¬ Blank (after token))
    ⟨fun h => ⟨h.1, h.2.1, h.2.2⟩, fun h => ⟨h.colon, h.name, h.type⟩⟩

/-- What is wrong with a token. A missing colon comes first, then the name, then the type. -/
inductive Malformed : RawText → TokenFault → Prop where
  | missingColon {token} : .char ':' ∉ token → Malformed token .missingColon
  | emptyName {token} : .char ':' ∈ token → Blank (before token) → Malformed token .emptyName
  | emptyType {token} : .char ':' ∈ token → ¬ Blank (before token) → Blank (after token) →
      Malformed token .emptyType

def surrogateProblem (field : Text) (t : RawText) : List Problem :=
  if t.text? = none then [⟨field, .notUnicode⟩] else []

/-- The problems of a name and a type that are no texts. -/
def surrogateProblems (pair : RawText × RawText) : List Problem :=
  surrogateProblem "name" pair.1 ++ surrogateProblem "type" pair.2

def rawPair (pair : Text × Text) : RawText × RawText :=
  (pair.1.raw, pair.2.raw)

variable {token name type : RawText} {pair : RawText × RawText} {a : Attribute} {fault : TokenFault}

theorem nameIn_eq_nil : nameIn token = [] ↔ Blank (before token) :=
  Text.trim_eq_nil_iff

theorem typeIn_eq_nil : typeIn token = [] ↔ Blank (after token) :=
  Text.trim_eq_nil_iff

theorem wellFormed_or_malformed (token : RawText) :
    WellFormed token ∨ ∃ fault, Malformed token fault := by
  by_cases hcolon : .char ':' ∈ token
  · by_cases hname : Blank (before token)
    · exact .inr ⟨_, .emptyName hcolon hname⟩
    · by_cases htype : Blank (after token)
      · exact .inr ⟨_, .emptyType hcolon hname htype⟩
      · exact .inl ⟨hcolon, hname, htype⟩
  · exact .inr ⟨_, .missingColon hcolon⟩

theorem WellFormed.nameIn_ne (h : WellFormed token) : nameIn token ≠ [] :=
  fun hnil => h.name (nameIn_eq_nil.1 hnil)

theorem WellFormed.typeIn_ne (h : WellFormed token) : typeIn token ≠ [] :=
  fun hnil => h.type (typeIn_eq_nil.1 hnil)

theorem surrogateProblem_raw (field t : Text) : surrogateProblem field t.raw = [] := by
  rw [surrogateProblem, RawText.text?_raw]
  rfl

theorem surrogateProblems_rawPair (pair : Text × Text) : surrogateProblems (rawPair pair) = [] :=
  congrArg₂ (· ++ ·) (surrogateProblem_raw "name" pair.1) (surrogateProblem_raw "type" pair.2)

theorem rawPair_injective : Function.Injective rawPair := by
  rintro ⟨name, type⟩ ⟨name', type'⟩ h
  obtain ⟨hname, htype⟩ := Prod.mk.inj h
  exact Prod.ext (RawText.raw_injective hname) (RawText.raw_injective htype)

theorem pair_injective : Function.Injective fun a : Attribute => (a.name, a.type) := by
  rintro ⟨_, _, _, _⟩ ⟨_, _, _, _⟩ heq
  cases heq
  rfl

theorem eq_raw_or_surrogateProblem (field : Text) (t : RawText) :
    (∃ u : Text, t = u.raw) ∨
      t.text? = none ∧ surrogateProblem field t = [⟨field, .notUnicode⟩] := by
  cases h : t.text? with
  | none => exact .inr ⟨rfl, if_pos h⟩
  | some u => exact .inl ⟨u, RawText.text?_eq_some.1 h⟩

theorem field_eq (fields : Entries (Json RawText)) (field : Text) {t : RawText}
    (hget : fields.get? field = some (.string t)) (hne : t ≠ []) :
    (∃ u : Text.Filled, t = u.val.raw ∧
      Validation.field fields field Validation.filledRawText none = .ok u) ∨
    surrogateProblem field t ≠ [] ∧ Validation.field fields field Validation.filledRawText none =
        .error (surrogateProblem field t) := by
  rw [Validation.field, hget]
  rcases eq_raw_or_surrogateProblem field t with ⟨u, rfl⟩ | ⟨hnone, hproblem⟩
  · have hu : u ≠ [] := fun h => hne (h ▸ rfl)
    have hfilled := Validation.filledRawText_raw ⟨u, hu⟩
    exact .inl ⟨⟨u, hu⟩, rfl, congrArg (Except.mapError _) hfilled⟩
  · rw [hproblem]
    simp only [Validation.filledRawText_of_none hnone]
    exact .inr ⟨List.cons_ne_nil _ _, rfl⟩

theorem ofFields_toFields (hname : name ≠ []) (htype : type ≠ []) :
    (∃ a : Attribute, (name, type) = rawPair (a.name, a.type) ∧
      ofFields (toFields name type) = .ok a) ∨
    surrogateProblems (name, type) ≠ [] ∧
      ofFields (toFields name type) = .error (surrogateProblems (name, type)) := by
  have hfirst := field_eq (toFields name type) "name" rfl hname
  have hsecond := field_eq (toFields name type) "type" rfl htype
  rw [ofFields, surrogateProblems]
  rcases hfirst with ⟨u, hu, hfirst⟩ | ⟨hne, hfirst⟩ <;>
    rcases hsecond with ⟨v, hv, hsecond⟩ | ⟨hne', hsecond⟩ <;>
    rw [hfirst, hsecond]
  · exact .inl ⟨⟨u.val, v.val, u.ne_nil, v.ne_nil⟩, Prod.ext hu hv, rfl⟩
  · rw [hu, surrogateProblem_raw]
    exact .inr ⟨hne', rfl⟩
  · rw [hv, surrogateProblem_raw, List.append_nil]
    exact .inr ⟨hne, rfl⟩
  · exact .inr ⟨List.append_ne_nil_of_left_ne_nil hne _, rfl⟩

theorem ofToken_of_mem (h : .char ':' ∈ token) :
    ofToken token =
      if nameIn token = [] then .error (.malformed .emptyName)
      else if typeIn token = [] then .error (.malformed .emptyType)
      else (ofFields (toFields (nameIn token) (typeIn token))).mapError .invalid := by
  rw [ofToken, Text.cutFirst_of_mem h]
  rfl

theorem Malformed.ofToken_eq (h : Malformed token fault) :
    ofToken token = .error (.malformed fault) := by
  cases h with
  | missingColon hcolon => rw [ofToken, Text.cutFirst_of_notMem hcolon]
  | emptyName hcolon hname => rw [ofToken_of_mem hcolon, if_pos (nameIn_eq_nil.2 hname)]
  | emptyType hcolon hname htype =>
    rw [ofToken_of_mem hcolon, if_neg (mt nameIn_eq_nil.1 hname), if_pos (typeIn_eq_nil.2 htype)]

theorem WellFormed.ofToken_eq (h : WellFormed token) :
    ofToken token = (ofFields (toFields (nameIn token) (typeIn token))).mapError .invalid := by
  rw [ofToken_of_mem h.colon, if_neg h.nameIn_ne, if_neg h.typeIn_ne]

theorem WellFormed.ofToken_eq_error (h : WellFormed token)
    (hne : surrogateProblems (pairIn token) ≠ []) :
    ofToken token = .error (.invalid (surrogateProblems (pairIn token))) := by
  rw [h.ofToken_eq]
  rcases ofFields_toFields h.nameIn_ne h.typeIn_ne with ⟨a, hpair, -⟩ | ⟨-, herror⟩
  · rw [pairIn, hpair, surrogateProblems_rawPair] at hne
    exact absurd rfl hne
  · rw [herror]
    rfl

theorem WellFormed.exists_attribute (h : WellFormed token)
    (hnone : surrogateProblems (pairIn token) = []) :
    ∃ a : Attribute, pairIn token = rawPair (a.name, a.type) ∧ ofToken token = .ok a ∧
      ofFields (toFields (nameIn token) (typeIn token)) = .ok a := by
  rcases ofFields_toFields h.nameIn_ne h.typeIn_ne with ⟨a, hpair, ha⟩ | ⟨hne, -⟩
  · refine ⟨a, hpair, ?_, ha⟩
    rw [h.ofToken_eq, ha]
    rfl
  · exact absurd hnone hne

end Attribute

namespace Schema

open Attribute (WellFormed Malformed nameIn typeIn pairIn rawPair surrogateProblems)

/-- A token that cannot follow tokens with certain names, and the error it leads to. -/
inductive Refused (taken : List RawText) : RawText → TokenError → Prop where
  | malformed {token fault} : Malformed token fault → Refused taken token (.malformed token fault)
  | invalid {token} : WellFormed token → surrogateProblems (pairIn token) ≠ [] →
      Refused taken token (.invalid (surrogateProblems (pairIn token)))
  | duplicate {token} {name : Text} : WellFormed token → surrogateProblems (pairIn token) = [] →
      nameIn token = name.raw → nameIn token ∈ taken → Refused taken token (.duplicate name)

/-- Tokens that make a schema. -/
structure Acceptable (tokens : List RawText) : Prop where
  wellFormed : ∀ token ∈ tokens, WellFormed token
  text : ∀ token ∈ tokens, surrogateProblems (pairIn token) = []
  nodup : (tokens.map nameIn).Nodup

instance (tokens : List RawText) : Decidable (Acceptable tokens) :=
  decidable_of_iff ((∀ token ∈ tokens, WellFormed token) ∧
      (∀ token ∈ tokens, surrogateProblems (pairIn token) = []) ∧ (tokens.map nameIn).Nodup)
    ⟨fun h => ⟨h.1, h.2.1, h.2.2⟩, fun h => ⟨h.wellFormed, h.text, h.nodup⟩⟩

def rawPairs (s : Schema) : List (RawText × RawText) :=
  s.pairs.map rawPair

/-- The names that a schema has taken. -/
def rawNames (s : Schema) : List RawText :=
  s.names.map Text.raw

variable {s s' : Schema} {a : Attribute} {token : RawText} {tokens earlier later : List RawText}
  {e : TokenError}

theorem names_eq (s : Schema) : s.names = s.pairs.map Prod.fst := by
  rw [names, pairs, List.map_map]
  rfl

theorem types_eq (s : Schema) : s.types = s.pairs.map Prod.snd := by
  rw [types, pairs, List.map_map]
  rfl

theorem nodup_pairs (s : Schema) : (s.pairs.map Prod.fst).Nodup :=
  s.names_eq ▸ s.distinct

theorem eq_of_pairs (h : s.pairs = s'.pairs) : s = s' := by
  obtain ⟨attributes, _⟩ := s
  obtain ⟨attributes', _⟩ := s'
  have hattributes : attributes = attributes' :=
    List.map_injective_iff.2 Attribute.pair_injective h
  cases hattributes
  rfl

theorem rawNames_eq (s : Schema) : s.rawNames = s.rawPairs.map Prod.fst := by
  rw [rawNames, rawPairs, names_eq, List.map_map, List.map_map]
  rfl

theorem nodup_rawPairs (s : Schema) : ((s.pairs.map rawPair).map Prod.fst).Nodup :=
  s.rawNames_eq ▸ s.distinct.map RawText.raw_injective

theorem refused_or_added (taken : List RawText) (token : RawText) :
    (∃ e, Refused taken token e) ∨
      WellFormed token ∧ surrogateProblems (pairIn token) = [] ∧ nameIn token ∉ taken := by
  rcases Attribute.wellFormed_or_malformed token with hwell | ⟨fault, hfault⟩
  · by_cases htext : surrogateProblems (pairIn token) = []
    · by_cases hname : nameIn token ∈ taken
      · obtain ⟨a, hpair, -⟩ := hwell.exists_attribute htext
        exact .inl ⟨_, .duplicate hwell htext (Prod.mk.inj hpair).1 hname⟩
      · exact .inr ⟨hwell, htext, hname⟩
    · exact .inl ⟨_, .invalid hwell htext⟩
  · exact .inl ⟨_, .malformed hfault⟩

theorem addTokens_of_refused (h : Refused s.rawNames token e) (rest : List RawText) :
    s.addTokens (token :: rest) = .error e := by
  cases h with
  | malformed hfault => rw [addTokens, hfault.ofToken_eq]
  | invalid hwell hne => rw [addTokens, hwell.ofToken_eq_error hne]
  | duplicate hwell htext hname htaken =>
    obtain ⟨a, hpair, ha, -⟩ := hwell.exists_attribute htext
    have hraw : nameIn token = a.name.raw := (Prod.mk.inj hpair).1
    have hadd : s.add? a = none := by
      rw [hraw, rawNames, List.mem_map_of_injective RawText.raw_injective] at htaken
      exact dif_pos htaken
    rw [addTokens, ha]
    simp only [hadd]
    rw [RawText.raw_injective (hraw.symm.trans hname)]

theorem add?_of_notMem (h : a.name ∉ s.names) :
    ∃ s', s.add? a = some s' ∧ s'.pairs = s.pairs ++ [(a.name, a.type)] :=
  ⟨_, dif_neg h, List.map_append⟩

theorem addTokens_of_added (hwell : WellFormed token)
    (htext : surrogateProblems (pairIn token) = []) (hname : nameIn token ∉ s.rawNames) :
    ∃ s' : Schema, s'.rawPairs = s.rawPairs ++ [pairIn token] ∧
      ∀ rest, s.addTokens (token :: rest) = s'.addTokens rest := by
  obtain ⟨a, hpair, ha, -⟩ := hwell.exists_attribute htext
  have hraw : nameIn token = a.name.raw := (Prod.mk.inj hpair).1
  rw [hraw, rawNames, List.mem_map_of_injective RawText.raw_injective] at hname
  obtain ⟨s', hadd, hpairs⟩ := add?_of_notMem hname
  refine ⟨s', ?_, ?_⟩
  · rw [rawPairs, hpairs, List.map_append, hpair]
    rfl
  · intro rest
    rw [addTokens, ha]
    simp only [hadd]

/-- The first token that is refused decides about the whole list. -/
theorem addTokens_run (s : Schema) (tokens : List RawText) :
    (∃ s', s.addTokens tokens = .ok s') ∨
      ∃ earlier token later s' e, tokens = earlier ++ token :: later ∧
        s.addTokens earlier = .ok s' ∧ Refused s'.rawNames token e ∧
        s.addTokens tokens = .error e := by
  -- The schema stands for the tokens that were added before, so it changes with each step.
  induction tokens generalizing s with
  | nil => exact .inl ⟨s, rfl⟩
  | cons token rest ih =>
    rcases refused_or_added s.rawNames token with ⟨e, he⟩ | ⟨hwell, htext, hname⟩
    · exact .inr ⟨[], token, rest, s, e, rfl, rfl, he, addTokens_of_refused he rest⟩
    · obtain ⟨s₁, -, hstep⟩ := addTokens_of_added hwell htext hname
      rcases ih s₁ with ⟨s', hs'⟩ | ⟨earlier, next, later, s', e, rfl, hearlier, he, herror⟩
      · exact .inl ⟨s', (hstep rest).trans hs'⟩
      · exact .inr ⟨token :: earlier, next, later, s', e, rfl, (hstep earlier).trans hearlier, he,
          (hstep _).trans herror⟩

theorem addTokens_append (s : Schema) (earlier later : List RawText) :
    s.addTokens (earlier ++ later) = s.addTokens earlier >>= (addTokens · later) := by
  induction earlier generalizing s with
  | nil => rfl
  | cons token rest ih =>
    rcases refused_or_added s.rawNames token with ⟨e, he⟩ | ⟨hwell, htext, hname⟩
    · rw [List.cons_append, addTokens_of_refused he, addTokens_of_refused he]
      rfl
    · obtain ⟨s₁, -, hstep⟩ := addTokens_of_added hwell htext hname
      rw [List.cons_append, hstep, hstep, ih]

theorem addTokens_eq_ok (h : s.addTokens tokens = .ok s') :
    (∀ token ∈ tokens, WellFormed token ∧ surrogateProblems (pairIn token) = []) ∧
      s'.rawPairs = s.rawPairs ++ tokens.map pairIn := by
  induction tokens generalizing s with
  | nil =>
    cases h
    exact ⟨nofun, (List.append_nil _).symm⟩
  | cons token rest ih =>
    rcases refused_or_added s.rawNames token with ⟨e, he⟩ | ⟨hwell, htext, hname⟩
    · rw [addTokens_of_refused he] at h
      cases h
    · obtain ⟨s₁, hpairs, hstep⟩ := addTokens_of_added hwell htext hname
      obtain ⟨hall, hrest⟩ := ih ((hstep rest).symm.trans h)
      refine ⟨List.forall_mem_cons.2 ⟨⟨hwell, htext⟩, hall⟩, ?_⟩
      rw [hrest, hpairs, List.append_assoc]
      rfl

theorem Refused.not_acceptable (h : Refused (earlier.map nameIn) token e) (later : List RawText) :
    ¬ Acceptable (earlier ++ token :: later) := by
  intro hacceptable
  have hmem : token ∈ earlier ++ token :: later := by simp
  cases h with
  | malformed hfault =>
    have hwell := hacceptable.wellFormed token hmem
    obtain ⟨a, -, ha, -⟩ := hwell.exists_attribute (hacceptable.text token hmem)
    cases hfault.ofToken_eq.symm.trans ha
  | invalid _ hne => exact hne (hacceptable.text token hmem)
  | duplicate _ _ _ hname =>
    have hnodup := hacceptable.nodup
    rw [List.map_append, List.nodup_append] at hnodup
    exact hnodup.2.2 _ hname _ List.mem_cons_self rfl

theorem ofTokens_eq_ok (h : ofTokens tokens = .ok s) :
    Acceptable tokens ∧ s.rawPairs = tokens.map pairIn := by
  obtain ⟨hwell, hpairs⟩ := addTokens_eq_ok h
  have hpairs : s.rawPairs = tokens.map pairIn := hpairs
  refine ⟨⟨fun token ht => (hwell token ht).1, fun token ht => (hwell token ht).2, ?_⟩, hpairs⟩
  have hnodup : (s.rawPairs.map Prod.fst).Nodup := s.nodup_rawPairs
  rwa [hpairs, List.map_map] at hnodup

/-- A token with text in its name and type is text throughout, as no surrogate is a blank. -/
theorem exists_text_of_strip {t : RawText} {u : Text} (h : t.strip = u.raw) :
    ∃ v : Text, t = v.raw := by
  have hblank {b : RawText} (hb : ∀ c ∈ b, c.isBlank = true) : ∃ v : Text, b = v.raw := by
    induction b with
    | nil => exact ⟨[], rfl⟩
    | cons c rest ih =>
      obtain ⟨hc, hrest⟩ := List.forall_mem_cons.1 hb
      obtain ⟨v, rfl⟩ := ih hrest
      cases c with
      | char c => exact ⟨c :: v, rfl⟩
      | surrogate n => cases hc
  obtain ⟨before, after, heq, hbefore, hafter⟩ := Text.exists_trim RawChar.isBlank t
  obtain ⟨v, rfl⟩ := hblank hbefore
  obtain ⟨w, rfl⟩ := hblank hafter
  refine ⟨v ++ u ++ w, ?_⟩
  rw [heq, show Text.trim RawChar.isBlank t = u.raw from h]
  simp only [Text.raw, List.map_append]

theorem exists_text_of_wellFormed (h : WellFormed token)
    (htext : surrogateProblems (pairIn token) = []) : ∃ t : Text, token = t.raw := by
  obtain ⟨a, hpair, -⟩ := h.exists_attribute htext
  obtain ⟨before, hbefore⟩ := exists_text_of_strip (Prod.mk.inj hpair).1
  obtain ⟨after, hafter⟩ := exists_text_of_strip (Prod.mk.inj hpair).2
  refine ⟨before ++ ':' :: after, ?_⟩
  have htoken : Attribute.before token ++ .char ':' :: Attribute.after token = token :=
    Text.takeWhile_append_tail h.colon
  rw [← htoken, hbefore, hafter, Text.raw, Text.raw, Text.raw, List.map_append]
  rfl

theorem exists_texts_of_acceptable (h : Acceptable tokens) :
    ∃ texts : List Text, tokens = texts.map Text.raw := by
  obtain ⟨hwell, htext, -⟩ := h
  induction tokens with
  | nil => exact ⟨[], rfl⟩
  | cons token rest ih =>
    obtain ⟨t, rfl⟩ := exists_text_of_wellFormed (hwell token List.mem_cons_self)
      (htext token List.mem_cons_self)
    obtain ⟨texts, rfl⟩ := ih (fun u hu => hwell u (List.mem_cons_of_mem _ hu))
      fun u hu => htext u (List.mem_cons_of_mem _ hu)
    exact ⟨t :: texts, rfl⟩

theorem rawNames_of_ofTokens (h : ofTokens tokens = .ok s) : s.rawNames = tokens.map nameIn := by
  rw [rawNames_eq, (ofTokens_eq_ok h).2, List.map_map]
  rfl

theorem ofTokens_run (tokens : List RawText) :
    (∃ s, ofTokens tokens = .ok s) ∨
      ∃ earlier token later s e, tokens = earlier ++ token :: later ∧
        ofTokens earlier = .ok s ∧ Refused (earlier.map nameIn) token e ∧
          ofTokens tokens = .error e := by
  rcases addTokens_run empty tokens with hok | ⟨earlier, token, later, s, e, h, hs, he, herror⟩
  · exact .inl hok
  · rw [rawNames_of_ofTokens hs] at he
    exact .inr ⟨earlier, token, later, s, e, h, hs, he, herror⟩

theorem ofTokens_succeeds (h : Acceptable tokens) : ∃ s, ofTokens tokens = .ok s := by
  rcases ofTokens_run tokens with hok | ⟨earlier, token, later, -, e, rfl, -, he, -⟩
  · exact hok
  · exact absurd h (he.not_acceptable later)

theorem ofTokens_of_refused (h : Acceptable earlier) (he : Refused (earlier.map nameIn) token e)
    (later : List RawText) : ofTokens (earlier ++ token :: later) = .error e := by
  obtain ⟨s, hs⟩ := ofTokens_succeeds h
  rw [← rawNames_of_ofTokens hs] at he
  have hsplit := addTokens_append empty earlier (token :: later)
  rw [show empty.addTokens earlier = .ok s from hs] at hsplit
  exact hsplit.trans (addTokens_of_refused he later)

theorem firstRepeat?_of_nodup {seen ts : List Text} (hnodup : ts.Nodup)
    (hseen : ∀ t ∈ ts, t ∉ seen) : firstRepeat? seen ts = none := by
  induction ts generalizing seen with
  | nil => rfl
  | cons t rest ih =>
    obtain ⟨ht, hrest⟩ := List.nodup_cons.1 hnodup
    rw [firstRepeat?, if_neg (hseen t List.mem_cons_self)]
    apply ih hrest
    intro u hu hmem
    rcases List.mem_cons.1 hmem with rfl | hmem
    · exact ht hu
    · exact hseen u (List.mem_cons_of_mem t hu) hmem

theorem ofAttributes_attributes (s : Schema) : ofAttributes s.attributes = .ok s := by
  have hnone : firstRepeat? [] (s.attributes.map (·.name)) = none :=
    firstRepeat?_of_nodup s.distinct nofun
  rw [ofAttributes]
  split
  · rfl
  · rename_i hsome
    rw [hnone] at hsome
    cases hsome

/-- What a list of tokens gives. -/
theorem ofTokens_exact (tokens : List RawText) :
    ((∃ s, ofTokens tokens = .ok s) ↔ Acceptable tokens) ∧
      (∀ s, ofTokens tokens = .ok s →
        s.pairs.map rawPair = tokens.map pairIn ∧ s.attributes.length = tokens.length ∧
          Entries.ofPairs s.pairs = s.pairs ∧ ofAttributes s.attributes = .ok s ∧
          ∃ texts : List Text, tokens = texts.map Text.raw) ∧
      (∀ e, ofTokens tokens = .error e ↔
        ∃ earlier token later, tokens = earlier ++ token :: later ∧ Acceptable earlier ∧
          Refused (earlier.map nameIn) token e) ∧
      ∀ token ∈ tokens, WellFormed token → ∀ problems,
        Attribute.ofFields (Attribute.toFields (nameIn token) (typeIn token)) = .error problems ↔
          problems = surrogateProblems (pairIn token) ∧ problems ≠ [] := by
  refine ⟨⟨?_, ofTokens_succeeds⟩, ?_, ?_, ?_⟩
  · rintro ⟨s, hs⟩
    exact (ofTokens_eq_ok hs).1
  · intro s hs
    have hpairs := (ofTokens_eq_ok hs).2
    have hlength := congrArg List.length hpairs
    rw [rawPairs, pairs, List.length_map, List.length_map, List.length_map] at hlength
    exact ⟨hpairs, hlength, Entries.ofPairs_of_nodup s.nodup_pairs, s.ofAttributes_attributes,
      exists_texts_of_acceptable (ofTokens_eq_ok hs).1⟩
  · intro e
    constructor
    · intro herror
      rcases ofTokens_run tokens with ⟨s, hs⟩ | ⟨earlier, token, later, s, e', rfl, hs, he, herror'⟩
      · rw [hs] at herror
        cases herror
      · cases herror.symm.trans herror'
        exact ⟨earlier, token, later, rfl, (ofTokens_eq_ok hs).1, he⟩
    · rintro ⟨earlier, token, later, rfl, hearlier, he⟩
      exact ofTokens_of_refused hearlier he later
  · intro token _ hwell problems
    rcases Attribute.ofFields_toFields hwell.nameIn_ne hwell.typeIn_ne with
      ⟨a, hpair, ha⟩ | ⟨hne, herror⟩
    · rw [ha, pairIn, hpair, Attribute.surrogateProblems_rawPair]
      refine ⟨nofun, ?_⟩
      rintro ⟨rfl, hne⟩
      exact absurd rfl hne
    · rw [herror]
      refine ⟨fun h => ?_, fun h => h.1 ▸ rfl⟩
      cases h
      exact ⟨rfl, hne⟩

theorem ofTokens_exact_article :
    (∃ s, ofTokens ["title:string", " meta : a:b "] = .ok s ∧
        s.names = ["title", "meta"] ∧ s.types = ["string", "a:b"]) ∧
      ofTokens ["title:string", "title :text", "body"] = .error (.duplicate "title") := by
  obtain ⟨hok, hvalue, -, -⟩ := ofTokens_exact ["title:string", " meta : a:b "]
  obtain ⟨s, hs⟩ := hok.2 (by decide)
  obtain ⟨hpairs, -, -, -⟩ := hvalue s hs
  have hpairs : s.pairs = ([("title", "string"), ("meta", "a:b")] : List (Text × Text)) :=
    List.map_injective_iff.2 Attribute.rawPair_injective (hpairs.trans (by decide))
  refine ⟨⟨s, hs, ?_, ?_⟩, ?_⟩
  · rw [names_eq, hpairs]
    decide
  · rw [types_eq, hpairs]
    decide
  · obtain ⟨-, -, herror, -⟩ := ofTokens_exact ["title:string", "title :text", "body"]
    apply (herror _).2
    exact ⟨["title:string"], "title :text", ["body"], rfl, by decide,
      .duplicate (by decide) (by decide) (by decide) (by decide)⟩

/-- A name with a lone surrogate is refused before the name that is repeated after it. -/
theorem ofTokens_surrogate :
    let bad : RawText := .surrogate 0x4FF :: (":string" : RawText)
    let tokens : List RawText := ["a:string", bad, "a:string"]
    (∀ token ∈ tokens, WellFormed token) ∧ (tokens.dropLast.map nameIn).Nodup ∧
      ofTokens tokens = .error (.invalid [⟨"name", .notUnicode⟩]) ∧
      ofTokens tokens ≠ .error (.duplicate "a") := by
  intro bad tokens
  have hearlier : Acceptable ["a:string"] := by decide
  have herror : ofTokens tokens = .error (.invalid (surrogateProblems (pairIn bad))) :=
    ofTokens_of_refused hearlier (.invalid (by decide) (by decide)) _
  refine ⟨by decide, by decide, herror.trans (by decide), ?_⟩
  rw [herror]
  decide

end Schema

end Scaffold
