import Scaffold.Proofs.App.Script
import Scaffold.Proofs.Schema.Tokens
import Scaffold.Proofs.Text.Runs

namespace Scaffold.Query

open Text

def isBrace (c : Char) : Bool :=
  c = '\x7b' || c = '\x7d'

/-- What stands behind the second opening brace of a query, up to the next brace. -/
def innerBlock? (t : Text) : Option Text := do
  let (_, selection) ← cutFirst '\x7b' t
  let (_, block) ← cutFirst '\x7b' selection
  return block.takeWhile (!isBrace ·)

/-- The fields that a query asks for; none without an inner block. -/
def requested (t : Text) : List Text :=
  (innerBlock? t).elim [] (runs isBlank)

def nameIn (token : Text) : Text :=
  strip (token.takeWhile (· ≠ ':'))

/-- A text without blanks and braces. -/
def Unbroken (t : Text) : Prop :=
  ∀ c ∈ t, isBlank c = false ∧ isBrace c = false

instance : DecidablePred Unbroken :=
  List.decidableBAll fun c => isBlank c = false ∧ isBrace c = false

variable {module : Text} {fields others : List Text}

theorem Unbroken.notMem {t : Text} (h : Unbroken t) : '\x7b' ∉ t :=
  fun hmem => absurd (h _ hmem).2 (by decide)

theorem innerBlock?_nil (hmodule : Unbroken module) : innerBlock? (query module []) = none := by
  have hopen : query module [] = [] ++ '\x7b' :: (" " ++ (module ++ " \x7d")) :=
    Controller.query_eq module []
  have hrest : '\x7b' ∉ " " ++ (module ++ " \x7d") :=
    notMem_append (by decide) (notMem_append hmodule.notMem (by decide))
  rw [hopen, innerBlock?, cutFirst_append List.not_mem_nil]
  change (cutFirst '\x7b' (" " ++ (module ++ " \x7d")) >>= _) = none
  rw [cutFirst_of_notMem hrest]
  rfl

theorem innerBlock?_fields (hmodule : Unbroken module) (hne : fields ≠ []) :
    innerBlock? (query module fields) =
      some ((' ' :: (join [' '] fields ++ " \x7d \x7d")).takeWhile (!isBrace ·)) := by
  obtain ⟨f, rest, rfl⟩ := List.exists_cons_of_ne_nil hne
  have hopen : query module (f :: rest) = [] ++ '\x7b' :: ((" " ++ (module ++ " ")) ++
      '\x7b' :: ' ' :: (join [' '] (f :: rest) ++ " \x7d \x7d")) := by
    have hafter : Controller.afterModule (f :: rest) =
        " " ++ '\x7b' :: ' ' :: (join [' '] (f :: rest) ++ " \x7d \x7d") := rfl
    rw [Controller.query_eq, hafter]
    simp only [List.append_assoc]
    rfl
  have hmodule : '\x7b' ∉ " " ++ (module ++ " ") :=
    notMem_append (by decide) (notMem_append hmodule.notMem (by decide))
  rw [hopen, innerBlock?, cutFirst_append List.not_mem_nil]
  change (cutFirst '\x7b' (" " ++ (module ++ " ") ++ '\x7b' :: _) >>= _) = _
  rw [cutFirst_append hmodule]
  rfl

theorem unbroken_of_requested {t f : Text} (hf : f ∈ requested t) : Unbroken f := by
  rw [requested] at hf
  cases hblock : innerBlock? t with
  | none =>
    rw [hblock] at hf
    cases hf
  | some block =>
    rw [hblock] at hf
    obtain ⟨-, hsub, hblank⟩ := of_mem_runs hf
    obtain ⟨_, -, h⟩ := Option.bind_eq_some_iff.1 hblock
    obtain ⟨_, -, h⟩ := Option.bind_eq_some_iff.1 h
    cases h
    intro c hc
    exact ⟨hblank c hc, by simpa using List.mem_takeWhile_imp (hsub hc)⟩

/-- Without braces in their names, the fields are read run by run. -/
theorem requested_query (hmodule : Unbroken module)
    (hfields : ∀ f ∈ fields, ∀ c ∈ f, isBrace c = false) :
    requested (query module fields) = fields.flatMap (runs isBlank) := by
  cases fields with
  | nil => rw [requested, innerBlock?_nil hmodule]; rfl
  | cons f rest =>
    have hspace : isBlank ' ' = true := by decide
    have hinner : ∀ c ∈ ' ' :: (join [' '] (f :: rest) ++ [' ']), (!isBrace c) = true := by
      intro c hc
      rw [Bool.not_eq_true', ← Bool.not_eq_true]
      intro hbrace
      rw [List.mem_cons, List.mem_append, List.mem_singleton] at hc
      rcases hc with rfl | hc | rfl
      · exact absurd hbrace (by decide)
      · rcases mem_join hc with hc | ⟨g, hg, hc⟩
        · cases List.mem_singleton.1 hc
          exact absurd hbrace (by decide)
        · exact absurd hbrace (by simp [hfields g hg c hc])
      · exact absurd hbrace (by decide)
    have hblock : ' ' :: (join [' '] (f :: rest) ++ " \x7d \x7d") =
        ' ' :: (join [' '] (f :: rest) ++ [' ']) ++ "\x7d \x7d" := by
      rw [List.cons_append, List.append_assoc]
      rfl
    have hend : List.takeWhile (!isBrace ·) ("\x7d \x7d" : Text) = [] := by decide
    rw [requested, innerBlock?_fields hmodule (List.cons_ne_nil f rest), hblock,
      List.takeWhile_append_of_pos hinner, hend, List.append_nil, Option.elim_some,
      runs_cons hspace, runs_separated hspace, runs_join hspace]
    exact List.append_nil _

theorem flatMap_runs (hne : ∀ f ∈ fields, f ≠ []) (h : ∀ f ∈ fields, Unbroken f) :
    fields.flatMap (runs isBlank) = fields := by
  have hruns : ∀ f ∈ fields, runs isBlank f = [f] := fun f hf =>
    runs_of_forall (hne f hf) fun c hc => (h f hf c hc).1
  rw [List.flatMap_congr hruns]
  exact List.flatMap_singleton' fields

theorem query_injective (hfields : ∀ f ∈ fields, ' ' ∉ f) (hothers : ∀ f ∈ others, ' ' ∉ f)
    (h : query module fields = query module others) : fields = others := by
  rw [Controller.query_eq, Controller.query_eq, List.append_cancel_left_eq,
    List.append_cancel_left_eq] at h
  cases fields with
  | nil =>
    cases others with
    | nil => rfl
    | cons g rest => cases h
  | cons f rest =>
    cases others with
    | nil => cases h
    | cons g more =>
      have hjoin : join [' '] (f :: rest) = join [' '] (g :: more) :=
        List.append_cancel_left (List.append_cancel_right h)
      rw [← cut_join (List.cons_ne_nil f rest) hfields, hjoin,
        cut_join (List.cons_ne_nil g more) hothers]

variable {tokens : List Text} {s : Schema}

theorem raw_nameIn (token : Text) : Attribute.nameIn token.raw = (nameIn token).raw := by
  have hcolon : (fun c => decide (c ≠ RawChar.char ':')) ∘ RawChar.char =
      fun c => decide (c ≠ ':') := by
    funext c
    simp
  rw [Attribute.nameIn, Attribute.before, raw, List.takeWhile_map, hcolon]
  exact RawText.strip_raw _

theorem names_of_ofTokens (h : Schema.ofTokens (tokens.map raw) = .ok s) :
    s.names = tokens.map nameIn := by
  have hnames := Schema.rawNames_of_ofTokens h
  rw [Schema.rawNames, List.map_map] at hnames
  apply List.map_injective_iff.2 RawText.raw_injective
  rw [hnames, List.map_map]
  exact List.map_congr_left fun token _ => raw_nameIn token

theorem names_ne_nil (s : Schema) : ∀ name ∈ s.names, name ≠ [] := by
  intro name hname
  obtain ⟨a, -, rfl⟩ := List.mem_map.1 hname
  exact a.name_ne

/--
The query of a module asks for the fields that accepted tokens name, in their order, just if no
name has a blank or a brace. Of names with blanks it asks for each run. It has an inner block
unless there are no tokens; and two lists of names without spaces have the same query only if they
are the same.
-/
theorem requested_exact (hmodule : Unbroken module)
    (hs : Schema.ofTokens (tokens.map raw) = .ok s) :
    (innerBlock? (query module s.names) = none ↔ s.attributes = []) ∧
    (requested (query module s.names) = s.names ↔ ∀ token ∈ tokens, Unbroken (nameIn token)) ∧
    ((∀ token ∈ tokens, ∀ c ∈ nameIn token, isBrace c = false) →
      requested (query module s.names) =
        tokens.flatMap fun token => runs isBlank (nameIn token)) ∧
    ∀ (more : List Text) s', Schema.ofTokens (more.map raw) = .ok s' →
      (∀ token ∈ tokens ++ more, ' ' ∉ nameIn token) →
      query module s.names = query module s'.names → s.names = s'.names := by
  have hnames : s.names = tokens.map nameIn := names_of_ofTokens hs
  have hbraces : (∀ token ∈ tokens, ∀ c ∈ nameIn token, isBrace c = false) →
      requested (query module s.names) = s.names.flatMap (runs isBlank) := by
    intro h
    apply requested_query hmodule
    rwa [hnames, List.forall_mem_map]
  refine ⟨?_, ?_, ?_, ?_⟩
  · constructor
    · intro hnone
      by_contra hne
      have hne : s.names ≠ [] := fun hnil => hne (List.map_eq_nil_iff.1 hnil)
      rw [innerBlock?_fields hmodule hne] at hnone
      cases hnone
    · intro hempty
      rw [Schema.names, hempty]
      exact innerBlock?_nil hmodule
  · rw [← List.forall_mem_map, ← hnames]
    constructor
    · intro h name hname
      rw [← h] at hname
      exact unbroken_of_requested hname
    · intro h
      rw [requested_query hmodule fun f hf c hc => (h f hf c hc).2]
      exact flatMap_runs (names_ne_nil s) h
  · intro h
    rw [hbraces h, hnames, List.flatMap_map]
  · intro more s' hs' hspace
    apply query_injective
    · rw [hnames, List.forall_mem_map]
      exact fun token htoken => hspace token (List.mem_append_left more htoken)
    · rw [names_of_ofTokens hs', List.forall_mem_map]
      exact fun token htoken => hspace token (List.mem_append_right tokens htoken)

theorem requested_exact_article :
    ∃ s, Schema.ofTokens [" title :string", "meta:a:b"] = .ok s ∧
      requested (query "article" s.names) = s.names ∧ s.names = ["title", "meta"] := by
  let tokens : List Text := [" title :string", "meta:a:b"]
  have hacceptable : Schema.Acceptable (tokens.map raw) := by decide
  have hmodule : Unbroken "article" := by decide
  obtain ⟨s, hs⟩ := Schema.ofTokens_succeeds hacceptable
  obtain ⟨-, hrequested, -, -⟩ := requested_exact hmodule hs
  refine ⟨s, hs, hrequested.2 (by decide), ?_⟩
  rw [names_of_ofTokens hs]
  decide

/-- Of a name with a space, the query asks for both parts, as it does where they are two names. -/
theorem requested_parts :
    ∃ one two, Schema.ofTokens ["my title:string"] = .ok one ∧
      Schema.ofTokens ["my:string", "title:string"] = .ok two ∧ Unbroken "article" ∧
      one.names = ["my title"] ∧ requested (query "article" one.names) = ["my", "title"] ∧
      one.names ≠ two.names ∧ query "article" one.names = query "article" two.names := by
  let joined : List Text := ["my title:string"]
  let parted : List Text := ["my:string", "title:string"]
  have hjoined : Schema.Acceptable (joined.map raw) := by decide
  have hparted : Schema.Acceptable (parted.map raw) := by decide
  obtain ⟨one, hone⟩ := Schema.ofTokens_succeeds hjoined
  obtain ⟨two, htwo⟩ := Schema.ofTokens_succeeds hparted
  refine ⟨one, two, hone, htwo, ?_⟩
  rw [names_of_ofTokens hone, names_of_ofTokens htwo]
  decide

end Scaffold.Query
