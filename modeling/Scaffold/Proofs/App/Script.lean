import Mathlib.Data.List.TakeWhile
import Scaffold.Proofs.App.Files
import Scaffold.Proofs.Path

namespace Scaffold

namespace Script

/-- The letters and digits of identifiers. Which ones there are beyond ASCII is left open. -/
structure Alphabet where
  letter : Char → Bool
  digit : Char → Bool
  letter_ascii : ∀ c, c.toNat < 128 → letter c = c.isAlpha
  digit_ascii : ∀ c, c.toNat < 128 → digit c = c.isDigit

namespace Alphabet

variable (α : Alphabet)

def starts (c : Char) : Bool :=
  α.letter c || c = '_' || c = '$'

def continues (c : Char) : Bool :=
  α.starts c || α.digit c

/-- A letter, `_` or `$`, and then letters, digits, `_` and `$`. -/
def IsIdentifier : Text → Prop
  | [] => False
  | c :: rest => α.starts c = true ∧ ∀ d ∈ rest, α.continues d = true

/-- The longest identifier that a text begins with, and what follows it. -/
def identifier? : Text → Option (Text × Text)
  | [] => none
  | c :: rest =>
    if α.starts c then some (c :: rest.takeWhile α.continues, rest.dropWhile α.continues)
    else none

instance : DecidablePred α.IsIdentifier
  | [] => .isFalse id
  | _ :: rest => @instDecidableAnd _ _ _ (rest.decidableBAll fun d => α.continues d = true)

/-- No letters and digits but those of ASCII. -/
def ascii : Alphabet where
  letter := Char.isAlpha
  digit := Char.isDigit
  letter_ascii := fun _ _ => rfl
  digit_ascii := fun _ _ => rfl

variable {α} {t u : Text} {c d : Char}

theorem continues_ascii (h : c.toNat < 128) :
    α.continues c = (c.isAlpha || c = '_' || c = '$' || c.isDigit) := by
  rw [continues, starts, α.letter_ascii c h, α.digit_ascii c h]

theorem not_starts (h : α.continues c = false) : α.starts c = false :=
  (Bool.or_eq_false_iff.1 h).1

theorem IsIdentifier.continues (h : α.IsIdentifier t) (hc : c ∈ t) : α.continues c = true := by
  cases t with
  | nil => exact h.elim
  | cons d rest =>
    obtain ⟨hd, hrest⟩ := h
    rcases List.mem_cons.1 hc with rfl | hc
    · rw [Alphabet.continues, hd, Bool.true_or]
    · exact hrest c hc

theorem IsIdentifier.notMem (h : α.IsIdentifier t) (hc : α.continues c = false) : c ∉ t := by
  intro hmem
  rw [h.continues hmem] at hc
  cases hc

/-- Before a character that no identifier goes on with, a text is read as an identifier just if it
is one. -/
theorem identifier?_append (hd : α.continues d = false) :
    α.identifier? (t ++ d :: u) = some (t, d :: u) ↔ α.IsIdentifier t := by
  cases t with
  | nil =>
    simp only [List.nil_append, identifier?, not_starts hd, IsIdentifier, Bool.false_eq_true,
      if_false, reduceCtorEq]
  | cons c rest =>
    rw [List.cons_append, identifier?, IsIdentifier]
    split
    · rename_i hc
      constructor
      · intro h
        have hrest : (rest ++ d :: u).takeWhile α.continues = rest := by
          injection h with h
          injection h with h
          injection h
        refine ⟨hc, fun e he => ?_⟩
        rw [← hrest] at he
        exact List.mem_takeWhile_imp he
      · rintro ⟨-, hrest⟩
        rw [List.takeWhile_append_of_pos hrest, List.dropWhile_append_of_pos hrest,
          List.takeWhile_cons_of_neg (by simp [hd]), List.dropWhile_cons_of_neg (by simp [hd]),
          List.append_nil]
    · rename_i hc
      constructor
      · intro h
        cases h
      · rintro ⟨hstarts, -⟩
        exact absurd hstarts hc

end Alphabet

/-- The rest of a literal in single quotes, from behind its first quote, and what follows the quote
that ends it. A backslash takes the next character with it, and a line break is an error. -/
def literal? : Text → Option (Text × Text)
  | [] => none
  | '\\' :: c :: rest => (literal? rest).map fun (t, u) => ('\\' :: c :: t, u)
  | c :: rest =>
    if c = '\'' then some ([], rest)
    else if c = '\n' ∨ c = '\r' then none
    else (literal? rest).map fun (t, u) => (c :: t, u)

/-- In a literal, the first text leaves it to the second one to end it. -/
def StaysOpen (t u : Text) : Prop :=
  literal? (t ++ u) = (literal? u).map fun (v, rest) => (t ++ v, rest)

/-- No character of the text ends a literal or breaks it. -/
def Plain (t : Text) : Prop :=
  ∀ c ∈ t, c ≠ '\'' ∧ c ≠ '\n' ∧ c ≠ '\r'

instance : DecidablePred Plain :=
  List.decidableBAll fun c => c ≠ '\'' ∧ c ≠ '\n' ∧ c ≠ '\r'

variable {t u v rest : Text} {c : Char}

theorem literal?_cons (hc : c ≠ '\\') (u : Text) : literal? (c :: u) =
    if c = '\'' then some ([], u)
    else if c = '\n' ∨ c = '\r' then none
    else (literal? u).map fun (v, rest) => (c :: v, rest) := by
  rw [literal?]
  intro d rest h
  exact absurd h hc

theorem staysOpen_of_plain (hslash : '\\' ∉ t) (hplain : Plain t) (u : Text) : StaysOpen t u := by
  induction t with
  | nil =>
    rw [StaysOpen]
    cases hu : literal? u with
    | none => simpa using hu
    | some result => simpa using hu
  | cons c t ih =>
    obtain ⟨hc, hslash⟩ := not_or.1 (mt List.mem_cons.2 hslash)
    obtain ⟨⟨hquote, hnewline, hreturn⟩, hplain⟩ := List.forall_mem_cons.1 hplain
    have ih := ih hslash hplain
    rw [StaysOpen] at ih ⊢
    rw [List.cons_append, literal?_cons (Ne.symm hc), if_neg hquote,
      if_neg (not_or.2 ⟨hnewline, hreturn⟩), ih, Option.map_map]
    rfl

theorem plain_of_literal? (hslash : '\\' ∉ t) (h : literal? u = some (t, rest)) : Plain t := by
  induction t generalizing u with
  | nil =>
    intro c hc
    cases hc
  | cons c t ih =>
    obtain ⟨hc, hslash⟩ := not_or.1 (mt List.mem_cons.2 hslash)
    cases u with
    | nil => cases h
    | cons d u =>
      by_cases hd : d = '\\'
      · subst hd
        cases u with
        | nil => cases h
        | cons e u =>
          obtain ⟨result, -, heq⟩ := Option.map_eq_some_iff.1 h
          cases heq
          exact absurd rfl hc
      · rw [literal?_cons hd] at h
        split at h
        · cases h
        · rename_i hquote
          split at h
          · cases h
          · rename_i hbreak
            obtain ⟨⟨v, after⟩, hu, heq⟩ := Option.map_eq_some_iff.1 h
            cases heq
            have hkept := not_or.1 hbreak
            exact List.forall_mem_cons.2 ⟨⟨hquote, hkept.1, hkept.2⟩, ih hslash hu⟩

/-- Before the quote that is meant to end the literal, a text without escapes leaves it open just if
it is plain. -/
theorem staysOpen_quote_iff (hslash : '\\' ∉ t) (u : Text) : StaysOpen t ('\'' :: u) ↔ Plain t := by
  constructor
  · intro h
    have hread : literal? (t ++ '\'' :: u) = some (t, u) := by
      rw [StaysOpen] at h
      rw [h]
      exact congrArg (fun v => some (v, u)) (List.append_nil t)
    exact plain_of_literal? hslash hread
  · intro h
    exact staysOpen_of_plain hslash h _

theorem plain_append : Plain (t ++ u) ↔ Plain t ∧ Plain u :=
  List.forall_mem_append

theorem Alphabet.IsIdentifier.plain {α : Alphabet} (h : α.IsIdentifier t) : Plain t := by
  have hascii {c : Char} (hc : c.toNat < 128)
      (hno : (c.isAlpha || c = '_' || c = '$' || c.isDigit) = false) : c ∉ t := by
    apply h.notMem
    rw [continues_ascii hc, hno]
  intro c hc
  refine ⟨?_, ?_, ?_⟩
  all_goals
    rintro rfl
    exact hascii (by decide) (by decide) hc

end Script

namespace Controller

/-- Whole lines, and the beginning of the one after them. -/
def lines : List Text → Text → Text
  | [], last => last
  | line :: rest, last => line ++ (['\n'] ++ lines rest last)

def beforeHost : Text :=
  lines ["import Lokka from 'lokka'", "import Transport from 'lokka-transport-http'",
    "import tree from 'universal-tree'", "import Index from '../views'", "",
    "const api = new Lokka(\x7b"] "  transport: new Transport(process.env."

def beforeAddress : Text :=
  " + '"

def beforeKey : Text :=
  lines ["')", "\x7d)", "", "export const state = tree(\x7b"] "  "

def beforeBinding : Text :=
  lines [": \x7b\x7d", "\x7d)", "", "export const index = async (ctx) => \x7b"] "  const \x7b "

def beforeQuery : Text :=
  lines [" \x7d = await ctx.bootstrap(() =>"] "    api.query('"

def beforeStateKey : Text :=
  lines ["')", "  )"] "  state.set('"

def beforeValue : Text :=
  "', "

def afterValue : Text :=
  lines [")", "  ctx.render(\x7b body: Index \x7d)", "\x7d"] []

open Template in
theorem segments_eq : segments Template.controller =
    [.text beforeHost, .slot "app_url_env_var" .plain, .text (beforeAddress ++ ("/api/" : Text)),
      .slot "module_name" .plain, .text beforeKey, .slot "module_name" .plain,
      .text beforeBinding, .slot "module_name" .plain, .text beforeQuery, .slot "query" .plain,
      .text beforeStateKey, .slot "module_name" .plain, .text beforeValue,
      .slot "module_name" .plain, .text afterValue] := by
  rfl

def afterModule : List Text → Text
  | [] => " \x7d"
  | fields => " \x7b " ++ Text.join " " fields ++ " \x7d \x7d"

theorem query_eq (module : Text) (fields : List Text) :
    query module fields = "\x7b " ++ (module ++ afterModule fields) := by
  cases fields with
  | nil => rw [query, afterModule, List.append_assoc]
  | cons f rest => simp only [query, afterModule, List.append_assoc]

end Controller

namespace AppSpec

open Script Controller

/-- What follows the key of the state, from the quote that ends it. -/
def afterStateKey (spec : AppSpec) : Text :=
  beforeValue ++ (spec.name ++ afterValue)

def afterQueryName (spec : AppSpec) : Text :=
  afterModule spec.schema.names ++ (beforeStateKey ++ (spec.name ++ spec.afterStateKey))

def afterBinding (spec : AppSpec) : Text :=
  beforeQuery ++ ("\x7b " ++ (spec.name ++ spec.afterQueryName))

def afterKey (spec : AppSpec) : Text :=
  beforeBinding ++ (spec.name ++ spec.afterBinding)

/-- What follows the name in the address, from the quote that ends it. -/
def afterAddress (spec : AppSpec) : Text :=
  beforeKey ++ (spec.name ++ spec.afterKey)

theorem controller_eq (spec : AppSpec) : spec.controller = .ok (beforeHost ++
    (spec.appUrlVariable ++ (beforeAddress ++ ("/api/" ++ (spec.name ++ spec.afterAddress))))) := by
  have hquery : spec.query = "\x7b " ++ (spec.name ++ afterModule spec.schema.names) :=
    query_eq spec.name spec.schema.names
  have hfilled : Template.controller.filled spec.context = beforeHost ++ (spec.appUrlVariable ++
      (beforeAddress ++ ("/api/" : Text) ++ (spec.name ++ (beforeKey ++ (spec.name ++
        (beforeBinding ++
        (spec.name ++ (beforeQuery ++ (spec.query ++ (beforeStateKey ++ (spec.name ++
          (beforeValue ++ (spec.name ++ (afterValue ++ [])))))))))))))) := by
    unfold Template.filled
    rw [segments_eq]
    rfl
  rw [controller]
  rw [spec.render_eq (.head _), hfilled, hquery]
  simp only [afterAddress, afterKey, afterBinding, afterQueryName, afterStateKey,
    List.append_assoc, List.append_nil]

variable {α : Alphabet} {spec : AppSpec}

theorem identifiers_iff :
    α.identifier? (spec.name ++ spec.afterKey) = some (spec.name, spec.afterKey) ∧
      α.identifier? (spec.name ++ spec.afterBinding) = some (spec.name, spec.afterBinding) ∧
      α.identifier? (spec.name ++ afterValue) = some (spec.name, afterValue) ↔
    α.IsIdentifier spec.name := by
  have hkey : spec.afterKey = ':' :: (spec.afterKey.drop 1) := rfl
  have hbinding : spec.afterBinding = ' ' :: (spec.afterBinding.drop 1) := rfl
  have hvalue : afterValue = ')' :: (afterValue.drop 1) := rfl
  have hcolon : α.continues ':' = false := Alphabet.continues_ascii (by decide)
  have hspace : α.continues ' ' = false := Alphabet.continues_ascii (by decide)
  have hparen : α.continues ')' = false := Alphabet.continues_ascii (by decide)
  rw [hkey, hbinding, hvalue, Alphabet.identifier?_append hcolon,
    Alphabet.identifier?_append hspace, Alphabet.identifier?_append hparen]
  exact ⟨fun h => h.1, fun h => ⟨h, h, h⟩⟩

theorem literals_iff (hslash : '\\' ∉ spec.name) :
    StaysOpen ("/api/" ++ spec.name) spec.afterAddress ∧
      StaysOpen ("\x7b " ++ spec.name) spec.afterQueryName ∧
      StaysOpen spec.name spec.afterStateKey ↔
    Plain spec.name := by
  have haddress : '\\' ∉ "/api/" ++ spec.name := Text.notMem_append (by decide) hslash
  have hquery : '\\' ∉ "\x7b " ++ spec.name := Text.notMem_append (by decide) hslash
  constructor
  · rintro ⟨-, -, hkey⟩
    exact (staysOpen_quote_iff hslash (spec.afterStateKey.drop 1)).1 hkey
  · intro h
    refine ⟨staysOpen_of_plain haddress ?_ _, staysOpen_of_plain hquery ?_ _,
      staysOpen_of_plain hslash h _⟩
    · exact plain_append.2 ⟨by decide, h⟩
    · exact plain_append.2 ⟨by decide, h⟩

/--
The script of a controller has the name of the app at three places as an identifier and in three
literals. For a name that is accepted, an identifier is read there that is the name, all three
times, just if the name is spelled like an identifier; and the name ends none of the literals just
if it has neither a quote nor a line break, as no identifier has.
-/
theorem controller_wellFormed_iff (α : Alphabet) (spec : AppSpec)
    (haccepted : AppName.check spec.name = .ok ()) :
    spec.controller = .ok (beforeHost ++ (spec.appUrlVariable ++ (beforeAddress ++
      ("/api/" ++ (spec.name ++ spec.afterAddress))))) ∧
    (α.identifier? (spec.name ++ spec.afterKey) = some (spec.name, spec.afterKey) ∧
      α.identifier? (spec.name ++ spec.afterBinding) = some (spec.name, spec.afterBinding) ∧
      α.identifier? (spec.name ++ afterValue) = some (spec.name, afterValue) ↔
        α.IsIdentifier spec.name) ∧
    (StaysOpen ("/api/" ++ spec.name) spec.afterAddress ∧
      StaysOpen ("\x7b " ++ spec.name) spec.afterQueryName ∧
      StaysOpen spec.name spec.afterStateKey ↔
        Plain spec.name) ∧
    (α.IsIdentifier spec.name → Plain spec.name) := by
  obtain ⟨-, -, hslash⟩ := AppName.check_eq_ok haccepted
  exact ⟨spec.controller_eq, identifiers_iff, literals_iff hslash, Alphabet.IsIdentifier.plain⟩

theorem controller_wellFormed_blogPost :
    let spec : AppSpec := ⟨"blogPost", ⟨[], by decide⟩, "blog", "APP_URL", by decide, by decide⟩
    AppName.check spec.name = .ok () ∧
    Alphabet.ascii.identifier? (spec.name ++ spec.afterBinding) =
      some (spec.name, spec.afterBinding) ∧
    StaysOpen ("/api/" ++ spec.name) spec.afterAddress := by
  intro spec
  have hidentifier : Alphabet.ascii.IsIdentifier spec.name := by decide
  obtain ⟨-, hidentifiers, hliterals, hplain⟩ :=
    controller_wellFormed_iff Alphabet.ascii spec (by decide)
  obtain ⟨-, hbinding, -⟩ := hidentifiers.2 hidentifier
  obtain ⟨haddress, -, -⟩ := hliterals.2 (hplain hidentifier)
  exact ⟨by decide, hbinding, haddress⟩

/-- Of a name with a hyphen, only the part before it is read; a quote in a name ends the address. -/
theorem controller_malformed :
    let hyphenated : AppSpec :=
      ⟨"blog-post", ⟨[], by decide⟩, "blog", "APP_URL", by decide, by decide⟩
    let quoted : AppSpec := ⟨"it's", ⟨[], by decide⟩, "blog", "APP_URL", by decide, by decide⟩
    (AppName.check hyphenated.name = .ok () ∧ ¬ Alphabet.ascii.IsIdentifier hyphenated.name ∧
      Alphabet.ascii.identifier? (hyphenated.name ++ hyphenated.afterBinding) =
        some (("blog" : Text), "-post" ++ hyphenated.afterBinding)) ∧
    AppName.check quoted.name = .ok () ∧
      literal? ("/api/" ++ quoted.name ++ quoted.afterAddress) =
        some (("/api/it" : Text), "s" ++ quoted.afterAddress) := by
  intro hyphenated quoted
  have hhyphen : Alphabet.ascii.continues '-' = false := by decide
  have hblog : Alphabet.ascii.IsIdentifier "blog" := by decide
  have hopen : StaysOpen "/api/it" ('\'' :: ("s" ++ quoted.afterAddress)) :=
    (staysOpen_quote_iff (by decide) _).2 (by decide)
  refine ⟨⟨by decide, by decide, ?_⟩, by decide, ?_⟩
  · exact (Alphabet.identifier?_append hhyphen).2 hblog
  · exact hopen

end AppSpec

end Scaffold
