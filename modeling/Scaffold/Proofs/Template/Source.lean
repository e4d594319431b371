import Scaffold.Proofs.Template.Segments
import Scaffold.Proofs.Text.Strip

namespace Scaffold.Template

open Outcome

/-- A filter as it stands behind a name. -/
def Filter.source : Filter → Text
  | plain => ""
  | json => " | jsonify"
  | camelCase => " | camel_case"
  | joined separator => " | join('" ++ separator ++ "')"

def placeholderSource (label : Text) : Text :=
  "\x7b\x7b " ++ label ++ " \x7d\x7d"

def tagSource (label : Text) : Text :=
  "\x7b% " ++ label ++ " %\x7d\n"

/-- The label of the comma that stands behind all copies of a line but the last. -/
def commaLabel : Text := "',' if not loop.last else ''"

/-- A character of a source, or a placeholder or a block tag with its label. -/
inductive Token where
  | char (c : Char)
  | placeholder (label : Text)
  | tag (label : Text)
  deriving DecidableEq

def Token.source : Token → Text
  | char c => [c]
  | placeholder label => placeholderSource label
  | tag label => tagSource label

def Fragment.tokens : Fragment → List Token
  | text t => t.map .char
  | slot name filter => [.placeholder (name ++ filter.source)]

def ItemFragment.tokens : ItemFragment → List Token
  | text t => t.map .char
  | key filter => [.placeholder ("key" ++ filter.source)]
  | value filter => [.placeholder ("value" ++ filter.source)]
  | comma => [.placeholder commaLabel]

def lineOf {α : Type} (tokens : α → List Token) (parts : List α) : List Token :=
  parts.flatMap tokens ++ [.char '\n']

def enclosed (label close : Text) (line : List Token) : List Token :=
  .tag label :: line ++ [.tag close]

def Block.tokens : Block → List Token
  | line fragments => lineOf Fragment.tokens fragments
  | optional name fragments =>
    enclosed ("if " ++ name) "endif" (lineOf Fragment.tokens fragments)
  | each list fragments =>
    enclosed ("for value in " ++ list) "endfor" (lineOf ItemFragment.tokens fragments)
  | eachEntry mapping fragments =>
    enclosed ("for key, value in " ++ mapping ++ ".items()") "endfor"
      (lineOf ItemFragment.tokens fragments)

/-- The text in which a template is written. -/
def source (template : Template) : Text :=
  (template.flatMap Block.tokens).flatMap Token.source

/-- What a reader of a source is inside of. -/
inductive Mark where
  | placeholder
  | tag

/-- Reads a source. A placeholder or tag that is begun comes with its label so far; the newline
behind a tag is part of it. -/
def scan : Option (Mark × Text) → Text → List Token
  | none, '\x7b' :: '\x7b' :: ' ' :: rest => scan (some (.placeholder, [])) rest
  | none, '\x7b' :: '%' :: ' ' :: rest => scan (some (.tag, [])) rest
  | none, c :: rest => .char c :: scan none rest
  | some (.placeholder, label), ' ' :: '\x7d' :: '\x7d' :: rest =>
    .placeholder label :: scan none rest
  | some (.tag, label), ' ' :: '%' :: '\x7d' :: '\n' :: rest => .tag label :: scan none rest
  | some (mark, label), c :: rest => scan (some (mark, label ++ [c])) rest
  | _, [] => []

/-- What stands for placeholders and blocks: texts under labels, and under the label of each block
the values that each of its copies has of its own. -/
structure Values where
  texts : Entries Text
  copies : Entries (List (Entries Text))

/-- Characters stay, and placeholders give way to the values of their labels. -/
def Token.text? (texts : Entries Text) : Token → Option Text
  | char c => some [c]
  | placeholder label => texts.get? label
  | tag _ => none

def fill (texts : Entries Text) : List Token → Option Text
  | [] => some []
  | token :: rest => do return (← token.text? texts) ++ (← fill texts rest)

def closesBlock (label : Text) : Bool :=
  label = "endif" ∨ label = "endfor"

/-- The text that a source stands for. Behind the tag of a block, what is copied is collected up to
the tag that closes the block. -/
def expand (values : Values) : Option (Text × List Token) → List Token → Option Text
  | none, [] => some []
  | none, .tag label :: rest => expand values (some (label, [])) rest
  | none, token :: rest => do
    return (← token.text? values.texts) ++ (← expand values none rest)
  | some (label, body), .tag close :: rest =>
    if closesBlock close then do
      let copies ← values.copies.get? label
      let texts ← copies.mapM fun copy => fill (copy ++ values.texts) body
      return texts.flatten ++ (← expand values none rest)
    else none
  | some (label, body), token :: rest => expand values (some (label, body ++ [token])) rest
  | some _, [] => none

/-- The text that a source stands for, if all its placeholders and blocks have values. -/
def instantiate (values : Values) (source : Text) : Option Text :=
  expand values none (scan none source)

/-- The values that a copy of a line has of its own: its key and its value as they are and as JSON,
and a comma unless it is the last copy. -/
def copyFor (key value : Text) (last : Bool) : Entries Text :=
  [("key", key), ("key | jsonify", Json.compact (.string key)), ("value", value),
    ("value | jsonify", Json.compact (.string value)), (commaLabel, if last then "" else ",")]

def copiesFor : List (Text × Text) → List (Entries Text)
  | [] => []
  | (key, value) :: rest => copyFor key value rest.isEmpty :: copiesFor rest

/-- The values of the copies for the items of a list, each of which is its own key. -/
def copiesForItems (ts : List Text) : List (Entries Text) :=
  copiesFor (ts.map fun t => (t, t))

variable {texts : Entries Text} {values : Values} {t u label close : Text}
  {body before rest : List Token} {context : Context}

def Token.inLine : Token → Bool
  | char _ | placeholder _ => true
  | tag _ => false

theorem Fragment.inLine (f : Fragment) : f.tokens.all Token.inLine = true := by
  cases f <;> simp [tokens, Token.inLine]

theorem ItemFragment.inLine (f : ItemFragment) : f.tokens.all Token.inLine = true := by
  cases f <;> simp [tokens, Token.inLine]

theorem fill_cons {token : Token} (ht : token.text? texts = some t)
    (hu : fill texts rest = some u) : fill texts (token :: rest) = some (t ++ u) := by
  rw [fill, ht, hu]
  rfl

theorem fill_eq_some_cons {token : Token} (h : fill texts (token :: rest) = some t) :
    ∃ u v, token.text? texts = some u ∧ fill texts rest = some v ∧ t = u ++ v := by
  obtain ⟨u, hu, h⟩ := Option.bind_eq_some_iff.1 h
  obtain ⟨v, hv, h⟩ := Option.bind_eq_some_iff.1 h
  cases h
  exact ⟨u, v, hu, hv, rfl⟩

theorem fill_append (ht : fill texts body = some t) (hu : fill texts rest = some u) :
    fill texts (body ++ rest) = some (t ++ u) := by
  induction body generalizing t with
  | nil =>
    cases ht
    exact hu
  | cons token body ih =>
    obtain ⟨first, more, hfirst, hmore, rfl⟩ := fill_eq_some_cons ht
    rw [List.append_assoc]
    exact fill_cons hfirst (ih hmore)

theorem fill_chars (texts : Entries Text) (t : Text) : fill texts (t.map .char) = some t := by
  induction t with
  | nil => rfl
  | cons c rest ih =>
    have hc : (Token.char c).text? texts = some [c] := rfl
    exact fill_cons hc ih

theorem fill_placeholder (h : texts.get? label = some t) :
    fill texts [.placeholder label] = some t := by
  rw [← List.append_nil t]
  exact fill_cons h rfl

theorem expand_cons {token : Token} (h : token.text? values.texts = some t) (rest : List Token) :
    expand values none (token :: rest) = (expand values none rest).map (t ++ ·) := by
  have htoken : expand values none (token :: rest) = do
      return (← token.text? values.texts) ++ (← expand values none rest) := by
    cases token with
    | char c => rfl
    | placeholder label => rfl
    | tag label => cases h
  rw [htoken, h]
  cases expand values none rest <;> rfl

/-- Outside of blocks a source stands for what it is filled in with. -/
theorem expand_append (h : fill values.texts body = some t) (rest : List Token) :
    expand values none (body ++ rest) = (expand values none rest).map (t ++ ·) := by
  induction body generalizing t with
  | nil =>
    cases h
    rw [List.nil_append]
    cases expand values none rest <;> rfl
  | cons token body ih =>
    obtain ⟨first, more, hfirst, hmore, rfl⟩ := fill_eq_some_cons h
    rw [List.cons_append, expand_cons hfirst, ih hmore, Option.map_map]
    simp only [Function.comp_def, List.append_assoc]

theorem expand_collect (h : body.all Token.inLine = true) :
    expand values (some (label, before)) (body ++ rest) =
      expand values (some (label, before ++ body)) rest := by
  -- what is collected grows at its end, while the line is taken from its beginning
  induction body generalizing before with
  | nil => rw [List.nil_append, List.append_nil]
  | cons token body ih =>
    rw [List.all_cons, Bool.and_eq_true] at h
    have ih : expand values (some (label, before ++ [token])) (body ++ rest) = _ := ih h.2
    rw [List.append_assoc] at ih
    cases token with
    | char c => exact ih
    | placeholder label => exact ih
    | tag label => cases h.1

theorem expand_enclosed {copies : List (Entries Text)} {ts : List Text}
    (hbody : body.all Token.inLine = true) (hclose : closesBlock close = true)
    (hcopies : values.copies.get? label = some copies)
    (hts : copies.mapM (fun copy => fill (copy ++ values.texts) body) = some ts)
    (rest : List Token) : expand values none (enclosed label close body ++ rest) =
      (expand values none rest).map (ts.flatten ++ ·) := by
  have hsplit : enclosed label close body ++ rest = .tag label :: (body ++ .tag close :: rest) := by
    simp [enclosed]
  rw [hsplit, expand, expand_collect hbody, List.nil_append, expand, if_pos hclose, hcopies]
  simp only [Option.bind_eq_bind, Option.bind_some, hts]
  cases expand values none rest <;> rfl

theorem lineOf_inLine {α : Type} {tokens : α → List Token} (parts : List α)
    (h : ∀ a, (tokens a).all Token.inLine = true) :
    (lineOf tokens parts).all Token.inLine = true := by
  rw [lineOf, List.all_append, List.all_flatMap]
  simp [h, Token.inLine]

theorem fill_line {α : Type} {render : α → Except RenderError Text} {tokens : α → List Token}
    {parts : List α} (h : ∀ a ∈ parts, ∃ t, render a = .ok t ∧ fill texts (tokens a) = some t) :
    ∃ ts, parts.mapM render = .ok ts ∧
      fill texts (lineOf tokens parts) = some (ts.flatten ++ ['\n']) := by
  have hparts : ∃ ts, parts.mapM render = .ok ts ∧
      fill texts (parts.flatMap tokens) = some ts.flatten := by
    induction parts with
    | nil => exact ⟨[], rfl, rfl⟩
    | cons a rest ih =>
      obtain ⟨t, ha, ht⟩ := h a List.mem_cons_self
      obtain ⟨ts, hrest, hts⟩ := ih fun b hb => h b (List.mem_cons_of_mem a hb)
      refine ⟨t :: ts, ?_, ?_⟩
      · rw [List.mapM_cons, ha, hrest]
        rfl
      · exact fill_append ht hts
  obtain ⟨ts, hall, hts⟩ := hparts
  exact ⟨ts, hall, fill_append hts rfl⟩

/-- Whether a copy has a value for a part of its line. -/
def ItemFragment.fits : ItemFragment → Bool
  | text _ | comma => true
  | key filter | value filter => filter = .plain ∨ filter = .json

theorem fill_item {f : ItemFragment} (hfits : f.fits = true) (key value : Text) (last : Bool) :
    ∃ t, f.render (.string key) (.string value) last = .ok t ∧
      fill (copyFor key value last ++ texts) f.tokens = some t := by
  cases f with
  | text t => exact ⟨t, rfl, fill_chars _ t⟩
  | key filter =>
    rcases of_decide_eq_true hfits with rfl | rfl
    · exact ⟨_, rfl, fill_placeholder rfl⟩
    · exact ⟨_, rfl, fill_placeholder rfl⟩
  | value filter =>
    rcases of_decide_eq_true hfits with rfl | rfl
    · exact ⟨_, rfl, fill_placeholder rfl⟩
    · exact ⟨_, rfl, fill_placeholder rfl⟩
  | comma => exact ⟨_, rfl, fill_placeholder rfl⟩

theorem fill_copies {fragments : List ItemFragment}
    (hfits : fragments.all ItemFragment.fits = true) (pairs : List (Text × Text)) :
    ∃ ts, renderItems fragments (pairs.map fun (k, v) => (.string k, .string v)) =
        .ok ts.flatten ∧
      (copiesFor pairs).mapM (fun copy =>
        fill (copy ++ texts) (lineOf ItemFragment.tokens fragments)) = some ts := by
  induction pairs with
  | nil => exact ⟨[], rfl, rfl⟩
  | cons p rest ih =>
    obtain ⟨key, value⟩ := p
    obtain ⟨ts, hrest, hts⟩ := ih
    have hitems : ∀ f ∈ fragments, ∃ t,
        f.render (.string key) (.string value) rest.isEmpty = .ok t ∧
          fill (copyFor key value rest.isEmpty ++ texts) f.tokens = some t :=
      fun f hf => fill_item (List.all_eq_true.1 hfits f hf) key value rest.isEmpty
    obtain ⟨us, hline, hus⟩ := fill_line hitems
    refine ⟨(us.flatten ++ ['\n']) :: ts, ?_, ?_⟩
    · rw [List.map_cons, renderItems, List.isEmpty_map, hline, hrest]
      rfl
    · rw [copiesFor, List.mapM_cons, hus, hts]
      rfl

/-- What a template takes from a context: slots, conditions, lists and mappings. -/
structure Uses where
  slots : List (Text × Filter)
  conditions : List Text := []
  lists : List Text := []
  mappings : List Text := []

namespace Uses

def coversFragment (uses : Uses) : Fragment → Bool
  | .text _ => true
  | .slot name filter => uses.slots.contains (name, filter)

def coversBlock (uses : Uses) : Block → Bool
  | .line fragments => fragments.all uses.coversFragment
  | .optional name fragments => uses.conditions.contains name && fragments.all uses.coversFragment
  | .each list fragments => uses.lists.contains list && fragments.all ItemFragment.fits
  | .eachEntry mapping fragments =>
    uses.mappings.contains mapping && fragments.all ItemFragment.fits

/-- Whether a template takes nothing else, its source is read as it was written, and no blank stands
at its ends. -/
def covers (uses : Uses) (template : Template) : Bool :=
  template.all uses.coversBlock && scan none template.source = template.flatMap Block.tokens &&
    Segment.opens (parts template) && Segment.closes (parts template)

/-- A context and the values under labels go together in what a template takes from them. -/
structure Agrees (uses : Uses) (context : Context) (values : Values) : Prop where
  reserved : context.keys.contains "self" = false
  slot : ∀ s ∈ uses.slots, ∃ t, (Fragment.slot s.1 s.2).render context = .ok t ∧
    values.texts.get? (s.1 ++ s.2.source) = some t
  condition : ∀ name ∈ uses.conditions, ∃ value, context.get? name = some value ∧
    values.copies.get? ("if " ++ name) = some (if value.isFilled then [[]] else [])
  list : ∀ name ∈ uses.lists, ∃ ts, context.get? name = some (.texts ts) ∧
    values.copies.get? ("for value in " ++ name) = some (copiesForItems ts)
  mapping : ∀ name ∈ uses.mappings, ∃ es, context.get? name = some (.textFields es) ∧
    values.copies.get? ("for key, value in " ++ name ++ ".items()") = some (copiesFor es)

variable {uses : Uses} {template : Template}

theorem fill_fragment (h : uses.Agrees context values) {f : Fragment}
    (hf : uses.coversFragment f = true) :
    ∃ t, f.render context = .ok t ∧ fill values.texts f.tokens = some t := by
  cases f with
  | text t => exact ⟨t, rfl, fill_chars _ t⟩
  | slot name filter =>
    obtain ⟨t, hrender, ht⟩ := h.slot _ (List.mem_of_elem_eq_true hf)
    exact ⟨t, hrender, fill_placeholder ht⟩

theorem fill_fragments (h : uses.Agrees context values) {fragments : List Fragment}
    (hf : fragments.all uses.coversFragment = true) :
    ∃ t, renderLine context fragments = .ok t ∧
      fill values.texts (lineOf Fragment.tokens fragments) = some t := by
  obtain ⟨ts, hrender, hts⟩ :=
    fill_line fun f hm => fill_fragment h (List.all_eq_true.1 hf f hm)
  exact ⟨_, bind_eq_ok.2 ⟨ts, hrender, rfl⟩, hts⟩

/-- A block is filled in with the text that its source stands for. -/
theorem expand_block (h : uses.Agrees context values) {b : Block}
    (hb : uses.coversBlock b = true) (rest : List Token) :
    ∃ t, b.render context = .ok t ∧
      expand values none (b.tokens ++ rest) = (expand values none rest).map (t ++ ·) := by
  cases b with
  | line fragments =>
    obtain ⟨t, hrender, ht⟩ := fill_fragments h hb
    exact ⟨t, hrender, expand_append ht rest⟩
  | optional name fragments =>
    obtain ⟨hname, hfragments⟩ := Bool.and_eq_true_iff.1 hb
    obtain ⟨value, hvalue, hcopies⟩ := h.condition name (List.mem_of_elem_eq_true hname)
    obtain ⟨t, hrender, ht⟩ := fill_fragments h hfragments
    have hline := lineOf_inLine fragments Fragment.inLine
    rw [Block.render, lookup, hvalue]
    cases hfilled : value.isFilled with
    | true =>
      rw [hfilled, if_pos rfl] at hcopies
      have hcopy : ([[]] : List (Entries Text)).mapM (fun copy =>
          fill (copy ++ values.texts) (lineOf Fragment.tokens fragments)) = some [t] := by
        rw [List.mapM_cons, List.nil_append, ht]
        rfl
      refine ⟨t, (if_pos hfilled).trans hrender, ?_⟩
      rw [Block.tokens, expand_enclosed hline (by decide) hcopies hcopy, List.flatten_singleton]
    | false =>
      rw [hfilled, if_neg Bool.false_ne_true] at hcopies
      exact ⟨[], if_neg (by rw [hfilled]; exact Bool.false_ne_true),
        expand_enclosed hline (by decide) hcopies rfl rest⟩
  | each list fragments =>
    obtain ⟨hlist, hfits⟩ := Bool.and_eq_true_iff.1 hb
    obtain ⟨ts, hts, hcopies⟩ := h.list list (List.mem_of_elem_eq_true hlist)
    obtain ⟨us, hrender, hus⟩ := fill_copies hfits (ts.map fun t => (t, t))
    have hline := lineOf_inLine fragments ItemFragment.inLine
    refine ⟨us.flatten, ?_, expand_enclosed hline (by decide) hcopies hus rest⟩
    rw [Block.render, lookup, hts]
    rw [List.map_map] at hrender
    change renderItems fragments ((ts.map Json.string).map _) = _
    rw [List.map_map]
    exact hrender
  | eachEntry mapping fragments =>
    obtain ⟨hmapping, hfits⟩ := Bool.and_eq_true_iff.1 hb
    obtain ⟨es, hes, hcopies⟩ := h.mapping mapping (List.mem_of_elem_eq_true hmapping)
    obtain ⟨us, hrender, hus⟩ := fill_copies hfits es
    have hline := lineOf_inLine fragments ItemFragment.inLine
    refine ⟨us.flatten, ?_, expand_enclosed hline (by decide) hcopies hus rest⟩
    rw [Block.render, lookup, hes]
    change renderItems fragments ((es.map _).map _) = _
    rw [List.map_map]
    exact hrender

theorem expand_template (h : uses.Agrees context values)
    (hb : template.all uses.coversBlock = true) :
    ∃ ts, template.mapM (Block.render context) = .ok ts ∧
      expand values none (template.flatMap Block.tokens) = some ts.flatten := by
  induction template with
  | nil => exact ⟨[], rfl, rfl⟩
  | cons b rest ih =>
    rw [List.all_cons, Bool.and_eq_true] at hb
    obtain ⟨ts, hrest, hts⟩ := ih hb.2
    obtain ⟨t, hrender, ht⟩ := expand_block h hb.1 (rest.flatMap Block.tokens)
    refine ⟨t :: ts, ?_, ?_⟩
    · rw [List.mapM_cons, hrender, hrest]
      rfl
    · rw [List.flatMap_cons, ht, hts]
      rfl

theorem Agrees.instantiate_eq (h : uses.Agrees context values)
    (hcovers : uses.covers template = true) :
    ∃ u : Text, u ≠ [] ∧ u.Trimmed ∧ template.render context = .ok (u ++ ['\n']) ∧
      instantiate values template.source = some (u ++ ['\n']) := by
  simp only [covers, Bool.and_eq_true, decide_eq_true_eq] at hcovers
  obtain ⟨⟨⟨hblocks, hscan⟩, hopens⟩, hcloses⟩ := hcovers
  obtain ⟨ts, hall, hexpand⟩ := expand_template h hblocks
  have hparts : Segment.renderAll context (parts template) = .ok ts.flatten := by
    rw [renderAll_parts, hall]
    rfl
  have hends := Segment.endWithNewline_of_renderAll hopens hcloses hparts
  refine ⟨Text.strip ts.flatten, fun hnil => ?_, Text.trimmed_strip _, ?_, ?_⟩
  · obtain ⟨c, v, hv, hc⟩ := Segment.renderAll_opens hopens hparts
    have hnewline : c = '\n' := by
      rw [endWithNewline, hnil, hv] at hends
      exact (List.cons.inj hends).1.symm
    exact absurd hc (by rw [hnewline]; decide)
  · rw [render_eq template h.reserved, hparts]
    rfl
  · rw [instantiate, hscan, hexpand]
    exact congrArg some hends.symm

/-- A value that looks like a placeholder stays what it is. -/
example : instantiate ⟨[("b", "\x7b\x7b b \x7d\x7d")], []⟩ "a \x7b\x7b b \x7d\x7d" =
    some ("a \x7b\x7b b \x7d\x7d" : Text) := by
  decide

end Uses

end Scaffold.Template
