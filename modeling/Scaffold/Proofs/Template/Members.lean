import Scaffold.Proofs.Json.Printer
import Scaffold.Proofs.Template.Reading

namespace Scaffold.Template

open Outcome

/-- A line that is repeated as a member among others. -/
def memberLine (indent : Nat) (member : List ItemFragment) : List ItemFragment :=
  .text (List.replicate (2 * indent) ' ') :: member ++ [.comma]

variable {context : Context} {pairs : List (Json × Json)} {member : List ItemFragment}
  {value : Json × Json → Text} {indent : Nat}

theorem mapM_memberLine {e : Json × Json} {last : Bool} {ts : List Text}
    (h : member.mapM (·.render e.1 e.2 last) = .ok ts) :
    (memberLine indent member).mapM (·.render e.1 e.2 last) =
      .ok (List.replicate (2 * indent) ' ' :: ts ++ [if last then [] else [',']]) := by
  rw [memberLine, List.mapM_append, List.mapM_cons, h]
  rfl

theorem renderItems_memberLine (hmember : ∀ e ∈ pairs, ∀ last, ∃ ts,
      member.mapM (·.render e.1 e.2 last) = .ok ts ∧ ts.flatten = value e) (hne : pairs ≠ []) :
    ∃ t, renderItems (memberLine indent member) pairs = .ok t ∧
      '\n' :: t = Json.newline indent ++
        Text.join (',' :: Json.newline indent) (pairs.map value) ++ ['\n'] := by
  induction pairs with
  | nil => exact absurd rfl hne
  | cons e rest ih =>
    obtain ⟨ts, hts, hvalue⟩ := hmember e List.mem_cons_self rest.isEmpty
    have hline := @mapM_memberLine _ indent _ _ _ hts
    cases rest with
    | nil =>
      refine ⟨_, bind_eq_ok.2 ⟨_, hline, rfl⟩, ?_⟩
      simp [hvalue, Text.join, Json.newline]
    | cons f rest =>
      obtain ⟨t, ht, htext⟩ := ih (fun a ha => hmember a (List.mem_cons_of_mem e ha))
        (List.cons_ne_nil _ _)
      refine ⟨_, bind_eq_ok.2 ⟨_, hline, bind_eq_ok.2 ⟨t, ht, rfl⟩⟩, ?_⟩
      have hjoin := Text.join_cons (t := value e) (',' :: Json.newline indent)
        (List.cons_ne_nil (value f) (rest.map value))
      calc
        _ = Json.newline indent ++ value e ++ ',' :: '\n' :: t := by simp [hvalue, Json.newline]
        _ = Json.newline indent ++ value e ++ ',' :: (Json.newline indent ++
              Text.join (',' :: Json.newline indent) ((f :: rest).map value) ++ ['\n']) := by
          rw [htext]
        _ = Json.newline indent ++
              Text.join (',' :: Json.newline indent) ((e :: f :: rest).map value) ++ ['\n'] := by
          change _ = _ ++ Text.join _ (value e :: value f :: rest.map value) ++ _
          rw [hjoin]
          simp only [List.map_cons, List.append_assoc, List.cons_append]

theorem indentedFields_strings (plain : Char → Bool) (indent : Nat) (entries : Entries Text) :
    Json.indentedFields plain indent (entries.map fun (key, value) => (key, .string value)) =
      entries.map fun (key, value) =>
        Json.literal plain key ++ ": " ++ Json.literal plain value := by
  induction entries with
  | nil => rfl
  | cons e rest ih =>
    rw [List.map_cons, Json.indentedFields, ih]
    rfl

theorem indentedItems_strings (plain : Char → Bool) (indent : Nat) (ts : List Text) :
    Json.indentedItems plain indent (ts.map .string) = ts.map (Json.literal plain) := by
  induction ts with
  | nil => rfl
  | cons t rest ih =>
    rw [List.map_cons, Json.indentedItems, ih]
    rfl

theorem value_entries {mapping : Text} {entries : Entries Text}
    (h : context.get? mapping = some (.textFields entries)) (hne : entries ≠ []) (rest : Text) :
    '\n' :: (Segment.value context
        (.block (.eachEntry mapping (memberLine indent [.key .json, .text ": ", .value .json]))) ++
          rest) =
      Json.newline indent ++ (Text.join (',' :: Json.newline indent)
        (Json.indentedFields Json.isAsciiPrintable indent
          (entries.map fun (key, value) => (key, .string value))) ++ '\n' :: rest) := by
  have hmember : ∀ e ∈ entries.map fun (key, value) => (Json.string key, Json.string value),
      ∀ last, ∃ ts, [.key .json, .text ": ", .value .json].mapM
        (ItemFragment.render e.1 e.2 last) = .ok ts ∧
          ts.flatten = e.1.compact ++ ": " ++ e.2.compact := by
    intro e he last
    obtain ⟨⟨key, value⟩, -, rfl⟩ := List.mem_map.1 he
    exact ⟨_, rfl, by simp⟩
  obtain ⟨t, ht, htext⟩ := @renderItems_memberLine _ _ _ indent hmember (by simpa using hne)
  have hrender : Block.render context
      (.eachEntry mapping (memberLine indent [.key .json, .text ": ", .value .json])) = .ok t := by
    rw [Block.render, lookup, h]
    change renderItems _ ((entries.map _).map _) = _
    rw [List.map_map]
    exact ht
  rw [Segment.value, Segment.render, hrender, indentedFields_strings]
  have hvalue : '\n' :: t = Json.newline indent ++ Text.join (',' :: Json.newline indent)
      (entries.map fun (key, value) => Json.literal Json.isAsciiPrintable key ++ ": " ++
        Json.literal Json.isAsciiPrintable value) ++ ['\n'] := by
    rw [htext, List.map_map]
    rfl
  change ('\n' :: t) ++ rest = _
  rw [hvalue]
  simp only [List.append_assoc, List.cons_append, List.nil_append]

theorem value_texts {list : Text} {ts : List Text} (h : context.get? list = some (.texts ts))
    (hne : ts ≠ []) (rest : Text) :
    '\n' :: (Segment.value context (.block (.each list (memberLine indent [.value .json]))) ++
        rest) =
      Json.newline indent ++ (Text.join (',' :: Json.newline indent)
        (Json.indentedItems Json.isAsciiPrintable indent (ts.map .string)) ++ '\n' :: rest) := by
  have hmember : ∀ e ∈ ts.map fun t => (Json.string t, Json.string t),
      ∀ last, ∃ us, [.value .json].mapM (ItemFragment.render e.1 e.2 last) = .ok us ∧
        us.flatten = e.2.compact := by
    intro e he last
    obtain ⟨t, -, rfl⟩ := List.mem_map.1 he
    exact ⟨_, rfl, List.flatten_singleton⟩
  obtain ⟨t, ht, htext⟩ := @renderItems_memberLine _ _ _ indent hmember (by simpa using hne)
  have hrender : Block.render context (.each list (memberLine indent [.value .json])) = .ok t := by
    rw [Block.render, lookup, h]
    change renderItems _ ((ts.map Json.string).map _) = _
    rw [List.map_map]
    exact ht
  rw [Segment.value, Segment.render, hrender, indentedItems_strings]
  have hvalue : '\n' :: t = Json.newline indent ++ Text.join (',' :: Json.newline indent)
      (ts.map (Json.literal Json.isAsciiPrintable)) ++ ['\n'] := by
    rw [htext, List.map_map]
    rfl
  change ('\n' :: t) ++ rest = _
  rw [hvalue]
  simp only [List.append_assoc, List.cons_append, List.nil_append]

end Scaffold.Template
