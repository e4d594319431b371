import Scaffold.Manifest
import Scaffold.Proofs.Disk.Text
import Scaffold.Proofs.Json.Compact

namespace Scaffold

namespace Template

open Text (isBlank)

variable {t : Text} {v : Json}

theorem endWithNewline_line (ht : t.strip = t) (hne : t ≠ []) :
    endWithNewline (t ++ ['\n']) = t ++ ['\n'] := by
  have hnewline : ∀ c ∈ ['\n'], isBlank c = true := by
    intro c hc
    cases List.mem_singleton.1 hc
    rfl
  have hfirst : ∀ c ∈ (t ++ ['\n']).head?, isBlank c = false := by
    intro c hc
    rw [List.head?_append_of_ne_nil _ hne, ← ht] at hc
    exact (Text.trimmed_strip t).first c hc
  have htrimmed : Text.trimEnd isBlank t = t := by
    apply Text.trimEnd_eq_self
    intro c hc
    rw [← ht] at hc
    exact (Text.trimmed_strip t).last c hc
  rw [endWithNewline, Text.strip_of_head hfirst, Text.trimEnd_append_of_forall hnewline, htrimmed]

theorem obstacle?_number {n : Json.Number} (h : (Json.number n).portable = true) (limit : Nat) :
    obstacle? limit (.number n) = none := by
  obtain ⟨m, rfl, hm⟩ := Json.lt_numberLimit_of_portable h
  rw [obstacle?]
  exact if_neg (Nat.not_le.2 hm)

theorem or_ite (p q : Prop) [Decidable p] [Decidable q] (e : RenderError) :
    (if p then none else some e).or (if q then none else some e) =
      if p ∧ q then none else some e := by
  by_cases hp : p <;> by_cases hq : q <;> simp [hp, hq]

mutual

/-- The only obstacle to writing what can be read back is its depth. -/
theorem obstacle?_of_portable : ∀ (v : Json) (limit : Nat), v.portable = true →
    obstacle? limit v = if v.depth ≤ limit then none else some .tooDeep
  | .null, limit, _ | .bool _, limit, _ | .string _, limit, _ => by
    rw [obstacle?, Json.depth, if_pos (Nat.zero_le limit)]
    all_goals nofun
  | .number _, limit, h => (obstacle?_number h limit).trans (if_pos (Nat.zero_le limit)).symm
  | .array [], 0, _ | .array [], _ + 1, _ | .object [], 0, _ | .object [], _ + 1, _ => rfl
  | .array (_ :: _), 0, _ | .object (_ :: _), 0, _ => rfl
  | .array (item :: rest), limit + 1, h => by
    rw [obstacle?, obstacleInItems?_of_portable (item :: rest) limit h]
    exact if_congr Nat.add_le_add_iff_right.symm rfl rfl
  | .object ((name, value) :: rest), limit + 1, h => by
    have hfields := (Bool.and_eq_true_iff.1 h).2
    rw [obstacle?, obstacleInFields?_of_portable ((name, value) :: rest) limit hfields]
    exact if_congr Nat.add_le_add_iff_right.symm rfl rfl

theorem obstacleInItems?_of_portable : ∀ (items : List Json) (limit : Nat),
    Json.portableItems items = true →
      obstacleInItems? limit items = if Json.itemsDepth items ≤ limit then none else some .tooDeep
  | [], limit, _ => (if_pos (Nat.zero_le limit)).symm
  | item :: rest, limit, h => by
    obtain ⟨hitem, hrest⟩ := Bool.and_eq_true_iff.1 h
    rw [obstacleInItems?, obstacle?_of_portable item limit hitem,
      obstacleInItems?_of_portable rest limit hrest, or_ite]
    exact if_congr Nat.max_le.symm rfl rfl

theorem obstacleInFields?_of_portable : ∀ (fields : List (Text × Json)) (limit : Nat),
    Json.portableFields fields = true →
      obstacleInFields? limit fields =
        if Json.fieldsDepth fields ≤ limit then none else some .tooDeep
  | [], limit, _ => (if_pos (Nat.zero_le limit)).symm
  | (_, value) :: rest, limit, h => by
    obtain ⟨hvalue, hrest⟩ := Bool.and_eq_true_iff.1 h
    rw [obstacleInFields?, obstacle?_of_portable value limit hvalue,
      obstacleInFields?_of_portable rest limit hrest, or_ite]
    exact if_congr Nat.max_le.symm rfl rfl

end

theorem apply_json (hv : v.portable = true) (hdepth : v.depth ≤ depthLimit) :
    Filter.json.apply v = .ok v.compact := by
  rw [Filter.apply, write, obstacle?_of_portable v depthLimit hv, if_pos hdepth]

theorem apply_json_deep (hv : v.portable = true) (hdeep : depthLimit < v.depth) :
    Filter.json.apply v = .error .tooDeep := by
  rw [Filter.apply, write, obstacle?_of_portable v depthLimit hv, if_neg (Nat.not_le.2 hdeep)]

theorem render_slot {name : Text} {filter : Filter} (hname : name ≠ "self")
    (happly : filter.apply v = .ok t) :
    render [.line [.slot name filter]] [(name, v)] = .ok (endWithNewline (t ++ ['\n'])) := by
  have hfragment : Fragment.render [(name, v)] (.slot name filter) = .ok t := by
    rw [Fragment.render]
    simp only [Entries.get?, if_true, happly]
  have hself : (Entries.keys [(name, v)]).contains "self" = false := by
    simpa [Entries.keys] using Ne.symm hname
  rw [render, hself]
  simp only [List.mapM_cons, List.mapM_nil, Block.render, renderLine, hfragment, pure, Except.pure,
    bind, Except.bind, List.flatten_cons, List.flatten_nil, List.append_nil]
  rfl

theorem compact_ne_nil (hv : v.portable = true) : v.compact ≠ [] := by
  obtain ⟨c, rest, heq, -⟩ := Json.starts_compact hv
  rw [heq]
  exact List.cons_ne_nil c rest

end Template

/-- Arrays inside one another, an empty one innermost. -/
def Json.nested : Nat → Json
  | 0 => .array []
  | n + 1 => .array [nested n]

theorem Json.depth_nested (n : Nat) : (nested n).depth = n := by
  induction n with
  | zero => rfl
  | succ n ih =>
    rw [nested, depth, itemsDepth, ih]
    exact congrArg (· + 1) (Nat.max_zero n)

theorem Json.portable_nested (n : Nat) : (nested n).portable = true := by
  induction n with
  | zero => rfl
  | succ n ih => exact Bool.and_eq_true_iff.2 ⟨ih, rfl⟩

def Json.manifestWith (more : Json) : Json :=
  .object [("name", .string "blog"), ("more", more)]

theorem Json.portable_manifestWith (more : Json) :
    (manifestWith more).portable = more.portable := by
  simp [manifestWith, portable, portableFields]

theorem Json.depth_manifestWith (more : Json) : (manifestWith more).depth = more.depth + 1 := by
  simp [manifestWith, depth, fieldsDepth]

namespace Template

/--
A value of whole numbers that are not too long, texts, arrays and objects without repeated names
comes out of a slot for JSON in one line of printable ASCII, which is left as it is when the text
of the template is stripped. Stored in a file and read as a manifest it is that value again, unless
the value is nested more deeply than manifests may be: then it is not written, or not read.
-/
theorem json_slot_round_trip (v : Json) (hv : v.portable = true) :
    (v.depth ≤ Manifest.dialect.depth → ∃ t, Filter.json.apply v = .ok t ∧
      (∀ c ∈ t, 0x20 ≤ c.toNat ∧ c.toNat ≤ 0x7E) ∧
      (∀ name : Text, name ≠ "self" →
        render [.line [.slot name .json]] [(name, v)] = .ok (t ++ ['\n'])) ∧
      t.strip = t ∧ Disk.decode? (Disk.encode t) = some t ∧
      Json.read Manifest.dialect t = .ok v) ∧
    (Manifest.dialect.depth < v.depth → Filter.json.apply v = .error .tooDeep ∨
      ∃ t, Filter.json.apply v = .ok t ∧ Json.read Manifest.dialect t = .error .tooDeep) := by
  have hascii := Json.isAsciiPrintable_of_mem_compact v
  constructor
  · intro hdepth
    have happly := apply_json hv (Nat.le_trans hdepth (by decide))
    refine ⟨v.compact, happly, ?_, ?_, Json.strip_compact hv, ?_,
      Json.read_compact (Json.embeds_raw ..) hv hdepth⟩
    · intro c hc
      simpa [Json.isAsciiPrintable] using hascii c hc
    · intro name hname
      rw [render_slot hname happly,
        endWithNewline_line (Json.strip_compact hv) (compact_ne_nil hv)]
    · apply Disk.decode?_encode_of_notMem
      intro hreturn
      exact absurd (hascii '\r' hreturn) (by decide)
  · intro hdeep
    by_cases hdepth : v.depth ≤ depthLimit
    · exact .inr ⟨v.compact, apply_json hv hdepth,
        Json.read_compact_deep (Json.embeds_raw ..) hv hdeep⟩
    · exact .inl (apply_json_deep hv (Nat.not_le.1 hdepth))

theorem json_slot_round_trip_awkward :
    let v : Json := .object [("a\"\\", .array [.null, .bool true, .int (-12), .object []]),
      ("", .string "é😀\x7f\n ")]
    let t : Text := "\x7b\"a\\\"\\\\\": [null, true, -12, \x7b\x7d], " ++
      "\"\": \"\\u00e9\\ud83d\\ude00\\u007f\\n \"\x7d"
    v.portable = true ∧ v.depth ≤ Manifest.dialect.depth ∧ Filter.json.apply v = .ok t ∧
      render [.line [.slot "value" .json]] [("value", v)] = .ok (t ++ ['\n']) ∧
      Json.read Manifest.dialect t = .ok v := by
  intro v t
  have hv : v.portable = true := by decide +kernel
  have hdepth : v.depth ≤ Manifest.dialect.depth := by decide
  obtain ⟨_, happly, -, hrender, -, -, hread⟩ := (json_slot_round_trip v hv).1 hdepth
  have hcompact : v.compact = t := by decide +kernel
  have ht : Filter.json.apply v = .ok t :=
    hcompact ▸ apply_json hv (Nat.le_trans hdepth (by decide))
  cases happly.symm.trans ht
  exact ⟨hv, hdepth, ht, hrender "value" (by decide), hread⟩

/-- The manifest of a blog with arrays nested too deeply is not written. -/
theorem json_slot_too_deep :
    (Json.manifestWith (.nested 1500)).portable = true ∧
      ¬ ∃ t, Filter.json.apply (.manifestWith (.nested 1500)) = .ok t ∧
        Json.read Manifest.dialect t = .ok (Json.manifestWith (.nested 1500)) := by
  have hv : (Json.manifestWith (.nested 1500)).portable = true :=
    (Json.portable_manifestWith _).trans (Json.portable_nested 1500)
  have hdeep : depthLimit < (Json.manifestWith (.nested 1500)).depth := by
    rw [Json.depth_manifestWith, Json.depth_nested]
    decide
  refine ⟨hv, ?_⟩
  rintro ⟨t, happly, -⟩
  rw [apply_json_deep hv hdeep] at happly
  cases happly

end Template

end Scaffold
