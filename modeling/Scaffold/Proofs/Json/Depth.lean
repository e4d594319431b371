import Scaffold.Proofs.Entries
import Scaffold.Proofs.Json.Limits

namespace Scaffold.Json

variable {σ : Type}

mutual

/-- How many arrays and objects stand inside one another in a value, not counting empty ones. -/
def depth : Json σ → Nat
  | .array (item :: rest) => max (depth item) (itemsDepth rest) + 1
  | .object ((_, value) :: rest) => max (depth value) (fieldsDepth rest) + 1
  | _ => 0

def itemsDepth : List (Json σ) → Nat
  | [] => 0
  | item :: rest => max (depth item) (itemsDepth rest)

def fieldsDepth : List (σ × Json σ) → Nat
  | [] => 0
  | (_, value) :: rest => max (depth value) (fieldsDepth rest)

end

variable {limit : Nat} {items : List (Json σ)} {fields : Entries (Json σ) σ}

theorem depth_array_le (h : itemsDepth items ≤ limit) : (array items).depth ≤ limit + 1 := by
  cases items with
  | nil => exact Nat.zero_le _
  | cons item rest => exact Nat.succ_le_succ h

theorem depth_object_le (h : fieldsDepth fields ≤ limit) : (object fields).depth ≤ limit + 1 := by
  cases fields with
  | nil => exact Nat.zero_le _
  | cons field rest => exact Nat.succ_le_succ h

theorem fieldsDepth_le_iff :
    fieldsDepth fields ≤ limit ↔ ∀ field ∈ fields, field.2.depth ≤ limit := by
  induction fields with
  | nil => exact ⟨fun _ => nofun, fun _ => Nat.zero_le _⟩
  | cons field rest ih =>
    obtain ⟨name, value⟩ := field
    rw [fieldsDepth, Nat.max_le, ih, List.forall_mem_cons]

variable [DecidableEq σ] {dialect : Dialect σ} {depth : Nat} {v : Json σ} {t g h : Text}

/-- Repeated names are read, but leave no value behind that is not one of a field. -/
theorem fieldsDepth_ofPairs_le (h : fieldsDepth fields ≤ limit) :
    fieldsDepth (Entries.ofPairs fields) ≤ limit := by
  rw [fieldsDepth_le_iff] at h ⊢
  intro field hfield
  exact h field (Entries.mem_of_mem_ofPairs hfield)

theorem depth_le_of_spells (h : Spells dialect depth v t) : v.depth ≤ depth := by
  induction h using Spells.rec
    (motive_2 := fun depth items _ _ => itemsDepth items ≤ depth)
    (motive_3 := fun depth fields _ _ => fieldsDepth fields ≤ depth) with
  | keyword hword =>
    simp only [keywords, List.mem_cons, List.not_mem_nil, or_false, Prod.mk.injEq] at hword
    rcases hword with ⟨-, rfl⟩ | ⟨-, rfl⟩ | ⟨-, rfl⟩ | ⟨-, rfl⟩ | ⟨-, rfl⟩ | ⟨-, rfl⟩
    all_goals exact Nat.zero_le _
  | number | quoted | noItems | noFields => exact Nat.zero_le _
  | array _ _ ih => exact depth_array_le ih
  | object _ _ ih => exact depth_object_le (fieldsDepth_ofPairs_le ih)
  | lastItem _ _ ih => exact Nat.max_le.2 ⟨ih, Nat.zero_le _⟩
  | nextItem _ _ _ _ ih ihmore => exact Nat.max_le.2 ⟨ih, ihmore⟩
  | lastField _ _ _ _ _ ih => exact Nat.max_le.2 ⟨ih, Nat.zero_le _⟩
  | nextField _ _ _ _ _ _ _ ih ihmore => exact Nat.max_le.2 ⟨ih, ihmore⟩

/-- A text that spells a value does so within any bound on the depth, or breaks off there. -/
theorem spells_or_breaks (hspells : Spells dialect depth v t) (limit : Nat) :
    Spells dialect limit v t ∨ ∀ rest, Breaks dialect .tooDeep limit (t ++ rest) := by
  -- The induction is on how the text spells the value. What stands before the first part that is
  -- too deep is within the bound, so reading gets to that part.
  induction hspells using Spells.rec
    (motive_2 := fun _ items t _ => ∀ limit, SpellsItems dialect limit items t ∨
      ∀ rest, BreaksItems dialect .tooDeep limit (t ++ rest))
    (motive_3 := fun _ fields t _ => ∀ limit, SpellsFields dialect limit fields t ∨
      ∀ rest, BreaksFields dialect .tooDeep limit (t ++ rest))
    generalizing limit with
  | keyword hword => exact .inl (.keyword hword)
  | number hn => exact .inl (.number hn)
  | quoted hs => exact .inl (.quoted hs)
  | noItems hg => exact .inl (.noItems hg)
  | array hg hitems ih =>
    cases limit with
    | zero =>
      right
      intro rest
      rw [List.cons_append, List.append_assoc]
      exact .deepArray hg ((starts_of_spellsItems hitems).append rest).head
    | succ limit =>
      apply (ih limit).imp (.array hg)
      intro hdeep rest
      rw [List.cons_append, List.append_assoc]
      exact .array hg (hdeep rest)
  | noFields hg => exact .inl (.noFields hg)
  | object hg hfields ih =>
    cases limit with
    | zero =>
      right
      intro rest
      rw [List.cons_append, List.append_assoc]
      exact .deepObject hg (head_of_quote (starts_of_spellsFields hfields) rest)
    | succ limit =>
      apply (ih limit).imp (.object hg)
      intro hdeep rest
      rw [List.cons_append, List.append_assoc]
      exact .object hg (hdeep rest)
  | lastItem hitem hg ih =>
    rename_i limit
    apply (ih limit).imp (.lastItem · hg)
    intro hdeep rest
    rw [List.append_assoc]
    exact .thisItem (hdeep _)
  | nextItem hitem hg hh hitems ih ihmore =>
    rename_i limit
    simp only [List.append_assoc, List.cons_append]
    rcases ih limit with hwithin | hdeep
    · apply (ihmore limit).imp (.nextItem hwithin hg hh)
      intro hdeep rest
      exact .laterItem hwithin hg hh (hdeep rest)
    · exact .inr fun rest => .thisItem (hdeep _)
  | lastField hname hg hh hvalue hk ih =>
    rename_i limit
    apply (ih limit).imp (.lastField hname hg hh · hk)
    intro hdeep rest
    simp only [List.append_assoc, List.cons_append]
    exact .thisField hname hg hh (hdeep _)
  | nextField hname hg hh hvalue hk hl hfields ih ihmore =>
    rename_i limit
    simp only [List.append_assoc, List.cons_append]
    rcases ih limit with hwithin | hdeep
    · apply (ihmore limit).imp (.nextField hname hg hh hwithin hk hl)
      intro hdeep rest
      exact .laterField hname hg hh hwithin hk hl (hdeep rest)
    · exact .inr fun rest => .thisField hname hg hh (hdeep _)

/-- A text that spells a value, with gaps around it, is refused if the value is too deep. -/
theorem read_of_spells_deep (hspells : Spells dialect depth v t) (hdeep : dialect.depth < v.depth)
    (hg : Gap g) (h : Text) : read dialect (g ++ (t ++ h)) = .error .tooDeep := by
  have hbreaks := (spells_or_breaks hspells dialect.depth).resolve_left
    fun hwithin => Nat.not_lt.2 (depth_le_of_spells hwithin) hdeep
  exact read_of_breaks (hbreaks h) hg

end Scaffold.Json
