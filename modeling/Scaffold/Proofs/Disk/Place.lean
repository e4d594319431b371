import Mathlib.Data.List.Induction
import Scaffold.Proofs.Disk.Growth
import Scaffold.Proofs.Path

namespace Scaffold.Disk

open Outcome

/-- The system takes a path: it has no character with code zero, and neither the path nor one of its
names is too long. -/
structure Takes (p : Path) : Prop where
  path : checkPath p = .ok ()
  name : ∀ name, .into name ∈ p.steps → checkName name = .ok ()

variable {d e : Disk} {cwd location place : Location} {names : List Name} {name : Name} {p : Path}
  {entry : Entry}

@[simp] theorem byteCount_append (t u : Text) : byteCount (t ++ u) = byteCount t + byteCount u := by
  simp only [byteCount, String.ofList_append, String.utf8ByteSize_append]

theorem length_le_byteCount (t : Text) : t.length ≤ byteCount t := by
  induction t with
  | nil => exact Nat.zero_le _
  | cons c rest ih =>
    have hc : byteCount [c] = c.utf8Size := by simp [byteCount]
    have happend := byteCount_append [c] rest
    have hpositive := c.utf8Size_pos
    simp only [List.singleton_append] at happend
    rw [happend, List.length_cons]
    omega

theorem checkPath_eq_ok : checkPath p = .ok () ↔
    '\x00' ∉ p.toText ∧ byteCount p.toText ≤ pathLimit := by
  rw [checkPath]
  split
  · rename_i h; simp [h]
  · rename_i h
    split
    · rename_i hlong; simp [hlong, h]
    · rename_i hshort; simp [h, Nat.le_of_not_gt hshort]

theorem directory_of_append (h : d.lookup (location ++ names) ≠ none) (hne : names ≠ []) :
    d.lookup location = some .directory := by
  induction names using List.reverseRecOn with
  | nil => exact absurd rfl hne
  | append_singleton names name ih =>
    have hd : d.lookup (location ++ names) = some .directory :=
      d.closed _ name (by rwa [List.append_assoc])
    by_cases hnames : names = []
    · rwa [hnames, List.append_nil] at hd
    · exact ih (by simp [hd]) hnames

theorem directory_above {above : Location} (h : d.lookup location ≠ none)
    (hp : above <+: location) (hne : above ≠ location) : d.lookup above = some .directory := by
  obtain ⟨names, rfl⟩ := hp
  exact directory_of_append h fun hn => hne (by rw [hn, List.append_nil])

theorem lookup_below (h : d.lookup location = none) (hp : location <+: place) :
    d.lookup place = none := by
  by_contra hthere
  have hne : location ≠ place := fun heq => hthere (heq ▸ h)
  rw [directory_above hthere hp hne] at h
  cases h

theorem follow_names_eq_ok (h : d.follow location (names.map .into) = .ok place) :
    place = location ++ names := by
  induction names generalizing location with
  | nil => cases h; simp
  | cons name rest ih =>
    obtain ⟨next, hs, hr⟩ := bind_eq_ok.1 h
    obtain ⟨-, ⟨hup, -⟩ | ⟨_, hinto, -, rfl, -⟩⟩ := step_eq_ok hs
    · cases hup
    · cases hinto
      rw [ih hr, List.append_assoc]
      rfl

theorem follow_names (location : Location) (hn : ∀ name ∈ names, checkName name = .ok ())
    (h : d.lookup (location ++ names) ≠ none) :
    d.follow location (names.map .into) = .ok (location ++ names) := by
  induction names generalizing location with
  | nil => simp [follow]
  | cons name rest ih =>
    have hd := directory_of_append h (by simp)
    rw [← List.singleton_append, ← List.append_assoc] at h
    have hnext : d.lookup (location ++ [name]) ≠ none := by
      by_cases hrest : rest = []
      · rwa [hrest, List.append_nil] at h
      · simp [directory_of_append h hrest]
    have hs : d.step location (.into name) = .ok (location ++ [name]) := by
      simp only [step, hd, if_true, hn name (by simp), hnext, if_false]
      rfl
    refine bind_eq_ok.2 ⟨location ++ [name], hs, ?_⟩
    rw [ih _ (fun other ho => hn other (List.mem_cons_of_mem _ ho)) h, List.append_assoc]
    rfl

theorem checkName_eq_error {error : SystemError} (h : checkName name = .error error) :
    error = .nameTooLong := by
  rw [checkName] at h
  split at h <;> cases h
  rfl

theorem step_eq_error {s : Path.Step} {error : SystemError}
    (h : d.step location s = .error error) :
    error = .notDirectory ∨ ∃ name, s = .into name ∧
      ((error = .nameTooLong ∧ checkName name ≠ .ok ()) ∨
        (error = .noEntry ∧ d.lookup (location ++ [name]) = none)) := by
  unfold step at h
  split at h
  · cases s with
    | up => cases h
    | into name =>
      refine .inr ⟨name, rfl, ?_⟩
      rcases bind_eq_error.1 h with hc | ⟨_, -, h⟩
      · exact .inl ⟨checkName_eq_error hc, by simp [hc]⟩
      · split at h <;> cases h
        exact .inr ⟨rfl, ‹_›⟩
  · cases h
    exact .inl rfl

theorem follow_error {steps : List Path.Step} {error : SystemError}
    (h : d.follow location steps = .error error) :
    error = .noEntry ∨ error = .notDirectory ∨
      error = .nameTooLong ∧ ∃ name, .into name ∈ steps ∧ checkName name ≠ .ok () := by
  induction steps generalizing location with
  | nil => cases h
  | cons s rest ih =>
    rcases bind_eq_error.1 h with hs | ⟨next, -, hr⟩
    · rcases step_eq_error hs with hfile | ⟨name, rfl, ⟨hlong, hc⟩ | ⟨hnone, -⟩⟩
      · exact .inr (.inl hfile)
      · exact .inr (.inr ⟨hlong, name, by simp, hc⟩)
      · exact .inl hnone
    · rcases ih hr with hnone | hfile | ⟨hlong, name, hname, hc⟩
      · exact .inl hnone
      · exact .inr (.inl hfile)
      · exact .inr (.inr ⟨hlong, name, List.mem_cons_of_mem _ hname, hc⟩)

@[simp] theorem startOf_toPath (location cwd : Location) : startOf location.toPath cwd = [] := rfl

@[simp] theorem steps_toPath (location : Location) : location.toPath.steps = location.map .into :=
  rfl

theorem steps_concat (location : Location) (name : Name) :
    (location ++ [name]).toPath.steps = location.map .into ++ [.into name] := by
  simp

@[simp] theorem dropLast_steps_concat (location : Location) (name : Name) :
    (location ++ [name]).toPath.steps.dropLast = location.map .into := by
  rw [steps_concat, List.dropLast_concat]

@[simp] theorem getLast?_steps_concat (location : Location) (name : Name) :
    (location ++ [name]).toPath.steps.getLast? = some (.into name) := by
  rw [steps_concat, List.getLast?_concat]

theorem Takes.checkName (h : Takes location.toPath) : ∀ name ∈ location, checkName name = .ok () :=
  fun name hname => h.name name (List.mem_map_of_mem hname)

theorem find_toPath (h : Takes location.toPath) :
    d.find cwd location.toPath = .ok entry ↔ d.lookup location = some entry := by
  rw [find_eq_ok]
  constructor
  · rintro ⟨-, place, hf, hl⟩
    rwa [follow_names_eq_ok hf] at hl
  · intro hl
    exact ⟨h.path, location, follow_names [] h.checkName (by simp [hl]), hl⟩

theorem find_error (h : Takes p) {error : SystemError} (hf : d.find cwd p = .error error) :
    error = .noEntry ∨ error = .notDirectory := by
  rcases bind_eq_error.1 hf with hc | ⟨_, -, hf⟩
  · rw [h.path] at hc
    cases hc
  · rcases bind_eq_error.1 hf with hf | ⟨place, -, hf⟩
    · rcases follow_error hf with hnone | hfile | ⟨-, name, hname, hc⟩
      · exact .inl hnone
      · exact .inr hfile
      · exact absurd (h.name name hname) hc
    · split at hf <;> cases hf
      exact .inl rfl

/-- Whether something is there can be told of every path that is not too long. -/
theorem present_of_short (hlength : byteCount p.toText ≤ pathLimit)
    (hnames : ∀ name, .into name ∈ p.steps → checkName name = .ok ()) :
    ∃ there, d.present cwd p = .ok there := by
  unfold present leadsTo
  by_cases hnul : '\x00' ∈ p.toText
  · have hf : d.find cwd p = .error .nulCharacter := by
      refine bind_eq_error.2 (.inl ?_)
      rw [checkPath]
      rw [if_pos hnul]
    rw [hf]
    exact ⟨false, rfl⟩
  · have htakes : Takes p := ⟨checkPath_eq_ok.2 ⟨hnul, hlength⟩, hnames⟩
    cases hf : d.find cwd p with
    | ok entry => exact ⟨true, rfl⟩
    | error error => rcases find_error htakes hf with rfl | rfl <;> exact ⟨false, rfl⟩

theorem present_of_long (hnul : '\x00' ∉ p.toText) (hlong : pathLimit < byteCount p.toText) :
    d.present cwd p = .error .nameTooLong := by
  have hf : d.find cwd p = .error .nameTooLong := by
    refine bind_eq_error.2 (.inl ?_)
    rw [checkPath]
    rw [if_neg hnul, if_pos hlong]
  unfold present leadsTo
  rw [hf]

theorem present_toPath (h : Takes location.toPath) :
    d.present cwd location.toPath = .ok (d.lookup location).isSome := by
  cases hl : d.lookup location with
  | some entry => exact present_of_find ((find_toPath h).2 hl)
  | none =>
    unfold present leadsTo
    cases hf : d.find cwd location.toPath with
    | ok entry => rw [(find_toPath h).1 hf] at hl; cases hl
    | error error => rcases find_error h hf with rfl | rfl <;> rfl

theorem slot_of_follow {anchor : Path.Anchor} {steps : List Path.Step}
    (hc : checkPath ⟨anchor, steps ++ [.into name]⟩ = .ok ())
    (hf : d.follow (startOf ⟨anchor, steps⟩ cwd) steps = .ok location)
    (hd : d.lookup location = some .directory) (hn : checkName name = .ok ()) :
    d.slot cwd ⟨anchor, steps ++ [.into name]⟩ = .ok (location, name) := by
  refine bind_eq_ok.2 ⟨(), hc, bind_eq_ok.2 ⟨location, ?_, ?_⟩⟩
  · rwa [List.dropLast_concat]
  · rw [List.getLast?_concat]
    simp only [hd, if_true, hn]
    rfl

theorem create_of_slot {parent : Location} (hs : d.slot cwd p = .ok (parent, name))
    (hfree : d.lookup (parent ++ [name]) = none) : ∃ e, d.create cwd p entry = .ok e := by
  rw [create]
  rw [hs]
  exact ⟨_, dif_pos ⟨(slot_eq_ok hs).2.2.1, hfree⟩⟩

theorem checkPath_eq_error {error : SystemError} (h : checkPath p = .error error) :
    error = .nulCharacter ∨ error = .nameTooLong := by
  rw [checkPath] at h
  split at h
  · cases h; exact .inl rfl
  · split at h <;> cases h
    exact .inr rfl

end Scaffold.Disk
