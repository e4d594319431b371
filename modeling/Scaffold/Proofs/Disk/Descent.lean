import Scaffold.Proofs.Disk.Way

namespace Scaffold

open Outcome

/-- A path with names behind it. -/
def Path.descend (p : Path) (names : List Name) : Path :=
  ⟨p.anchor, p.steps ++ names.map .into⟩

namespace Path

theorem join_descend (base p : Path) (names : List Name) :
    base.join (p.descend names) = (base.join p).descend names := by
  cases hp : p.isAbsolute with
  | true =>
    rw [join_of_absolute base hp]
    exact join_of_absolute base hp
  | false =>
    have hdescend : (p.descend names).isAbsolute = false := hp
    rw [join_of_relative base hp, join_of_relative base hdescend, descend, descend,
      List.append_assoc]

theorem locate_descend (p : Path) (names : List Name) (cwd : Location) :
    (p.descend names).locate cwd = p.locate cwd ++ names := by
  have hnames (location : Location) :
      (names.map Step.into).foldl Location.step location = location ++ names := by
    induction names generalizing location with
    | nil => exact (List.append_nil location).symm
    | cons name rest ih =>
      rw [List.map_cons, List.foldl_cons, ih, Location.step, List.append_assoc]
      rfl
  rw [locate, descend, List.foldl_append]
  exact hnames _

theorem descend_nil (p : Path) : p.descend [] = p := by
  rw [descend, List.map_nil, List.append_nil]

theorem descend_concat (p : Path) (names : List Name) (name : Name) :
    p.descend (names ++ [name]) = ⟨p.anchor, (p.descend names).steps ++ [.into name]⟩ := by
  rw [descend, descend, List.map_append, List.append_assoc]
  rfl

theorem parent_descend (p : Path) (component : Name) : (p.descend [component]).parent = p := by
  rw [parent, descend, List.map_singleton, List.dropLast_concat]

theorem name_descend (p : Path) (component : Name) :
    (p.descend [component]).name = component.val := by
  rw [name, descend, List.map_singleton, List.getLast?_concat]
  rfl

theorem mem_way_descend_iff {p : Path} {names : List Name} {cwd place : Location} :
    place ∈ (p.descend names).way cwd ↔
      place ∈ p.way cwd ∨ ∃ above, above <+: names ∧ place = p.locate cwd ++ above := by
  induction names using List.reverseRecOn with
  | nil =>
    simp only [descend_nil, List.prefix_nil, exists_eq_left, List.append_nil]
    exact ⟨.inl, fun h => h.elim id fun heq => heq ▸ locate_mem_way p cwd⟩
  | append_singleton names name ih =>
    have hlast : locate ⟨p.anchor, (p.descend names).steps ++ [.into name]⟩ cwd =
        p.locate cwd ++ (names ++ [name]) := by
      rw [← descend_concat, locate_descend]
    rw [descend_concat, mem_way_concat, hlast]
    change place ∈ (p.descend names).way cwd ∨ _ ↔ _
    simp only [ih, List.prefix_concat_iff, or_and_right, exists_or, exists_eq_left]
    grind

theorem below_eq_descend {t : Text} {names : List Name}
    (h : ofText t = ⟨.relative, names.map .into⟩) (p : Path) : p.below t = p.descend names := by
  rw [below, h]
  rfl

/-- A relative path with at least one component and without `..`. -/
structure Inward (p : Path) : Prop where
  relative : p.anchor = .relative
  ne_nil : p.steps ≠ []
  up_notMem : .up ∉ p.steps

instance (p : Path) : Decidable p.Inward :=
  decidable_of_iff (_ ∧ _ ∧ _) ⟨fun ⟨h₁, h₂, h₃⟩ => ⟨h₁, h₂, h₃⟩, fun ⟨h₁, h₂, h₃⟩ => ⟨h₁, h₂, h₃⟩⟩

theorem exists_names {steps : List Step} (h : .up ∉ steps) :
    ∃ names : List Name, steps = names.map .into := by
  induction steps with
  | nil => exact ⟨[], rfl⟩
  | cons s rest ih =>
    obtain ⟨names, rfl⟩ := ih fun hmem => h (List.mem_cons_of_mem s hmem)
    cases s with
    | up => exact absurd List.mem_cons_self h
    | into name => exact ⟨name :: names, rfl⟩

theorem Inward.join_eq {p : Path} (h : p.Inward) (base : Path) :
    base.join p = ⟨base.anchor, base.steps ++ p.steps⟩ :=
  join_of_relative base (by rw [isAbsolute, h.relative]; rfl)

theorem Inward.join_descend {p : Path} (h : p.Inward) (base : Path) : ∃ above name,
    p.steps = (above ++ [name]).map .into ∧ base.join p = base.descend (above ++ [name]) := by
  obtain ⟨names, hsteps⟩ := exists_names h.up_notMem
  rcases List.eq_nil_or_concat' names with rfl | ⟨above, name, rfl⟩
  · exact absurd hsteps h.ne_nil
  · exact ⟨above, name, hsteps, by rw [h.join_eq, hsteps, descend]⟩

end Path

namespace Disk

variable {d e : Disk} {cwd location : Location} {p : Path} {above : List Name} {name : Name}
  {entry : Entry} {error : SystemError}

theorem slot_descend (hf : d.follow (startOf p cwd) p.steps = .ok location)
    (hn : ∀ other ∈ above ++ [name], checkName other = .ok ())
    (hd : d.lookup (location ++ above) = some .directory)
    (hc : checkPath (p.descend (above ++ [name])) = .ok ()) :
    d.slot cwd (p.descend (above ++ [name])) = .ok (location ++ above, name) := by
  have hfollow : d.follow (startOf p cwd) (p.descend above).steps = .ok (location ++ above) := by
    rw [Path.descend, follow_append]
    refine bind_eq_ok.2 ⟨location, hf, follow_names location ?_ (by simp [hd])⟩
    exact fun other ho => hn other (List.mem_append_left _ ho)
  rw [Path.descend_concat] at hc ⊢
  exact slot_of_follow hc hfollow hd (hn name (by simp))

theorem present_of_slot {parent : Location} (hs : d.slot cwd p = .ok (parent, name))
    (hfree : d.lookup (parent ++ [name]) = none) : d.present cwd p = .ok false := by
  obtain ⟨hc, hf, hd, hlast, hn⟩ := slot_eq_ok hs
  have hstep : d.step parent (.into name) = .error .noEntry := by
    simp only [step, hd, if_true, hn, hfree]
    rfl
  have hfind : d.find cwd p = .error .noEntry := by
    refine bind_eq_error.2 (.inr ⟨(), hc, bind_eq_error.2 (.inl ?_)⟩)
    rw [← List.dropLast_append_getLast? _ hlast, follow_append]
    exact bind_eq_error.2 (.inr ⟨parent, hf, bind_eq_error.2 (.inl hstep)⟩)
  rw [present, leadsTo, hfind]

theorem create_of_checkPath (h : checkPath p = .error error) :
    d.create cwd p entry = .error error :=
  bind_eq_error.2 (.inl (bind_eq_error.2 (.inl h)))

theorem makeDirectory_of_create (h : d.create cwd p .directory = .ok e) :
    d.makeDirectory cwd p false = (e, .ok ()) := by
  obtain ⟨parent, name, hs, -⟩ := create_eq_ok h
  obtain ⟨anchor, steps⟩ := p
  obtain ⟨hsteps, -⟩ := slot_locate hs
  have hsteps : steps = steps.dropLast ++ [.into name] := hsteps
  rw [hsteps] at h ⊢
  rw [makeDirectory_steps, h]

theorem makeDirectory_of_create_error {s : Path.Step} {before : List Path.Step}
    (hsteps : p.steps = before ++ [s]) (h : d.create cwd p .directory = .error error)
    (hne : error ≠ .noEntry) : d.makeDirectory cwd p false = (d, .error error) := by
  obtain ⟨anchor, steps⟩ := p
  have hsteps : steps = before ++ [s] := hsteps
  rw [hsteps] at h ⊢
  rw [makeDirectory_steps, h]
  cases error <;> first | rfl | exact absurd rfl hne

theorem checkPath_of_append {anchor : Path.Anchor} {steps more : List Path.Step} (hne : steps ≠ [])
    (h : checkPath ⟨anchor, steps ++ more⟩ = .ok ()) : checkPath ⟨anchor, steps⟩ = .ok () := by
  obtain ⟨rest, hrest⟩ :
      Path.toText ⟨anchor, steps⟩ <+: Path.toText ⟨anchor, steps ++ more⟩ := by
    rw [Path.toText, Path.toText, if_neg (by simp [hne]), if_neg (by simp [hne]), List.map_append]
    exact (List.prefix_append_right_inj _).2 (Text.join_append_left _ _ _)
  obtain ⟨hnul, hlength⟩ := checkPath_eq_ok.1 h
  rw [← hrest] at hnul hlength
  rw [byteCount_append] at hlength
  exact checkPath_eq_ok.2 ⟨fun hmem => hnul (List.mem_append_left _ hmem),
    Nat.le_trans (Nat.le_add_right _ _) hlength⟩

theorem find_of_append {anchor : Path.Anchor} {steps more : List Path.Step} (hne : steps ≠ [])
    (h : d.find cwd ⟨anchor, steps ++ more⟩ = .ok entry) :
    ∃ other, d.find cwd ⟨anchor, steps⟩ = .ok other := by
  obtain ⟨hc, place, hf, hl⟩ := find_eq_ok.1 h
  rw [follow_append] at hf
  obtain ⟨next, hnext, hmore⟩ := bind_eq_ok.1 hf
  obtain ⟨other, hother⟩ : ∃ other, d.lookup next = some other := by
    cases more with
    | nil =>
      cases hmore
      exact ⟨entry, hl⟩
    | cons s rest =>
      obtain ⟨_, hs, -⟩ := bind_eq_ok.1 hmore
      exact ⟨.directory, (step_eq_ok hs).1⟩
  exact ⟨other, find_eq_ok.2 ⟨checkPath_of_append hne hc, next, hnext, hother⟩⟩

theorem create_of_find {found : Entry} (h : d.find cwd (p.descend (above ++ [name])) = .ok found) :
    d.create cwd (p.descend (above ++ [name])) entry = .error .exists := by
  rw [Path.descend_concat] at h ⊢
  obtain ⟨hc, place, hf, hl⟩ := find_eq_ok.1 h
  rw [follow_append] at hf
  obtain ⟨parent, hparent, hlast⟩ := bind_eq_ok.1 hf
  obtain ⟨_, hs, hend⟩ := bind_eq_ok.1 hlast
  cases hend
  obtain ⟨hd, ⟨hup, -⟩ | ⟨other, hinto, hn, rfl, _, hthere⟩⟩ := step_eq_ok hs
  · cases hup
  · cases hinto
    rw [create, slot_of_follow hc hparent hd hn]
    exact dif_neg fun hfree => by simp [hthere] at hfree

/-- Going on from where a path leads, one stands behind what is there at each `..`. -/
theorem steady_descend (hf : d.follow (startOf p cwd) p.steps = .ok location) (names : List Name) :
    d.Steady cwd (p.descend names) := by
  intro before after hsteps hmissing
  rcases List.append_eq_append_iff.1 hsteps with ⟨more, -, hmore⟩ | ⟨more, hmore, -⟩
  · have hup : .up ∈ names.map Path.Step.into := hmore ▸ List.mem_append_right _ List.mem_cons_self
    simp at hup
  · rw [hmore, follow_append] at hf
    obtain ⟨_, hbefore, -⟩ := bind_eq_ok.1 hf
    cases hmissing.symm.trans hbefore

end Disk

end Scaffold
