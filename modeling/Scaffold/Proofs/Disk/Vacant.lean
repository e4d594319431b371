import Scaffold.Proofs.Disk.Descent

namespace Scaffold.Disk

open Outcome

/-- A place that can be passed, at least once a missing directory was created there. -/
def Passable (d : Disk) (place : Location) : Prop :=
  d.lookup place = none ∨ d.lookup place = some .directory

/-- A path at which a new directory has its place, whatever is missing on the way. -/
structure Vacant (d : Disk) (cwd : Location) (p : Path) : Prop where
  takes : Takes p
  named : ∃ name, p.steps.getLast? = some (.into name)
  passable : ∀ place ∈ p.parent.way cwd, d.Passable place
  free : d.lookup (p.locate cwd) = none
  apart : p.locate cwd ∉ p.parent.way cwd

/-- The second disk has directories more than the first one, at some places. -/
structure Spread (places : List Location) (d e : Disk) : Prop where
  lookup : ∀ place, e.lookup place =
    (d.lookup place).or (if place ∈ places then some .directory else none)

variable {d e : Disk} {cwd location place : Location} {steps more : List Path.Step} {p : Path}
  {anchor : Path.Anchor} {entry : Entry} {places : List Location}

theorem exists_concat {s : Path.Step} (hlast : p.steps.getLast? = some s) :
    ∃ anchor steps, p = ⟨anchor, steps ++ [s]⟩ ∧ p.parent = ⟨anchor, steps⟩ := by
  refine ⟨p.anchor, p.steps.dropLast, ?_, rfl⟩
  rw [List.dropLast_append_getLast? _ hlast]

theorem Passable.of_le (hle : d ≤ e) (h : e.Passable place) : d.Passable place := by
  rcases lookup_eq_or_missing hle place with hsame | hmissing
  · rwa [Passable, hsame] at h
  · exact .inl hmissing

theorem startOf_directory (h : d.lookup cwd = some .directory) (p : Path) :
    d.lookup (startOf p cwd) = some .directory := by
  rw [startOf]
  split
  · exact lookup_root d
  · exact h

theorem checkPath_nil (anchor : Path.Anchor) : checkPath ⟨anchor, []⟩ = .ok () := by
  cases anchor <;> decide

theorem Takes.beginning (h : Takes ⟨anchor, steps ++ more⟩) : Takes ⟨anchor, steps⟩ where
  path := by
    by_cases hsteps : steps = []
    · rw [hsteps, checkPath_nil]
    · exact checkPath_of_append hsteps h.path
  name := fun name hname => h.name name (List.mem_append_left _ hname)

/-- Whether a name in a path, if the step is one, is not too long. -/
def shortStep : Path.Step → Bool
  | .up => true
  | .into name => checkName name = .ok ()

theorem takes_iff : Takes p ↔ checkPath p = .ok () ∧ p.steps.all shortStep = true := by
  constructor
  · rintro ⟨hpath, hname⟩
    refine ⟨hpath, List.all_eq_true.2 fun s hs => ?_⟩
    cases s with
    | up => rfl
    | into name => exact decide_eq_true (hname name hs)
  · rintro ⟨hpath, hsteps⟩
    exact ⟨hpath, fun name hname => of_decide_eq_true (List.all_eq_true.1 hsteps _ hname)⟩

instance : Decidable (Takes p) :=
  decidable_of_iff _ takes_iff.symm

theorem takes_of_create (h : d.create cwd p entry = .ok e) : Takes p := by
  obtain ⟨parent, name, hs, -⟩ := create_eq_ok h
  obtain ⟨hc, hf, -, -, hn⟩ := slot_eq_ok hs
  refine ⟨hc, ?_⟩
  rw [(slot_locate hs).1]
  intro other hother
  rcases List.mem_append.1 hother with hother | hother
  · exact checkName_of_follow hf other hother
  · cases List.mem_singleton.1 hother
    exact hn

theorem follow_of_passable (hstart : d.lookup location = some .directory)
    (hnames : ∀ name, .into name ∈ steps → checkName name = .ok ())
    (hway : ∀ passed ∈ location.way steps, d.Passable passed) :
    (∃ place, d.follow location steps = .ok place ∧ d.lookup place = some .directory) ∨
      d.follow location steps = .error .noEntry := by
  induction steps generalizing location with
  | nil => exact .inl ⟨location, rfl, hstart⟩
  | cons s rest ih =>
    have hrest := fun name hname => hnames name (List.mem_cons_of_mem s hname)
    have hpassed := (List.forall_mem_cons.1 hway).2
    rw [follow]
    cases s with
    | up =>
      have hs : d.step location .up = .ok location.dropLast := if_pos hstart
      rw [hs]
      exact ih (directory_dropLast hstart) hrest hpassed
    | into name =>
      have hn : checkName name = .ok () := hnames name List.mem_cons_self
      have hnext : d.Passable (location ++ [name]) := by
        apply hpassed
        cases rest <;> exact List.mem_cons_self
      rcases hnext with hmissing | hd
      · have hs : d.step location (.into name) = .error .noEntry := by
          simp only [step, hstart, if_true, hn, hmissing]
          rfl
        rw [hs]
        exact .inr rfl
      · have hs : d.step location (.into name) = .ok (location ++ [name]) := by
          simp only [step, hstart, if_true, hn, hd]
          rfl
        rw [hs]
        exact ih hd hrest hpassed

theorem create_or_find {s : Path.Step} {parent : Location} (ht : Takes ⟨anchor, steps ++ [s]⟩)
    (hf : d.follow (startOf ⟨anchor, steps⟩ cwd) steps = .ok parent)
    (hd : d.lookup parent = some .directory)
    (hend : d.Passable (Path.locate ⟨anchor, steps ++ [s]⟩ cwd)) :
    (∃ e, d.create cwd ⟨anchor, steps ++ [s]⟩ .directory = .ok e) ∨
      d.create cwd ⟨anchor, steps ++ [s]⟩ .directory = .error .exists ∧
        d.find cwd ⟨anchor, steps ++ [s]⟩ = .ok .directory := by
  cases s with
  | up =>
    have hfollow : d.follow (startOf ⟨anchor, steps⟩ cwd) (steps ++ [.up]) =
        .ok parent.dropLast := by
      rw [follow_append]
      exact bind_eq_ok.2 ⟨parent, hf, bind_eq_ok.2 ⟨_, if_pos hd, rfl⟩⟩
    have hslot : d.slot cwd ⟨anchor, steps ++ [.up]⟩ = .error .exists := by
      refine bind_eq_error.2 (.inr ⟨(), ht.path, bind_eq_error.2 (.inr ⟨parent, ?_, ?_⟩)⟩)
      · rwa [List.dropLast_concat]
      · rw [if_pos hd, List.getLast?_concat]
    exact .inr ⟨bind_eq_error.2 (.inl hslot),
      find_eq_ok.2 ⟨ht.path, parent.dropLast, hfollow, directory_dropLast hd⟩⟩
  | into name =>
    have hn : checkName name = .ok () := ht.name name (by simp)
    have hslot := slot_of_follow ht.path hf hd hn
    rw [(slot_locate hslot).2] at hend
    rcases hend with hfree | hthere
    · exact .inl (create_of_slot hslot hfree)
    · refine .inr ⟨?_, find_of_slot le_rfl hslot hthere⟩
      rw [create, hslot]
      exact dif_neg fun hfree => by simp [hthere] at hfree

theorem create_of_missing (ht : Takes p)
    (hmissing : d.follow (startOf p cwd) p.steps.dropLast = .error .noEntry) :
    d.create cwd p entry = .error .noEntry :=
  bind_eq_error.2 (.inl (bind_eq_error.2 (.inr ⟨(), ht.path, bind_eq_error.2 (.inl hmissing)⟩)))

theorem unlessDirectory_of_find (h : d.find cwd p = .ok .directory) (error : SystemError) :
    d.unlessDirectory cwd p true error = .ok () := by
  simp only [unlessDirectory, isDirectory, leadsTo, h]

theorem spread_of_makeDirectory {mayExist : Bool}
    (h : d.makeDirectory cwd p mayExist = (e, .ok ())) : Spread (p.way cwd) d e :=
  ⟨lookup_of_makeDirectory_way h⟩

theorem Spread.passable (h : Spread places d e) : e.Passable place ↔ d.Passable place := by
  rw [Passable, Passable, h.lookup]
  cases d.lookup place with
  | none => split <;> simp
  | some entry => simp

/-- A path can be made to lead to a directory if all of its way can be passed. -/
theorem makeDirectory_of_passable (hstart : d.lookup (startOf p cwd) = some .directory)
    (ht : Takes p) (hway : ∀ passed ∈ p.way cwd, d.Passable passed) :
    ∃ e, d.makeDirectory cwd p true = (e, .ok ()) := by
  obtain ⟨anchor, steps⟩ := p
  induction steps using List.reverseRecOn with
  | nil =>
    have hfind : d.find cwd ⟨anchor, []⟩ = .ok .directory :=
      find_eq_ok.2 ⟨ht.path, _, rfl, hstart⟩
    exact ⟨d, Prod.ext rfl (unlessDirectory_of_find hfind .exists)⟩
  | append_singleton steps s ih =>
    have habove := fun passed hpassed => hway passed (Path.mem_way_above hpassed)
    have hend := hway _ (Path.locate_mem_way _ cwd)
    rw [makeDirectory_steps]
    rcases follow_of_passable hstart ht.beginning.name habove with
      ⟨parent, hf, hd⟩ | hmissing
    · rcases create_or_find ht hf hd hend with ⟨e, he⟩ | ⟨hexists, hfind⟩
      · exact ⟨e, by rw [he]⟩
      · rw [hexists]
        exact ⟨d, Prod.ext rfl (unlessDirectory_of_find hfind .exists)⟩
    · obtain ⟨made, hmade⟩ := ih hstart ht.beginning habove
      obtain ⟨-, parent, hf, hd⟩ := find_eq_ok.1 (find_of_makeDirectory_ok hmade)
      have hend := (spread_of_makeDirectory hmade).passable.2 hend
      rw [create_of_missing ht (by rwa [List.dropLast_concat]), hmade]
      simp only
      rcases create_or_find ht hf hd hend with ⟨e, he⟩ | ⟨hexists, hfind⟩
      · exact ⟨e, by rw [he]⟩
      · rw [hexists]
        exact ⟨made, Prod.ext rfl (unlessDirectory_of_find hfind .exists)⟩

theorem Vacant.makeDirectory (h : d.Vacant cwd p)
    (hstart : d.lookup (startOf p cwd) = some .directory) :
    ∃ e, d.makeDirectory cwd p false = (e, .ok ()) := by
  obtain ⟨ht, ⟨name, hlast⟩, hway, hfree, hapart⟩ := h
  obtain ⟨anchor, steps, rfl, hparent⟩ := exists_concat hlast
  rw [hparent] at hway hapart
  have hn : checkName name = .ok () := ht.name name (by simp)
  rcases follow_of_passable hstart ht.beginning.name hway with
    ⟨parent, hf, hd⟩ | hmissing
  · have hslot := slot_of_follow ht.path hf hd hn
    rw [(slot_locate hslot).2] at hfree
    obtain ⟨e, he⟩ : ∃ e, d.create cwd _ .directory = .ok e := create_of_slot hslot hfree
    exact ⟨e, makeDirectory_of_create he⟩
  · have habove : Takes ⟨anchor, steps⟩ := ht.beginning
    obtain ⟨made, hmade⟩ := makeDirectory_of_passable (p := ⟨anchor, steps⟩) hstart habove hway
    obtain ⟨-, parent, hf, hd⟩ := find_eq_ok.1 (find_of_makeDirectory_ok hmade)
    have hslot := slot_of_follow ht.path hf hd hn
    have hfree : made.lookup (parent ++ [name]) = none := by
      rw [← (slot_locate hslot).2, lookup_of_makeDirectory_way hmade, hfree, if_neg hapart]
      rfl
    obtain ⟨e, he⟩ : ∃ e, made.create cwd _ .directory = .ok e := create_of_slot hslot hfree
    rw [makeDirectory_steps, create_of_missing ht (by rwa [List.dropLast_concat]), hmade]
    exact ⟨e, by simp only [he]⟩

theorem vacant_of_makeDirectory (h : d.makeDirectory cwd p false = (e, .ok ())) :
    d.Vacant cwd p := by
  obtain ⟨made, hle, hc⟩ := create_of_makeDirectory h
  obtain ⟨parent, name, hs, -⟩ := create_eq_ok hc
  obtain ⟨-, -, hway⟩ := create_locate hc
  obtain ⟨-, -, -, hlast, -⟩ := slot_eq_ok hs
  obtain ⟨hfree, hapart⟩ := free_of_makeDirectory_way h
  exact
    { takes := takes_of_create hc
      named := ⟨name, hlast⟩
      passable := fun place hplace => .of_le hle (.inr (hway place hplace))
      free := hfree
      apart := hapart }

theorem Vacant.present (h : d.Vacant cwd p) : d.present cwd p = .ok false := by
  unfold Disk.present leadsTo
  cases hfind : d.find cwd p with
  | ok entry => cases h.free.symm.trans (lookup_of_find_locate hfind)
  | error error => rcases find_error h.takes hfind with rfl | rfl <;> rfl

/-- A directory is created just where the path is vacant. -/
theorem makeDirectory_succeeds_iff (hstart : d.lookup (startOf p cwd) = some .directory) :
    (∃ e, d.makeDirectory cwd p false = (e, .ok ())) ↔ d.Vacant cwd p :=
  ⟨fun ⟨_, h⟩ => vacant_of_makeDirectory h, fun h => h.makeDirectory hstart⟩

theorem Spread.vacant_iff (h : Spread places d e) :
    e.Vacant cwd p ↔ d.Vacant cwd p ∧ p.locate cwd ∉ places := by
  have hfree : e.lookup (p.locate cwd) = none ↔
      d.lookup (p.locate cwd) = none ∧ p.locate cwd ∉ places := by
    rw [h.lookup]
    cases d.lookup (p.locate cwd) with
    | none => simp
    | some entry => simp
  constructor
  · intro hvacant
    obtain ⟨hbefore, hplaces⟩ := hfree.1 hvacant.free
    exact ⟨{ hvacant with
      passable := fun place hplace => h.passable.1 (hvacant.passable place hplace)
      free := hbefore }, hplaces⟩
  · rintro ⟨hvacant, hplaces⟩
    exact { hvacant with
      passable := fun place hplace => h.passable.2 (hvacant.passable place hplace)
      free := hfree.2 ⟨hvacant.free, hplaces⟩ }

section Below

variable {names : List Name} (h : d.Vacant cwd p)
  (hstart : d.lookup (startOf p cwd) = some .directory)

include h

theorem Vacant.passable_way : ∀ place ∈ p.way cwd, d.Passable place := by
  obtain ⟨name, hlast⟩ := h.named
  obtain ⟨anchor, steps, rfl, hparent⟩ := exists_concat hlast
  intro place hplace
  rcases Path.mem_way_concat.1 hplace with hplace | rfl
  · exact h.passable place (hparent ▸ hplace)
  · exact .inl h.free

include hstart

theorem Vacant.notMem_way (hne : names ≠ []) : p.locate cwd ++ names ∉ p.way cwd := by
  intro hway
  obtain ⟨e, hmake⟩ := h.makeDirectory hstart
  have hnone : e.lookup (p.locate cwd ++ names) = none :=
    lookup_below_makeDirectory hmake (List.prefix_append _ _) (by simpa using hne)
  rw [(spread_of_makeDirectory hmake).lookup, if_pos hway,
    lookup_below h.free (List.prefix_append _ _)] at hnone
  cases hnone

theorem Vacant.locate_mem_way_iff {more : List Name} (hne : names ≠ []) :
    (p.descend names).locate cwd ∈ (p.descend more).way cwd ↔ names <+: more := by
  rw [Path.locate_descend, Path.mem_way_descend_iff, or_iff_right (h.notMem_way hstart hne)]
  simp only [List.append_cancel_left_eq]
  constructor
  · rintro ⟨above, habove, rfl⟩
    exact habove
  · intro hprefix
    exact ⟨names, hprefix, rfl⟩

/-- Going on with names from a vacant path, only the system's limits are in the way. -/
theorem Vacant.descend_iff (hne : names ≠ []) :
    d.Vacant cwd (p.descend names) ↔ Takes (p.descend names) := by
  refine ⟨Vacant.takes, fun htakes => ?_⟩
  obtain ⟨above, name, rfl⟩ := (List.eq_nil_or_concat' names).resolve_left hne
  have hparent : (p.descend (above ++ [name])).parent = p.descend above := by
    rw [Path.descend_concat, Path.parent, List.dropLast_concat]
    rfl
  constructor
  · exact htakes
  · rw [Path.descend_concat]
    exact ⟨name, List.getLast?_concat⟩
  · intro place hplace
    rw [hparent, Path.mem_way_descend_iff] at hplace
    rcases hplace with hplace | ⟨names, -, rfl⟩
    · exact h.passable_way place hplace
    · exact .inl (lookup_below h.free (List.prefix_append _ _))
  · rw [Path.locate_descend]
    exact lookup_below h.free (List.prefix_append _ _)
  · rw [hparent, h.locate_mem_way_iff hstart hne]
    intro hprefix
    exact absurd hprefix.length_le (by simp)

end Below

end Scaffold.Disk
