import Scaffold.Proofs.Disk.Place

namespace Scaffold

/-- The places that steps lead through, the first one and the last one included. -/
def Location.way (location : Location) : List Path.Step → List Location
  | [] => [location]
  | s :: rest => location :: way (location.step s) rest

/-- The places that a path leads through. -/
def Path.way (p : Path) (cwd : Location) : List Location :=
  (Disk.startOf p cwd).way p.steps

theorem Location.mem_way_concat {location place : Location} {steps : List Path.Step}
    {s : Path.Step} : place ∈ location.way (steps ++ [s]) ↔
      place ∈ location.way steps ∨ place = (steps ++ [s]).foldl step location := by
  induction steps generalizing location with
  | nil => simp only [List.nil_append, way, List.mem_cons, List.not_mem_nil, or_false,
      List.foldl_cons, List.foldl_nil]
  | cons t rest ih =>
    simp only [List.cons_append, way, List.mem_cons, ih, List.foldl_cons, or_assoc]

theorem Path.locate_concat (anchor : Anchor) (steps : List Step) (s : Step) (cwd : Location) :
    locate ⟨anchor, steps ++ [s]⟩ cwd = (locate ⟨anchor, steps⟩ cwd).step s :=
  List.foldl_concat Location.step _ s steps

theorem Path.mem_way_concat {anchor : Anchor} {steps : List Step} {s : Step}
    {cwd place : Location} : place ∈ way ⟨anchor, steps ++ [s]⟩ cwd ↔
      place ∈ way ⟨anchor, steps⟩ cwd ∨ place = locate ⟨anchor, steps ++ [s]⟩ cwd :=
  Location.mem_way_concat

theorem Path.locate_mem_way (p : Path) (cwd : Location) : p.locate cwd ∈ p.way cwd := by
  obtain ⟨anchor, steps⟩ := p
  rcases List.eq_nil_or_concat' steps with rfl | ⟨steps, s, rfl⟩
  · exact List.mem_cons_self
  · exact mem_way_concat.2 (.inr rfl)

theorem Path.mem_way_above {anchor : Anchor} {steps : List Step} {s : Step} {cwd place : Location}
    (h : place ∈ way ⟨anchor, steps⟩ cwd) : place ∈ way ⟨anchor, steps ++ [s]⟩ cwd :=
  mem_way_concat.2 (.inl h)

namespace Disk

open Outcome

variable {d e : Disk} {cwd location place : Location} {steps more : List Path.Step} {p : Path}
  {entry : Entry} {mayExist : Bool}

theorem step_eq {s : Path.Step} (h : d.step location s = .ok place) : place = location.step s := by
  obtain ⟨-, ⟨rfl, rfl⟩ | ⟨name, rfl, -, rfl, -⟩⟩ := step_eq_ok h <;> rfl

theorem step_noEntry {s : Path.Step} (h : d.step location s = .error .noEntry) :
    d.lookup location = some .directory ∧
      ∃ name, s = .into name ∧ d.lookup (location ++ [name]) = none := by
  have hd : d.lookup location = some .directory := by
    unfold step at h
    split at h
    · assumption
    · cases h
  rcases step_eq_error h with herror | ⟨name, rfl, ⟨herror, -⟩ | ⟨-, hnone⟩⟩
  · cases herror
  · cases herror
  · exact ⟨hd, name, rfl, hnone⟩

theorem follow_eq (h : d.follow location steps = .ok place) :
    place = steps.foldl Location.step location := by
  induction steps generalizing location with
  | nil =>
    cases h
    rfl
  | cons s rest ih =>
    obtain ⟨next, hs, hr⟩ := bind_eq_ok.1 h
    rw [ih hr, step_eq hs]
    rfl

theorem checkName_of_follow (h : d.follow location steps = .ok place) :
    ∀ name, .into name ∈ steps → checkName name = .ok () := by
  induction steps generalizing location with
  | nil => exact nofun
  | cons s rest ih =>
    obtain ⟨next, hs, hr⟩ := bind_eq_ok.1 h
    intro name hname
    rcases List.mem_cons.1 hname with rfl | hname
    · obtain ⟨-, ⟨hup, -⟩ | ⟨other, hinto, hc, -⟩⟩ := step_eq_ok hs
      · cases hup
      · cases hinto
        exact hc
    · exact ih hr name hname

theorem directory_of_mem_way (h : d.follow location steps = .ok place)
    (hd : d.lookup place = some .directory) :
    ∀ passed ∈ location.way steps, d.lookup passed = some .directory := by
  induction steps generalizing location with
  | nil =>
    cases h
    intro passed hpassed
    rwa [List.mem_singleton.1 hpassed]
  | cons s rest ih =>
    obtain ⟨next, hs, hr⟩ := bind_eq_ok.1 h
    obtain rfl := step_eq hs
    exact List.forall_mem_cons.2 ⟨(step_eq_ok hs).1, ih hr⟩

theorem find_of_present (h : d.present cwd p = .ok true) : ∃ entry, d.find cwd p = .ok entry := by
  unfold present leadsTo at h
  split at h
  · rename_i entry hf
    exact ⟨entry, hf⟩
  · cases h
  · cases h

theorem lookup_of_find_locate (h : d.find cwd p = .ok entry) :
    d.lookup (p.locate cwd) = some entry := by
  obtain ⟨-, place, hf, hl⟩ := find_eq_ok.1 h
  rwa [follow_eq hf] at hl

theorem slot_locate {parent : Location} {name : Name} (h : d.slot cwd p = .ok (parent, name)) :
    p.steps = p.steps.dropLast ++ [.into name] ∧ p.locate cwd = parent ++ [name] := by
  obtain ⟨-, hf, -, hlast, -⟩ := slot_eq_ok h
  have hsteps : p.steps = p.steps.dropLast ++ [.into name] :=
    (List.dropLast_append_getLast? _ hlast).symm
  refine ⟨hsteps, ?_⟩
  rw [Path.locate, hsteps, List.foldl_append]
  have hend := follow_eq hf
  rw [startOf] at hend
  rw [← hend]
  rfl

theorem create_locate (h : d.create cwd p entry = .ok e) :
    d.lookup (p.locate cwd) = none ∧
      (∀ place, e.lookup place = if place = p.locate cwd then some entry else d.lookup place) ∧
      ∀ passed ∈ (startOf p cwd).way p.steps.dropLast, d.lookup passed = some .directory := by
  obtain ⟨parent, name, hs, hfree, hl⟩ := create_eq_ok h
  obtain ⟨-, hf, hd, -, -⟩ := slot_eq_ok hs
  rw [(slot_locate hs).2]
  exact ⟨hfree, hl, directory_of_mem_way hf hd⟩

theorem directory_dropLast (h : d.lookup location = some .directory) :
    d.lookup location.dropLast = some .directory := by
  by_cases hroot : location = []
  · rwa [hroot] at h ⊢
  · apply directory_above (by simp [h]) location.dropLast_prefix
    intro heq
    have hlength := congrArg List.length heq
    rw [List.length_dropLast] at hlength
    have hpositive := List.length_pos_iff.2 hroot
    omega

/-- A path without a name at its end leads to a directory, the last one on its way or the one above
it. -/
theorem present_of_slot_exists (h : d.slot cwd p = .error .exists) :
    d.present cwd p = .ok true := by
  rcases bind_eq_error.1 h with hc | ⟨_, hc, h⟩
  · rcases checkPath_eq_error hc with herror | herror <;> cases herror
  rcases bind_eq_error.1 h with hf | ⟨parent, hf, h⟩
  · rcases follow_error hf with herror | herror | ⟨herror, -⟩ <;> cases herror
  split at h
  · rename_i hd
    have hend : ∃ place, d.follow (startOf p cwd) p.steps = .ok place ∧
        d.lookup place = some .directory := by
      cases hlast : p.steps.getLast? with
      | none =>
        rw [List.getLast?_eq_none_iff] at hlast
        rw [hlast] at hf ⊢
        exact ⟨parent, hf, hd⟩
      | some last =>
        rw [hlast] at h
        cases last with
        | into name =>
          rcases bind_eq_error.1 h with hn | ⟨_, -, h⟩
          · cases checkName_eq_error hn
          · cases h
        | up =>
          refine ⟨parent.dropLast, ?_, directory_dropLast hd⟩
          rw [← List.dropLast_append_getLast? _ hlast, follow_append]
          exact bind_eq_ok.2 ⟨parent, hf, bind_eq_ok.2 ⟨_, if_pos hd, rfl⟩⟩
    obtain ⟨place, hfollow, hdirectory⟩ := hend
    exact present_of_find (find_eq_ok.2 ⟨hc, place, hfollow, hdirectory⟩)
  · cases h

theorem present_of_create (h : d.create cwd p entry = .error .exists) :
    d.present cwd p = .ok true := by
  rcases bind_eq_error.1 h with hs | ⟨⟨parent, name⟩, hs, hput⟩
  · exact present_of_slot_exists hs
  · simp only at hput
    split at hput
    · cases hput
    · rename_i hfree
      have hd := (slot_eq_ok hs).2.2.1
      obtain ⟨found, hfound⟩ := Option.ne_none_iff_exists'.1 fun hnone => hfree ⟨hd, hnone⟩
      exact present_of_find (find_of_slot le_rfl hs hfound)

theorem follow_of_create_noEntry (h : d.create cwd p entry = .error .noEntry) :
    d.follow (startOf p cwd) p.steps.dropLast = .error .noEntry := by
  rcases bind_eq_error.1 h with hs | ⟨_, -, hput⟩
  · rcases bind_eq_error.1 hs with hc | ⟨_, -, hs⟩
    · rcases checkPath_eq_error hc with herror | herror <;> cases herror
    rcases bind_eq_error.1 hs with hf | ⟨parent, -, hs⟩
    · exact hf
    split at hs
    · split at hs
      · rcases bind_eq_error.1 hs with hn | ⟨_, -, hs⟩
        · cases checkName_eq_error hn
        · cases hs
      · cases hs
    · cases hs
  · simp only at hput
    split at hput <;> cases hput

/-- Creating a directory in terms of the one that its path leads through last. -/
theorem makeDirectory_steps (d : Disk) (cwd : Location) (anchor : Path.Anchor)
    (steps : List Path.Step) (s : Path.Step) (mayExist : Bool) :
    d.makeDirectory cwd ⟨anchor, steps ++ [s]⟩ mayExist =
      match d.create cwd ⟨anchor, steps ++ [s]⟩ .directory with
      | .ok d => (d, .ok ())
      | .error .noEntry =>
        match d.makeDirectory cwd ⟨anchor, steps⟩ true with
        | (d, .error e) => (d, .error e)
        | (d, .ok ()) =>
          match d.create cwd ⟨anchor, steps ++ [s]⟩ .directory with
          | .ok d => (d, .ok ())
          | .error .noEntry => (d, .error .noEntry)
          | .error e => (d, d.unlessDirectory cwd ⟨anchor, steps ++ [s]⟩ mayExist e)
      | .error e => (d, d.unlessDirectory cwd ⟨anchor, steps ++ [s]⟩ mayExist e) := by
  have hback : (steps ++ [s]).reverse = s :: steps.reverse := List.reverse_concat' steps s
  have hp : Path.mk anchor (s :: steps.reverse).reverse = ⟨anchor, steps ++ [s]⟩ := by
    rw [← hback, List.reverse_reverse]
  rw [makeDirectory]
  rw [hback, makeDirectoryBack, hp]
  rfl

theorem unlessDirectory_eq_ok {error : SystemError}
    (h : d.unlessDirectory cwd p mayExist error = .ok ()) :
    mayExist = true ∧ d.find cwd p = .ok .directory := by
  unfold unlessDirectory at h
  split at h
  · rename_i hd
    refine ⟨rfl, ?_⟩
    unfold isDirectory leadsTo at hd
    split at hd
    · rename_i entry hf
      cases entry with
      | directory => exact hf
      | file content => cases hd
    · cases hd
    · cases hd
  · cases h

theorem unlessDirectory_eq_error {error other : SystemError}
    (h : d.unlessDirectory cwd p mayExist error = .error other) : other = error := by
  unfold unlessDirectory at h
  split at h <;> cases h
  rfl

/-- How the creation of a directory can go, in terms of the directory that its path leads through
last. -/
inductive Making (d : Disk) (cwd : Location) (above p : Path) (mayExist : Bool) :
    Disk → Except SystemError Unit → Prop
  | created {e : Disk} (hc : d.create cwd p .directory = .ok e) :
      Making d cwd above p mayExist e (.ok ())
  | refused {error : SystemError} {result : Except SystemError Unit}
      (hc : d.create cwd p .directory = .error error)
      (hr : d.unlessDirectory cwd p mayExist error = result) :
      Making d cwd above p mayExist d result
  | stopped {made : Disk} {error : SystemError}
      (hc : d.create cwd p .directory = .error .noEntry)
      (hmade : d.makeDirectory cwd above true = (made, .error error)) :
      Making d cwd above p mayExist made (.error error)
  | createdIn {made e : Disk} (hc : d.create cwd p .directory = .error .noEntry)
      (hmade : d.makeDirectory cwd above true = (made, .ok ()))
      (hin : made.create cwd p .directory = .ok e) :
      Making d cwd above p mayExist e (.ok ())
  | lost {made : Disk} (hc : d.create cwd p .directory = .error .noEntry)
      (hmade : d.makeDirectory cwd above true = (made, .ok ())) :
      Making d cwd above p mayExist made (.error .noEntry)
  | refusedIn {made : Disk} {error : SystemError} {result : Except SystemError Unit}
      (hc : d.create cwd p .directory = .error .noEntry)
      (hmade : d.makeDirectory cwd above true = (made, .ok ()))
      (hin : made.create cwd p .directory = .error error)
      (hr : made.unlessDirectory cwd p mayExist error = result) :
      Making d cwd above p mayExist made result

theorem making_of_makeDirectory {anchor : Path.Anchor} {s : Path.Step}
    {result : Except SystemError Unit}
    (h : d.makeDirectory cwd ⟨anchor, steps ++ [s]⟩ mayExist = (e, result)) :
    d.Making cwd ⟨anchor, steps⟩ ⟨anchor, steps ++ [s]⟩ mayExist e result := by
  rw [makeDirectory_steps] at h
  split at h
  · rename_i hc
    cases h
    exact .created hc
  · rename_i hc
    split at h
    · rename_i hmade
      cases h
      exact .stopped hc hmade
    · rename_i hmade
      split at h
      · rename_i hin
        cases h
        exact .createdIn hc hmade hin
      · cases h
        exact .lost hc hmade
      · rename_i hin
        obtain ⟨rfl, hr⟩ := Prod.mk.inj h
        exact .refusedIn hc hmade hin hr
  · rename_i hc
    obtain ⟨rfl, hr⟩ := Prod.mk.inj h
    exact .refused hc hr

theorem find_of_makeDirectory_ok (h : d.makeDirectory cwd p mayExist = (e, .ok ())) :
    e.find cwd p = .ok .directory := by
  obtain ⟨anchor, steps⟩ := p
  rcases List.eq_nil_or_concat' steps with rfl | ⟨steps, s, rfl⟩
  · obtain ⟨rfl, hu⟩ := Prod.mk.inj h
    exact (unlessDirectory_eq_ok hu).2
  · cases making_of_makeDirectory h with
    | created hc => exact find_of_create hc
    | refused hc hr => exact (unlessDirectory_eq_ok hr).2
    | createdIn hc hmade hin => exact find_of_create hin
    | refusedIn hc hmade hin hr => exact (unlessDirectory_eq_ok hr).2

/-- Whatever comes of it, all that is new are directories on the way. -/
theorem lookup_makeDirectory {result : Except SystemError Unit}
    (h : d.makeDirectory cwd p mayExist = (e, result)) (place : Location) :
    e.lookup place = d.lookup place ∨
      place ∈ p.way cwd ∧ e.lookup place = some .directory := by
  obtain ⟨anchor, steps⟩ := p
  induction steps using List.reverseRecOn generalizing mayExist e result with
  | nil =>
    obtain ⟨rfl, -⟩ := Prod.mk.inj h
    exact .inl rfl
  | append_singleton steps s ih =>
    have hcreated {made after : Disk}
        (hc : made.create cwd ⟨anchor, steps ++ [s]⟩ .directory = .ok after) :
        after.lookup place = made.lookup place ∨
          place ∈ Path.way ⟨anchor, steps ++ [s]⟩ cwd ∧ after.lookup place = some .directory := by
      rw [(create_locate hc).2.1]
      by_cases hplace : place = Path.locate ⟨anchor, steps ++ [s]⟩ cwd
      · exact .inr ⟨Path.mem_way_concat.2 (.inr hplace), if_pos hplace⟩
      · exact .inl (if_neg hplace)
    have habove {made : Disk} {result : Except SystemError Unit}
        (hmade : d.makeDirectory cwd ⟨anchor, steps⟩ true = (made, result)) :
        made.lookup place = d.lookup place ∨
          place ∈ Path.way ⟨anchor, steps ++ [s]⟩ cwd ∧ made.lookup place = some .directory :=
      (ih hmade).imp_right (And.imp_left Path.mem_way_above)
    cases making_of_makeDirectory h with
    | created hc => exact hcreated hc
    | refused => exact .inl rfl
    | stopped hc hmade => exact habove hmade
    | createdIn hc hmade hin =>
      rcases hcreated hin with hsame | hnew
      · rw [hsame]
        exact habove hmade
      · exact .inr hnew
    | lost hc hmade => exact habove hmade
    | refusedIn hc hmade => exact habove hmade

theorem le_of_makeDirectory {result : Except SystemError Unit}
    (h : d.makeDirectory cwd p mayExist = (e, result)) : d ≤ e := by
  have hle := le_makeDirectory d cwd p mayExist
  rwa [h] at hle

theorem lookup_of_makeDirectory_way (h : d.makeDirectory cwd p mayExist = (e, .ok ()))
    (place : Location) : e.lookup place =
      (d.lookup place).or (if place ∈ p.way cwd then some .directory else none) := by
  by_cases hplace : place ∈ p.way cwd
  · obtain ⟨-, last, hf, hlast⟩ := find_eq_ok.1 (find_of_makeDirectory_ok h)
    have hd : e.lookup place = some .directory := directory_of_mem_way hf hlast place hplace
    rw [if_pos hplace, hd]
    cases hbefore : d.lookup place with
    | none => rfl
    | some entry => rw [← hd, lookup_mono (le_of_makeDirectory h) hbefore]; rfl
  · rw [if_neg hplace, Option.or_none]
    exact (lookup_makeDirectory h place).resolve_right fun hnew => hplace hnew.1

theorem create_of_makeDirectory (h : d.makeDirectory cwd p false = (e, .ok ())) :
    ∃ made, d ≤ made ∧ made.create cwd p .directory = .ok e := by
  obtain ⟨anchor, steps⟩ := p
  rcases List.eq_nil_or_concat' steps with rfl | ⟨steps, s, rfl⟩
  · obtain ⟨-, hu⟩ := Prod.mk.inj h
    cases (unlessDirectory_eq_ok hu).1
  · cases making_of_makeDirectory h with
    | created hc => exact ⟨d, le_rfl, hc⟩
    | refused hc hr => cases (unlessDirectory_eq_ok hr).1
    | createdIn hc hmade hin => exact ⟨_, le_of_makeDirectory hmade, hin⟩
    | refusedIn hc hmade hin hr => cases (unlessDirectory_eq_ok hr).1

theorem free_of_makeDirectory_way (h : d.makeDirectory cwd p false = (e, .ok ())) :
    d.lookup (p.locate cwd) = none ∧ p.locate cwd ∉ (startOf p cwd).way p.steps.dropLast := by
  obtain ⟨made, hle, hc⟩ := create_of_makeDirectory h
  obtain ⟨hfree, -, hway⟩ := create_locate hc
  refine ⟨missing_of_le hle hfree, ?_⟩
  intro hpassed
  rw [hway _ hpassed] at hfree
  cases hfree

theorem lookup_below_makeDirectory (h : d.makeDirectory cwd p false = (e, .ok ()))
    (hbelow : p.locate cwd <+: place) (hne : place ≠ p.locate cwd) : e.lookup place = none := by
  obtain ⟨made, -, hc⟩ := create_of_makeDirectory h
  obtain ⟨hfree, hl, -⟩ := create_locate hc
  rw [hl, if_neg hne]
  exact lookup_below hfree hbelow

/-- Each `..` of a path stands behind something that is there. -/
def Steady (d : Disk) (cwd : Location) (p : Path) : Prop :=
  ∀ before after, p.steps = before ++ .up :: after →
    d.follow (startOf p cwd) before ≠ .error .noEntry

theorem steady_of_notMem (h : .up ∉ p.steps) (d : Disk) (cwd : Location) : d.Steady cwd p := by
  intro before after hsteps
  exact absurd (hsteps ▸ List.mem_append_right before List.mem_cons_self) h

theorem Steady.above {anchor : Path.Anchor} {s : Path.Step}
    (h : d.Steady cwd ⟨anchor, steps ++ [s]⟩) : d.Steady cwd ⟨anchor, steps⟩ := by
  intro before after heq
  have hsteps : steps = before ++ .up :: after := heq
  refine h before (after ++ [s]) ?_
  rw [hsteps, List.append_assoc, List.cons_append]

/-- Where a path breaks off, nothing is at its end, and of the places on its way only the last ones
can be missing. -/
theorem Steady.missing (h : d.Steady cwd p)
    (hmissing : d.follow (startOf p cwd) p.steps = .error .noEntry) :
    d.lookup (p.locate cwd) = none ∧
      ∀ passed ∈ p.way cwd, d.lookup passed ≠ none ∨ passed <+: p.locate cwd := by
  obtain ⟨anchor, steps⟩ := p
  induction steps using List.reverseRecOn with
  | nil => cases hmissing
  | append_singleton steps s ih =>
    rw [Path.locate_concat]
    rw [follow_append] at hmissing
    rcases bind_eq_error.1 hmissing with hmissing | ⟨place, hf, hs⟩
    · obtain ⟨hnone, hway⟩ := ih h.above hmissing
      cases s with
      | up => exact absurd hmissing (h steps [] rfl)
      | into name =>
        have hprefix : Path.locate ⟨anchor, steps⟩ cwd <+:
            Path.locate ⟨anchor, steps⟩ cwd ++ [name] := List.prefix_append _ _
        refine ⟨lookup_below hnone hprefix, ?_⟩
        intro passed hpassed
        rcases Path.mem_way_concat.1 hpassed with hpassed | rfl
        · exact (hway passed hpassed).imp_right fun hp => hp.trans hprefix
        · rw [Path.locate_concat]
          exact .inr List.prefix_rfl
    · obtain rfl := follow_eq hf
      obtain ⟨hd, name, rfl, hnone⟩ := step_noEntry ((bind_eq_error.1 hs).resolve_right nofun)
      refine ⟨hnone, ?_⟩
      intro passed hpassed
      rcases Path.mem_way_concat.1 hpassed with hpassed | rfl
      · exact .inl (by simp [directory_of_mem_way hf hd passed hpassed])
      · rw [Path.locate_concat]
        exact .inr List.prefix_rfl

theorem missing_of_create {anchor : Path.Anchor} {s : Path.Step}
    (h : d.create cwd ⟨anchor, steps ++ [s]⟩ entry = .error .noEntry) :
    d.follow (startOf ⟨anchor, steps⟩ cwd) steps = .error .noEntry := by
  have hf := follow_of_create_noEntry h
  rwa [List.dropLast_concat] at hf

theorem Steady.free {anchor : Path.Anchor} {s : Path.Step}
    (h : d.Steady cwd ⟨anchor, steps ++ [s]⟩)
    (hmissing : d.follow (startOf ⟨anchor, steps⟩ cwd) steps = .error .noEntry)
    (hmade : d.makeDirectory cwd ⟨anchor, steps⟩ mayExist = (e, .ok ())) :
    e.lookup (Path.locate ⟨anchor, steps ++ [s]⟩ cwd) = none := by
  rw [Path.locate_concat]
  cases s with
  | up => exact absurd hmissing (h steps [] rfl)
  | into name =>
    obtain ⟨hnone, hway⟩ := h.above.missing hmissing
    have hfree := lookup_below hnone (List.prefix_append _ [name])
    have hnew : Path.locate ⟨anchor, steps⟩ cwd ++ [name] ∉ Path.way ⟨anchor, steps⟩ cwd := by
      intro hpassed
      rcases hway _ hpassed with hthere | hprefix
      · exact hthere hfree
      · exact absurd hprefix.length_le (by simp)
    rw [Location.step, lookup_of_makeDirectory_way hmade, hfree, if_neg hnew]
    rfl

/-- Where all is steady, nothing was created when a directory is found to be there already. -/
theorem Steady.eq_of_exists (h : d.Steady cwd p)
    (hmake : d.makeDirectory cwd p mayExist = (e, .error .exists)) : e = d := by
  obtain ⟨anchor, steps⟩ := p
  induction steps using List.reverseRecOn generalizing mayExist e with
  | nil => exact (congrArg Prod.fst hmake).symm
  | append_singleton steps s ih =>
    cases making_of_makeDirectory hmake with
    | refused => rfl
    | stopped hc hmade => exact ih h.above hmade
    | refusedIn hc hmade hin hr =>
      cases unlessDirectory_eq_error hr
      obtain ⟨entry, hfind⟩ := find_of_present (present_of_create hin)
      cases (h.free (missing_of_create hc) hmade).symm.trans (lookup_of_find_locate hfind)

/-- A directory is found to be there before anything is created, or else only afterwards. -/
theorem present_or_changed (hmake : d.makeDirectory cwd p mayExist = (e, .error .exists)) :
    d.present cwd p = .ok true ∨ p.steps = [] ∨ ¬ e ≤ d := by
  obtain ⟨anchor, steps⟩ := p
  induction steps using List.reverseRecOn generalizing mayExist e with
  | nil => exact .inr (.inl rfl)
  | append_singleton steps s ih =>
    cases making_of_makeDirectory hmake with
    | refused hc hr =>
      cases unlessDirectory_eq_error hr
      exact .inl (present_of_create hc)
    | stopped hc hmade =>
      have hmissing := missing_of_create hc
      rcases ih hmade with hthere | rfl | hchanged
      · obtain ⟨_, hfind⟩ := find_of_present hthere
        obtain ⟨-, _, hf, -⟩ := find_eq_ok.1 hfind
        cases hmissing.symm.trans hf
      · cases hmissing
      · exact .inr (.inr hchanged)
    | refusedIn hc hmade hin hr =>
      refine .inr (.inr fun hle => ?_)
      obtain ⟨-, _, hf, -⟩ := find_eq_ok.1 (find_of_makeDirectory_ok hmade)
      cases (missing_of_create hc).symm.trans (follow_mono hle hf)

theorem steady_of_present (h : d.present cwd p = .ok true) : d.Steady cwd p := by
  obtain ⟨entry, hfind⟩ := find_of_present h
  obtain ⟨-, place, hf, -⟩ := find_eq_ok.1 hfind
  intro before after hsteps hmissing
  rw [hsteps, follow_append, hmissing] at hf
  cases hf

end Disk

end Scaffold
