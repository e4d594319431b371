import Mathlib.Data.List.TakeDrop
import Scaffold.Proofs.Disk.Descent
import Scaffold.Proofs.Path.Spelling
import Scaffold.Project.Argument
import Scaffold.Scaffolder

namespace Scaffold

open Outcome

namespace Location

variable {here there other : Location}

/-- The names that two locations begin with, up to where they differ. -/
def shared : Location → Location → Location
  | [], _ => []
  | _ :: _, [] => []
  | a :: here, b :: there => if a = b then a :: shared here there else []

theorem prefix_shared_iff : other <+: shared here there ↔ other <+: here ∧ other <+: there := by
  fun_induction shared here there generalizing other with
  | case1 there =>
    rw [List.prefix_nil]
    exact (and_iff_left_of_imp fun h => h ▸ List.nil_prefix).symm
  | case2 a here =>
    rw [List.prefix_nil]
    exact (and_iff_right_of_imp fun h => h ▸ List.nil_prefix).symm
  | case3 a here there ih =>
    cases other with
    | nil => simp
    | cons b rest =>
      simp only [List.cons_prefix_cons, ih]
      tauto
  | case4 a here b there hne =>
    cases other with
    | nil => simp
    | cons c rest =>
      simp only [List.cons_prefix_cons, List.prefix_nil, reduceCtorEq, false_iff]
      rintro ⟨⟨rfl, -⟩, rfl, -⟩
      exact hne rfl

theorem route_eq (here there : Location) :
    route here there =
      Path.descend ⟨.relative, List.replicate (here.length - (shared here there).length) .up⟩
        (there.drop (shared here there).length) := by
  fun_induction shared here there with
  | case1 there => rfl
  | case2 a here =>
    rw [route, List.map_const']
    · rfl
    · nofun
  | case3 a here there ih =>
    rw [route, if_pos rfl, ih, List.length_cons, List.length_cons, Nat.add_sub_add_right,
      List.drop_succ_cons]
  | case4 a here b there hne =>
    rw [route, if_neg hne, List.map_const']
    rfl

theorem locate_ups (n : Nat) (location : Location) :
    Path.locate ⟨.relative, List.replicate n .up⟩ location =
      location.take (location.length - n) := by
  induction n generalizing location with
  | zero => exact (List.take_length).symm
  | succ n ih =>
    refine (ih location.dropLast).trans ?_
    rw [List.length_dropLast, List.dropLast_eq_take, List.take_take]
    congr 1
    omega

theorem locate_route (here there : Location) : (route here there).locate here = there := by
  obtain ⟨hhere, hthere⟩ := prefix_shared_iff.1 (List.prefix_refl (shared here there))
  rw [route_eq, Path.locate_descend, locate_ups, Nat.sub_sub_self hhere.length_le,
    ← List.prefix_iff_eq_take.1 hhere]
  exact (List.prefix_iff_eq_append.1 hthere)

theorem route_self (here : Location) : route here here = ⟨.relative, []⟩ := by
  induction here with
  | nil => rfl
  | cons a rest ih => rw [route, if_pos rfl, ih]

theorem route_eq_nil_iff : route here there = ⟨.relative, []⟩ ↔ here = there := by
  constructor
  · intro hempty
    have hlead := locate_route here there
    rwa [hempty] at hlead
  · rintro rfl
    exact route_self here

end Location

namespace Path

variable {p : Path} {cwd here there : Location} {name : Name}

theorem mem_locate (h : name ∈ p.locate cwd) : name ∈ cwd ∨ .into name ∈ p.steps := by
  obtain ⟨anchor, steps⟩ := p
  induction steps using List.reverseRecOn with
  | nil =>
    rw [locate, List.foldl_nil] at h
    split at h
    · cases h
    · exact .inl h
  | append_singleton steps s ih =>
    rw [locate_concat] at h
    have hbefore (h : name ∈ locate ⟨anchor, steps⟩ cwd) : name ∈ cwd ∨ .into name ∈ steps ++ [s] :=
      (ih h).imp_right (List.mem_append_left [s])
    cases s with
    | up => exact hbefore (List.dropLast_subset _ h)
    | into other =>
      rcases List.mem_append.1 h with h | h
      · exact hbefore h
      · rw [List.mem_singleton.1 h]
        exact .inr (List.mem_append_right steps List.mem_cons_self)

theorem locate_of_isAbsolute (h : p.isAbsolute = true) (cwd other : Location) :
    p.locate cwd = p.locate other := by
  rw [locate, locate, if_pos h, if_pos h]

theorem nul_notMem_toText_iff :
    '\x00' ∉ p.toText ↔ ∀ name, .into name ∈ p.steps → '\x00' ∉ name.val := by
  simp only [mem_toText (show '\x00' ≠ '/' by decide) (show '\x00' ≠ '.' by decide), not_exists,
    not_and]

end Path

namespace Disk

variable {p : Path} {cwd here there : Location}

theorem resolve_eq_ok :
    resolve p cwd = .ok there ↔ '\x00' ∉ p.toText ∧ p.locate cwd = there := by
  rw [resolve]
  split <;> simp [*]

theorem nul_notMem_of_resolve (h : resolve p [] = .ok there) :
    ∀ name ∈ there, '\x00' ∉ name.val := by
  obtain ⟨hnul, rfl⟩ := resolve_eq_ok.1 h
  intro name hname
  have hstep := (Path.mem_locate hname).resolve_left List.not_mem_nil
  exact Path.nul_notMem_toText_iff.1 hnul name hstep

theorem resolve_join_route (hhere : resolve p [] = .ok here)
    (hthere : ∀ name ∈ there, '\x00' ∉ name.val) :
    resolve (p.join (Location.route here there)) [] = .ok there := by
  obtain ⟨hnul, hlocate⟩ := resolve_eq_ok.1 hhere
  refine resolve_eq_ok.2 ⟨Path.nul_notMem_toText_iff.2 fun name hname => ?_, ?_⟩
  · rw [Location.route_eq, Path.join_descend, Path.join_of_relative p rfl] at hname
    rcases List.mem_append.1 hname with hup | hdown
    · rcases List.mem_append.1 hup with hname | hup
      · exact Path.nul_notMem_toText_iff.1 hnul name hname
      · cases List.eq_of_mem_replicate hup
    · obtain ⟨_, hmem, heq⟩ := List.mem_map.1 hdown
      cases heq
      exact hthere name (List.mem_of_mem_drop hmem)
  · rw [Path.locate_join, hlocate, Location.locate_route]

end Disk

namespace ProjectSpec

variable {argument : Text} {cwd : Path} {spec : ProjectSpec} {location : Location}

theorem ofArgument_eq_ok : ofArgument argument cwd = .ok spec ↔
    ∃ there, Disk.resolve (cwd.below argument) [] = .ok there ∧ ofLocation there = .ok spec := by
  rw [ofArgument, bind_eq_ok]
  simp only [mapError_eq_ok]

theorem ofLocation_eq_ok (h : ofLocation location = .ok spec) :
    spec.target = location.toPath ∧ ∃ above name, location = above ++ [name] := by
  rw [ofLocation] at h
  split at h
  · rename_i name hname
    cases h
    exact ⟨rfl, location.dropLast, name, (List.dropLast_append_getLast? name hname).symm⟩
  · cases h

end ProjectSpec

namespace Workspace

open ProjectSpec

variable {w : Workspace} {cwd : Path} {here there : Location}

/-- Seen from a directory that is given by its absolute path, a project is where the way leads from
one location to the other. -/
theorem placeFrom_eq (hcwd : cwd.isAbsolute = true) (hhere : Disk.resolve cwd [] = .ok here) :
    w.placeFrom there.toPath (some cwd) = Location.route here there := by
  rw [placeFrom, Location.locate_toPath, Path.locate_of_isAbsolute hcwd w.cwd [],
    (Disk.resolve_eq_ok.1 hhere).2]

/-- The place that is shown of a project, as seen from a directory, goes up from the directory to
where the ways to both part, then down by names only, and is `.` for the directory itself. Typed as
the argument in that directory, it means the project. -/
theorem placeFrom_leads_back (w : Workspace) {cwd : Path} {here : Location} {argument : Text}
    {spec : ProjectSpec} (hcwd : cwd.isAbsolute = true) (hhere : Disk.resolve cwd [] = .ok here)
    (hspec : ofArgument argument cwd = .ok spec) :
    ∃ there common : Location, spec.target = there.toPath ∧
      (∀ other, other <+: common ↔ other <+: here ∧ other <+: there) ∧
      let shown := (w.placeFrom spec.target (some cwd)).toText
      let ups := here.length - common.length
      let names := there.drop common.length
      Path.ofText shown = ⟨.relative, List.replicate ups .up ++ names.map .into⟩ ∧
      (shown = "." ↔ spec.target = here.toPath) ∧
      (shown ≠ "." →
        Text.cut (· = '/') shown = List.replicate ups ['.', '.'] ++ names.map Subtype.val) ∧
      ofArgument shown cwd = .ok spec := by
  obtain ⟨there, hthere, hlocation⟩ := ofArgument_eq_ok.1 hspec
  obtain ⟨htarget, -⟩ := ofLocation_eq_ok hlocation
  refine ⟨there, here.shared there, htarget, fun other => Location.prefix_shared_iff, ?_⟩
  rw [htarget, placeFrom_eq hcwd hhere]
  have hroute := Location.route_eq here there
  refine ⟨by rw [Path.ofText_toText, hroute]; rfl, ?_, fun hdot => ?_, ?_⟩
  · rw [Path.toText_eq_dot_iff, Location.route_eq_nil_iff, eq_comm,
      Location.toPath_injective.eq_iff]
  · rw [Path.cut_toText (by rw [hroute]; rfl) hdot, hroute, Path.descend, List.map_append,
      List.map_replicate, List.map_map]
    rfl
  · refine ofArgument_eq_ok.2 ⟨there, ?_, hlocation⟩
    rw [Path.below, Path.ofText_toText]
    exact Disk.resolve_join_route hhere (Disk.nul_notMem_of_resolve hthere)

theorem placeFrom_leads_back_work :
    let w : Workspace := ⟨.empty, [], .memory {}⟩
    let cwd : Path := .ofText "/home//me/x/../y"
    let spec : ProjectSpec := ⟨"blog", .ofText "/home/work/blog", by decide⟩
    cwd.isAbsolute = true ∧
    Disk.resolve cwd [] =
      .ok [⟨"home", by decide⟩, ⟨"me", by decide⟩, ⟨"y", by decide⟩] ∧
    ofArgument "../../work/./blog/" cwd = .ok spec ∧
    (w.placeFrom spec.target (some cwd)).toText = "../../work/blog" ∧
    ofArgument "../../work/blog" cwd = .ok spec := by
  intro w cwd spec
  have hhere : Disk.resolve cwd [] =
      .ok [⟨"home", by decide⟩, ⟨"me", by decide⟩, ⟨"y", by decide⟩] := by decide
  have hspec : ofArgument "../../work/./blog/" cwd = .ok spec := rfl
  have hshown : (w.placeFrom spec.target (some cwd)).toText = "../../work/blog" := by decide
  obtain ⟨_, _, -, -, -, -, -, hback⟩ := placeFrom_leads_back w rfl hhere hspec
  exact ⟨rfl, hhere, hspec, hshown, hshown ▸ hback⟩

end Workspace

end Scaffold
