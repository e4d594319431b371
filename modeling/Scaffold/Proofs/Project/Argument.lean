import Scaffold.Proofs.Project.Location

namespace Scaffold

open Outcome

namespace Location

variable {location : Location}

theorem cut_toText_toPath (hne : location ≠ []) :
    Text.cut (· = '/') location.toPath.toText = [] :: location.map Subtype.val := by
  have hnames : ∀ t ∈ location.map Subtype.val, '/' ∉ t := by
    intro t ht
    obtain ⟨name, -, rfl⟩ := List.mem_map.1 ht
    exact name.property.2.1
  rw [toText_toPath]
  apply (Text.cut_char_append List.not_mem_nil _).trans
  rw [Text.cut_join (mt List.map_eq_nil_iff.1 hne) hnames]

theorem isName_of_mem_map {t : Text} (h : t ∈ location.map Subtype.val) : IsName t := by
  obtain ⟨name, -, rfl⟩ := List.mem_map.1 h
  exact name.property

end Location

namespace Path

variable {p q : Path}

theorem nul_notMem_join_iff (hp : '\x00' ∉ p.toText) :
    '\x00' ∉ (p.join q).toText ↔ '\x00' ∉ q.toText := by
  cases hq : q.isAbsolute with
  | true => rw [join_of_absolute p hq]
  | false =>
    rw [join_of_relative p hq, nul_notMem_toText_iff, nul_notMem_toText_iff]
    constructor
    · intro h name hname
      exact h name (List.mem_append_right p.steps hname)
    · intro h name hname
      rcases List.mem_append.1 hname with hname | hname
      · exact nul_notMem_toText_iff.1 hp name hname
      · exact h name hname

end Path

namespace Disk

variable {p : Path} {there : Location}

theorem resolve_eq_error {e : SystemError} :
    resolve p [] = .error e ↔ '\x00' ∈ p.toText ∧ e = .nulCharacter := by
  rw [resolve]
  split
  · rename_i hnul
    exact ⟨fun h => ⟨hnul, (Except.error.inj h).symm⟩, fun h => h.2 ▸ rfl⟩
  · rename_i hnul
    constructor
    · intro h
      cases h
    · exact fun h => absurd h.1 hnul

theorem nul_notMem_toPath (h : resolve p [] = .ok there) : '\x00' ∉ there.toPath.toText := by
  apply Path.nul_notMem_toText_iff.2
  intro name hname
  obtain ⟨other, hother, heq⟩ := List.mem_map.1 hname
  cases heq
  exact nul_notMem_of_resolve h name hother

theorem resolve_toPath (h : resolve p [] = .ok there) : resolve there.toPath [] = .ok there :=
  resolve_eq_ok.2 ⟨nul_notMem_toPath h, there.locate_toPath []⟩

theorem resolve_join (h : resolve p [] = .ok there) (q : Path) :
    resolve (p.join q) [] = resolve (there.toPath.join q) [] := by
  obtain ⟨hnul, hlocate⟩ := resolve_eq_ok.1 h
  have hsame : '\x00' ∈ (p.join q).toText ↔ '\x00' ∈ (there.toPath.join q).toText := by
    apply not_iff_not.1
    rw [Path.nul_notMem_join_iff hnul, Path.nul_notMem_join_iff (nul_notMem_toPath h)]
  rw [resolve, resolve, Path.locate_join, Path.locate_join, hlocate, there.locate_toPath]
  simp only [hsame]

end Disk

namespace ProjectSpec

variable {argument : Text} {cwd : Path} {there : Location} {spec : ProjectSpec}

theorem ofArgument_eq_nul_iff : ofArgument argument cwd = .error (.system .nulCharacter) ↔
    '\x00' ∈ (cwd.below argument).toText := by
  rw [ofArgument, bind_eq_error, mapError_eq_error]
  constructor
  · rintro (⟨e, he, -⟩ | ⟨location, -, h⟩)
    · exact (Disk.resolve_eq_error.1 he).1
    · obtain ⟨problems, -, h⟩ := mapError_eq_error.1 h
      cases h
  · intro hnul
    exact .inl ⟨.nulCharacter, Disk.resolve_eq_error.2 ⟨hnul, rfl⟩, rfl⟩

theorem ofLocation_eq_error_iff {problems : List Validation.Problem} :
    ofLocation there = .error problems ↔
      there = [] ∧ problems = [⟨"project_name", .empty⟩] := by
  rw [ofLocation]
  split
  · rename_i name hname
    constructor
    · intro h
      cases h
    · rintro ⟨rfl, -⟩
      cases hname
  · rename_i hnone
    exact ⟨fun h => ⟨List.getLast?_eq_none_iff.1 hnone, (Except.error.inj h).symm⟩,
      fun h => h.2 ▸ rfl⟩

theorem ofLocation_of_ne (hne : there ≠ []) : ∃ spec, ofLocation there = .ok spec := by
  obtain ⟨above, name, rfl⟩ := (List.eq_nil_or_concat' there).resolve_left hne
  refine ⟨⟨name.val, Location.toPath (above ++ [name]), name.property.1⟩, ?_⟩
  rw [ofLocation, List.getLast?_concat]

/-- Only at the root is there anything wrong with a project, and it is the name. -/
theorem ofArgument_eq_invalid_iff {problems : List Validation.Problem} :
    ofArgument argument cwd = .error (.invalid problems) ↔
      Disk.resolve (cwd.below argument) [] = .ok [] ∧
        problems = [⟨"project_name", .empty⟩] := by
  rw [ofArgument, bind_eq_error, mapError_eq_error]
  constructor
  · rintro (⟨e, -, he⟩ | ⟨location, hlocation, h⟩)
    · cases he
    · obtain ⟨others, hothers, heq⟩ := mapError_eq_error.1 h
      cases heq
      obtain ⟨rfl, hproblems⟩ := ofLocation_eq_error_iff.1 hothers
      exact ⟨mapError_eq_ok.1 hlocation, hproblems⟩
  · rintro ⟨hroot, rfl⟩
    exact .inr ⟨[], mapError_eq_ok.2 hroot, rfl⟩

theorem ofArgument_target (h : ofArgument argument cwd = .ok spec) (other : Path) :
    ofArgument spec.target.toText other = .ok spec := by
  obtain ⟨there, hthere, hlocation⟩ := ofArgument_eq_ok.1 h
  obtain ⟨htarget, -⟩ := ofLocation_eq_ok hlocation
  refine ofArgument_eq_ok.2 ⟨there, ?_, hlocation⟩
  rw [htarget, Path.below, Path.ofText_toText, Path.join_toPath]
  exact Disk.resolve_toPath hthere

theorem components_of_ofArgument (h : ofArgument argument cwd = .ok spec) :
    ∃ names, Text.cut (· = '/') spec.target.toText = [] :: names ∧ (∀ t ∈ names, IsName t) ∧
      names.getLast? = some spec.name := by
  obtain ⟨there, -, hlocation⟩ := ofArgument_eq_ok.1 h
  obtain ⟨htarget, above, name, rfl⟩ := ofLocation_eq_ok hlocation
  have hname : spec.name = name.val := by
    rw [ofLocation, List.getLast?_concat] at hlocation
    cases hlocation
    rfl
  refine ⟨(above ++ [name]).map Subtype.val, ?_, fun t ht => Location.isName_of_mem_map ht, ?_⟩
  · rw [htarget]
    exact Location.cut_toText_toPath (List.append_ne_nil_of_right_ne_nil _ (List.cons_ne_nil _ _))
  · rw [List.map_append, hname]
    exact List.getLast?_concat

/-- A text behind an argument means what it means in the directory that the argument leads to. -/
theorem ofArgument_below (h : Disk.resolve (cwd.below argument) [] = .ok there) (rest : Text) :
    ofArgument ((Path.ofText argument).below rest).toText cwd = ofArgument rest there.toPath := by
  have hjoin : cwd.below ((Path.ofText argument).below rest).toText =
      (cwd.below argument).join (.ofText rest) := by
    rw [Path.below, Path.ofText_toText]
    exact (Path.join_assoc cwd (.ofText argument) (.ofText rest)).symm
  rw [ofArgument, ofArgument, hjoin, Disk.resolve_join h]
  rfl

/--
An argument without the character with code zero means a project, unless it leads to the root. The
project's target is an absolute path of names without `.` and `..`, the last of which is the
project's name, and it means the same project in every directory. A text behind an argument is
taken as seen from where the argument leads.
-/
theorem ofArgument_normalises (argument : Text) (cwd : Path) :
    (ofArgument argument cwd = .error (.system .nulCharacter) ↔
      '\x00' ∈ (cwd.below argument).toText) ∧
    ((∃ problems, ofArgument argument cwd = .error (.invalid problems)) ↔
      Disk.resolve (cwd.below argument) [] = .ok []) ∧
    ('\x00' ∉ (cwd.below argument).toText → ∃ there,
      Disk.resolve (cwd.below argument) [] = .ok there ∧
      (there ≠ [] → ∃ spec names, ofArgument argument cwd = .ok spec ∧
        Text.cut (· = '/') spec.target.toText = [] :: names ∧ (∀ t ∈ names, IsName t) ∧
        names.getLast? = some spec.name ∧
        ∀ other, ofArgument spec.target.toText other = .ok spec) ∧
      ∀ rest, ofArgument ((Path.ofText argument).below rest).toText cwd =
        ofArgument rest there.toPath) := by
  refine ⟨ofArgument_eq_nul_iff, ?_, ?_⟩
  · simp only [ofArgument_eq_invalid_iff, exists_and_left, exists_eq, and_true]
  · intro hnul
    have hthere : Disk.resolve (cwd.below argument) [] = .ok _ :=
      Disk.resolve_eq_ok.2 ⟨hnul, rfl⟩
    refine ⟨_, hthere, ?_, ofArgument_below hthere⟩
    intro hne
    obtain ⟨spec, hlocation⟩ := ofLocation_of_ne hne
    have hspec := ofArgument_eq_ok.2 ⟨_, hthere, hlocation⟩
    obtain ⟨names, hcut, hall, hlast⟩ := components_of_ofArgument hspec
    exact ⟨spec, names, hspec, hcut, hall, hlast, ofArgument_target hspec⟩

theorem ofArgument_normalises_blog :
    let cwd : Path := .ofText "//home/me/.//x"
    let spec : ProjectSpec := ⟨"blog", .ofText "/home/work/blog", by decide⟩
    '\x00' ∉ (cwd.below "../../work//./").toText ∧
    Disk.resolve (cwd.below "../../work//./") [] =
      .ok [⟨"home", by decide⟩, ⟨"work", by decide⟩] ∧
    ofArgument "../../work/blog" cwd = .ok spec ∧
    ofArgument "blog" (.ofText "/home/work") = .ok spec ∧
    ∀ other, ofArgument "/home/work/blog" other = .ok spec := by
  intro cwd spec
  have hnul : '\x00' ∉ (cwd.below "../../work//./").toText := by decide
  have hresolve : Disk.resolve (cwd.below "../../work//./") [] =
      .ok [⟨"home", by decide⟩, ⟨"work", by decide⟩] := by decide
  obtain ⟨there, hthere, -, hrest⟩ := (ofArgument_normalises "../../work//./" cwd).2.2 hnul
  cases hresolve.symm.trans hthere
  have hblog : ofArgument "../../work/blog" cwd = .ok spec := hrest "blog"
  obtain ⟨-, -, hmore⟩ := ofArgument_normalises "../../work/blog" cwd
  obtain ⟨_, hplace, hspec, -⟩ := hmore (by decide)
  have hne : Disk.resolve (cwd.below "../../work/blog") [] ≠ .ok [] := by decide
  obtain ⟨_, _, hother, -, -, -, hback⟩ := hspec fun hnil => hne (hnil ▸ hplace)
  cases hblog.symm.trans hother
  exact ⟨hnul, hresolve, hblog, rfl, hback⟩

/-- No project is made from an argument with the character with code zero, wherever it leads. -/
theorem ofArgument_refuses_nul :
    let cwd : Path := .ofText "/work"
    cwd.isAbsolute = true ∧ (cwd.below "a\x00b").locate [] ≠ [] ∧
      ¬ ∃ spec, ofArgument "a\x00b" cwd = .ok spec := by
  intro cwd
  refine ⟨rfl, by decide, ?_⟩
  rintro ⟨spec, h⟩
  have hnul : ofArgument "a\x00b" cwd = .error (.system .nulCharacter) := rfl
  rw [hnul] at h
  cases h

end ProjectSpec

end Scaffold
