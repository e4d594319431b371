import Mathlib.Data.List.Basic
import Scaffold.App.Name
import Scaffold.Path.Location
import Scaffold.Proofs.Text.Basic

namespace Scaffold

namespace Location

variable {location : Location} {names : List Name}

theorem toText_toPath (location : Location) :
    location.toPath.toText = '/' :: Text.join ['/'] (location.map Subtype.val) := by
  rw [Path.toText]
  rw [if_neg (by simp [toPath])]
  simp only [toPath, List.map_map]
  rfl

theorem toText_concat (hne : location ≠ []) (name : Name) :
    (toPath (location ++ [name])).toText = location.toPath.toText ++ '/' :: name.val := by
  rw [toText_toPath, toText_toPath, List.map_append, List.map_singleton,
    Text.join_concat (mt List.map_eq_nil_iff.1 hne)]
  rfl

theorem exists_toText_concat (location : Location) (name : Name) :
    ∃ before, (toPath (location ++ [name])).toText = before ++ '/' :: name.val := by
  by_cases hnil : location = []
  · subst hnil
    exact ⟨[], toText_toPath [name]⟩
  · exact ⟨_, toText_concat hnil name⟩

theorem toPath_injective : Function.Injective toPath := by
  intro location other h
  have hsteps : location.map Path.Step.into = other.map Path.Step.into := congrArg Path.steps h
  exact (List.map_injective_iff.2 fun _ _ => Path.Step.into.inj) hsteps

end Location

namespace Path

/-- An absolute path is the same from everywhere. -/
@[simp] theorem join_toPath (p : Path) (location : Location) :
    p.join location.toPath = location.toPath :=
  rfl

theorem join_of_absolute (p : Path) {q : Path} (h : q.isAbsolute = true) : p.join q = q :=
  if_pos h

theorem join_of_relative (p : Path) {q : Path} (h : q.isAbsolute = false) :
    p.join q = ⟨p.anchor, p.steps ++ q.steps⟩ :=
  if_neg (by simp [h])

theorem join_assoc (p q r : Path) : (p.join q).join r = p.join (q.join r) := by
  cases hr : r.isAbsolute with
  | true =>
    rw [join_of_absolute _ hr, join_of_absolute q hr, join_of_absolute p hr]
  | false =>
    rw [join_of_relative _ hr, join_of_relative q hr]
    cases hq : q.isAbsolute with
    | true =>
      have hqr : isAbsolute ⟨q.anchor, q.steps ++ r.steps⟩ = true := hq
      rw [join_of_absolute p hq, join_of_absolute p hqr]
    | false =>
      have hqr : isAbsolute ⟨q.anchor, q.steps ++ r.steps⟩ = false := hq
      rw [join_of_relative p hq, join_of_relative p hqr, List.append_assoc]

/-- A path that begins with another one goes on in the same place. -/
theorem below_join (p q : Path) (t : Text) : (p.join q).below t = p.join (q.below t) :=
  join_assoc p q (ofText t)

theorem below_toPath {t : Text} {names : List Name} (h : ofText t = ⟨.relative, names.map .into⟩)
    (location : Location) : location.toPath.below t = Location.toPath (location ++ names) := by
  rw [below]
  rw [h]
  simp [join, isAbsolute, Location.toPath]

theorem anchorOf_of_not_mem {t : Text} (h : '/' ∉ t) : anchorOf t = .relative := by
  cases t with
  | nil => rfl
  | cons c rest =>
    have hc : c ≠ '/' := fun hc => h (by simp [hc])
    unfold anchorOf
    split <;> simp_all

end Path

theorem isName_manifest : IsName "package.json" := by
  decide

theorem Path.ofText_name (name : Name) : Path.ofText name.val = ⟨.relative, [.into name]⟩ := by
  obtain ⟨t, hne, hslash, hdot, hdots⟩ := name
  have hcut : Text.cut (· = '/') t = [t] := Text.cut_char_of_notMem hslash
  rw [ofText]
  rw [anchorOf_of_not_mem hslash, hcut]
  simp only [List.filterMap_cons, Step.ofText?, if_neg hdots, List.filterMap_nil,
    dif_pos (show IsName t from ⟨hne, hslash, hdot, hdots⟩)]

theorem Path.below_name (location : Location) (name : Name) :
    location.toPath.below name.val = Location.toPath (location ++ [name]) :=
  @below_toPath _ [name] (ofText_name name) location

theorem AppName.check_eq_ok {t : Text} (h : AppName.check t = .ok ()) :
    t.blank = false ∧ IsName t ∧ '\\' ∉ t := by
  have hne := AppName.ne_nil_of_check h
  rw [AppName.check] at h
  split at h
  · cases h
  · rename_i hblank
    split at h
    · cases h
    · rename_i hsingle
      simp only [not_or] at hsingle
      obtain ⟨hdot, hdots, hslash, hback⟩ := hsingle
      exact ⟨by simpa using hblank, ⟨hne, hslash, hdot, hdots⟩, hback⟩

end Scaffold
