import Scaffold.Proofs.Disk.Place
import Scaffold.Proofs.Plan.Layout
import Scaffold.Proofs.Store.Growth

namespace Scaffold

open Outcome

namespace Text

theorem join_append_right (separator : Text) (ts us : List Text) :
    join separator us <:+ join separator (ts ++ us) := by
  induction ts with
  | nil => exact List.suffix_rfl
  | cons t rest ih =>
    cases hrest : rest ++ us with
    | nil =>
      obtain ⟨rfl, rfl⟩ := List.append_eq_nil_iff.1 hrest
      exact List.nil_suffix
    | cons u more =>
      rw [hrest] at ih
      rw [List.cons_append, hrest, join_cons _ (List.cons_ne_nil u more)]
      exact ih.trans (List.suffix_append _ _)

end Text

namespace Disk

variable {d : Disk} {cwd : Location} {p : Path} {entry : Entry}

theorem checkPath_of_join (hp : p.isAbsolute = false) (h : checkPath (cwd.toPath.join p) = .ok ()) :
    checkPath p = .ok () := by
  by_cases hsteps : p.steps = []
  · obtain ⟨anchor, steps⟩ := p
    cases hsteps
    cases anchor with
    | relative => decide
    | root | doubleRoot => cases hp
  · have htext : p.toText <:+ (cwd.toPath.join p).toText := by
      obtain ⟨anchor, steps⟩ := p
      cases anchor with
      | relative =>
        rw [Path.join_of_relative _ hp, Path.toText, Path.toText, if_neg (by simpa using hsteps),
          if_neg (by simp [Location.toPath]), List.map_append]
        exact (Text.join_append_right _ _ _).trans (List.suffix_append _ _)
      | root | doubleRoot => cases hp
    obtain ⟨hnul, hlength⟩ := checkPath_eq_ok.1 h
    obtain ⟨before, hbefore⟩ := htext
    rw [← hbefore] at hnul hlength
    rw [byteCount_append] at hlength
    exact checkPath_eq_ok.2 ⟨fun hmem => hnul (List.mem_append_right _ hmem),
      Nat.le_trans (Nat.le_add_left _ _) hlength⟩

theorem find_of_join (h : d.find cwd (cwd.toPath.join p) = .ok entry) :
    d.find cwd p = .ok entry := by
  cases hp : p.isAbsolute with
  | true => rwa [Path.join_of_absolute _ hp] at h
  | false =>
    obtain ⟨hc, place, hf, hl⟩ := find_eq_ok.1 h
    refine find_eq_ok.2 ⟨checkPath_of_join hp hc, place, ?_, hl⟩
    rw [Path.join_of_relative _ hp] at hf
    change d.follow [] (cwd.map .into ++ p.steps) = .ok place at hf
    rw [follow_append] at hf
    obtain ⟨start, hstart, hf⟩ := bind_eq_ok.1 hf
    cases follow_names_eq_ok hstart
    rw [startOf, hp]
    exact hf

end Disk

namespace Workspace

open Plan

variable {w v : Workspace} {base : Path} {x : Write} {plan : Plan} {config : Config}
  {spec : ProjectSpec} {report : Report} {seenFrom : Option Path}

theorem store_of_le (hs : w.store = .disk base) (hle : w ≤ v) : v.store = .disk base := by
  have hstore := hle.store
  rw [hs] at hstore
  cases hv : v.store with
  | memory m =>
    rw [hv] at hstore
    exact hstore.elim
  | disk other =>
    rw [hv] at hstore
    cases hstore
    rfl

theorem le_of_newProject {result : Except Failure Report}
    (h : w.newProject config spec seenFrom = (v, result)) : w ≤ v := by
  have hle := w.le_newProject config spec seenFrom
  rwa [h] at hle

theorem le_of_apply {result : Except Failure Report} (h : w.apply plan = (v, result)) : w ≤ v := by
  have hle := w.le_apply plan
  rwa [h] at hle

theorem le_of_newAppFromTokens {name : Text} {tokens : List RawText} {project : Path}
    {result : Except Failure Report}
    (h : w.newAppFromTokens config name tokens project = (v, result)) : w ≤ v := by
  have hle := w.le_newAppFromTokens config name tokens project
  rwa [h] at hle

theorem find_of_perform (hs : w.store = .disk base) (h : w.perform x = (v, .ok ())) :
    v.disk.find w.cwd (base.join x.path) = .ok x.entry := by
  rw [perform] at h
  rw [hs] at h
  cases x with
  | directory p =>
    simp only [Prod.mk.injEq, mapError_eq_ok] at h
    obtain ⟨rfl, h⟩ := h
    exact Disk.find_of_makeDirectory (Prod.ext rfl h)
  | file p content =>
    simp only at h
    split at h
    · rename_i hc
      cases h
      exact Disk.find_of_create hc
    · cases h

theorem find_of_performAll {xs : List Write} (hs : w.store = .disk base)
    (h : w.performAll xs = (v, .ok ())) :
    ∀ x ∈ xs, v.disk.find w.cwd (base.join x.path) = .ok x.entry := by
  induction xs generalizing w with
  | nil => exact nofun
  | cons x rest ih =>
    obtain ⟨u, hx, hrun⟩ := performAll_cons_eq_ok.1 h
    have hle := w.le_perform x
    rw [hx] at hle
    have hrest := u.le_performAll rest
    rw [hrun] at hrest
    refine List.forall_mem_cons.2 ⟨Disk.find_mono hrest.disk (find_of_perform hs hx), ?_⟩
    rw [← hle.cwd]
    exact ih (store_of_le hs hle) hrun

theorem find_of_apply (hs : w.store = .disk base) (h : w.apply plan = (v, .ok report)) :
    ∀ x ∈ plan.writes, v.disk.find w.cwd (base.join x.path) = .ok x.entry := by
  rw [apply] at h
  split at h
  · cases h
  · cases h
  · split at h
    · rename_i hall
      cases h
      exact find_of_performAll hs hall
    · cases h

theorem find_of_applyWithMessage {plan : Except Template.RenderError Plan}
    {message : Except Template.RenderError Text} (hs : w.store = .disk base)
    (h : w.applyWithMessage plan message = (v, .ok report)) :
    ∃ planned, plan = .ok planned ∧
      ∀ x ∈ planned.writes, v.disk.find w.cwd (base.join x.path) = .ok x.entry := by
  unfold applyWithMessage at h
  split at h
  · cases h
  · rename_i planned
    split at h
    · cases h
    · rename_i done heq
      cases message with
      | error e => cases h
      | ok message =>
        cases h
        exact ⟨planned, rfl, find_of_apply hs heq⟩

/-- Every file of a plan is found below the root after the plan was carried out. -/
theorem find_file (hfound : ∀ x ∈ plan.writes, v.disk.find w.cwd (base.join x.path) = .ok x.entry)
    {file : PlannedFile} (hfile : file ∈ plan.files) :
    v.disk.find w.cwd ((base.join plan.root).below file.path) =
      .ok (.file (Disk.encode file.content)) := by
  rw [Path.below_join]
  apply hfound (.file (plan.root.below file.path) file.content)
  exact List.mem_append_right _ (List.mem_map_of_mem hfile)

end Workspace

end Scaffold
