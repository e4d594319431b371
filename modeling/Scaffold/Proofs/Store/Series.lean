import Scaffold.Proofs.Disk.Vacant
import Scaffold.Proofs.Store.Presence

namespace Scaffold

open Outcome Disk

theorem Disk.Spread.append {d e f : Disk} {places more : List Location} (hd : Spread places d e)
    (he : Spread more e f) : Spread (places ++ more) d f := by
  constructor
  intro place
  rw [he.lookup, hd.lookup, Option.or_assoc]
  congr 1
  by_cases hplace : place ∈ places
  · simp [hplace]
  · simp [hplace]

namespace Workspace

open Plan

variable {w v : Workspace} {base p root : Path} {x : Write} {xs : List Write} {ps : List Path}

theorem perform_directory_eq_ok (hs : w.store = .disk base) :
    w.perform (.directory p) = (v, .ok ()) ↔
      ∃ e, w.disk.makeDirectory w.cwd (base.join p) false = (e, .ok ()) ∧
        v = { w with disk := e } := by
  rw [perform_directory hs]
  constructor
  · intro h
    obtain ⟨rfl, hmake⟩ := Prod.mk.inj h
    exact ⟨_, Prod.ext rfl (mapError_eq_ok.1 hmake), rfl⟩
  · rintro ⟨e, hmake, rfl⟩
    rw [hmake]
    rfl

theorem create_of_perform (hs : w.store = .disk base) (h : w.perform x = (v, .ok ())) :
    ∃ made, w.disk ≤ made ∧ made.create w.cwd (base.join x.path) x.entry = .ok v.disk := by
  cases x with
  | directory p =>
    obtain ⟨e, hmake, rfl⟩ := (perform_directory_eq_ok hs).1 h
    exact create_of_makeDirectory hmake
  | file p content =>
    rw [perform_file hs] at h
    split at h
    · rename_i hcreate
      cases h
      exact ⟨w.disk, le_rfl, hcreate⟩
    · cases h

theorem takes_of_performAll (hs : w.store = .disk base) (h : w.performAll xs = (v, .ok ())) :
    ∀ x ∈ xs, Takes (base.join x.path) ∧
      w.disk.lookup ((base.join x.path).locate w.cwd) = none := by
  induction xs generalizing w with
  | nil => exact List.forall_mem_nil _
  | cons x rest ih =>
    obtain ⟨u, hx, hrest⟩ := performAll_cons_eq_ok.1 h
    have hle := w.le_perform x
    rw [hx] at hle
    refine List.forall_mem_cons.2 ⟨?_, ?_⟩
    · obtain ⟨made, hmade, hcreate⟩ := create_of_perform hs hx
      exact ⟨takes_of_create hcreate, missing_of_le hmade (create_locate hcreate).1⟩
    · intro y hy
      obtain ⟨htakes, hnone⟩ := ih (store_of_le hs hle) hrest y hy
      rw [hle.cwd] at hnone
      exact ⟨htakes, missing_of_le hle.disk hnone⟩

/-- Directories are created one after the other just if all paths are vacant to begin with and none
leads through the place of a later one. -/
theorem performAll_directories_iff (hs : w.store = .disk base)
    (hcwd : w.disk.lookup w.cwd = some .directory) :
    (∃ v, w.performAll (ps.map .directory) = (v, .ok ())) ↔
      (∀ p ∈ ps.map base.join, w.disk.Vacant w.cwd p) ∧
        (ps.map base.join).Pairwise fun p q => q.locate w.cwd ∉ p.way w.cwd := by
  induction ps generalizing w with
  | nil => exact ⟨fun _ => ⟨List.forall_mem_nil _, .nil⟩, fun _ => ⟨w, rfl⟩⟩
  | cons p rest ih =>
    rw [List.map_cons (f := base.join), List.forall_mem_cons, List.pairwise_cons]
    -- The rest is judged on the disk on which the first directory was created.
    have hrest {e : Disk} (hmake : w.disk.makeDirectory w.cwd (base.join p) false = (e, .ok ())) :
        (∃ v, ({ w with disk := e } : Workspace).performAll (rest.map .directory) = (v, .ok ())) ↔
          (∀ q ∈ rest.map base.join, w.disk.Vacant w.cwd q ∧
            q.locate w.cwd ∉ (base.join p).way w.cwd) ∧
          (rest.map base.join).Pairwise fun p q => q.locate w.cwd ∉ p.way w.cwd := by
      have hcwd' : e.lookup w.cwd = some .directory := lookup_mono (le_of_makeDirectory hmake) hcwd
      rw [@ih { w with disk := e } hs hcwd']
      simp only [(spread_of_makeDirectory hmake).vacant_iff]
    constructor
    · rintro ⟨v, h⟩
      obtain ⟨u, hp, h⟩ := performAll_cons_eq_ok.1 h
      obtain ⟨e, hmake, rfl⟩ := (perform_directory_eq_ok hs).1 hp
      obtain ⟨hvacant, hpairwise⟩ := (hrest hmake).1 ⟨v, h⟩
      exact ⟨⟨vacant_of_makeDirectory hmake, fun q hq => (hvacant q hq).1⟩,
        fun q hq => (hvacant q hq).2, hpairwise⟩
    · rintro ⟨⟨hp, hvacant⟩, hway, hpairwise⟩
      obtain ⟨e, hmake⟩ := hp.makeDirectory (startOf_directory hcwd _)
      obtain ⟨v, h⟩ := (hrest hmake).2 ⟨fun q hq => ⟨hvacant q hq, hway q hq⟩, hpairwise⟩
      exact ⟨v, performAll_cons_eq_ok.2 ⟨_, (perform_directory_eq_ok hs).2 ⟨e, hmake, rfl⟩, h⟩⟩

theorem spread_of_performAll (hs : w.store = .disk base)
    (h : w.performAll (ps.map .directory) = (v, .ok ())) :
    Spread ((ps.map base.join).flatMap (·.way w.cwd)) w.disk v.disk := by
  induction ps generalizing w with
  | nil =>
    cases h
    exact ⟨fun place => by simp⟩
  | cons p rest ih =>
    obtain ⟨u, hp, hrest⟩ := performAll_cons_eq_ok.1 h
    obtain ⟨e, hmake, rfl⟩ := (perform_directory_eq_ok hs).1 hp
    rw [List.map_cons, List.flatMap_cons]
    exact (spread_of_makeDirectory hmake).append (@ih { w with disk := e } hs hrest)

theorem free_after_directories (hs : w.store = .disk base)
    (h : w.performAll (ps.map .directory) = (v, .ok ())) {place : Location} :
    v.disk.lookup place = none ↔
      w.disk.lookup place = none ∧ ∀ p ∈ ps.map base.join, place ∉ p.way w.cwd := by
  rw [(spread_of_performAll hs h).lookup]
  cases w.disk.lookup place with
  | none => simp
  | some entry => simp

theorem fits_in_directory {d : Disk} {location : Location} {files : List (Name × Text)}
    (hd : d.lookup location = some .directory) (hnodup : (files.map Prod.fst).Nodup)
    (hfree : ∀ file ∈ files, d.lookup (location ++ [file.1]) = none) :
    Fits d.lookup (files.map fun file => (location ++ [file.1], .file (encode file.2))) := by
  have hplaced := @fits_files d.lookup
    (files.map fun file => (location ++ [file.1], encode file.2)) ?_ ?_
  · rwa [List.map_map] at hplaced
  · have hinjective : Function.Injective fun name : Name => location ++ [name] := by
      intro name other h
      simpa using h
    have hplaces := hnodup.map hinjective
    rw [List.map_map] at hplaces ⊢
    exact hplaces
  · intro placed hmem
    obtain ⟨file, hfile, rfl⟩ := List.mem_map.1 hmem
    refine ⟨List.concat_ne_nil _ _, hfree file hfile, ?_⟩
    rwa [List.dropLast_concat]

/-- Files are put into a directory just if the system takes their paths and their places are free.
-/
theorem performAll_files_iff {files : List (Name × Text)} (hs : w.store = .disk base)
    (hroot : w.disk.find w.cwd (base.join root) = .ok .directory)
    (hnodup : (files.map Prod.fst).Nodup) :
    (∃ v, w.performAll (files.map fun file => .file (root.descend [file.1]) file.2) = (v, .ok ())) ↔
      ∀ file ∈ files, Takes ((base.join root).descend [file.1]) ∧
        w.disk.lookup ((base.join root).locate w.cwd ++ [file.1]) = none := by
  have hplace (name : Name) : (base.join (root.descend [name])).locate w.cwd =
      (base.join root).locate w.cwd ++ [name] := by
    rw [Path.join_descend, Path.locate_descend]
  constructor
  · rintro ⟨v, h⟩ file hfile
    obtain ⟨htakes, hfree⟩ := takes_of_performAll hs h _ (List.mem_map_of_mem hfile)
    rw [Write.path, hplace] at hfree
    rw [Write.path, Path.join_descend] at htakes
    exact ⟨htakes, hfree⟩
  · intro hfiles
    obtain ⟨-, location, hf, hd⟩ := find_eq_ok.1 hroot
    obtain rfl : location = (base.join root).locate w.cwd := follow_eq hf
    have hfits : Fits w.disk.lookup ((files.map fun file =>
        Write.file (root.descend [file.1]) file.2).map (w.target base)) := by
      simp only [List.map_map, Function.comp_def, target, Write.path, Write.entry, hplace]
      exact fits_in_directory hd hnodup fun file hfile => (hfiles file hfile).2
    have hpaths : ∀ x ∈ files.map fun file => Write.file (root.descend [file.1]) file.2,
        ∃ above name, base.join x.path = (base.join root).descend (above ++ [name]) ∧
          ∀ other ∈ above ++ [name], checkName other = .ok () := by
      intro x hx
      obtain ⟨file, hfile, rfl⟩ := List.mem_map.1 hx
      refine ⟨[], file.1, Path.join_descend _ _ _, ?_⟩
      intro other hother
      cases List.mem_singleton.1 hother
      apply (hfiles file hfile).1.name
      simp [Path.descend]
    rcases performAll_descend hs hf hpaths hfits with ⟨v, hv, -⟩ | ⟨_, _, -, x, hx, hcheck⟩
    · exact ⟨v, hv⟩
    · obtain ⟨file, hfile, rfl⟩ := List.mem_map.1 hx
      rw [Write.path, Path.join_descend, (hfiles file hfile).1.path] at hcheck
      cases hcheck

end Workspace

end Scaffold
