import Scaffold.Proofs.Disk.Ancestors
import Scaffold.Proofs.Store.Root

namespace Scaffold.Workspace

open Outcome Disk Plan

variable {w v : Workspace} {base : Path} {location : Location} {name : Name} {plan : Plan}

theorem has_toPath (hs : w.store = .disk base) (location : Location) :
    w.has location.toPath = (w.disk.present w.cwd location.toPath).mapError .system := by
  rw [has_disk hs, Path.join_toPath]

theorem join_root (hroot : plan.root = location.toPath) (base : Path) :
    base.join plan.root = location.toPath := by
  rw [hroot, Path.join_toPath]

theorem region_of_root (hroot : plan.root = location.toPath) (base : Path) (cwd : Location) :
    plan.region base cwd = plan.entries := by
  rw [region, join_root hroot, Location.locate_toPath, settle, ← hroot]

section

variable (hs : w.store = .disk base) (hroot : plan.root = Location.toPath (location ++ [name]))
  (hlayout : Layout plan.directories (plan.files.map (·.path)))

include hs hroot hlayout

theorem apply_refused {refusal : Refusal} (h : w.apply plan = (v, .error (.refused refusal))) :
    v = w := by
  apply apply_refused_of_steady hs hlayout _ h
  rw [join_root hroot]
  exact steady_of_notMem (up_notMem_toPath _) _ _

theorem lookup_of_apply {report : Report} (h : w.apply plan = (v, .ok report)) :
    w.disk.lookup (location ++ [name]) = none ∧
      ∀ place, v.disk.lookup place = (w.disk.lookup place).or
        (if place <+: location ++ [name] then some .directory else plan.entries.lookup place) := by
  constructor
  · obtain ⟨e, hmake, -⟩ := made_of_apply hs h
    have hfree := (free_of_makeDirectory_way hmake).1
    rwa [join_root hroot, Location.locate_toPath] at hfree
  · intro place
    rw [lookup_of_apply_way hs hlayout h, region_of_root hroot, join_root hroot, Option.or_assoc]
    by_cases hplace : place <+: location ++ [name]
    · rw [if_pos (Location.mem_way_toPath.2 hplace), if_pos hplace]
      rfl
    · rw [if_neg (mt Location.mem_way_toPath.1 hplace), if_neg hplace]
      rfl

/-- At the root and below it there is what was planned, and nothing else. -/
theorem lookup_in_root {report : Report} (h : w.apply plan = (v, .ok report)) {place : Location}
    (hbelow : location ++ [name] <+: place) :
    v.disk.lookup place = plan.entries.lookup place := by
  obtain ⟨hfree, hl⟩ := lookup_of_apply hs hroot hlayout h
  rw [hl, lookup_below hfree hbelow, Option.none_or]
  split
  · rename_i habove
    -- Only the root itself lies both above and below the root.
    have hplace : place = location ++ [name] := habove.eq_of_length_le hbelow.length_le
    have hdirectory : plan.entries.lookup place = some .directory := by
      refine (hlayout.lookup_entries hroot).2 ⟨.directory plan.root, ?_, ?_, rfl⟩
      · simp [writes_eq]
      · rw [hplace, Write.place, Write.path, hroot, Location.locate_toPath]
    exact hdirectory.symm
  · rfl

theorem created_iff {report : Report} (h : w.apply plan = (v, .ok report)) {place : Location}
    {entry : Entry} : (location ++ [name] <+: place ∧ v.disk.lookup place = some entry) ↔
      ∃ x ∈ plan.writes, x.place = place ∧ x.entry = entry := by
  constructor
  · rintro ⟨hbelow, hentry⟩
    rw [lookup_in_root hs hroot hlayout h hbelow] at hentry
    exact (hlayout.lookup_entries hroot).1 hentry
  · rintro ⟨x, hx, rfl, rfl⟩
    have hbelow := hlayout.prefix_of_mem hroot hx
    refine ⟨hbelow, ?_⟩
    rw [lookup_in_root hs hroot hlayout h hbelow]
    exact (hlayout.lookup_entries hroot).2 ⟨x, hx, rfl, rfl⟩

theorem lookup_elsewhere {report : Report} (h : w.apply plan = (v, .ok report)) {place : Location}
    (hplace : ¬ location ++ [name] <+: place) :
    v.disk.lookup place =
      (w.disk.lookup place).or
        (if place <+: location ++ [name] then some .directory else none) := by
  rw [(lookup_of_apply hs hroot hlayout h).2, hlayout.lookup_entries_elsewhere hroot hplace]

theorem apply_succeeds (hfree : w.disk.lookup (location ++ [name]) = none)
    (habove : ∀ above, above <+: location →
      w.disk.lookup above = none ∨ w.disk.lookup above = some .directory)
    (htakes : ∀ x ∈ plan.writes, Takes x.path) : ∃ v, w.apply plan = (v, .ok plan.report) := by
  rw [writes_eq] at htakes
  obtain ⟨ht, hinner⟩ := List.forall_mem_cons.1 htakes
  rw [Write.path, hroot] at ht
  have hvacant : w.disk.Vacant w.cwd (location ++ [name]).toPath := vacant_toPath ht habove hfree
  obtain ⟨e, hmake⟩ := hvacant.makeDirectory (lookup_root w.disk)
  rw [← join_root hroot base] at hmake
  refine apply_of_makeDirectory hs hlayout hmake ?_ fun x hx => ?_
  · rw [hroot, has_toPath hs, present_toPath ht, hfree]
    rfl
  · rw [hlayout.path_eq_of_mem_inner hroot hx, Path.join_toPath,
      ← hlayout.path_eq_of_mem_inner hroot hx]
    exact (hinner x hx).path

end

end Scaffold.Workspace
