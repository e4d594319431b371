import Scaffold.Proofs.Disk.Vacant

namespace Scaffold

theorem Location.toPath_concat (location : Location) (name : Name) :
    toPath (location ++ [name]) = ⟨.root, location.toPath.steps ++ [.into name]⟩ := by
  rw [toPath, Disk.steps_toPath, List.map_append]
  rfl

theorem Location.mem_way_toPath {location cwd place : Location} :
    place ∈ location.toPath.way cwd ↔ place <+: location := by
  induction location using List.reverseRecOn with
  | nil => exact List.mem_singleton.trans List.prefix_nil.symm
  | append_singleton location name ih =>
    rw [toPath_concat, Path.mem_way_concat, ← toPath_concat, locate_toPath, List.prefix_concat_iff,
      ← ih]
    exact or_comm

theorem Disk.up_notMem_toPath (location : Location) : .up ∉ location.toPath.steps := by
  simp

namespace Disk

variable {d : Disk} {cwd location : Location} {name : Name}

theorem vacant_toPath (ht : Takes (location ++ [name]).toPath)
    (habove : ∀ above, above <+: location → d.Passable above)
    (hfree : d.lookup (location ++ [name]) = none) : d.Vacant cwd (location ++ [name]).toPath := by
  have hparent : (location ++ [name]).toPath.parent = location.toPath := by
    rw [Path.parent, dropLast_steps_concat]
    rfl
  constructor
  · exact ht
  · exact ⟨name, getLast?_steps_concat location name⟩
  · intro place hplace
    rw [hparent, Location.mem_way_toPath] at hplace
    exact habove place hplace
  · rwa [Location.locate_toPath]
  · rw [hparent, Location.locate_toPath, Location.mem_way_toPath]
    intro hprefix
    exact absurd hprefix.length_le (by simp)

end Disk

end Scaffold
