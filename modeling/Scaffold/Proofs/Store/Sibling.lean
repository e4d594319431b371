import Scaffold.Proofs.Store.Root
import Scaffold.Proofs.Store.Written

namespace Scaffold

open Outcome Disk

theorem Path.mem_way_descend {p : Path} {name : Name} {cwd place : Location} :
    place ∈ (p.descend [name]).way cwd ↔
      place ∈ p.way cwd ∨ place = p.locate cwd ++ [name] := by
  rw [← locate_descend]
  exact mem_way_concat

theorem Location.apart {name other : Name} (hne : name ≠ other) (location place : Location) :
    ¬ location ++ [name] <+: place ∨ ¬ location ++ [other] <+: place := by
  by_contra hboth
  simp only [not_or, not_not] at hboth
  obtain ⟨hname, hother⟩ := hboth
  have heq := List.prefix_of_prefix_length_le hname hother (by simp)
  rw [List.prefix_append_right_inj] at heq
  exact hne (List.cons_prefix_cons.1 heq).1

/-- A plan with a layout whose root is a directory in another one. -/
structure Plan.StandsIn (plan : Plan) (base parent : Path) (name : Name) : Prop where
  root : base.join plan.root = parent.descend [name]
  layout : Layout plan.directories (plan.files.map (·.path))

namespace Workspace

open Plan

variable {w v u : Workspace} {base parent : Path} {name other : Name} {plan next : Plan}
  {report done : Report}

theorem lookup_region_elsewhere (hin : plan.StandsIn base parent name) {place : Location}
    (hplace : ¬ parent.locate w.cwd ++ [name] <+: place) :
    (plan.region base w.cwd).lookup place = none := by
  rw [region, hin.root, Path.locate_descend]
  exact @Layout.lookup_entries_elsewhere (plan.settle _) _ hin.layout rfl _ hplace

theorem lookup_of_apply_in (hs : w.store = .disk base) (hin : plan.StandsIn base parent name)
    (h : w.apply plan = (v, .ok report)) (place : Location) :
    v.disk.lookup place = ((w.disk.lookup place).or
      (if place ∈ parent.way w.cwd then some .directory else none)).or
        ((plan.region base w.cwd).lookup place) := by
  rw [lookup_of_apply_way hs hin.layout h, region_eq, List.lookup_cons, hin.root,
    Path.locate_descend]
  by_cases hroot : place = parent.locate w.cwd ++ [name]
  · rw [if_pos (Path.mem_way_descend.2 (.inr hroot)), beq_iff_eq.2 hroot]
    cases w.disk.lookup place <;> by_cases hway : place ∈ parent.way w.cwd <;> simp [hway]
  · have hway : place ∈ (parent.descend [name]).way w.cwd ↔ place ∈ parent.way w.cwd := by
      simp [Path.mem_way_descend, hroot]
    simp only [hway]

theorem follow_of_apply (hs : w.store = .disk base) (hin : plan.StandsIn base parent name)
    (h : w.apply plan = (v, .ok report)) :
    v.disk.follow (startOf parent w.cwd) parent.steps = .ok (parent.locate w.cwd) ∧
      v.disk.lookup (parent.locate w.cwd) = some .directory := by
  have hfind := find_of_apply hs h (.directory plan.root) (by simp [writes_eq])
  obtain ⟨-, _, hf, -⟩ := find_eq_ok.1 hfind
  simp only [Write.path, hin.root, Path.descend, List.map_cons, List.map_nil, follow_append] at hf
  obtain ⟨place, hparent, hstep⟩ := bind_eq_ok.1 hf
  obtain ⟨_, hname, -⟩ := bind_eq_ok.1 hstep
  obtain rfl : place = parent.locate w.cwd := follow_eq hparent
  exact ⟨hparent, (step_eq_ok hname).1⟩

theorem free_of_apply (hs : w.store = .disk base) (hin : plan.StandsIn base parent name)
    (h : w.apply plan = (v, .ok report)) :
    w.disk.lookup (parent.locate w.cwd ++ [name]) = none ∧
      parent.locate w.cwd ++ [name] ∉ parent.way w.cwd := by
  obtain ⟨e, hmake, -⟩ := made_of_apply hs h
  obtain ⟨hfree, hway⟩ := free_of_makeDirectory_way hmake
  rw [hin.root, Path.locate_descend] at hfree hway
  refine ⟨hfree, ?_⟩
  have hsteps : (parent.descend [name]).steps.dropLast = parent.steps := List.dropLast_concat
  rwa [hsteps] at hway

theorem takes_of_apply (hs : w.store = .disk base) (hin : plan.StandsIn base parent name)
    (h : w.apply plan = (v, .ok report)) :
    checkName name = .ok () ∧ ∀ x ∈ plan.writes, checkPath (base.join x.path) = .ok () := by
  have hfound := find_of_apply hs h
  constructor
  · obtain ⟨-, _, hf, -⟩ := find_eq_ok.1 (hfound (.directory plan.root) (by simp [writes_eq]))
    rw [Write.path, hin.root] at hf
    exact checkName_of_follow hf name (by simp [Path.descend])
  · intro x hx
    exact (find_eq_ok.1 (hfound x hx)).1

theorem free_after (hs : w.store = .disk base) (hin : plan.StandsIn base parent name)
    (hnext : next.StandsIn base parent other) (hne : name ≠ other)
    (h : w.apply plan = (v, .ok report)) (hn : w.apply next = (u, .ok done)) :
    v.disk.lookup (parent.locate w.cwd ++ [other]) = none := by
  obtain ⟨hfree, hway⟩ := free_of_apply hs hnext hn
  have hapart := (Location.apart hne (parent.locate w.cwd) _).resolve_right
    (not_not.2 List.prefix_rfl)
  rw [lookup_of_apply_in hs hin h, hfree, if_neg hway, lookup_region_elsewhere hin hapart]
  rfl

/-- A plan that can be carried out can be after another one in the same directory. -/
theorem apply_after (hs : w.store = .disk base) (hin : plan.StandsIn base parent name)
    (hnext : next.StandsIn base parent other) (hne : name ≠ other)
    (h : w.apply plan = (v, .ok report)) (hn : w.apply next = (u, .ok done)) :
    ∃ t, v.apply next = (t, .ok next.report) := by
  have hle := le_of_apply h
  have hvs := store_of_le hs hle
  obtain ⟨hparent, hd⟩ := follow_of_apply hs hin h
  obtain ⟨hname, hpaths⟩ := takes_of_apply hs hnext hn
  rw [writes_eq] at hpaths
  obtain ⟨hroot, hinner⟩ := List.forall_mem_cons.1 hpaths
  have hslot : v.disk.slot v.cwd (base.join next.root) = .ok (parent.locate w.cwd, other) := by
    rw [Write.path, hnext.root] at hroot
    rw [← List.append_nil (parent.locate w.cwd)] at hd ⊢
    rw [hnext.root, hle.cwd]
    have hnames : ∀ n ∈ [] ++ [other], checkName n = .ok () := List.forall_mem_singleton.2 hname
    exact slot_descend hparent hnames hd hroot
  have hfree := free_after hs hin hnext hne h hn
  obtain ⟨e, hcreate⟩ := create_of_slot hslot hfree
  refine apply_of_makeDirectory hvs hnext.layout (makeDirectory_of_create hcreate) ?_ hinner
  rw [has_disk hvs, present_of_slot hslot hfree]
  rfl

/-- The order of two plans in the same directory does not matter for what is on the disk then. -/
theorem lookup_apply_comm {t s : Workspace} (hs : w.store = .disk base)
    (hin : plan.StandsIn base parent name)
    (hnext : next.StandsIn base parent other) (hne : name ≠ other)
    (hplan : w.apply plan = (v, .ok report)) (hthen : v.apply next = (t, .ok done))
    (hother : w.apply next = (u, .ok done)) (hagain : u.apply plan = (s, .ok report))
    (place : Location) : t.disk.lookup place = s.disk.lookup place := by
  have hv := le_of_apply hplan
  have hu := le_of_apply hother
  rw [lookup_of_apply_in (store_of_le hs hv) hnext hthen, lookup_of_apply_in hs hin hplan,
    lookup_of_apply_in (store_of_le hs hu) hin hagain, lookup_of_apply_in hs hnext hother, hv.cwd,
    hu.cwd]
  rcases Location.apart hne (parent.locate w.cwd) place with hplace | hplace
  · rw [lookup_region_elsewhere hin hplace]
    cases w.disk.lookup place <;> by_cases hway : place ∈ parent.way w.cwd <;> simp [hway]
  · rw [lookup_region_elsewhere hnext hplace]
    cases w.disk.lookup place <;> by_cases hway : place ∈ parent.way w.cwd <;> simp [hway]

end Workspace

end Scaffold
