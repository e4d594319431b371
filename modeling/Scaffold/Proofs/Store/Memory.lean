import Scaffold.Proofs.Plan.Layout
import Scaffold.Proofs.Store.Growth

namespace Scaffold

open Plan (Write)

namespace Plan

def paths (plan : Plan) : List Path :=
  plan.directoryPaths ++ plan.filePaths

def placedFiles (plan : Plan) : List (Path × Text) :=
  plan.files.map fun file => (plan.root.below file.path, file.content)

theorem map_path_writes (plan : Plan) : plan.writes.map Write.path = plan.paths := by
  simp only [writes, paths, filePaths, List.map_append, List.map_map, Function.comp_def, Write.path,
    List.map_id']

theorem writes_eq_placed (plan : Plan) : plan.writes =
    plan.directoryPaths.map .directory ++
      plan.placedFiles.map fun file => .file file.1 file.2 := by
  simp only [writes, placedFiles, List.map_map, Function.comp_def]

end Plan

namespace Memory

variable {m : Memory} {p : Path} {x : Write}

/-- What an entry of a disk is in memory. -/
def Holds (m : Memory) (p : Path) : Disk.Entry → Prop
  | .directory => p ∈ m.directories
  | .file bytes => ∃ content, (p, content) ∈ m.files ∧ bytes = Disk.encode content

/-- The memory of a plan and nothing else. -/
def ofPlan (plan : Plan) : Memory where
  directories := plan.directoryPaths
  files := plan.files.map fun file => (plan.root.below file.path, file.content)

theorem holds_ofPlan {plan : Plan} {entry : Disk.Entry} :
    (ofPlan plan).Holds p entry ↔ ∃ x ∈ plan.writes, x.path = p ∧ x.entry = entry := by
  rw [Plan.writes]
  constructor
  · intro h
    cases entry with
    | directory =>
      exact ⟨.directory p, List.mem_append_left _ (List.mem_map_of_mem h), rfl, rfl⟩
    | file bytes =>
      obtain ⟨content, h, rfl⟩ := h
      obtain ⟨file, hfile, heq⟩ := List.mem_map.1 h
      cases heq
      exact ⟨_, List.mem_append_right _ (List.mem_map_of_mem hfile), rfl, rfl⟩
  · rintro ⟨x, hx, rfl, rfl⟩
    rcases List.mem_append.1 hx with hx | hx
    · obtain ⟨p, hp, rfl⟩ := List.mem_map.1 hx
      exact hp
    · obtain ⟨file, hfile, rfl⟩ := List.mem_map.1 hx
      exact ⟨file.content, List.mem_map.2 ⟨file, hfile, rfl⟩, rfl⟩

/-- No path is known, and none occurs twice. -/
def Free (m : Memory) (ps : List Path) : Prop :=
  (∀ p ∈ ps, m.has p = false) ∧ ps.Nodup

instance (m : Memory) (ps : List Path) : Decidable (m.Free ps) :=
  inferInstanceAs (Decidable (_ ∧ _))

def gainAll (m : Memory) (plan : Plan) : Memory where
  existing := m.existing
  directories := m.directories ++ plan.directoryPaths
  files := m.files ++ plan.placedFiles

def record (m : Memory) : Write → Memory
  | .directory p => { m with directories := m.directories ++ [p] }
  | .file p content => { m with files := m.files ++ [(p, content)] }

theorem perform_of_free (h : m.has x.path = false) : m.perform x = .ok (m.record x) := by
  unfold perform
  rw [if_neg (by simp [h])]
  cases x <;> rfl

theorem has_record : (m.record x).has p = true ↔ m.has p = true ∨ p = x.path := by
  rw [has_iff, has_iff]
  cases x with
  | directory q =>
    simp only [record, Write.path, List.mem_append, List.mem_singleton]
    grind
  | file q content =>
    simp only [record, Write.path, List.map_append, List.map_cons, List.map_nil, List.mem_append,
      List.mem_singleton]
    grind

theorem record_directories (m : Memory) (ps : List Path) :
    (ps.map .directory).foldl record m = { m with directories := m.directories ++ ps } := by
  induction ps generalizing m with
  | nil => simp
  | cons p rest ih =>
    rw [List.map_cons, List.foldl_cons, ih]
    simp [record]

theorem record_files (m : Memory) (files : List (Path × Text)) :
    (files.map fun file => Write.file file.1 file.2).foldl record m =
      { m with files := m.files ++ files } := by
  induction files generalizing m with
  | nil => simp
  | cons file rest ih =>
    rw [List.map_cons, List.foldl_cons, ih]
    simp [record]

theorem foldl_record_writes (m : Memory) (plan : Plan) :
    plan.writes.foldl record m = m.gainAll plan := by
  rw [Plan.writes_eq_placed, List.foldl_append, record_directories, record_files]
  rfl

end Memory

namespace Workspace

variable {w : Workspace} {m : Memory} {plan : Plan}

theorem perform_memory (hs : w.store = .memory m) (x : Write) :
    ∃ n, (w.perform x).1 = { w with store := .memory n } := by
  rw [perform]
  rw [hs]
  simp only
  split
  · exact ⟨_, rfl⟩
  · exact ⟨m, by rw [← hs]⟩

theorem performAll_memory (hs : w.store = .memory m) (xs : List Write) :
    ∃ n, (w.performAll xs).1 = { w with store := .memory n } := by
  induction xs generalizing w m with
  | nil => exact ⟨m, by rw [← hs]; rfl⟩
  | cons x rest ih =>
    obtain ⟨n, hn⟩ := perform_memory hs x
    rw [performAll]
    split
    · rename_i v heq
      rw [heq] at hn
      cases hn
      exact ih rfl
    · rename_i v failure heq
      rw [heq] at hn
      exact ⟨n, hn⟩

theorem apply_memory (hs : w.store = .memory m) (plan : Plan) :
    ∃ n, (w.apply plan).1 = { w with store := .memory n } := by
  have hsame : w = { w with store := .memory m } := by rw [← hs]
  rw [apply]
  split
  · exact ⟨m, hsame⟩
  · exact ⟨m, hsame⟩
  · obtain ⟨n, hn⟩ := performAll_memory hs plan.writes
    split
    · rename_i heq
      rw [heq] at hn
      exact ⟨n, hn⟩
    · rename_i heq
      rw [heq] at hn
      exact ⟨n, hn⟩

theorem applyWithMessage_memory (hs : w.store = .memory m) (plan : Plan)
    (message : Except Template.RenderError Text) :
    ∃ n, (w.applyWithMessage (.ok plan) message).1 = { w with store := .memory n } := by
  obtain ⟨n, hn⟩ := apply_memory hs plan
  refine ⟨n, ?_⟩
  unfold applyWithMessage
  simp only
  split
  · rename_i heq
    rwa [heq] at hn
  · rename_i heq
    rwa [heq] at hn

/-- Things that are not known yet are recorded one after the other. -/
theorem performAll_of_free {xs : List Write} (hs : w.store = .memory m)
    (h : m.Free (xs.map Write.path)) :
    w.performAll xs = ({ w with store := .memory (xs.foldl Memory.record m) }, .ok ()) := by
  induction xs generalizing w m with
  | nil =>
    rw [List.foldl_nil, ← hs]
    rfl
  | cons x rest ih =>
    obtain ⟨hfree, hnodup⟩ := h
    obtain ⟨hx, hrest⟩ := List.nodup_cons.1 hnodup
    have hperform : w.perform x = ({ w with store := .memory (m.record x) }, .ok ()) := by
      rw [perform]
      rw [hs]
      simp only [Memory.perform_of_free (hfree x.path List.mem_cons_self)]
    simp only [performAll, hperform]
    refine ih rfl ⟨fun p hp => ?_, hrest⟩
    have hne : p ≠ x.path := fun heq => hx (heq ▸ hp)
    rw [← Bool.not_eq_true, Memory.has_record]
    simp [hfree p (List.mem_cons_of_mem _ hp), hne]

theorem apply_of_free (hs : w.store = .memory m) (h : m.Free plan.paths) :
    w.apply plan = ({ w with store := .memory (m.gainAll plan) }, .ok plan.report) := by
  have hhas : w.has plan.root = .ok false := by
    rw [has]
    rw [hs]
    exact congrArg Except.ok (h.1 plan.root List.mem_cons_self)
  rw [← Plan.map_path_writes] at h
  rw [apply]
  rw [hhas]
  simp only [performAll_of_free hs h, Memory.foldl_record_writes]

end Workspace

end Scaffold
