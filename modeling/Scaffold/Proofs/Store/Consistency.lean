import Scaffold.Proofs.Session
import Scaffold.Proofs.Store.Memory

namespace Scaffold

open Plan (Write)

namespace Memory

/-- What has been created, the directories first. -/
def recorded (m : Memory) : List Path :=
  m.directories ++ m.files.map Prod.fst

/-- Each path is recorded once at most, and none that was there before. -/
structure Consistent (m : Memory) : Prop where
  once : m.recorded.Nodup
  new : ∀ p ∈ m.recorded, p ∉ m.existing

variable {m n : Memory} {x : Write} {p : Path} {content : Text}

theorem has_iff_recorded : m.has p = true ↔ p ∈ m.existing ∨ p ∈ m.recorded := by
  rw [has_iff, recorded, List.mem_append]

theorem recorded_record (m : Memory) (x : Write) :
    (m.record x).recorded.Perm (x.path :: m.recorded) := by
  cases x with
  | directory p =>
    rw [recorded, record, List.append_assoc, List.singleton_append]
    exact List.perm_middle
  | file p content =>
    rw [recorded, record, List.map_append, ← List.append_assoc]
    exact List.perm_append_singleton p m.recorded

theorem existing_record (m : Memory) (x : Write) : (m.record x).existing = m.existing := by
  cases x <;> rfl

theorem consistent_of_existing (existing : List Path) :
    Consistent { existing := existing } where
  once := List.nodup_nil
  new := fun _ h => absurd h List.not_mem_nil

namespace Consistent

theorem record (h : m.Consistent) (hfree : m.has x.path = false) : (m.record x).Consistent := by
  have hunknown : ¬ m.has x.path = true := by simp [hfree]
  rw [has_iff_recorded, not_or] at hunknown
  obtain ⟨hexisting, hrecorded⟩ := hunknown
  constructor
  case once =>
    rw [(recorded_record m x).nodup_iff]
    exact List.nodup_cons.2 ⟨hrecorded, h.once⟩
  case new =>
    intro p hp
    rw [existing_record]
    rw [(recorded_record m x).mem_iff] at hp
    rcases List.mem_cons.1 hp with rfl | hp
    · exact hexisting
    · exact h.new p hp

theorem perform (h : m.Consistent) (hx : m.perform x = .ok n) : n.Consistent := by
  cases hhas : m.has x.path with
  | true =>
    unfold Memory.perform at hx
    rw [if_pos hhas] at hx
    cases hx
  | false =>
    rw [perform_of_free hhas] at hx
    cases hx
    exact h.record hhas

theorem directory_not_file (h : m.Consistent) (hp : p ∈ m.directories) :
    p ∉ m.files.map Prod.fst := by
  intro hfile
  exact (List.nodup_append.1 h.once).2.2 p hp p hfile rfl

theorem lookup_files (h : m.Consistent) (hfile : (p, content) ∈ m.files) :
    m.files.lookup p = some content := by
  obtain ⟨before, after, hsplit⟩ := List.append_of_mem hfile
  have hnodup := (List.nodup_append.1 h.once).2.1
  rw [hsplit, List.map_append, List.map_cons, List.nodup_append] at hnodup
  have hbefore : before.lookup p = none := by
    rw [List.lookup_eq_none_iff]
    intro file hmem
    have hne : file.1 ≠ p :=
      hnodup.2.2 file.1 (List.mem_map_of_mem hmem) p List.mem_cons_self
    simpa using hne.symm
  rw [hsplit, List.lookup_append, hbefore, Option.none_or, List.lookup_cons_self]

end Consistent

end Memory

/-- The memory of a store, where it is one, is in order. -/
def Workspace.Consistent (w : Workspace) : Prop :=
  ∀ m, w.store = .memory m → m.Consistent

theorem Workspace.Consistent.perform (w : Workspace) (x : Write) (h : w.Consistent) :
    (w.perform x).1.Consistent := by
  rw [Workspace.perform]
  split
  · rename_i m hs
    split
    · rename_i n hx
      intro k hk
      cases hk
      exact (h m hs).perform hx
    · exact h
  · rename_i base hs
    have hdisk (d : Disk) : Workspace.Consistent { w with disk := d } := h
    cases x with
    | directory p => exact hdisk _
    | file p content =>
      simp only
      split
      · exact hdisk _
      · exact h

namespace Session

variable {s : Session}

theorem consistent_workspace (h : s.memory.Consistent) (writer : Writer) :
    (s.workspace writer).Consistent := by
  intro m hm
  cases writer with
  | memory =>
    cases hm
    exact h
  | disk base => cases hm

theorem consistent_leave {w : Workspace} (h : s.memory.Consistent) (hw : w.Consistent) :
    (s.leave w).memory.Consistent := by
  rw [leave]
  cases hs : w.store with
  | memory m => exact hw m hs
  | disk base => exact h

theorem consistent_answer (h : s.memory.Consistent) (writer : Writer) (operation : Operation) :
    (s.answer writer operation).1.memory.Consistent :=
  consistent_leave h
    (Workspace.kept_answer Workspace.Consistent.perform (consistent_workspace h writer) operation)

theorem consistent_run (h : s.memory.Consistent) (steps : List (Writer × Operation)) :
    (s.run steps).memory.Consistent := by
  induction steps generalizing s with
  | nil => exact h
  | cons step rest ih =>
    obtain ⟨writer, operation⟩ := step
    exact ih (consistent_answer h writer operation)

/--
At each point of a session that starts with any paths in memory, no path is recorded twice, as a
directory and a file, or where one was before. What was there before stays the same, both lists grow
at their ends only, and a file keeps its content. Whether a path is there is whether what its text
spells is in one of the three collections.
-/
theorem memory_consistent (disk : Disk) (cwd : Location) (existing : List Text)
    (before after : List (Writer × Operation)) :
    let start : Session := ⟨disk, cwd, { existing := existing.map Path.ofText }⟩
    let now := start.run before
    let later := (start.run (before ++ after)).memory
    now.memory.directories.Nodup ∧
    (now.memory.files.map Prod.fst).Nodup ∧
    (∀ p ∈ now.memory.directories, p ∉ now.memory.files.map Prod.fst) ∧
    (∀ t ∈ existing, Path.ofText t ∉ now.memory.directories ∧
      Path.ofText t ∉ now.memory.files.map Prod.fst) ∧
    now.memory.existing = existing.map Path.ofText ∧
    later.existing = existing.map Path.ofText ∧
    now.memory.directories <+: later.directories ∧
    now.memory.files <+: later.files ∧
    (∀ p content, (p, content) ∈ now.memory.files → later.files.lookup p = some content) ∧
    ∀ t, ∃ present, now.answer .memory (.has (.ofText t)) = (now, .ok (.known present)) ∧
      (present = true ↔ Path.ofText t ∈ existing.map Path.ofText ∨
        Path.ofText t ∈ now.memory.directories ∨
        Path.ofText t ∈ now.memory.files.map Prod.fst) := by
  intro start now later
  have hstart : start.memory.Consistent := Memory.consistent_of_existing _
  have hnow : now.memory.Consistent := consistent_run hstart before
  have hlater : later.Consistent := consistent_run hstart (before ++ after)
  have hgrown : now.memory ≤ later := by
    have hrun := (now.le_run after).memory
    rwa [← run_append] at hrun
  have hexisting : now.memory.existing = existing.map Path.ofText :=
    (start.le_run before).memory.existing
  have hnodup := List.nodup_append.1 hnow.once
  refine ⟨hnodup.1, hnodup.2.1, fun p hp => hnow.directory_not_file hp, ?_, hexisting,
    hgrown.existing.trans hexisting, hgrown.directories, hgrown.files, ?_, ?_⟩
  · intro t ht
    have hold : Path.ofText t ∈ now.memory.existing := by
      rw [hexisting]
      exact List.mem_map_of_mem ht
    constructor
    · intro hp
      exact hnow.new _ (List.mem_append_left _ hp) hold
    · intro hp
      exact hnow.new _ (List.mem_append_right _ hp) hold
  · intro p content hfile
    exact hlater.lookup_files (hgrown.files.subset hfile)
  · intro t
    refine ⟨now.memory.has (.ofText t), rfl, ?_⟩
    rw [Memory.has_iff, hexisting]

end Session

end Scaffold
