import Scaffold.Proofs.Store.Memory

namespace Scaffold

open Plan (Write)

namespace Memory

variable {m : Memory} {ps : List Path} {p : Path} {k : Nat}

/-- The path at a position is known or occurs before, which is true of none before it. -/
structure FirstTaken (m : Memory) (ps : List Path) (k : Nat) (p : Path) : Prop where
  at_position : ps[k]? = some p
  before : m.Free (ps.take k)
  taken : m.has p = true ∨ p ∈ ps.take k

def gain (m : Memory) (plan : Plan) (k : Nat) : Memory where
  existing := m.existing
  directories := m.directories ++ plan.directoryPaths.take k
  files := m.files ++ plan.placedFiles.take (k - plan.directoryPaths.length)

theorem Free.concat (h : m.Free ps) (hp : m.has p = false) (hnew : p ∉ ps) :
    m.Free (ps ++ [p]) := by
  constructor
  · intro q hq
    rcases List.mem_append.1 hq with hq | hq
    · exact h.1 q hq
    · rwa [List.mem_singleton.1 hq]
  · exact List.nodup_append.2 ⟨h.2, List.nodup_singleton p, fun q hq r hr heq =>
      hnew (List.mem_singleton.1 hr ▸ heq ▸ hq)⟩

theorem free_or_firstTaken (m : Memory) (ps : List Path) :
    m.Free ps ∨ ∃ k p, m.FirstTaken ps k p := by
  induction ps using List.reverseRecOn with
  | nil => exact .inl ⟨nofun, List.nodup_nil⟩
  | append_singleton ps p ih =>
    rcases ih with hfree | ⟨k, q, hfirst⟩
    · by_cases htaken : m.has p = true ∨ p ∈ ps
      · refine .inr ⟨ps.length, p, ?_, ?_, ?_⟩
        · rw [List.getElem?_concat_length]
        · rwa [List.take_left]
        · rwa [List.take_left]
      · obtain ⟨hp, hnew⟩ := not_or.1 htaken
        exact .inl (hfree.concat (Bool.not_eq_true _ ▸ hp) hnew)
    · have hk : k < ps.length := (List.getElem?_eq_some_iff.1 hfirst.at_position).1
      refine .inr ⟨k, q, ?_, ?_, ?_⟩
      · rw [List.getElem?_append_left hk]
        exact hfirst.at_position
      · rw [List.take_append_of_le_length hk.le]
        exact hfirst.before
      · rw [List.take_append_of_le_length hk.le]
        exact hfirst.taken

theorem FirstTaken.of_head {q : Path} {rest : List Path} (h : m.FirstTaken ps k p)
    (hps : ps = q :: rest) (hq : m.has q = true) : k = 0 ∧ p = q := by
  subst hps
  cases k with
  | zero => exact ⟨rfl, (Option.some.inj h.at_position).symm⟩
  | succ k =>
    have hfree := h.before.1 q List.mem_cons_self
    rw [hq] at hfree
    cases hfree

theorem gain_zero (m : Memory) (plan : Plan) : m.gain plan 0 = m := by
  simp [gain]

theorem has_foldl_record (m : Memory) (xs : List Write) :
    (xs.foldl record m).has p = true ↔ m.has p = true ∨ p ∈ xs.map Write.path := by
  induction xs generalizing m with
  | nil => simp
  | cons x rest ih =>
    rw [List.foldl_cons, ih, has_record, List.map_cons, List.mem_cons, or_assoc]

theorem foldl_record_take (m : Memory) (plan : Plan) (k : Nat) :
    (plan.writes.take k).foldl record m = m.gain plan k := by
  rw [Plan.writes_eq_placed, List.take_append, List.length_map, ← List.map_take, ← List.map_take,
    List.foldl_append, record_directories, record_files]
  rfl

end Memory

namespace Workspace

variable {w : Workspace} {m : Memory} {plan : Plan} {p : Path} {k : Nat}

/-- A run ends at the first path that is taken, and all before it is recorded. -/
theorem performAll_of_taken {xs : List Write} (hs : w.store = .memory m)
    (h : m.FirstTaken (xs.map Write.path) k p) :
    w.performAll xs = ({ w with store := .memory ((xs.take k).foldl Memory.record m) },
      .error (.refused (.targetExists p))) := by
  obtain ⟨hposition, hfree, htaken⟩ := h
  rw [← List.map_take] at hfree htaken
  have hbefore := performAll_of_free hs hfree
  obtain ⟨x, hx, rfl⟩ : ∃ x, xs[k]? = some x ∧ x.path = p := by
    rwa [List.getElem?_map, Option.map_eq_some_iff] at hposition
  have hknown : ((xs.take k).foldl Memory.record m).has x.path = true :=
    (Memory.has_foldl_record m _).2 htaken
  have hrest : xs.drop k = x :: xs.drop (k + 1) := by
    obtain ⟨hk, rfl⟩ := List.getElem?_eq_some_iff.1 hx
    exact List.drop_eq_getElem_cons hk
  rw [← List.take_append_drop k xs, performAll_append hbefore, List.take_append_drop, hrest,
    performAll, perform]
  simp only [Memory.perform, hknown, if_true]

/-- In a memory, a plan is recorded as a whole if none of its paths is taken. Otherwise the first
one that is taken is refused, and what comes before it in the plan is recorded; where that is the
root, nothing is. -/
theorem apply_in_memory (hs : w.store = .memory m) (plan : Plan) :
    (m.Free plan.paths →
      w.apply plan = ({ w with store := .memory (m.gainAll plan) },
        .ok ⟨plan.root, plan.directoryPaths, plan.filePaths, []⟩)) ∧
    (∀ k p, m.FirstTaken plan.paths k p →
      w.apply plan = ({ w with store := .memory (m.gain plan k) },
        .error (.refused (.targetExists p)))) ∧
    (m.Free plan.paths ∨ ∃ k p, m.FirstTaken plan.paths k p) ∧
    (m.has plan.root = true → w.apply plan = (w, .error (.refused (.targetExists plan.root)))) := by
  have hhas : w.has plan.root = .ok (m.has plan.root) := by
    rw [has]
    rw [hs]
  have hroot (hknown : m.has plan.root = true) :
      w.apply plan = (w, .error (.refused (.targetExists plan.root))) :=
    apply_of_has (hhas.trans (congrArg Except.ok hknown))
  refine ⟨apply_of_free hs, fun k p hfirst => ?_, m.free_or_firstTaken plan.paths, hroot⟩
  cases hknown : m.has plan.root with
  | true =>
    obtain ⟨rfl, rfl⟩ := hfirst.of_head rfl hknown
    rw [hroot hknown, Memory.gain_zero, ← hs]
  | false =>
    rw [← Plan.map_path_writes] at hfirst
    rw [apply]
    rw [hhas, hknown]
    simp only [performAll_of_taken hs hfirst, Memory.foldl_record_take]

theorem apply_in_memory_blog :
    let m : Memory := { existing := [.ofText "lib"] }
    let plan : Plan := ⟨.ofText "blog", ["apps", "./apps"], [⟨"index.js", "start()"⟩]⟩
    let w : Workspace := ⟨.empty, [], .memory m⟩
    w.apply plan =
      ({ w with store := .memory { m with directories := [.ofText "blog", .ofText "blog/apps"] } },
        .error (.refused (.targetExists (.ofText "blog/apps")))) := by
  intro m plan w
  have hfirst : m.FirstTaken plan.paths 2 (.ofText "blog/apps") :=
    ⟨by decide, by decide, by decide⟩
  exact (apply_in_memory rfl plan).2.1 2 _ hfirst

end Workspace

end Scaffold
