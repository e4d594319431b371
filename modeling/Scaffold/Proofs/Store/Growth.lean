import Scaffold.Proofs.Disk.Growth
import Scaffold.Scaffolder

namespace Scaffold

open Outcome

namespace Memory

/-- The second memory has learned something, and what the first one knows keeps its role. -/
structure Grown (m n : Memory) : Prop where
  existing : n.existing = m.existing
  directories : m.directories <+: n.directories
  files : m.files <+: n.files
  directory_of_has : ∀ p ∈ n.directories, m.has p = true → p ∈ m.directories
  file_of_has : ∀ file ∈ n.files, m.has file.1 = true → file ∈ m.files

variable {m n : Memory} {p : Path}

theorem has_iff : m.has p = true ↔
    p ∈ m.existing ∨ p ∈ m.directories ∨ p ∈ m.files.map Prod.fst := by
  simp only [has, Bool.or_eq_true, decide_eq_true_eq, or_assoc]

theorem Grown.has (h : Grown m n) (hp : m.has p = true) : n.has p = true := by
  rcases has_iff.1 hp with hp | hp | hp
  · exact has_iff.2 (.inl (h.existing ▸ hp))
  · exact has_iff.2 (.inr (.inl (h.directories.subset hp)))
  · exact has_iff.2 (.inr (.inr ((h.files.map Prod.fst).subset hp)))

instance : Preorder Memory where
  le := Grown
  le_refl m := ⟨rfl, List.prefix_rfl, List.prefix_rfl, fun _ hp _ => hp, fun _ hp _ => hp⟩
  le_trans m n k hn hk :=
    { existing := hk.existing.trans hn.existing
      directories := hn.directories.trans hk.directories
      files := hn.files.trans hk.files
      directory_of_has := fun p hp hm =>
        hn.directory_of_has p (hk.directory_of_has p hp (hn.has hm)) hm
      file_of_has := fun file hf hm =>
        hn.file_of_has file (hk.file_of_has file hf (hn.has hm)) hm }

theorem le_of_perform {x : Plan.Write} (h : m.perform x = .ok n) : m ≤ n := by
  unfold perform at h
  split at h
  · cases h
  · rename_i hfree
    cases x with
    | directory p =>
      cases h
      refine ⟨rfl, List.prefix_append _ _, List.prefix_rfl, ?_, fun _ hf _ => hf⟩
      intro q hq hm
      rcases List.mem_append.1 hq with hq | hq
      · exact hq
      · rw [List.mem_singleton.1 hq] at hm
        exact absurd hm hfree
    | file p content =>
      cases h
      refine ⟨rfl, List.prefix_rfl, List.prefix_append _ _, fun _ hq _ => hq, ?_⟩
      intro file hf hm
      rcases List.mem_append.1 hf with hf | hf
      · exact hf
      · rw [List.mem_singleton.1 hf] at hm
        exact absurd hm hfree

theorem has_of_perform {x : Plan.Write} (h : m.perform x = .ok n) : n.has x.path = true := by
  unfold perform at h
  split at h
  · cases h
  · cases x <;> cases h <;> simp [has_iff, Plan.Write.path]

theorem lookup_files_of_le (hle : m ≤ n) (hp : m.has p = true) :
    n.files.lookup p = m.files.lookup p := by
  obtain ⟨added, hadded⟩ := hle.files
  rw [← hadded, List.lookup_append]
  cases hm : m.files.lookup p with
  | some content => rfl
  | none =>
    rw [Option.none_or, List.lookup_eq_none_iff]
    intro file hf
    simp only [bne_iff_ne]
    rintro rfl
    have hn : file ∈ n.files := hadded ▸ List.mem_append_right _ hf
    exact absurd (hle.file_of_has file hn hp) fun h => by
      simpa using List.lookup_eq_none_iff.1 hm file h

theorem mem_directories_iff_of_le (hle : m ≤ n) (hp : m.has p = true) :
    p ∈ n.directories ↔ p ∈ m.directories :=
  ⟨fun h => hle.directory_of_has p h hp, fun h => hle.directories.subset h⟩

end Memory

/-- A memory may learn; a base directory stays what it is. -/
instance : Preorder Store where
  le
    | .memory m, .memory n => m ≤ n
    | .disk base, .disk other => base = other
    | _, _ => False
  le_refl
    | .memory m => le_refl m
    | .disk _ => rfl
  le_trans
    | .memory m, .memory n, .memory k, hn, hk => le_trans (α := Memory) hn hk
    | .disk _, .disk _, .disk _, rfl, rfl => rfl

namespace Workspace

/-- The second workspace is the first one after some things were created in it. -/
structure Grown (w v : Workspace) : Prop where
  cwd : v.cwd = w.cwd
  disk : w.disk ≤ v.disk
  store : w.store ≤ v.store

instance : Preorder Workspace where
  le := Grown
  le_refl w := ⟨rfl, le_refl w.disk, le_refl w.store⟩
  le_trans w v u hv hu :=
    ⟨hu.cwd.trans hv.cwd, hv.disk.trans hu.disk, hv.store.trans hu.store⟩

variable {w v : Workspace} {m n : Memory} {p : Path} {plan : Plan}

/-- What a store has, it has ever after. -/
theorem has_mono (hle : w ≤ v) (h : w.has p = .ok true) : v.has p = .ok true := by
  obtain ⟨hcwd, hdisk, hstore⟩ := hle
  unfold has at h ⊢
  rw [hcwd]
  cases hw : w.store with
  | memory m =>
    cases hv : v.store with
    | memory n =>
      rw [hw, hv] at hstore
      rw [hw] at h
      simp only [Except.ok.injEq] at h ⊢
      exact Memory.Grown.has hstore h
    | disk base => rw [hw, hv] at hstore; exact hstore.elim
  | disk base =>
    cases hv : v.store with
    | memory n => rw [hw, hv] at hstore; exact hstore.elim
    | disk other =>
      rw [hw, hv] at hstore
      cases hstore
      rw [hw] at h
      simp only [mapError_eq_ok] at h ⊢
      exact Disk.present_mono hdisk h

theorem le_of_memory (hs : w.store = .memory m) (hle : m ≤ n) :
    w ≤ { w with store := .memory n } :=
  ⟨rfl, le_rfl, by rw [hs]; exact hle⟩

theorem le_of_disk {d : Disk} (hle : w.disk ≤ d) : w ≤ { w with disk := d } :=
  ⟨rfl, hle, le_rfl⟩

theorem le_perform (w : Workspace) (x : Plan.Write) : w ≤ (w.perform x).1 := by
  rw [perform]
  split
  · rename_i m hs
    split
    · rename_i hp
      exact le_of_memory hs (Memory.le_of_perform hp)
    · exact le_rfl
  · cases x with
    | directory p => exact le_of_disk (Disk.le_makeDirectory _ _ _ _)
    | file p content =>
      simp only
      split
      · rename_i hc
        exact le_of_disk (Disk.le_of_create hc)
      · exact le_rfl

section Runs

variable {x : Plan.Write} {xs ys : List Plan.Write}

theorem performAll_cons_eq_ok : w.performAll (x :: xs) = (v, .ok ()) ↔
    ∃ u, w.perform x = (u, .ok ()) ∧ u.performAll xs = (v, .ok ()) := by
  rw [performAll]
  constructor
  · intro h
    split at h
    · rename_i u hx
      exact ⟨u, hx, h⟩
    · cases h
  · rintro ⟨u, hx, hrest⟩
    rw [hx]
    exact hrest

theorem performAll_append (h : w.performAll xs = (v, .ok ())) (ys : List Plan.Write) :
    w.performAll (xs ++ ys) = v.performAll ys := by
  induction xs generalizing w with
  | nil =>
    cases h
    rfl
  | cons x rest ih =>
    obtain ⟨u, hx, hrest⟩ := performAll_cons_eq_ok.1 h
    rw [List.cons_append, performAll, hx]
    exact ih hrest

theorem performAll_append_eq_ok : w.performAll (xs ++ ys) = (v, .ok ()) ↔
    ∃ u, w.performAll xs = (u, .ok ()) ∧ u.performAll ys = (v, .ok ()) := by
  constructor
  · intro h
    induction xs generalizing w with
    | nil => exact ⟨w, rfl, h⟩
    | cons x rest ih =>
      obtain ⟨t, hx, hrest⟩ := performAll_cons_eq_ok.1 h
      obtain ⟨u, hu, hys⟩ := ih hrest
      exact ⟨u, performAll_cons_eq_ok.2 ⟨t, hx, hu⟩, hys⟩
  · rintro ⟨u, hxs, hys⟩
    rw [performAll_append hxs, hys]

end Runs

section Kept

variable {P : Workspace → Prop}
  (hstep : ∀ (w : Workspace) (x : Plan.Write), P w → P (w.perform x).1)

include hstep

theorem kept_performAll (h : P w) (xs : List Plan.Write) : P (w.performAll xs).1 := by
  induction xs generalizing w with
  | nil => exact h
  | cons x rest ih =>
    have hx := hstep w x h
    rw [performAll]
    split
    · rename_i heq
      rw [heq] at hx
      exact ih hx
    · rename_i heq
      rwa [heq] at hx

theorem kept_apply (h : P w) (plan : Plan) : P (w.apply plan).1 := by
  have hall := kept_performAll hstep h plan.writes
  rw [apply]
  split
  · exact h
  · exact h
  · split <;> rename_i heq <;> rwa [heq] at hall

theorem kept_applyWithMessage (h : P w) (plan : Except Template.RenderError Plan)
    (message : Except Template.RenderError Text) : P (w.applyWithMessage plan message).1 := by
  unfold applyWithMessage
  split
  · exact h
  · rename_i plan
    have hplan := kept_apply hstep h plan
    split <;> rename_i heq <;> rwa [heq] at hplan

theorem kept_newProject (h : P w) (config : Config) (spec : ProjectSpec)
    (seenFrom : Option Path) : P (w.newProject config spec seenFrom).1 :=
  kept_applyWithMessage hstep h _ _

theorem kept_newApp (h : P w) (config : Config) (spec : AppSpec) (project : Path) :
    P (w.newApp config spec project).1 := by
  rw [newApp]
  split
  · exact h
  · exact kept_applyWithMessage hstep h _ _

theorem kept_newAppFromTokens (h : P w) (config : Config) (name : Text) (tokens : List RawText)
    (project : Path) : P (w.newAppFromTokens config name tokens project).1 := by
  rw [newAppFromTokens]
  split
  · exact h
  · exact kept_newApp hstep h _ _ _

end Kept

theorem le_perform_of_le (v : Workspace) (x : Plan.Write) (h : w ≤ v) : w ≤ (v.perform x).1 :=
  h.trans (v.le_perform x)

theorem le_performAll (w : Workspace) (xs : List Plan.Write) : w ≤ (w.performAll xs).1 :=
  kept_performAll le_perform_of_le le_rfl xs

theorem le_apply (w : Workspace) (plan : Plan) : w ≤ (w.apply plan).1 :=
  kept_apply le_perform_of_le le_rfl plan

theorem le_newProject (w : Workspace) (config : Config) (spec : ProjectSpec)
    (seenFrom : Option Path) : w ≤ (w.newProject config spec seenFrom).1 :=
  kept_newProject le_perform_of_le le_rfl config spec seenFrom

theorem le_newAppFromTokens (w : Workspace) (config : Config) (name : Text) (tokens : List RawText)
    (project : Path) : w ≤ (w.newAppFromTokens config name tokens project).1 :=
  kept_newAppFromTokens le_perform_of_le le_rfl config name tokens project

theorem has_of_perform (h : w.perform (.directory p) = (v, .ok ())) : v.has p = .ok true := by
  rw [perform] at h
  split at h
  · rename_i m hs
    split at h
    · rename_i n hp
      cases h
      exact congrArg Except.ok (Memory.has_of_perform hp)
    · cases h
  · rename_i base hs
    simp only [Prod.mk.injEq, mapError_eq_ok] at h
    obtain ⟨rfl, h⟩ := h
    have hfind := Disk.find_of_makeDirectory (Prod.ext rfl h)
    simp only [has, hs, mapError_eq_ok]
    exact Disk.present_of_find hfind

theorem has_of_apply {report : Report} (h : w.apply plan = (v, .ok report)) :
    report.root = plan.root ∧ v.has plan.root = .ok true := by
  rw [apply] at h
  split at h
  · cases h
  · cases h
  · split at h
    · rename_i u hall
      cases h
      refine ⟨rfl, ?_⟩
      rw [show plan.writes = .directory plan.root :: plan.writes.tail from rfl] at hall
      rw [performAll] at hall
      split at hall
      · rename_i made hroot
        have hle := made.le_performAll plan.writes.tail
        rw [hall] at hle
        exact has_mono hle (has_of_perform hroot)
      · cases hall
    · cases h

theorem has_of_applyWithMessage {plan : Except Template.RenderError Plan}
    {message : Except Template.RenderError Text} {report : Report}
    (h : w.applyWithMessage plan message = (v, .ok report)) : v.has report.root = .ok true := by
  unfold applyWithMessage at h
  split at h
  · cases h
  · rename_i plan
    split at h
    · cases h
    · rename_i done heq
      obtain ⟨hroot, hhas⟩ := has_of_apply heq
      cases message with
      | error e => cases h
      | ok message =>
        cases h
        exact hroot ▸ hhas

theorem has_of_newApp {config : Config} {spec : AppSpec} {project : Path} {report : Report}
    (h : w.newApp config spec project = (v, .ok report)) : v.has report.root = .ok true := by
  rw [newApp] at h
  split at h
  · cases h
  · exact has_of_applyWithMessage h

theorem has_of_newAppFromTokens {config : Config} {name : Text} {tokens : List RawText}
    {project : Path} {report : Report}
    (h : w.newAppFromTokens config name tokens project = (v, .ok report)) :
    v.has report.root = .ok true := by
  rw [newAppFromTokens] at h
  split at h
  · cases h
  · exact has_of_newApp h

theorem apply_of_has (h : w.has plan.root = .ok true) :
    w.apply plan = (w, .error (.refused (.targetExists plan.root))) := by
  rw [apply]
  rw [h]

end Workspace

end Scaffold
