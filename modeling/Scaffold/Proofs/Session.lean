import Scaffold.Proofs.Store.Growth

namespace Scaffold

/-- What can be asked of a store and of a scaffolder that works with it. -/
inductive Operation where
  | has (path : Path)
  | perform (write : Plan.Write)
  | apply (plan : Plan)
  | newProject (config : Config) (spec : ProjectSpec) (seenFrom : Option Path)
  | newApp (config : Config) (spec : AppSpec) (project : Path)
  | newAppFromTokens (config : Config) (name : Text) (tokens : List RawText) (project : Path)

inductive Answer where
  | known (present : Bool)
  | written
  | created (report : Report)

def Workspace.answer (w : Workspace) : Operation → Workspace × Except Failure Answer
  | .has p => (w, (w.has p).map .known)
  | .perform x => (w.perform x).map id (·.map fun () => .written)
  | .apply plan => (w.apply plan).map id (·.map .created)
  | .newProject config spec seenFrom => (w.newProject config spec seenFrom).map id (·.map .created)
  | .newApp config spec project => (w.newApp config spec project).map id (·.map .created)
  | .newAppFromTokens config name tokens project =>
    (w.newAppFromTokens config name tokens project).map id (·.map .created)

/-- What operations write to: the memory of the session, or its disk as seen from a directory. -/
inductive Writer where
  | memory
  | disk (base : Path)
  deriving DecidableEq

/-- The state between two operations. -/
structure Session where
  disk : Disk
  cwd : Location
  memory : Memory

namespace Session

def store (s : Session) : Writer → Store
  | .memory => .memory s.memory
  | .disk base => .disk base

/-- Where an operation works. -/
def workspace (s : Session) (writer : Writer) : Workspace :=
  ⟨s.disk, s.cwd, s.store writer⟩

/-- What is left when an operation has ended in a workspace. -/
def leave (s : Session) (w : Workspace) : Session where
  disk := w.disk
  cwd := s.cwd
  memory := match w.store with
    | .memory m => m
    | .disk _ => s.memory

def answer (s : Session) (writer : Writer) (operation : Operation) :
    Session × Except Failure Answer :=
  ((s.workspace writer).answer operation).map s.leave id

def run (s : Session) : List (Writer × Operation) → Session
  | [] => s
  | (writer, operation) :: rest => run (s.answer writer operation).1 rest

end Session

namespace Workspace

variable {w v : Workspace} {operation : Operation} {report : Report}

/-- What each write keeps, every operation keeps. -/
theorem kept_answer {P : Workspace → Prop}
    (hstep : ∀ (w : Workspace) (x : Plan.Write), P w → P (w.perform x).1) (h : P w)
    (operation : Operation) : P (w.answer operation).1 := by
  cases operation with
  | has p => exact h
  | perform x => exact hstep w x h
  | apply plan => exact kept_apply hstep h plan
  | newProject config spec seenFrom => exact kept_newProject hstep h config spec seenFrom
  | newApp config spec project => exact kept_newApp hstep h config spec project
  | newAppFromTokens config name tokens project =>
    exact kept_newAppFromTokens hstep h config name tokens project

theorem le_answer (w : Workspace) (operation : Operation) : w ≤ (w.answer operation).1 :=
  kept_answer le_perform_of_le le_rfl operation

theorem has_of_created (h : w.answer operation = (v, .ok (.created report))) :
    v.has report.root = .ok true := by
  have hreport {r : Workspace × Except Failure Report}
      (hr : r.map id (·.map Answer.created) = (v, .ok (.created report))) :
      r = (v, .ok report) := by
    obtain ⟨u, result⟩ := r
    cases result <;> cases hr
    rfl
  cases operation with
  | has p =>
    obtain ⟨-, h⟩ := Prod.ext_iff.1 h
    cases hp : w.has p <;> simp only [answer, hp] at h <;> cases h
  | perform x =>
    obtain ⟨-, h⟩ := Prod.ext_iff.1 h
    cases hx : (w.perform x).2 <;> simp only [answer, Prod.map, hx] at h <;> cases h
  | apply plan =>
    obtain ⟨hroot, hhas⟩ := has_of_apply (hreport h)
    exact hroot ▸ hhas
  | newProject config spec seenFrom => exact has_of_applyWithMessage (hreport h)
  | newApp config spec project => exact has_of_newApp (hreport h)
  | newAppFromTokens config name tokens project => exact has_of_newAppFromTokens (hreport h)

end Workspace

namespace Session

variable {s t : Session} {writer : Writer} {operation : Operation}

/-- The second session is the first one some steps later. -/
structure Grown (s t : Session) : Prop where
  cwd : t.cwd = s.cwd
  disk : s.disk ≤ t.disk
  memory : s.memory ≤ t.memory

instance : Preorder Session where
  le := Grown
  le_refl s := ⟨rfl, le_refl s.disk, le_refl s.memory⟩
  le_trans _ _ _ ht hu :=
    ⟨hu.cwd.trans ht.cwd, ht.disk.trans hu.disk, ht.memory.trans hu.memory⟩

theorem workspace_mono (hle : s ≤ t) (writer : Writer) :
    s.workspace writer ≤ t.workspace writer := by
  obtain ⟨hcwd, hdisk, hmemory⟩ := hle
  refine ⟨hcwd, hdisk, ?_⟩
  cases writer with
  | memory => exact hmemory
  | disk base => exact le_refl (Store.disk base)

theorem le_leave {w : Workspace} (hle : s.workspace writer ≤ w) : s ≤ s.leave w := by
  obtain ⟨-, hdisk, hstore⟩ := hle
  refine ⟨rfl, hdisk, ?_⟩
  rw [leave]
  cases writer with
  | memory =>
    cases hw : w.store with
    | memory m => rw [hw] at hstore; exact hstore
    | disk base => exact le_rfl
  | disk base =>
    cases hw : w.store with
    | memory m => rw [hw] at hstore; exact hstore.elim
    | disk other => exact le_rfl

theorem workspace_leave {w : Workspace} (hle : s.workspace writer ≤ w) :
    (s.leave w).workspace writer = w := by
  obtain ⟨hcwd, -, hstore⟩ := hle
  obtain ⟨disk, cwd, store⟩ := w
  cases hcwd
  cases writer with
  | memory =>
    cases store with
    | memory m => rfl
    | disk base => exact hstore.elim
  | disk base =>
    cases store with
    | memory m => exact hstore.elim
    | disk other => cases hstore; rfl

theorem leave_workspace (s : Session) (writer : Writer) : s.leave (s.workspace writer) = s := by
  cases writer <;> rfl

theorem le_answer (s : Session) (writer : Writer) (operation : Operation) :
    s ≤ (s.answer writer operation).1 :=
  le_leave ((s.workspace writer).le_answer operation)

theorem le_run (s : Session) (steps : List (Writer × Operation)) : s ≤ s.run steps := by
  induction steps generalizing s with
  | nil => exact le_rfl
  | cons step rest ih => exact (s.le_answer step.1 step.2).trans (ih _)

theorem run_append (s : Session) (before after : List (Writer × Operation)) :
    s.run (before ++ after) = (s.run before).run after := by
  induction before generalizing s with
  | nil => rfl
  | cons step rest ih => exact ih _

theorem has_of_created {report : Report}
    (h : s.answer writer operation = (t, .ok (.created report))) :
    (t.workspace writer).has report.root = .ok true := by
  obtain ⟨ht, hanswer⟩ := Prod.ext_iff.1 h
  have hw := workspace_leave ((s.workspace writer).le_answer operation)
  change s.leave ((s.workspace writer).answer operation).1 = t at ht
  rw [← ht, hw]
  exact Workspace.has_of_created (Prod.ext rfl hanswer)

theorem answer_apply_of_has {plan : Plan} (h : (s.workspace writer).has plan.root = .ok true) :
    s.answer writer (.apply plan) = (s, .error (.refused (.targetExists plan.root))) := by
  simp only [answer, Workspace.answer, Workspace.apply_of_has h, Prod.map, id, leave_workspace]
  rfl

/--
At each point of a session, what stands on the disk and what the memory knows is there unchanged at
every later point. Once a request has created a root, a plan with the same root is refused by the
same writer at every later point, and changes nothing.
-/
theorem nothing_overwritten (s : Session) :
    (∀ before after,
      (∀ location entry, (s.run before).disk.lookup location = some entry →
        (s.run (before ++ after)).disk.lookup location = some entry) ∧
      ∀ p, (s.run before).memory.has p = true →
        (s.run (before ++ after)).memory.has p = true ∧
        (p ∈ (s.run (before ++ after)).memory.directories ↔
          p ∈ (s.run before).memory.directories) ∧
        (s.run (before ++ after)).memory.files.lookup p = (s.run before).memory.files.lookup p) ∧
    ∀ before writer operation now report after plan,
      (s.run before).answer writer operation = (now, .ok (.created report)) →
      plan.root = report.root →
      (now.run after).answer writer (.apply plan) =
        (now.run after, .error (.refused (.targetExists plan.root))) := by
  constructor
  · intro before after
    rw [run_append]
    obtain ⟨-, hdisk, hmemory⟩ := (s.run before).le_run after
    refine ⟨hdisk, fun p hp => ⟨Memory.Grown.has hmemory hp, ?_, ?_⟩⟩
    · exact Memory.mem_directories_iff_of_le hmemory hp
    · exact Memory.lookup_files_of_le hmemory hp
  · intro before writer operation now report after plan hcreated hroot
    apply answer_apply_of_has
    rw [hroot]
    exact Workspace.has_mono (workspace_mono (now.le_run after) writer) (has_of_created hcreated)

theorem nothing_overwritten_blog :
    let plan : Plan := ⟨.ofText "work/blog", ["lib"], [⟨"index.js", "connect()"⟩]⟩
    let start : Session := ⟨.empty, [], {}⟩
    let writer := Writer.disk (.ofText "/")
    let now := (start.answer writer (.apply plan)).1
    let after := [(writer, .perform (.file (.ofText "work/blog/lib") [])),
      (.memory, .perform (.directory (.ofText "work/blog")))]
    start.answer writer (.apply plan) = (now, .ok (.created plan.report)) ∧
      (now.run after).answer writer (.apply plan) =
        (now.run after, .error (.refused (.targetExists plan.root))) := by
  intro plan start writer now after
  have h : start.answer writer (.apply plan) = (now, .ok (.created plan.report)) := by rfl
  exact ⟨h, (nothing_overwritten start).2 [] writer (.apply plan) now plan.report after plan h rfl⟩

end Session

end Scaffold
