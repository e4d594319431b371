import Scaffold.Proofs.Disk.Descent
import Scaffold.Proofs.Plan.Layout
import Scaffold.Scaffolder

namespace Scaffold

open Outcome Disk

/-- The same plan with its root at a place. -/
def Plan.settle (plan : Plan) (location : Location) : Plan :=
  { plan with root := location.toPath }

/-- What a plan puts where, as seen from a base directory and a working directory. -/
def Plan.region (plan : Plan) (base : Path) (cwd : Location) : List (Location × Entry) :=
  (plan.settle ((base.join plan.root).locate cwd)).entries

namespace Workspace

open Plan

variable {w v : Workspace} {base p : Path} {location : Location} {plan : Plan} {report : Report}
  {x : Write}

def target (w : Workspace) (base : Path) (x : Write) : Location × Entry :=
  ((base.join x.path).locate w.cwd, x.entry)

theorem target_inner (w : Workspace) (base : Path) (plan : Plan) :
    plan.inner.map (w.target base) =
      (plan.settle ((base.join plan.root).locate w.cwd)).inner.map Write.placed := by
  have hbelow (t : Text) : (base.join (plan.root.below t)).locate w.cwd =
      (((base.join plan.root).locate w.cwd).toPath.below t).locate [] := by
    rw [← Path.below_join, Path.below, Path.below, Path.locate_join (base.join plan.root),
      Path.locate_join (Location.toPath _), Location.locate_toPath]
  simp only [Plan.inner, settle, List.map_append, List.map_map, Function.comp_def, target,
    Write.placed, Write.place, Write.path, Write.entry, hbelow]

theorem region_eq (w : Workspace) (base : Path) (plan : Plan) : plan.region base w.cwd =
    ((base.join plan.root).locate w.cwd, .directory) :: plan.inner.map (w.target base) := by
  rw [region, Plan.entries, writes_eq, List.map_cons, ← target_inner, Write.placed, Write.place]
  exact congrArg (fun place => (place, _) :: _) (Location.locate_toPath _ _)

theorem perform_of_create (hs : w.store = .disk base) {disk : Disk}
    (hc : w.disk.create w.cwd (base.join x.path) x.entry = .ok disk) :
    w.perform x = ({ w with disk }, .ok ()) := by
  rw [perform]
  rw [hs]
  cases x with
  | directory p =>
    have hmake := makeDirectory_of_create hc
    simp only [Write.path] at hmake ⊢
    simp [hmake, Except.mapError]
  | file p content =>
    have hcreate : w.disk.create w.cwd (base.join p) (.file (encode content)) = .ok disk := hc
    simp only [Write.path, hcreate]

theorem perform_of_create_error (hs : w.store = .disk base) {error : SystemError}
    {before : List Path.Step} {s : Path.Step} (hsteps : (base.join x.path).steps = before ++ [s])
    (hc : w.disk.create w.cwd (base.join x.path) x.entry = .error error) (hne : error ≠ .noEntry) :
    w.perform x = (w, .error (refusalOf (base.join x.path) error)) := by
  rw [perform]
  rw [hs]
  cases x with
  | directory p =>
    have hmake := makeDirectory_of_create_error hsteps hc hne
    simp only [Write.path] at hmake ⊢
    simp only [hmake, Except.mapError, ← hs]
  | file p content =>
    have hcreate : w.disk.create w.cwd (base.join p) (.file (encode content)) = .error error := hc
    simp only [Write.path, hcreate]

theorem join_of_mem_inner (hlayout : Layout plan.directories (plan.files.map (·.path)))
    (base : Path) (hx : x ∈ plan.inner) :
    ∃ above name, base.join x.path = (base.join plan.root).descend (above ++ [name]) ∧
      ∀ other ∈ above ++ [name], checkName other = .ok () := by
  have hbelow {t : Text} (ht : t ∈ plan.directories ++ plan.files.map (·.path)) :
      ∃ above name, base.join (plan.root.below t) =
        (base.join plan.root).descend (above ++ [name]) ∧
        ∀ other ∈ above ++ [name], checkName other = .ok () := by
    obtain ⟨hdown, hne⟩ := hlayout.downward t ht
    refine ⟨(Path.descent t).dropLast, (Path.descent t).getLast hne, ?_, ?_⟩
    · rw [List.dropLast_append_getLast, ← Path.below_join, Path.below_eq_descend hdown]
    · rw [List.dropLast_append_getLast]
      exact hlayout.short t ht
  rcases List.mem_append.1 hx with hx | hx
  · obtain ⟨t, ht, rfl⟩ := List.mem_map.1 hx
    exact hbelow (List.mem_append_left _ ht)
  · obtain ⟨file, hfile, rfl⟩ := List.mem_map.1 hx
    exact hbelow (List.mem_append_right _ (List.mem_map_of_mem hfile))

/-- Writing to a free place in a directory that a path leads to or below it: it succeeds and fills
the place, or else the system does not take the path. -/
theorem perform_descend {above : List Name} {name : Name} (hs : w.store = .disk base)
    (hf : w.disk.follow (startOf p w.cwd) p.steps = .ok location)
    (hx : base.join x.path = p.descend (above ++ [name]))
    (hn : ∀ other ∈ above ++ [name], checkName other = .ok ())
    (hfree : w.disk.lookup (w.target base x).1 = none)
    (hd : w.disk.lookup (w.target base x).1.dropLast = some .directory) :
    (∃ disk, w.perform x = ({ w with disk }, .ok ()) ∧ w.disk ≤ disk ∧
      disk.lookup = Function.update w.disk.lookup (w.target base x).1 (some x.entry)) ∨
    ∃ error, w.perform x = (w, .error (.system error)) ∧
      checkPath (base.join x.path) = .error error := by
  have hplace : (w.target base x).1 = location ++ above ++ [name] := by
    rw [target, hx, Path.locate_descend, List.append_assoc]
    exact congrArg (· ++ _) (follow_eq hf).symm
  have hsteps : (base.join x.path).steps = (p.steps ++ above.map .into) ++ [.into name] := by
    rw [hx, Path.descend, List.map_append, List.append_assoc]
    rfl
  cases hc : checkPath (base.join x.path) with
  | error error =>
    have hcreate : w.disk.create w.cwd (base.join x.path) x.entry = .error error :=
      create_of_checkPath hc
    have hne : error ≠ .noEntry := by
      rcases checkPath_eq_error hc with rfl | rfl <;> decide
    refine .inr ⟨error, ?_, rfl⟩
    rw [perform_of_create_error hs hsteps hcreate hne]
    rcases checkPath_eq_error hc with rfl | rfl <;> rfl
  | ok _ =>
    rw [hplace] at hfree hd
    rw [List.dropLast_concat] at hd
    rw [hx] at hc
    obtain ⟨disk, hcreate⟩ : ∃ disk, w.disk.create w.cwd (base.join x.path) x.entry = .ok disk := by
      rw [hx]
      exact create_of_slot (slot_descend hf hn hd hc) hfree
    refine .inl ⟨disk, perform_of_create hs hcreate, le_of_create hcreate, ?_⟩
    funext place
    rw [(create_locate hcreate).2.1, Function.update_apply]
    rfl

theorem performAll_descend {xs : List Write} (hs : w.store = .disk base)
    (hf : w.disk.follow (startOf p w.cwd) p.steps = .ok location)
    (hpaths : ∀ x ∈ xs, ∃ above name, base.join x.path = p.descend (above ++ [name]) ∧
      ∀ other ∈ above ++ [name], checkName other = .ok ())
    (hfits : Fits w.disk.lookup (xs.map (w.target base))) :
    (∃ v, w.performAll xs = (v, .ok ()) ∧ ∀ place, v.disk.lookup place =
      (w.disk.lookup place).or ((xs.map (w.target base)).lookup place)) ∨
    ∃ v error, w.performAll xs = (v, .error (.system error)) ∧
      ∃ x ∈ xs, checkPath (base.join x.path) = .error error := by
  induction xs generalizing w with
  | nil => exact .inl ⟨w, rfl, fun place => by simp⟩
  | cons x rest ih =>
    obtain ⟨-, (hfree : w.disk.lookup (w.target base x).1 = none), hd, hrest⟩ := hfits
    obtain ⟨above, name, hx, hn⟩ := hpaths x List.mem_cons_self
    rcases perform_descend hs hf hx hn hfree hd with
      ⟨disk, hperform, hle, hupdate⟩ | ⟨error, hperform, hcheck⟩
    · have hall : w.performAll (x :: rest) = ({ w with disk } : Workspace).performAll rest := by
        simp only [performAll, hperform]
      rw [hall]
      rcases @ih { w with disk } hs (follow_mono hle hf)
        (fun y hy => hpaths y (List.mem_cons_of_mem _ hy)) (by rwa [hupdate]) with
          ⟨v, hv, hlookup⟩ | ⟨v, error, hv, y, hy, hcheck⟩
      · refine .inl ⟨v, hv, fun place => ?_⟩
        rw [hlookup, List.map_cons, List.lookup_cons]
        simp only [hupdate]
        by_cases heq : place = (w.target base x).1
        · rw [heq, Function.update_self, hfree, beq_self_eq_true]
          rfl
        · rw [Function.update_of_ne heq, beq_eq_false_iff_ne.2 heq]
          rfl
      · exact .inr ⟨v, error, hv, y, List.mem_cons_of_mem _ hy, hcheck⟩
    · refine .inr ⟨w, error, ?_, x, List.mem_cons_self, hcheck⟩
      rw [performAll, hperform]

theorem perform_directory (hs : w.store = .disk base) (p : Path) :
    w.perform (.directory p) =
      ({ w with disk := (w.disk.makeDirectory w.cwd (base.join p) false).1 },
        (w.disk.makeDirectory w.cwd (base.join p) false).2.mapError (refusalOf (base.join p))) := by
  rw [perform]
  rw [hs]
  rfl

theorem perform_file (hs : w.store = .disk base) (p : Path) (content : Text) :
    w.perform (.file p content) =
      match w.disk.create w.cwd (base.join p) (.file (encode content)) with
      | .ok disk => ({ w with disk }, .ok ())
      | .error e => (w, .error (refusalOf (base.join p) e)) := by
  rw [perform]
  rw [hs]
  rfl

theorem has_disk (hs : w.store = .disk base) (p : Path) :
    w.has p = (w.disk.present w.cwd (base.join p)).mapError .system := by
  rw [has]
  rw [hs]

theorem refusalOf_eq_refused {error : SystemError} {refusal : Refusal}
    (h : refusalOf p error = .refused refusal) : error = .exists := by
  cases error <;> first | rfl | cases h

section

variable (hs : w.store = .disk base)

include hs

theorem performAll_of_root_error {e : Disk} {error : SystemError}
    (hmake : w.disk.makeDirectory w.cwd (base.join plan.root) false = (e, .error error)) :
    w.performAll plan.writes =
      ({ w with disk := e }, .error (refusalOf (base.join plan.root) error)) := by
  have hperform := perform_directory hs plan.root
  rw [hmake] at hperform
  rw [writes_eq]
  simp only [performAll, hperform, Except.mapError]

theorem made_of_apply (h : w.apply plan = (v, .ok report)) :
    ∃ e, w.disk.makeDirectory w.cwd (base.join plan.root) false = (e, .ok ()) ∧
      w.performAll plan.writes = (v, .ok ()) := by
  rw [apply] at h
  split at h
  · cases h
  · cases h
  · split at h
    · rename_i heq
      cases h
      cases hmake : w.disk.makeDirectory w.cwd (base.join plan.root) false with
      | mk e result =>
        cases result with
        | ok _ => exact ⟨e, rfl, heq⟩
        | error error =>
          rw [performAll_of_root_error hs hmake] at heq
          cases heq
    · cases h

variable (hlayout : Layout plan.directories (plan.files.map (·.path)))

include hlayout

theorem performAll_of_made {e : Disk}
    (hmake : w.disk.makeDirectory w.cwd (base.join plan.root) false = (e, .ok ())) :
    (∃ v, w.performAll plan.writes = (v, .ok ()) ∧ ∀ place, v.disk.lookup place =
      (e.lookup place).or ((plan.region base w.cwd).lookup place)) ∨
    ∃ v error, w.performAll plan.writes = (v, .error (.system error)) ∧
      ∃ x ∈ plan.inner, checkPath (base.join x.path) = .error error := by
  obtain ⟨-, end', hf, hd⟩ := find_eq_ok.1 (find_of_makeDirectory_ok hmake)
  have hend : end' = (base.join plan.root).locate w.cwd := follow_eq hf
  rw [hend] at hf hd
  have hfits : Fits e.lookup (plan.inner.map (w.target base)) := by
    rw [target_inner]
    exact Layout.fits hlayout rfl hd fun names hne =>
      lookup_below_makeDirectory hmake (List.prefix_append _ names) (by simp [hne])
  have hall : w.performAll plan.writes =
      ({ w with disk := e } : Workspace).performAll plan.inner := by
    have hperform := perform_directory hs plan.root
    rw [hmake] at hperform
    rw [writes_eq]
    simp only [performAll, hperform, Except.mapError]
  rw [hall]
  rcases @performAll_descend { w with disk := e } _ _ _ _ hs hf
      (fun x hx => join_of_mem_inner hlayout base hx) hfits with ⟨v, hv, hlookup⟩ | hfailed
  · refine .inl ⟨v, hv, fun place => ?_⟩
    rw [hlookup, region_eq, List.lookup_cons]
    by_cases hroot : place = (base.join plan.root).locate w.cwd
    · rw [hroot, hd]
      rfl
    · rw [beq_eq_false_iff_ne.2 hroot]
      rfl
  · exact .inr hfailed

/-- A plan is refused because its root is there, which is found before anything was written or when
the root is to be created. -/
theorem refused_of_apply {refusal : Refusal} (h : w.apply plan = (v, .error (.refused refusal))) :
    w.disk.present w.cwd (base.join plan.root) = .ok true ∧ v = w ∨
      w.disk.present w.cwd (base.join plan.root) = .ok false ∧
        ∃ e, w.disk.makeDirectory w.cwd (base.join plan.root) false = (e, .error .exists) ∧
          v = { w with disk := e } := by
  rw [apply] at h
  rw [has_disk hs] at h
  split at h
  · rename_i hhas
    cases h
    obtain ⟨_, -, herror⟩ := mapError_eq_error.1 hhas
    cases herror
  · rename_i hhas
    cases h
    exact .inl ⟨mapError_eq_ok.1 hhas, rfl⟩
  · rename_i hhas
    refine .inr ⟨mapError_eq_ok.1 hhas, ?_⟩
    split at h
    · cases h
    · rename_i hall
      cases h
      cases hmake : w.disk.makeDirectory w.cwd (base.join plan.root) false with
      | mk e result =>
        cases result with
        | ok _ =>
          rcases performAll_of_made hs hlayout hmake with ⟨_, hv, -⟩ | ⟨_, _, hv, -⟩ <;>
            rw [hv] at hall <;> cases hall
        | error error =>
          rw [performAll_of_root_error hs hmake] at hall
          obtain ⟨hv, herror⟩ := Prod.mk.inj hall
          obtain rfl := refusalOf_eq_refused (Except.error.inj herror)
          exact ⟨e, rfl, hv.symm⟩

/-- Where the way to the root is steady, a plan is refused only before anything was written. -/
theorem apply_refused_of_steady {refusal : Refusal}
    (hsteady : w.disk.Steady w.cwd (base.join plan.root))
    (h : w.apply plan = (v, .error (.refused refusal))) : v = w := by
  rcases refused_of_apply hs hlayout h with ⟨-, hv⟩ | ⟨-, e, hmake, rfl⟩
  · exact hv
  · rw [hsteady.eq_of_exists hmake]

theorem lookup_of_apply_way (h : w.apply plan = (v, .ok report)) (place : Location) :
    v.disk.lookup place = ((w.disk.lookup place).or
      (if place ∈ (base.join plan.root).way w.cwd then some .directory else none)).or
        ((plan.region base w.cwd).lookup place) := by
  obtain ⟨e, hmake, hall⟩ := made_of_apply hs h
  rcases performAll_of_made hs hlayout hmake with ⟨_, hv, hlookup⟩ | ⟨_, _, hv, -⟩
  · rw [hv] at hall
    cases hall
    rw [hlookup, lookup_of_makeDirectory_way hmake]
  · rw [hv] at hall
    cases hall

theorem apply_of_makeDirectory {e : Disk}
    (hmake : w.disk.makeDirectory w.cwd (base.join plan.root) false = (e, .ok ()))
    (hhas : w.has plan.root = .ok false)
    (htakes : ∀ x ∈ plan.inner, checkPath (base.join x.path) = .ok ()) :
    ∃ v, w.apply plan = (v, .ok plan.report) := by
  rcases performAll_of_made hs hlayout hmake with ⟨v, hv, -⟩ | ⟨_, _, -, x, hx, hcheck⟩
  · refine ⟨v, ?_⟩
    rw [apply]
    rw [hhas]
    simp only [hv]
  · rw [htakes x hx] at hcheck
    cases hcheck

end

end Workspace

end Scaffold
