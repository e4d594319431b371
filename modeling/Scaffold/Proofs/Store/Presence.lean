import Scaffold.Proofs.Store.Recording
import Scaffold.Proofs.Store.Root
import Scaffold.Proofs.Store.Written

namespace Scaffold

open Outcome Disk

open Plan (Write)

/-- A path leads to a directory with nothing in it. -/
structure Disk.EmptyAt (d : Disk) (cwd : Location) (p : Path) : Prop where
  leads : d.follow (startOf p cwd) p.steps = .ok (p.locate cwd)
  directory : d.lookup (p.locate cwd) = some .directory
  bare : ∀ name, d.lookup (p.locate cwd ++ [name]) = none

theorem Disk.EmptyAt.lookup_below {d : Disk} {cwd : Location} {p : Path} (h : d.EmptyAt cwd p)
    {names : List Name} (hne : names ≠ []) : d.lookup (p.locate cwd ++ names) = none := by
  obtain ⟨name, rest, rfl⟩ := List.exists_cons_of_ne_nil hne
  refine Disk.lookup_below (h.bare name) ⟨rest, ?_⟩
  rw [List.append_assoc, List.singleton_append]

/-- A path above the path of something created, at which nothing was created itself. -/
def Plan.Implied (calls : List Write) (p : Path) : Prop :=
  p ∉ calls.map Write.path ∧ ∃ x ∈ calls, p.steps <+: x.path.steps

theorem Plan.not_implied_iff {calls : List Write} {p : Path} : ¬ Implied calls p ↔
    ((∃ x ∈ calls, p.steps <+: x.path.steps) ↔ p ∈ calls.map Write.path) := by
  constructor
  · intro hnot
    refine ⟨fun habove => by_contra fun hmem => hnot ⟨hmem, habove⟩, fun hmem => ?_⟩
    obtain ⟨x, hx, rfl⟩ := List.mem_map.1 hmem
    exact ⟨x, hx, List.prefix_rfl⟩
  · rintro hsame ⟨hmem, habove⟩
    exact hmem (hsame.1 habove)

namespace Workspace

variable {w v u : Workspace} {base p : Path} {m : Memory} {x : Write} {calls : List Write}
  {location place : Location}

def Refuses (w : Workspace) (x : Write) : Prop :=
  ∃ p, (w.perform x).2 = .error (.refused (.targetExists p))

theorem performAll_concat_eq_ok (h : w.performAll (calls ++ [x]) = (v, .ok ())) :
    ∃ u, w.performAll calls = (u, .ok ()) ∧ u.perform x = (v, .ok ()) := by
  obtain ⟨u, hcalls, hlast⟩ := performAll_append_eq_ok.1 h
  obtain ⟨t, hx, hnil⟩ := performAll_cons_eq_ok.1 hlast
  cases hnil
  exact ⟨u, hcalls, hx⟩

theorem has_in_memory (hs : w.store = .memory m) : w.has p = .ok (m.has p) := by
  rw [has, hs]

theorem refuses_iff_in_memory (hs : w.store = .memory m) :
    w.Refuses x ↔ w.has x.path = .ok true := by
  rw [Refuses, perform, hs, has_in_memory hs, Except.ok.injEq]
  cases hm : m.has x.path with
  | true => simp [Memory.perform, hm]
  | false => simp [Memory.perform_of_free hm]

theorem has_on_disk (hs : w.store = .disk base) :
    w.has p = .ok true ↔ ∃ entry, w.disk.find w.cwd (base.join p) = .ok entry := by
  rw [has_disk hs, mapError_eq_ok]
  exact ⟨find_of_present, fun ⟨_, hfind⟩ => present_of_find hfind⟩

/-- The disk refuses to create just what is there, as long as nothing leads upwards from the base.
-/
theorem refuses_iff_on_disk (hs : w.store = .disk base)
    (hbase : w.disk.follow (startOf base w.cwd) base.steps = .ok location)
    (hx : x.path.Inward) : w.Refuses x ↔ w.has x.path = .ok true := by
  obtain ⟨above, name, -, hjoin⟩ := hx.join_descend base
  have hsteps : (base.join x.path).steps = (base.descend above).steps ++ [.into name] := by
    rw [hjoin, Path.descend_concat]
  constructor
  · rintro ⟨q, hq⟩
    rw [has_disk hs, mapError_eq_ok]
    cases x with
    | directory p =>
      rw [perform_directory hs] at hq
      obtain ⟨error, hmake, hrefused⟩ := mapError_eq_error.1 hq
      obtain rfl := refusalOf_eq_refused hrefused
      have hmake : w.disk.makeDirectory w.cwd (base.join p) false = (_, .error .exists) :=
        Prod.ext rfl hmake
      have hsteady := steady_descend hbase (above ++ [name])
      rw [← hjoin] at hsteady
      rcases present_or_changed hmake with hthere | hnil | hchanged
      · exact hthere
      · exact absurd (hsteps.symm.trans hnil) (by simp)
      · exact absurd (hsteady.eq_of_exists hmake).le hchanged
    | file p content =>
      rw [perform_file hs] at hq
      split at hq
      · cases hq
      · rename_i hcreate
        obtain rfl := refusalOf_eq_refused (Except.error.inj hq)
        exact present_of_create hcreate
  · intro hthere
    obtain ⟨entry, hfind⟩ := (has_on_disk hs).1 hthere
    have hcreate : w.disk.create w.cwd (base.join x.path) x.entry = .error .exists := by
      rw [hjoin] at hfind ⊢
      exact create_of_find hfind
    rw [Refuses, perform_of_create_error hs hsteps hcreate nofun]
    exact ⟨_, rfl⟩

theorem lookup_of_perform (hs : w.store = .disk base) (h : w.perform x = (v, .ok ()))
    (place : Location) :
    v.disk.lookup place = w.disk.lookup place ∨ place ∈ (base.join x.path).way w.cwd := by
  cases x with
  | directory p =>
    rw [perform_directory hs] at h
    obtain ⟨rfl, hmake⟩ := Prod.mk.inj h
    have hmake : w.disk.makeDirectory w.cwd (base.join p) false = (_, .ok ()) :=
      Prod.ext rfl (mapError_eq_ok.1 hmake)
    exact (lookup_makeDirectory hmake place).imp_right And.left
  | file p content =>
    rw [perform_file hs] at h
    split at h
    · rename_i hcreate
      cases h
      rw [(create_locate hcreate).2.1]
      by_cases hplace : place = (base.join p).locate w.cwd
      · exact .inr (hplace ▸ Path.locate_mem_way _ _)
      · exact .inl (if_neg hplace)
    · cases h

theorem lookup_of_performAll (hs : w.store = .disk base) (h : w.performAll calls = (v, .ok ()))
    (place : Location) : v.disk.lookup place = w.disk.lookup place ∨
      ∃ x ∈ calls, place ∈ (base.join x.path).way w.cwd := by
  induction calls using List.reverseRecOn generalizing v with
  | nil =>
    cases h
    exact .inl rfl
  | append_singleton calls x ih =>
    obtain ⟨u, hcalls, hx⟩ := performAll_concat_eq_ok h
    have hle := le_performAll w calls
    rw [hcalls] at hle
    rcases ih hcalls with hsame | ⟨y, hy, hway⟩
    · rw [← hsame, ← hle.cwd]
      refine (lookup_of_perform (store_of_le hs hle) hx place).imp_right fun hway => ?_
      exact ⟨x, by simp, hway⟩
    · exact .inr ⟨y, List.mem_append_left _ hy, hway⟩

variable (hs : w.store = .disk base) (hempty : w.disk.EmptyAt w.cwd base)
  (h : w.performAll calls = (v, .ok ()))

include hs hempty h

theorem refuses_iff_after (hx : x.path.Inward) : v.Refuses x ↔ v.has x.path = .ok true := by
  have hle := le_performAll w calls
  rw [h] at hle
  have hbase : v.disk.follow (startOf base v.cwd) base.steps = .ok (base.locate w.cwd) := by
    rw [hle.cwd]
    exact follow_mono hle.disk hempty.leads
  exact refuses_iff_on_disk (store_of_le hs hle) hbase hx

theorem has_of_short (hp : p.Inward) (hlength : byteCount (base.join p).toText ≤ pathLimit)
    (hnames : ∀ name, .into name ∈ p.steps → checkName name = .ok ()) :
    ∃ there, v.has p = .ok there := by
  have hle := le_performAll w calls
  rw [h] at hle
  obtain ⟨there, hthere⟩ : ∃ there, v.disk.present v.cwd (base.join p) = .ok there := by
    refine present_of_short hlength fun name hname => ?_
    rw [hp.join_eq] at hname
    exact (List.mem_append.1 hname).elim (checkName_of_follow hempty.leads name) (hnames name)
  exact ⟨there, by rw [has_disk (store_of_le hs hle), hthere]; rfl⟩

variable (hcalls : ∀ x ∈ calls, x.path.Inward)

include hcalls

/-- In what was an empty directory there are the paths of what was created and all that lie above
them. -/
theorem has_iff_on_disk (hp : p.Inward) :
    v.has p = .ok true ↔ ∃ x ∈ calls, p.steps <+: x.path.steps := by
  have hle := le_performAll w calls
  rw [h] at hle
  rw [has_on_disk (store_of_le hs hle), hle.cwd]
  constructor
  · rintro ⟨entry, hfind⟩
    obtain ⟨above, name, hsteps, hjoin⟩ := hp.join_descend base
    rw [hjoin] at hfind
    have hthere := lookup_of_find_locate hfind
    rw [Path.locate_descend] at hthere
    have hnone := hempty.lookup_below (List.concat_ne_nil name above)
    rcases lookup_of_performAll hs h (base.locate w.cwd ++ (above ++ [name])) with
      hsame | ⟨x, hx, hway⟩
    · cases hthere.symm.trans (hsame.trans hnone)
    · obtain ⟨above', name', hsteps', hjoin'⟩ := (hcalls x hx).join_descend base
      rw [hjoin', Path.mem_way_descend_iff] at hway
      refine ⟨x, hx, ?_⟩
      rcases hway with hbase | ⟨names, hnames, heq⟩
      · cases hnone.symm.trans (directory_of_mem_way hempty.leads hempty.directory _ hbase)
      · rw [hsteps, hsteps', List.append_cancel_left heq]
        exact hnames.map _
  · rintro ⟨x, hx, more, hmore⟩
    have hfind := find_of_performAll hs h x hx
    rw [(hcalls x hx).join_eq, ← hmore, ← List.append_assoc] at hfind
    rw [hp.join_eq]
    exact find_of_append (by simp [hp.ne_nil]) hfind

theorem free_of_performAll : ({} : Memory).Free (calls.map Write.path) := by
  induction calls using List.reverseRecOn generalizing v with
  | nil => exact ⟨nofun, List.nodup_nil⟩
  | append_singleton calls x ih =>
    obtain ⟨u, hrest, hx⟩ := performAll_concat_eq_ok h
    have hbefore : ∀ y ∈ calls, y.path.Inward := fun y hy => hcalls y (List.mem_append_left _ hy)
    have hlast : x.path.Inward := hcalls x (by simp)
    have hnew : x.path ∉ calls.map Write.path := by
      intro hmem
      obtain ⟨y, hy, heq⟩ := List.mem_map.1 hmem
      have hthere := (has_iff_on_disk hs hempty hrest hbefore hlast).2
        ⟨y, hy, heq ▸ List.prefix_rfl⟩
      obtain ⟨q, hq⟩ := (refuses_iff_after hs hempty hrest hlast).2 hthere
      rw [hx] at hq
      cases hq
    rw [List.map_append, List.map_singleton]
    exact (ih hrest hbefore).concat rfl hnew

omit hs hempty h hcalls

theorem emptyAt_root (cwd : Location) : Disk.empty.EmptyAt cwd (Location.toPath []) where
  leads := rfl
  directory := lookup_root _
  bare _ := rfl

def onEmptyDisk : Workspace :=
  ⟨.empty, [], .disk (Location.toPath [])⟩

def inNewMemory : Workspace :=
  ⟨.empty, [], .memory {}⟩

/-- Where things are created one after the other in an empty directory of a disk, a new memory takes
them as well. Then, of the relative paths without `..`, the disk has those of what was created and
all above them, and the memory only has the former, so that they differ just at the paths that were
implied. Either refuses just what it has. -/
theorem stores_agree_iff (hs : w.store = .disk base) (hu : u.store = .memory {})
    (hempty : w.disk.EmptyAt w.cwd base) (hcalls : ∀ x ∈ calls, x.path.Inward)
    (h : w.performAll calls = (v, .ok ())) : ∃ t, u.performAll calls = (t, .ok ()) ∧
      (∀ p : Path, p.Inward →
        (v.has p = .ok true ↔ ∃ x ∈ calls, p.steps <+: x.path.steps) ∧
        t.has p = .ok (decide (p ∈ calls.map Write.path)) ∧
        ((v.has p = .ok true ↔ t.has p = .ok true) ↔ ¬ Plan.Implied calls p) ∧
        (byteCount (base.join p).toText ≤ pathLimit →
          (∀ name, .into name ∈ p.steps → checkName name = .ok ()) →
          ∃ there, v.has p = .ok there)) ∧
      ∀ x : Write, x.path.Inward →
        (v.Refuses x ↔ v.has x.path = .ok true) ∧ (t.Refuses x ↔ t.has x.path = .ok true) ∧
        ((v.Refuses x ↔ t.Refuses x) ↔ ¬ Plan.Implied calls x.path) := by
  have hrun := performAll_of_free hu (free_of_performAll hs hempty h hcalls)
  generalize ht : ({ u with store := .memory (calls.foldl Memory.record {}) } : Workspace) = t
    at hrun
  have hstore : t.store = .memory (calls.foldl Memory.record {}) := ht ▸ rfl
  have hhas (p : Path) : t.has p = .ok (decide (p ∈ calls.map Write.path)) := by
    rw [has_in_memory hstore, Except.ok.injEq, Bool.eq_iff_iff, Memory.has_foldl_record,
      decide_eq_true_iff]
    exact or_iff_right nofun
  have hknown (p : Path) : t.has p = .ok true ↔ p ∈ calls.map Write.path := by
    rw [hhas, Except.ok.injEq, decide_eq_true_iff]
  have hdisk {p : Path} (hp : p.Inward) := has_iff_on_disk hs hempty h hcalls hp
  refine ⟨t, hrun, fun p hp => ?_, fun x hx => ?_⟩
  · refine ⟨hdisk hp, hhas p, ?_, has_of_short hs hempty h hp⟩
    rw [hdisk hp, hknown, Plan.not_implied_iff]
  · have hd := refuses_iff_after hs hempty h hx
    have hm := refuses_iff_in_memory (x := x) hstore
    refine ⟨hd, hm, ?_⟩
    rw [hd, hm, hdisk hx, hknown, Plan.not_implied_iff]

theorem stores_agree_iff_nested :
    let calls : List Write := [.directory (.ofText "a/b"), .file (.ofText "a/b/c") "start()"]
    ∃ v t, onEmptyDisk.performAll calls = (v, .ok ()) ∧
      inNewMemory.performAll calls = (t, .ok ()) ∧
      v.Refuses (.directory (.ofText "a/b/c")) ∧ t.Refuses (.directory (.ofText "a/b/c")) ∧
      v.has (.ofText "c") = .ok false ∧ t.has (.ofText "c") = .ok false := by
  intro calls
  have hcalls : ∀ x ∈ calls, x.path.Inward := by decide
  obtain ⟨v, _, h⟩ : ∃ v u, onEmptyDisk.performAll calls = (v, .ok u) :=
    eq_ok_of_isSome (by decide +kernel)
  obtain ⟨t, ht, hhas, hrefuses⟩ :=
    stores_agree_iff (u := inNewMemory) rfl rfl (emptyAt_root []) hcalls h
  obtain ⟨hdisk, hmemory, -, -⟩ := hhas (.ofText "a/b/c") (by decide)
  obtain ⟨hv, hm, -⟩ := hrefuses (.directory (.ofText "a/b/c")) (by decide)
  obtain ⟨hfree, hunknown, -, hshort⟩ := hhas (.ofText "c") (by decide)
  obtain ⟨there, hthere⟩ := hshort (by decide +kernel) fun name hname => by
    cases List.mem_singleton.1 hname
    decide
  have hnot : ¬ ∃ x ∈ calls, (Path.ofText "c").steps <+: x.path.steps := by decide
  refine ⟨v, t, h, ht, hv.2 (hdisk.2 (by decide)), hm.2 hmemory, ?_, hunknown⟩
  cases there with
  | false => exact hthere
  | true => exact absurd (hfree.1 hthere) hnot

/-- Above a directory that is created, the disk has a directory that the memory does not know of. -/
theorem stores_disagree :
    let calls : List Write := [.directory (.ofText "a/b")]
    ∃ v t, onEmptyDisk.performAll calls = (v, .ok ()) ∧
      inNewMemory.performAll calls = (t, .ok ()) ∧
      (∀ x ∈ calls, x.path.Inward) ∧ (Path.ofText "a").Inward ∧
      v.has (.ofText "a") = .ok true ∧ t.has (.ofText "a") = .ok false ∧
      v.Refuses (.directory (.ofText "a")) ∧ ¬ t.Refuses (.directory (.ofText "a")) := by
  intro calls
  obtain ⟨v, _, hv⟩ : ∃ v u, onEmptyDisk.performAll calls = (v, .ok u) :=
    eq_ok_of_isSome (by decide +kernel)
  have hrefused : ((onEmptyDisk.performAll calls).1.perform (.directory (.ofText "a"))).2 =
      .error (.refused (.targetExists (.ofText "/a"))) := by decide +kernel
  have hhas : (onEmptyDisk.performAll calls).1.has (.ofText "a") = .ok true := by decide +kernel
  rw [hv] at hrefused hhas
  refine ⟨v, _, hv, rfl, by decide, by decide, hhas, by decide, ⟨_, hrefused⟩, ?_⟩
  rintro ⟨p, hp⟩
  cases hp

end Workspace

end Scaffold
