import Mathlib.Data.List.Basic
import Mathlib.Order.Basic
import Scaffold.Disk.Create
import Scaffold.Proofs.Outcome

namespace Scaffold.Disk

open Outcome

/-- Whatever stands on the first disk stands on the second one, as it is. -/
instance : Preorder Disk where
  le d e := ∀ location entry, d.lookup location = some entry → e.lookup location = some entry
  le_refl _ _ _ h := h
  le_trans _ _ _ hd he location entry h := he location entry (hd location entry h)

theorem lookup_empty (location : Location) :
    empty.lookup location = none ∨ empty.lookup location = some .directory := by
  by_cases h : location = [] <;> simp [lookup, entryIn, empty, h]

variable {d e : Disk} {cwd location place : Location} {p : Path} {entry : Entry}

theorem lookup_mono (hle : d ≤ e) (h : d.lookup location = some entry) :
    e.lookup location = some entry :=
  hle location entry h

/-- Where the larger disk has something else, there was nothing. -/
theorem lookup_eq_or_missing (hle : d ≤ e) (place : Location) :
    e.lookup place = d.lookup place ∨ d.lookup place = none := by
  cases h : d.lookup place with
  | none => exact .inr rfl
  | some entry => exact .inl (lookup_mono hle h)

theorem missing_of_le (hle : d ≤ e) (h : e.lookup place = none) : d.lookup place = none := by
  rcases lookup_eq_or_missing hle place with hsame | hmissing
  · rwa [hsame] at h
  · exact hmissing

theorem step_eq_ok {s : Path.Step} (h : d.step location s = .ok place) :
    d.lookup location = some .directory ∧
      ((s = .up ∧ place = location.dropLast) ∨
        ∃ name, s = .into name ∧ checkName name = .ok () ∧ place = location ++ [name] ∧
          ∃ entry, d.lookup (location ++ [name]) = some entry) := by
  unfold step at h
  split at h
  · rename_i hd
    refine ⟨hd, ?_⟩
    cases s with
    | up => cases h; exact .inl ⟨rfl, rfl⟩
    | into name =>
      obtain ⟨_, hc, h⟩ := bind_eq_ok.1 h
      split at h
      · cases h
      · rename_i hn
        cases h
        exact .inr ⟨name, rfl, hc, rfl, Option.ne_none_iff_exists'.1 hn⟩
  · cases h

theorem step_mono {s : Path.Step} (hle : d ≤ e) (h : d.step location s = .ok place) :
    e.step location s = .ok place := by
  obtain ⟨hd, hs⟩ := step_eq_ok h
  unfold step
  rw [if_pos (lookup_mono hle hd)]
  rcases hs with ⟨rfl, rfl⟩ | ⟨name, rfl, hc, rfl, entry, hn⟩
  · rfl
  · simp only [hc, lookup_mono hle hn]
    rfl

theorem follow_mono {steps : List Path.Step} (hle : d ≤ e)
    (h : d.follow location steps = .ok place) : e.follow location steps = .ok place := by
  induction steps generalizing location with
  | nil => exact h
  | cons s rest ih =>
    obtain ⟨next, hs, hr⟩ := bind_eq_ok.1 h
    exact bind_eq_ok.2 ⟨next, step_mono hle hs, ih hr⟩

theorem follow_append {steps more : List Path.Step} :
    d.follow location (steps ++ more) = d.follow location steps >>= (d.follow · more) := by
  induction steps generalizing location with
  | nil => rfl
  | cons s rest ih =>
    simp only [List.cons_append, follow, ih, bind_assoc]

theorem find_eq_ok : d.find cwd p = .ok entry ↔ checkPath p = .ok () ∧
    ∃ place, d.follow (startOf p cwd) p.steps = .ok place ∧ d.lookup place = some entry := by
  rw [find]
  constructor
  · intro h
    obtain ⟨_, hc, h⟩ := bind_eq_ok.1 h
    obtain ⟨place, hf, h⟩ := bind_eq_ok.1 h
    split at h
    · rename_i found hl
      cases h
      exact ⟨hc, place, hf, hl⟩
    · cases h
  · rintro ⟨hc, place, hf, hl⟩
    refine bind_eq_ok.2 ⟨(), hc, bind_eq_ok.2 ⟨place, hf, ?_⟩⟩
    simp only [hl]
    rfl

/-- What a path leads to, it leads to on every larger disk. -/
theorem find_mono (hle : d ≤ e) (h : d.find cwd p = .ok entry) : e.find cwd p = .ok entry := by
  obtain ⟨hc, place, hf, hl⟩ := find_eq_ok.1 h
  exact find_eq_ok.2 ⟨hc, place, follow_mono hle hf, lookup_mono hle hl⟩

theorem present_of_find (h : d.find cwd p = .ok entry) : d.present cwd p = .ok true := by
  simp only [present, leadsTo, h]

theorem present_mono (hle : d ≤ e) (h : d.present cwd p = .ok true) :
    e.present cwd p = .ok true := by
  unfold present leadsTo at h
  split at h
  · rename_i hfind
    exact present_of_find (find_mono hle hfind)
  · cases h
  · cases h

theorem slot_eq_ok {parent : Location} {name : Name} (h : d.slot cwd p = .ok (parent, name)) :
    checkPath p = .ok () ∧ d.follow (startOf p cwd) p.steps.dropLast = .ok parent ∧
      d.lookup parent = some .directory ∧ p.steps.getLast? = some (.into name) ∧
      checkName name = .ok () := by
  rw [slot] at h
  obtain ⟨_, hc, h⟩ := bind_eq_ok.1 h
  obtain ⟨place, hf, h⟩ := bind_eq_ok.1 h
  split at h
  · rename_i hd
    split at h
    · rename_i last hl
      obtain ⟨_, hn, h⟩ := bind_eq_ok.1 h
      cases h
      exact ⟨hc, hf, hd, hl, hn⟩
    · cases h
  · cases h

theorem create_eq_ok (h : d.create cwd p entry = .ok e) :
    ∃ parent name, d.slot cwd p = .ok (parent, name) ∧ d.lookup (parent ++ [name]) = none ∧
      ∀ location, e.lookup location =
        if location = parent ++ [name] then some entry else d.lookup location := by
  rw [create] at h
  obtain ⟨⟨parent, name⟩, hs, h⟩ := bind_eq_ok.1 h
  simp only at h
  split at h
  · rename_i hfree
    cases h
    exact ⟨parent, name, hs, hfree.2, lookup_put hfree.1 _⟩
  · cases h

theorem le_of_create (h : d.create cwd p entry = .ok e) : d ≤ e := by
  obtain ⟨parent, name, _, hfree, hl⟩ := create_eq_ok h
  intro location other ho
  have hne : location ≠ parent ++ [name] := by
    rintro rfl
    rw [hfree] at ho
    cases ho
  rw [hl, if_neg hne, ho]

theorem find_of_slot {parent : Location} {name : Name} (hle : d ≤ e)
    (hs : d.slot cwd p = .ok (parent, name)) (h : e.lookup (parent ++ [name]) = some entry) :
    e.find cwd p = .ok entry := by
  obtain ⟨hc, hf, hd, hlast, hn⟩ := slot_eq_ok hs
  have hsteps : p.steps = p.steps.dropLast ++ [.into name] :=
    (List.dropLast_append_getLast? _ hlast).symm
  refine find_eq_ok.2 ⟨hc, parent ++ [name], ?_, h⟩
  rw [hsteps, follow_append]
  refine bind_eq_ok.2 ⟨parent, follow_mono hle hf, bind_eq_ok.2 ⟨parent ++ [name], ?_, rfl⟩⟩
  simp only [step, lookup_mono hle hd, hn, h]
  rfl

theorem find_of_create (h : d.create cwd p entry = .ok e) : e.find cwd p = .ok entry := by
  obtain ⟨parent, name, hs, -, hl⟩ := create_eq_ok h
  exact find_of_slot (le_of_create h) hs (by rw [hl, if_pos rfl])

theorem le_makeDirectoryBack (anchor : Path.Anchor) (mayExist : Bool) (d : Disk)
    (steps : List Path.Step) : d ≤ (makeDirectoryBack cwd anchor mayExist d steps).1 := by
  induction steps generalizing d mayExist with
  | nil => exact le_rfl
  | cons last above ih =>
    simp only [makeDirectoryBack]
    split
    · rename_i hc
      exact le_of_create hc
    · have hab := ih true d
      split
      · rename_i heq
        rwa [heq] at hab
      · rename_i made heq
        rw [heq] at hab
        split
        · rename_i hc
          exact hab.trans (le_of_create hc)
        · exact hab
        · exact hab
    · exact le_rfl

theorem le_makeDirectory (d : Disk) (cwd : Location) (p : Path) (mayExist : Bool) :
    d ≤ (d.makeDirectory cwd p mayExist).1 :=
  le_makeDirectoryBack _ _ _ _

theorem find_of_makeDirectory (h : d.makeDirectory cwd p false = (e, .ok ())) :
    e.find cwd p = .ok .directory := by
  obtain ⟨anchor, steps⟩ := p
  rw [makeDirectory] at h
  rw [show Path.mk anchor steps = ⟨anchor, steps.reverse.reverse⟩ by rw [List.reverse_reverse]]
  cases hrev : steps.reverse with
  | nil =>
    rw [hrev] at h
    cases h
  | cons last above =>
    rw [hrev] at h
    simp only [makeDirectoryBack] at h
    split at h
    · rename_i hc
      cases h
      exact find_of_create hc
    · split at h
      · cases h
      · split at h
        · rename_i hc
          cases h
          exact find_of_create hc
        · cases h
        · cases h
    · cases h

end Scaffold.Disk
