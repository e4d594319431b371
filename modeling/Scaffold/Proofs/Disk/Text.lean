import Scaffold.Disk.Text
import Scaffold.Proofs.Disk.Way

namespace Scaffold.Disk

open Outcome

theorem unifyNewlines_of_notMem {t : Text} (h : '\r' ∉ t) : unifyNewlines t = t := by
  induction t with
  | nil => rfl
  | cons c rest ih =>
    have hc : c ≠ '\r' := fun hc => h (hc ▸ List.mem_cons_self)
    have hrest := ih fun hmem => h (List.mem_cons_of_mem c hmem)
    rw [unifyNewlines, hrest]
    · exact fun _ heq _ => hc heq
    · exact hc

/-- Reading a file that holds a text gives the text with its line endings unified. -/
theorem decode?_encode (t : Text) : decode? (encode t) = some (unifyNewlines t) := by
  rw [decode?, encode, String.toByteArray_ofList, List.utf8Decode?_utf8Encode]
  rfl

theorem decode?_encode_of_notMem {t : Text} (h : '\r' ∉ t) : decode? (encode t) = some t := by
  rw [decode?_encode, unifyNewlines_of_notMem h]

variable {d e : Disk} {cwd location place : Location} {steps : List Path.Step} {p : Path}
  {content : ByteArray}

theorem overwrite_eq_ok (h : d.overwrite cwd p content = .ok e) :
    ∃ parent name, d.slot cwd p = .ok (parent, name) ∧
      d.lookup (parent ++ [name]) ≠ some .directory ∧
      ∀ location, e.lookup location =
        if location = parent ++ [name] then some (.file content) else d.lookup location := by
  unfold overwrite at h
  split at h
  · rename_i parent name hs
    split at h
    · rename_i hplace
      cases h
      exact ⟨parent, name, hs, hplace.2, lookup_put hplace.1 hplace.2⟩
    · cases h
  · cases h
  · cases h

theorem overwrite_of_overwrite (h : d.overwrite cwd p content = .ok e) (other : ByteArray) :
    ∃ f, d.overwrite cwd p other = .ok f := by
  obtain ⟨parent, name, hs, hplace, -⟩ := overwrite_eq_ok h
  have hd : d.lookup parent = some .directory := (slot_eq_ok hs).2.2.1
  unfold overwrite
  rw [hs]
  exact ⟨_, dif_pos ⟨hd, hplace⟩⟩

/-- Steps to a directory lead there as long as no directory is taken away. -/
theorem follow_of_directories
    (hkeep : ∀ place, d.lookup place = some .directory → e.lookup place = some .directory)
    (h : d.follow location steps = .ok place) (hd : d.lookup place = some .directory) :
    e.follow location steps = .ok place := by
  induction steps generalizing location with
  | nil => exact h
  | cons s rest ih =>
    obtain ⟨next, hs, hr⟩ := bind_eq_ok.1 h
    refine bind_eq_ok.2 ⟨next, ?_, ih hr⟩
    have hnext : d.lookup next = some .directory := by
      apply directory_of_mem_way hr hd
      cases rest <;> exact List.mem_cons_self
    obtain ⟨hlocation, ⟨rfl, rfl⟩ | ⟨name, rfl, hn, rfl, -⟩⟩ := step_eq_ok hs
    · exact if_pos (hkeep _ hlocation)
    · simp only [step, hkeep _ hlocation, if_true, hn, hkeep _ hnext]
      rfl

theorem find_of_overwrite (h : d.overwrite cwd p content = .ok e) :
    e.find cwd p = .ok (.file content) := by
  obtain ⟨parent, name, hs, hplace, hl⟩ := overwrite_eq_ok h
  obtain ⟨hc, hf, hd, hlast, hn⟩ := slot_eq_ok hs
  have hkeep (place : Location) (hdirectory : d.lookup place = some .directory) :
      e.lookup place = some .directory := by
    have hne : place ≠ parent ++ [name] := fun heq => hplace (heq ▸ hdirectory)
    rw [hl, if_neg hne, hdirectory]
  have hslot : e.slot cwd p = .ok (parent, name) := by
    refine bind_eq_ok.2 ⟨(), hc, bind_eq_ok.2 ⟨parent, follow_of_directories hkeep hf hd, ?_⟩⟩
    simp only [hkeep _ hd, if_true, hlast, hn]
    rfl
  exact find_of_slot le_rfl hslot (by rw [hl, if_pos rfl])

theorem read_of_overwrite (h : d.overwrite cwd p content = .ok e) : e.read cwd p = .ok content := by
  rw [read, find_of_overwrite h]
  rfl

end Scaffold.Disk
