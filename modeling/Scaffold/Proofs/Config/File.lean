import Scaffold.Config.File
import Scaffold.Proofs.Config.Fields
import Scaffold.Proofs.Disk.Text
import Scaffold.Proofs.Json.Printer

namespace Scaffold

theorem Text.lt_numberLimit {n : Nat} (h : n < Nat.pow 10 5) : n < numberLimit := by
  have hlimit : 5 ≤ digitLimit := by decide
  unfold numberLimit
  generalize digitLimit = k at hlimit ⊢
  exact Nat.lt_of_lt_of_le h (Nat.pow_le_pow_right (by decide) hlimit)

namespace Config

open Outcome Validation

variable {d e made : Disk} {cwd : Location} {p : Path} {config other : Config}

theorem dialect_embeds : dialect.Embeds id where
  string t := by
    change textOf t.raw = _
    rw [textOf, RawText.text?_raw]
    rfl
  injective := Function.injective_id

theorem read_toText (config : Config) :
    Json.read dialect config.toText = .ok (.object config.toFields) := by
  have hport : config.port.number < Text.numberLimit :=
    Text.lt_numberLimit (Nat.lt_of_le_of_lt config.port.le_max (by decide))
  have hprintable : Json.printable dialect.depth (.object config.toFields) = true := by
    simp only [toFields, dialect, Json.printable, Json.printableFields, Json.int,
      Int.natAbs_natCast, hport, decide_true, Bool.and_true, List.map_cons, List.map_nil]
    decide
  have hread := Json.read_indented (g := []) (h := []) dialect_embeds Json.safe_isUnrestricted
    hprintable (List.forall_mem_nil _) (List.forall_mem_nil _) 0
  rwa [List.nil_append, List.append_nil, Json.map_id] at hread

theorem ofText_toText (config : Config) : ofText config.toText = .ok config := by
  rw [ofText, read_toText]
  exact config.ofFields_toFields

/-- Line endings are escaped like all control characters, so that none is changed on the way through
a file. -/
theorem decode?_toText (config : Config) :
    Disk.decode? (Disk.encode config.toText) = some config.toText := by
  apply Disk.decode?_encode_of_notMem
  intro hreturn
  rcases Json.written_indented _ _ _ hreturn with h | h | h <;> cases h

theorem save_eq_ok (h : config.save d cwd p = (e, .ok ())) :
    ∃ made, d.makeDirectory cwd p.parent true = (made, .ok ()) ∧
      made.overwrite cwd p (Disk.encode config.toText) = .ok e := by
  unfold save at h
  split at h
  · cases h
  · rename_i made hmake
    split at h
    · rename_i hwrite
      cases h
      exact ⟨made, hmake, hwrite⟩
    · cases h

theorem save_of_save (h : other.save d cwd p = (e, .ok ())) (config : Config) :
    ∃ f, config.save d cwd p = (f, .ok ()) := by
  obtain ⟨made, hmake, hwrite⟩ := save_eq_ok h
  obtain ⟨f, hf⟩ := Disk.overwrite_of_overwrite hwrite (Disk.encode config.toText)
  refine ⟨f, ?_⟩
  simp only [save, hmake, hf]

theorem load_of_save (h : config.save d cwd p = (e, .ok ())) : load e cwd p = .ok config := by
  obtain ⟨made, -, hwrite⟩ := save_eq_ok h
  have hread := Disk.read_of_overwrite hwrite
  simp only [load, hread, Except.mapError, bind, Except.bind, decode?_toText, ofText_toText]

/-- Wherever a configuration can be saved, every configuration can, and the one that is saved is the
one that is loaded. -/
theorem load_saved (h : (other.save d cwd p).2 = .ok ()) (config : Config) :
    ∃ e, config.save d cwd p = (e, .ok ()) ∧ load e cwd p = .ok config := by
  obtain ⟨e, he⟩ := save_of_save (Prod.ext rfl h) config
  exact ⟨e, he, load_of_save he⟩

/-- Texts with all that is escaped, and with line breaks that are not. -/
def awkward : Config where
  nodeEnv := "a\r\n\x00\"\\/"
  appUrl := "\u2028\x85\x7f😀"
  port := ⟨65535, by decide, by decide⟩
  appsDir := []

/-- A file behind `..` and a directory that is not there yet. -/
theorem load_saved_awkward :
    let p := Path.ofText "settings/../config/mural.json"
    (default.save .empty [] p).2 = .ok () ∧
      ∃ e, awkward.save .empty [] p = (e, .ok ()) ∧ load e [] p = .ok awkward := by
  intro p
  have hdefault : (default.save .empty [] p).2 = .ok () := by decide +kernel
  exact ⟨hdefault, load_saved hdefault awkward⟩

end Config

end Scaffold
