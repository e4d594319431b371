import Scaffold.Config.Basic
import Scaffold.Proofs.Entries

namespace Scaffold

open Validation

namespace Port

variable {n : Int} {port : Port} {fault : Fault}

theorem ofInt_eq_ok : ofInt n = .ok port ↔ n = port.number := by
  obtain ⟨number, hpositive, hmax⟩ := port
  rw [ofInt]
  constructor
  · intro h
    split at h
    · cases h
    · split at h
      · cases h
      · have hnumber : n.toNat = number := congrArg Port.number (Except.ok.inj h)
        change n = (number : Int)
        omega
  · rintro rfl
    rw [dif_neg (by simp only; omega), dif_neg (by simp only; omega)]
    rfl

theorem ofInt_eq_error : ofInt n = .error fault ↔
    n < 1 ∧ fault = .tooSmall 1 ∨ 65535 < n ∧ fault = .tooLarge 65535 := by
  rw [ofInt]
  split
  · rename_i hsmall
    have hlarge : ¬ 65535 < n := by omega
    simp [hsmall, hlarge, eq_comm]
  · rename_i hsmall
    split
    · rename_i hlarge
      simp [hsmall, hlarge, eq_comm]
    · rename_i hlarge
      simp [hsmall, hlarge]

end Port

namespace Config

theorem ofFields_of_texts {fields : Entries Json}
    {nodeEnv appUrl mongoUrlBase appUrlVariable appsDir libDir manifestName : Text}
    (hnode : field fields "node_env" text (some default.nodeEnv) = .ok nodeEnv)
    (hurl : field fields "app_url" text (some default.appUrl) = .ok appUrl)
    (hmongo : field fields "mongo_url_base" text (some default.mongoUrlBase) = .ok mongoUrlBase)
    (hvariable : field fields "app_url_env_var" text (some default.appUrlVariable) =
      .ok appUrlVariable)
    (happs : field fields "apps_dir" text (some default.appsDir) = .ok appsDir)
    (hlib : field fields "lib_dir" text (some default.libDir) = .ok libDir)
    (hmanifest : field fields "manifest_name" text (some default.manifestName) =
      .ok manifestName) :
    ofFields fields = (field fields "port" Port.ofJson (some default.port)).map fun port =>
      ⟨nodeEnv, appUrl, port, mongoUrlBase, appUrlVariable, appsDir, libDir, manifestName⟩ := by
  simp only [ofFields, hnode, hurl, hmongo, hvariable, happs, hlib, hmanifest]
  cases field fields "port" Port.ofJson (some default.port) <;> rfl

theorem ofFields_toFields (config : Config) : ofFields config.toFields = .ok config := by
  have hport : field config.toFields "port" Port.ofJson (some default.port) = .ok config.port := by
    change (Port.ofInt config.port.number).mapError _ = _
    rw [Port.ofInt_eq_ok.2 rfl]
    rfl
  rw [ofFields_of_texts rfl rfl rfl rfl rfl rfl rfl, hport]
  rfl

end Config

end Scaffold
