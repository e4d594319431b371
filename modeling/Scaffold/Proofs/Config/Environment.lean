import Scaffold.Config.Environment
import Scaffold.Proofs.Config.Fields
import Scaffold.Proofs.Outcome
import Scaffold.Proofs.Text.Integer

namespace Scaffold.Config

open Outcome Validation

variable {environment : Entries Text} {config : Config} {key name other value raw message : Text}

/-- What a variable is set to, or something else where it is not set or is empty. -/
def valueOr (environment : Entries Text) (key other : Text) : Text :=
  match environment.get? key with
  | none | some [] => other
  | some value => value

def withPort (environment : Entries Text) (port : Port) : Config where
  nodeEnv := valueOr environment "MURAL_NODE_ENV" default.nodeEnv
  appUrl := valueOr environment "MURAL_APP_URL" default.appUrl
  port := port
  mongoUrlBase := valueOr environment "MURAL_MONGO_URL_BASE" default.mongoUrlBase
  appUrlVariable := default.appUrlVariable
  appsDir := default.appsDir
  libDir := default.libDir
  manifestName := default.manifestName

/-- The port that an environment sets: the default one, or a number in decimal notation. -/
inductive GivesPort (environment : Entries Text) : Port → Prop where
  | unset : environment.get? "MURAL_PORT" = none → GivesPort environment default.port
  | empty : environment.get? "MURAL_PORT" = some [] → GivesPort environment default.port
  | number {raw : Text} {n : Nat} : environment.get? "MURAL_PORT" = some raw →
      raw.SpellsInteger n → (positive : 1 ≤ n) → (le_max : n ≤ 65535) →
      GivesPort environment ⟨n, positive, le_max⟩

/-- What is reported about an environment that sets no such port. -/
inductive RefusesPort (environment : Entries Text) : Text → Prop where
  | notInteger {raw : Text} : environment.get? "MURAL_PORT" = some raw → raw ≠ [] →
      (¬ ∃ n, raw.SpellsInteger n) →
      RefusesPort environment ("MURAL_PORT must be an integer, got '" ++ raw ++ "'")
  | tooSmall {raw : Text} {n : Int} : environment.get? "MURAL_PORT" = some raw →
      raw.SpellsInteger n → n < 1 → RefusesPort environment
        "Invalid configuration from environment: port: Input should be greater than or equal to 1"
  | tooLarge {raw : Text} {n : Int} : environment.get? "MURAL_PORT" = some raw →
      raw.SpellsInteger n → 65535 < n → RefusesPort environment
        "Invalid configuration from environment: port: Input should be less than or equal to 65535"

theorem setting?_eq_none : setting? environment key = none ↔
    environment.get? key = none ∨ environment.get? key = some [] := by
  rw [setting?]
  cases environment.get? key <;> simp

theorem setting?_eq_some : setting? environment key = some value ↔
    environment.get? key = some value ∧ value ≠ [] := by
  rw [setting?]
  simp

theorem get?_settingField (hne : name ≠ other) :
    (settingField environment key name).get? other = none := by
  rw [settingField]
  split
  · exact if_neg hne
  · rfl

theorem get?_portField {port : Entries Json} (h : portField environment = .ok port)
    (hne : "port" ≠ other) : port.get? other = none := by
  rw [portField] at h
  split at h
  · cases h
    rfl
  · split at h
    · cases h
      exact if_neg hne
    · cases h

theorem field_of_missing {fields : Entries Json} (other : Text) (h : fields.get? name = none) :
    field fields name text (some other) = .ok other := by
  rw [field, h]

theorem field_setting {fields : Entries Json} (key other : Text)
    (h : fields.get? name = (settingField environment key name).get? name) :
    field fields name text (some other) = .ok (valueOr environment key other) := by
  rw [field, h, settingField, valueOr]
  cases hset : setting? environment key with
  | none => rcases setting?_eq_none.1 hset with hget | hget <;> rw [hget] <;> rfl
  | some value =>
    obtain ⟨hget, hne⟩ := setting?_eq_some.1 hset
    obtain ⟨c, rest, rfl⟩ := List.exists_cons_of_ne_nil hne
    simp only [hget, Entries.get?, if_true]
    rfl

def record (environment : Entries Text) (port : Entries Json) : Entries Json :=
  settingField environment "MURAL_NODE_ENV" "node_env" ++
    settingField environment "MURAL_APP_URL" "app_url" ++ port ++
    settingField environment "MURAL_MONGO_URL_BASE" "mongo_url_base"

theorem ofEnvironment_eq (environment : Entries Text) : ofEnvironment environment =
    portField environment >>= fun port => (ofFields (record environment port)).mapError .invalid :=
  rfl

theorem get?_record (port : Entries Json) : (record environment port).get? other =
    ((((settingField environment "MURAL_NODE_ENV" "node_env").get? other).or
      ((settingField environment "MURAL_APP_URL" "app_url").get? other)).or
        (port.get? other)).or
          ((settingField environment "MURAL_MONGO_URL_BASE" "mongo_url_base").get? other) := by
  simp only [record, Entries.get?_append]

/-- Whether the record of an environment is a configuration is up to the port. -/
theorem ofFields_record {port : Entries Json} (hport : portField environment = .ok port) :
    ofFields (record environment port) =
      (field port "port" Port.ofJson (some default.port)).map (withPort environment) := by
  have hfield : field (record environment port) "port" Port.ofJson (some default.port) =
      field port "port" Port.ofJson (some default.port) := by
    rw [field, field, get?_record, get?_settingField (by decide), get?_settingField (by decide),
      get?_settingField (by decide), Option.or_none, Option.none_or, Option.none_or]
  rw [ofFields_of_texts (field_setting "MURAL_NODE_ENV" _ ?_) (field_setting "MURAL_APP_URL" _ ?_)
    (field_setting "MURAL_MONGO_URL_BASE" _ ?_) (field_of_missing _ ?_) (field_of_missing _ ?_)
    (field_of_missing _ ?_) (field_of_missing _ ?_), hfield]
  · rfl
  -- Each name is that of one field at most, so that all the others say nothing about it.
  all_goals
    simp (disch := decide) only [get?_record, get?_settingField, get?_portField hport,
      Option.or_none, Option.none_or]

theorem ofEnvironment_of_portField {port : Entries Json} (h : portField environment = .ok port) :
    ofEnvironment environment = ((field port "port" Port.ofJson (some default.port)).map
      (withPort environment)).mapError .invalid := by
  rw [ofEnvironment_eq, h]
  change (ofFields (record environment port)).mapError _ = _
  rw [ofFields_record h]

theorem ofEnvironment_of_unset (h : setting? environment "MURAL_PORT" = none) :
    ofEnvironment environment = .ok (withPort environment default.port) := by
  have hport : portField environment = .ok [] := by rw [portField, h]
  rw [ofEnvironment_of_portField hport]
  rfl

theorem ofEnvironment_of_spells {n : Int} (hget : environment.get? "MURAL_PORT" = some raw)
    (hraw : raw.SpellsInteger n) : ofEnvironment environment =
      ((Port.ofInt n).map (withPort environment)).mapError fun fault =>
        .invalid [⟨"port", fault⟩] := by
  have hread : raw.int? = some n := Text.int?_eq_some.2 hraw
  have hne : raw ≠ [] := by
    rintro rfl
    cases hread
  have hport : portField environment = .ok [("port", .int n)] := by
    simp only [portField, setting?_eq_some.2 ⟨hget, hne⟩, hread]
  rw [ofEnvironment_of_portField hport]
  change (((Port.ofInt n).mapError _).map _).mapError _ = _
  cases Port.ofInt n <;> rfl

theorem ofEnvironment_of_gives {port : Port} (h : GivesPort environment port) :
    ofEnvironment environment = .ok (withPort environment port) := by
  cases h with
  | unset hget => exact ofEnvironment_of_unset (setting?_eq_none.2 (.inl hget))
  | empty hget => exact ofEnvironment_of_unset (setting?_eq_none.2 (.inr hget))
  | @number raw n hget hraw positive le_max =>
    have hport : Port.ofInt n = .ok ⟨n, positive, le_max⟩ := Port.ofInt_eq_ok.2 rfl
    rw [ofEnvironment_of_spells hget hraw, hport]
    rfl

theorem ofEnvironment_of_refuses (h : RefusesPort environment message) :
    ∃ error, ofEnvironment environment = .error error ∧ error.message = message := by
  cases h with
  | @notInteger raw hget hne hraw =>
    have hport : portField environment = .error (.portNotInteger raw) := by
      simp only [portField, setting?_eq_some.2 ⟨hget, hne⟩, Text.int?_eq_none.2 hraw]
    refine ⟨.portNotInteger raw, ?_, rfl⟩
    rw [ofEnvironment_eq, hport]
    rfl
  | tooSmall hget hraw hsmall =>
    refine ⟨.invalid [⟨"port", .tooSmall 1⟩], ?_, by decide⟩
    rw [ofEnvironment_of_spells hget hraw, Port.ofInt_eq_error.2 (.inl ⟨hsmall, rfl⟩)]
    rfl
  | tooLarge hget hraw hlarge =>
    refine ⟨.invalid [⟨"port", .tooLarge 65535⟩], ?_, by decide⟩
    rw [ofEnvironment_of_spells hget hraw, Port.ofInt_eq_error.2 (.inr ⟨hlarge, rfl⟩)]
    rfl

theorem gives_or_refuses (environment : Entries Text) :
    (∃ port, GivesPort environment port) ∨ ∃ message, RefusesPort environment message := by
  cases hget : environment.get? "MURAL_PORT" with
  | none => exact .inl ⟨_, .unset hget⟩
  | some raw =>
    by_cases hne : raw = []
    · exact .inl ⟨_, .empty (hne ▸ hget)⟩
    by_cases hraw : ∃ n, raw.SpellsInteger n
    · obtain ⟨n, hraw⟩ := hraw
      by_cases hsmall : n < 1
      · exact .inr ⟨_, .tooSmall hget hraw hsmall⟩
      by_cases hlarge : 65535 < n
      · exact .inr ⟨_, .tooLarge hget hraw hlarge⟩
      obtain ⟨number, rfl⟩ := Int.eq_ofNat_of_zero_le (by omega : 0 ≤ n)
      exact .inl ⟨_, .number hget hraw (by omega) (by omega)⟩
    · exact .inr ⟨_, .notInteger hget hne hraw⟩

theorem ofEnvironment_eq_ok : ofEnvironment environment = .ok config ↔
    ∃ port, GivesPort environment port ∧ config = withPort environment port := by
  constructor
  · intro h
    rcases gives_or_refuses environment with ⟨port, hport⟩ | ⟨message, hmessage⟩
    · exact ⟨port, hport, Except.ok.inj (h.symm.trans (ofEnvironment_of_gives hport))⟩
    · obtain ⟨error, herror, -⟩ := ofEnvironment_of_refuses hmessage
      cases h.symm.trans herror
  · rintro ⟨port, hport, rfl⟩
    exact ofEnvironment_of_gives hport

theorem ofEnvironment_eq_error : (∃ error, ofEnvironment environment = .error error ∧
    error.message = message) ↔ RefusesPort environment message := by
  constructor
  · rintro ⟨error, herror, rfl⟩
    rcases gives_or_refuses environment with ⟨port, hport⟩ | ⟨message, hmessage⟩
    · cases herror.symm.trans (ofEnvironment_of_gives hport)
    · obtain ⟨other, hother, rfl⟩ := ofEnvironment_of_refuses hmessage
      cases herror.symm.trans hother
      exact hmessage
  · exact ofEnvironment_of_refuses

theorem layout_of_ofEnvironment (h : ofEnvironment environment = .ok config) :
    config.appUrlVariable = default.appUrlVariable ∧ config.appsDir = default.appsDir ∧
      config.libDir = default.libDir ∧ config.manifestName = default.manifestName := by
  obtain ⟨port, -, rfl⟩ := ofEnvironment_eq_ok.1 h
  exact ⟨rfl, rfl, rfl, rfl⟩

/-- An environment describes a configuration just if its port is not set, is empty, or spells a
number in range. The configuration has the texts that are set, and the defaults for all else.
Otherwise the text that is set for the port is reported, either as no integer, which says that it
spells none, or as one out of range. -/
theorem ofEnvironment_exact (environment : Entries Text) :
    (∀ config, ofEnvironment environment = .ok config ↔
      ∃ port, GivesPort environment port ∧ config = withPort environment port) ∧
    (∀ message, (∃ error, ofEnvironment environment = .error error ∧ error.message = message) ↔
      RefusesPort environment message) ∧
    ∀ raw error, environment.get? "MURAL_PORT" = some raw →
      ofEnvironment environment = .error error →
      (error.message = "MURAL_PORT must be an integer, got '" ++ raw ++ "'" ↔
        ¬ ∃ n, raw.SpellsInteger n) := by
  refine ⟨fun _ => ofEnvironment_eq_ok, fun _ => ofEnvironment_eq_error, ?_⟩
  intro raw error hget herror
  have hrefuses := ofEnvironment_eq_error.1 ⟨error, herror, rfl⟩
  generalize error.message = message at hrefuses
  cases hrefuses with
  | notInteger hother hne hraw =>
    cases hget.symm.trans hother
    exact ⟨fun _ => hraw, fun _ => rfl⟩
  | tooSmall hother hraw =>
    cases hget.symm.trans hother
    exact ⟨nofun, fun hnone => absurd ⟨_, hraw⟩ hnone⟩
  | tooLarge hother hraw =>
    cases hget.symm.trans hother
    exact ⟨nofun, fun hnone => absurd ⟨_, hraw⟩ hnone⟩

/-- A port may be written in digits of several scripts, but not with two underscores in a row. -/
theorem ofEnvironment_exact_underscores :
    (∃ port, GivesPort [("MURAL_PORT", " +٣_000\n"), ("MURAL_APP_URL", "//example")] port ∧
      { default with appUrl := "//example", port := ⟨3000, by decide, by decide⟩ } =
        withPort [("MURAL_PORT", " +٣_000\n"), ("MURAL_APP_URL", "//example")] port) ∧
    ¬ ∃ n, Text.SpellsInteger "3__000" n := by
  obtain ⟨hok, -, -⟩ :=
    ofEnvironment_exact [("MURAL_PORT", " +٣_000\n"), ("MURAL_APP_URL", "//example")]
  obtain ⟨-, -, herror⟩ := ofEnvironment_exact [("MURAL_PORT", "3__000")]
  refine ⟨(hok _).1 (by decide), ?_⟩
  exact (herror "3__000" (.portNotInteger "3__000") (by decide) (by decide)).1 rfl

end Scaffold.Config
