import Scaffold.Proofs.Config.Environment
import Scaffold.Proofs.Config.File
import Scaffold.Proofs.Config.PortText

namespace Scaffold

open Outcome Validation

namespace Validation.Checked

variable {α β : Type _} {x : Checked α} {y : Checked β} {problem : Problem}

/-- The check fails, and the problem is among what it reports. -/
def Reports (x : Checked α) (problem : Problem) : Prop :=
  ∃ problems, x = .error problems ∧ problem ∈ problems

theorem and_eq_ok {values : α × β} :
    x.and y = .ok values ↔ x = .ok values.1 ∧ y = .ok values.2 := by
  obtain ⟨a, b⟩ := values
  cases x <;> cases y <;> simp [Checked.and]

theorem Reports.and_left (h : x.Reports problem) (y : Checked β) : (x.and y).Reports problem := by
  obtain ⟨problems, rfl, hmem⟩ := h
  cases y with
  | ok b => exact ⟨problems, rfl, hmem⟩
  | error others => exact ⟨problems ++ others, rfl, List.mem_append_left others hmem⟩

theorem Reports.and_right (h : y.Reports problem) (x : Checked α) : (x.and y).Reports problem := by
  obtain ⟨problems, rfl, hmem⟩ := h
  cases x with
  | ok a => exact ⟨problems, rfl, hmem⟩
  | error others => exact ⟨others ++ problems, rfl, List.mem_append_right others hmem⟩

theorem Reports.bind (h : x.Reports problem) (f : α → Checked β) : (x >>= f).Reports problem := by
  obtain ⟨problems, rfl, hmem⟩ := h
  exact ⟨problems, rfl, hmem⟩

end Validation.Checked

namespace Port

/-- The integer that a value stands for where a port is expected, in range or not. -/
inductive StandsFor : Json → Int → Prop where
  | bool (b : Bool) : StandsFor (.bool b) (if b then 1 else 0)
  | number {x : Json.Number} {n : Int} : integerOf x = .ok n → StandsFor (.number x) n
  | string {t : Text} {n : Int} : integerOfText t = .ok n → StandsFor (.string t) n

variable {value : Json} {n : Int} {port : Port}

theorem eq_of_number {other : Port} (h : port.number = other.number) : port = other := by
  cases port
  cases other
  cases h
  rfl

theorem StandsFor.ofJson_eq (h : StandsFor value n) : ofJson value = ofInt n := by
  cases h with
  | bool b => rfl
  | number hx => rw [ofJson, hx]; rfl
  | string ht => rw [ofJson, ht]; rfl

theorem standsFor_of_ofJson (h : ofJson value = .ok port) : StandsFor value port.number := by
  cases value with
  | bool b =>
    rw [← ofInt_eq_ok.1 h]
    exact .bool b
  | number x =>
    obtain ⟨n, hx, hn⟩ := bind_eq_ok.1 h
    rw [← ofInt_eq_ok.1 hn]
    exact .number hx
  | string t =>
    obtain ⟨n, ht, hn⟩ := bind_eq_ok.1 h
    rw [← ofInt_eq_ok.1 hn]
    exact .string ht
  | null => cases h
  | array => cases h
  | object => cases h

end Port

namespace Config

/-- The integer that a record asks for as port. -/
inductive Asks (fields : Entries Json) : Int → Prop where
  | nothing : fields.get? "port" = none → Asks fields 3000
  | value {value : Json} {n : Int} : fields.get? "port" = some value → Port.StandsFor value n →
      Asks fields n

/-- A file can be read and holds a record. -/
def Holds (disk : Disk) (cwd : Location) (path : Path) (fields : Entries Json) : Prop :=
  ∃ content t, disk.read cwd path = .ok content ∧ Disk.decode? content = some t ∧
    Json.read dialect t = .ok (.object fields)

variable {fields : Entries Json} {environment : Entries Text} {config other : Config} {raw : Text}
  {n : Int} {disk : Disk} {cwd : Location} {path : Path}

theorem field_port_of_ofFields (h : ofFields fields = .ok config) :
    field fields "port" Port.ofJson (some default.port) = .ok config.port := by
  obtain ⟨values, hvalues, hconfig⟩ := bind_eq_ok.1 h
  cases hconfig
  have hafterUrl := (Checked.and_eq_ok.1 (Checked.and_eq_ok.1 hvalues).2).2
  exact (Checked.and_eq_ok.1 hafterUrl).1

theorem asks_of_ofFields (h : ofFields fields = .ok config) : Asks fields config.port.number := by
  have hport := field_port_of_ofFields h
  rw [field] at hport
  split at hport
  · rename_i value hget
    exact .value hget (Port.standsFor_of_ofJson (mapError_eq_ok.1 hport))
  · rename_i hget
    rw [← Except.ok.inj hport]
    exact .nothing hget

theorem reports_of_field {problem : Problem}
    (h : (field fields "port" Port.ofJson (some default.port)).Reports problem) :
    (ofFields fields).Reports problem := by
  unfold ofFields
  exact (((h.and_left _).and_right _).and_right _).bind _

theorem reports_of_asks (h : Asks fields n) :
    (n < 1 → (ofFields fields).Reports ⟨"port", .tooSmall 1⟩) ∧
      (65535 < n → (ofFields fields).Reports ⟨"port", .tooLarge 65535⟩) := by
  cases h with
  | nothing =>
    exact ⟨fun hsmall => absurd hsmall (by decide), fun hlarge => absurd hlarge (by decide)⟩
  | @value value _ hget hvalue =>
    have hreports {fault : Fault} (hfault : Port.ofInt n = .error fault) :
        (ofFields fields).Reports ⟨"port", fault⟩ := by
      refine reports_of_field ⟨[⟨"port", fault⟩], ?_, List.mem_singleton_self _⟩
      rw [field, hget]
      exact congrArg (Except.mapError _) (hvalue.ofJson_eq.trans hfault)
    exact ⟨fun hsmall => hreports (Port.ofInt_eq_error.2 (.inl ⟨hsmall, rfl⟩)),
      fun hlarge => hreports (Port.ofInt_eq_error.2 (.inr ⟨hlarge, rfl⟩))⟩

theorem exists_fields_of_load (h : load disk cwd path = .ok config) :
    ∃ fields, Holds disk cwd path fields ∧ ofFields fields = .ok config := by
  obtain ⟨content, hread, h⟩ := bind_eq_ok.1 h
  have hread := mapError_eq_ok.1 hread
  split at h
  · cases h
  · rename_i t hdecode
    have h := mapError_eq_ok.1 h
    rw [ofText] at h
    split at h
    · cases h
    · rename_i fields hfields
      exact ⟨fields, ⟨content, t, hread, hdecode, hfields⟩, h⟩
    · cases h

theorem givesPort_of_ofEnvironment (h : ofEnvironment environment = .ok config) :
    GivesPort environment config.port := by
  obtain ⟨port, hport, rfl⟩ := ofEnvironment_eq_ok.1 h
  exact hport

theorem integerOfText_of_asks (h : Asks fields n) (hget : fields.get? "port" = some (.string raw)) :
    Port.integerOfText raw = .ok n := by
  cases h with
  | nothing hnone => cases hnone.symm.trans hget
  | value hvalue hstands =>
    cases hvalue.symm.trans hget
    cases hstands with
    | string ht => exact ht

theorem int?_of_givesPort {port : Port} (h : GivesPort environment port)
    (hget : environment.get? "MURAL_PORT" = some raw) (hne : raw ≠ []) :
    raw.int? = some (port.number : Int) := by
  cases h with
  | unset hnone => cases hnone.symm.trans hget
  | empty hempty => exact absurd (Option.some.inj (hget.symm.trans hempty)) hne
  | number hvalue hraw =>
    cases hvalue.symm.trans hget
    exact Text.int?_eq_some.2 hraw

/-- One text gives one port, in a record's field and in the variable. -/
theorem port_eq_of_text (hfield : fields.get? "port" = some (.string raw))
    (hvariable : environment.get? "MURAL_PORT" = some raw) (hne : raw ≠ [])
    (hconfig : ofFields fields = .ok config) (hother : ofEnvironment environment = .ok other) :
    config.port = other.port := by
  have hfromField := integerOfText_of_asks (asks_of_ofFields hconfig) hfield
  have hfromVariable := int?_of_givesPort (givesPort_of_ofEnvironment hother) hvariable hne
  obtain ⟨hvalue, hpoint⟩ := Text.natAbs_of_int? hfromVariable
  have hnumber : config.port.number = other.port.number :=
    (Port.natAbs_of_integerOfText hpoint hfromField).trans hvalue.symm
  exact Port.eq_of_number hnumber

theorem exists_port_of_spells {number : Nat} (hraw : raw.SpellsInteger number)
    (hascii : ∀ c ∈ raw, ∀ d, Text.digitValue? c = some d → c.isDigit = true)
    (hpositive : 1 ≤ number) (hmax : number ≤ 65535) :
    ∃ config other, ofFields [("port", .string raw)] = .ok config ∧
      ofEnvironment [("MURAL_PORT", raw)] = .ok other ∧
      config.port.number = number ∧ other.port.number = number := by
  let port : Port := ⟨number, hpositive, hmax⟩
  have hnumber : Port.ofInt number = .ok port := Port.ofInt_eq_ok.2 rfl
  have htext : Port.integerOfText raw = .ok number :=
    Port.integerOfText_of_spells hraw (by omega) hascii
  have hfield : field [("port", .string raw)] "port" Port.ofJson (some default.port) =
      .ok port := by
    rw [field, Entries.get?, if_pos rfl]
    exact mapError_eq_ok.2 ((Port.StandsFor.string htext).ofJson_eq.trans hnumber)
  have hget : Entries.get? [("MURAL_PORT", raw)] "MURAL_PORT" = some raw := if_pos rfl
  have hgives : GivesPort [("MURAL_PORT", raw)] port := .number hget hraw hpositive hmax
  refine ⟨{ default with port := port }, withPort [("MURAL_PORT", raw)] port, ?_,
    ofEnvironment_of_gives hgives, rfl, rfl⟩
  rw [ofFields_of_texts rfl rfl rfl rfl rfl rfl rfl, hfield]
  rfl

/-- Whichever way a configuration comes about, its port is the one that was asked for, and in range;
a record that asks for another one is refused for it. The same text in a record's field and in the
variable gives the same port wherever it gives one, and it does where it spells one in digits of
ASCII. -/
theorem ports_agree :
    (∀ fields config, ofFields fields = .ok config →
      Asks fields config.port.number ∧ 1 ≤ config.port.number ∧ config.port.number ≤ 65535) ∧
    (∀ environment config, ofEnvironment environment = .ok config →
      GivesPort environment config.port ∧ 1 ≤ config.port.number ∧ config.port.number ≤ 65535) ∧
    (∀ disk cwd path config, load disk cwd path = .ok config →
      (∃ fields, Holds disk cwd path fields ∧ Asks fields config.port.number) ∧
        1 ≤ config.port.number ∧ config.port.number ≤ 65535) ∧
    (∀ fields n, Asks fields n →
      (n < 1 → (ofFields fields).Reports ⟨"port", .tooSmall 1⟩) ∧
        (65535 < n → (ofFields fields).Reports ⟨"port", .tooLarge 65535⟩)) ∧
    (∀ fields environment raw config other, fields.get? "port" = some (.string raw) →
      environment.get? "MURAL_PORT" = some raw → raw ≠ [] →
      ofFields fields = .ok config → ofEnvironment environment = .ok other →
      config.port = other.port) ∧
    ∀ raw (number : Nat), raw.SpellsInteger number →
      (∀ c ∈ raw, ∀ d, Text.digitValue? c = some d → c.isDigit = true) →
      1 ≤ number → number ≤ 65535 →
      ∃ config other, ofFields [("port", .string raw)] = .ok config ∧
        ofEnvironment [("MURAL_PORT", raw)] = .ok other ∧
        config.port.number = number ∧ other.port.number = number := by
  refine ⟨fun fields config h => ?_, fun environment config h => ?_,
    fun disk cwd path config h => ?_, fun fields n h => reports_of_asks h,
    fun fields environment raw config other hfield hvariable hne hconfig hother =>
      port_eq_of_text hfield hvariable hne hconfig hother,
    fun raw number hraw hascii hpositive hmax => exists_port_of_spells hraw hascii hpositive hmax⟩
  · exact ⟨asks_of_ofFields h, config.port.positive, config.port.le_max⟩
  · exact ⟨givesPort_of_ofEnvironment h, config.port.positive, config.port.le_max⟩
  · obtain ⟨fields, hholds, hfields⟩ := exists_fields_of_load h
    exact ⟨⟨fields, hholds, asks_of_ofFields hfields⟩, config.port.positive, config.port.le_max⟩

theorem ports_agree_zeros :
    (∃ config other, ofFields [("port", .string " +00_80\u2003")] = .ok config ∧
      ofEnvironment [("MURAL_PORT", " +00_80\u2003")] = .ok other ∧
      config.port = other.port) ∧
    (ofFields [("port", .bool false)]).Reports ⟨"port", .tooSmall 1⟩ := by
  obtain ⟨-, -, -, hreports, hagree, hexists⟩ := ports_agree
  have hspells : Text.SpellsInteger " +00_80\u2003" (80 : Nat) := Text.int?_eq_some.1 (by decide)
  have hascii : ∀ c ∈ (" +00_80\u2003" : Text), ∀ d, Text.digitValue? c = some d →
      c.isDigit = true := by
    have hdigits : (" +00_80\u2003" : Text).all
        (fun c => (Text.digitValue? c).isNone || c.isDigit) = true := by decide +kernel
    intro c hc d hd
    simpa [hd] using List.all_eq_true.1 hdigits c hc
  obtain ⟨config, other, hconfig, hother, -, -⟩ :=
    hexists " +00_80\u2003" 80 hspells hascii (by decide) (by decide)
  refine ⟨⟨config, other, hconfig, hother, ?_⟩, ?_⟩
  · exact hagree _ _ " +00_80\u2003" config other rfl rfl nofun hconfig hother
  · exact (hreports _ 0 (.value rfl (.bool false))).1 (by decide)

end Config

end Scaffold
