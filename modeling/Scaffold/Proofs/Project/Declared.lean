import Scaffold.Manifest
import Scaffold.Proofs.Disk.Text
import Scaffold.Proofs.Entries
import Scaffold.Proofs.Json.Soundness
import Scaffold.Proofs.Text.Strip

namespace Scaffold.Manifest

open Outcome

/-- A file is a manifest that gives a name: a JSON object with a text that has the name and perhaps
blanks at its ends. -/
def Gives (disk : Disk) (cwd : Location) (path : Path) (name : RawText) : Prop :=
  ∃ content t fields value, disk.find cwd path = .ok (.file content) ∧
    Disk.decode? content = some t ∧ Json.read dialect t = .ok (.object fields) ∧
    Entries.get? fields (Text.raw "name") = some (.string value) ∧ name = value.strip

/-- There is a file with this text at a path. -/
def Holds (disk : Disk) (cwd : Location) (path : Path) (t : Text) : Prop :=
  ∃ content, disk.find cwd path = .ok (.file content) ∧ Disk.decode? content = some t

/-- A JSON object whose last field `name` holds this text. -/
def Declares (t : Text) (raw : RawText) : Prop :=
  ∃ before after : Entries (Json RawText) RawText,
    Json.ObjectText dialect (before ++ (Text.raw "name", .string raw) :: after) t ∧
      Text.raw "name" ∉ after.keys

/-- The failures that are not reported as ones of the manifest. -/
inductive Escapes (disk : Disk) (cwd : Location) (path : Path) : Failure → Prop where
  | nameTooLong : disk.find cwd path = .error .nameTooLong →
      Escapes disk cwd path (.system .nameTooLong)
  | undecodable {content} : disk.find cwd path = .ok (.file content) →
      Disk.decode? content = none → Escapes disk cwd path .undecodable
  | numberTooLong {t} : Holds disk cwd path t → Json.Overruns dialect .numberTooLong t →
      Escapes disk cwd path .numberTooLong
  | tooDeep {t} : Holds disk cwd path t → Json.Overruns dialect .tooDeep t →
      Escapes disk cwd path .tooDeep

variable {disk : Disk} {cwd : Location} {path directory : Path} {file t : Text}
  {raw : RawText} {name : RawText.Filled} {content : ByteArray} {error : SystemError}
  {failure : Failure}

theorem Holds.eq {u : Text} (ht : Holds disk cwd path t) (hu : Holds disk cwd path u) : t = u := by
  obtain ⟨content, hfind, hdecode⟩ := ht
  obtain ⟨other, hfind', hdecode'⟩ := hu
  cases hfind.symm.trans hfind'
  exact Option.some.inj (hdecode.symm.trans hdecode')

theorem declares_iff : Declares t raw ↔ ∃ entries, Json.read dialect t = .ok (.object entries) ∧
    Entries.get? entries (Text.raw "name") = some (.string raw) := by
  constructor
  · rintro ⟨before, after, hobject, hafter⟩
    have hget : (Entries.ofPairs (before ++ (Text.raw "name", Json.string raw) :: after)).get?
        (Text.raw "name") = some (.string raw) :=
      Entries.get?_ofPairs.2 ⟨before, after, rfl, hafter⟩
    refine ⟨_, (Json.read_eq_object ?_).2 ⟨_, hobject, rfl⟩, hget⟩
    intro hempty
    rw [hempty] at hget
    cases hget
  · rintro ⟨entries, hread, hget⟩
    have hne : entries ≠ [] := by
      rintro rfl
      cases hget
    obtain ⟨fields, hobject, rfl⟩ := (Json.read_eq_object hne).1 hread
    obtain ⟨before, after, rfl, hafter⟩ := Entries.get?_ofPairs.1 hget
    exact ⟨before, after, hobject, hafter⟩

theorem nameOf_eq_ok (h : nameOf t = .ok (.ok name)) : ∃ fields value,
    Json.read dialect t = .ok (.object fields) ∧
      Entries.get? fields (Text.raw "name") = some (.string value) ∧ name.val = value.strip := by
  obtain ⟨json, hread, h⟩ := bind_eq_ok.1 h
  split at h
  · rename_i fields
    split at h
    · rename_i value hget
      split at h
      · cases h
      · cases h
        exact ⟨fields, value, hread, hget, rfl⟩
    · cases h
  · cases h

theorem nameOf_of_declares (ht : Declares t raw) (hraw : raw.strip = name.val) :
    nameOf t = .ok (.ok name) := by
  obtain ⟨entries, hread, hget⟩ := declares_iff.1 ht
  refine bind_eq_ok.2 ⟨_, hread, ?_⟩
  have hne : raw.strip ≠ [] := hraw ▸ name.ne_nil
  simp only [hget, dif_neg hne]
  exact congrArg (fun name => Except.ok (Except.ok name)) (Subtype.ext hraw)

theorem nameOf_eq_error {e : Json.ReadError} (he : ∀ fault, e ≠ .malformed fault) :
    nameOf t = .error e ↔ Json.Overruns dialect e t := by
  rw [← Json.read_eq_error he, nameOf, bind_eq_error]
  refine ⟨fun h => h.resolve_right ?_, .inl⟩
  rintro ⟨v, -, hv⟩
  split at hv
  · split at hv
    · split at hv <;> cases hv
    · cases hv
  · cases hv

theorem readName_of_find_error (hfind : disk.find cwd (directory.below file) = .error error)
    (herror : error ≠ .nameTooLong) :
    readName disk cwd directory file =
      .error (.refused (.manifest (directory.below file) .missing)) := by
  have hisFile : disk.isFile cwd (directory.below file) = .ok false := by
    rw [Disk.isFile, Disk.leadsTo, hfind]
    cases error with
    | nameTooLong => exact absurd rfl herror
    | _ => rfl
  simp only [readName, hisFile, bind, Except.bind, Except.mapError]
  rfl

theorem readName_of_directory (hfind : disk.find cwd (directory.below file) = .ok .directory) :
    readName disk cwd directory file =
      .error (.refused (.manifest (directory.below file) .missing)) := by
  have hisFile : disk.isFile cwd (directory.below file) = .ok false := by
    rw [Disk.isFile, Disk.leadsTo, hfind]
  simp only [readName, hisFile, bind, Except.bind, Except.mapError]
  rfl

theorem readName_of_nameTooLong
    (hfind : disk.find cwd (directory.below file) = .error .nameTooLong) :
    readName disk cwd directory file = .error (.system .nameTooLong) := by
  have hisFile : disk.isFile cwd (directory.below file) = .error .nameTooLong := by
    rw [Disk.isFile, Disk.leadsTo, hfind]
  simp only [readName, hisFile, bind, Except.bind, Except.mapError]

theorem readName_of_file (hfind : disk.find cwd (directory.below file) = .ok (.file content)) :
    readName disk cwd directory file =
      match Disk.decode? content with
      | none => .error .undecodable
      | some t =>
        match nameOf t with
        | .ok (.ok name) => .ok name
        | .ok (.error fault) => .error (.refused (.manifest (directory.below file) fault))
        | .error (.malformed fault) =>
          .error (.refused (.manifest (directory.below file) (.malformed fault)))
        | .error .numberTooLong => .error .numberTooLong
        | .error .tooDeep => .error .tooDeep := by
  have hisFile : disk.isFile cwd (directory.below file) = .ok true := by
    rw [Disk.isFile, Disk.leadsTo, hfind]
  have hread : disk.read cwd (directory.below file) = .ok content := by
    rw [Disk.read, hfind]
    rfl
  simp only [readName, hisFile, hread, bind, Except.bind, Except.mapError, if_true]
  rfl

theorem readName_of_holds (h : Holds disk cwd (directory.below file) t) :
    readName disk cwd directory file =
      match nameOf t with
      | .ok (.ok name) => .ok name
      | .ok (.error fault) => .error (.refused (.manifest (directory.below file) fault))
      | .error (.malformed fault) =>
        .error (.refused (.manifest (directory.below file) (.malformed fault)))
      | .error .numberTooLong => .error .numberTooLong
      | .error .tooDeep => .error .tooDeep := by
  obtain ⟨content, hfind, hdecode⟩ := h
  rw [readName_of_file hfind, hdecode]

theorem readName_eq_ok (h : readName disk cwd directory file = .ok name) :
    Gives disk cwd (directory.below file) name.val := by
  obtain ⟨isFile, hfile, h⟩ := bind_eq_ok.1 h
  split at h
  · obtain ⟨content, hcontent, h⟩ := bind_eq_ok.1 h
    have hfind : disk.find cwd (directory.below file) = .ok (.file content) := by
      obtain ⟨entry, hfind, hentry⟩ := bind_eq_ok.1 (mapError_eq_ok.1 hcontent)
      cases entry with
      | directory => cases hentry
      | file content =>
        cases hentry
        exact hfind
    split at h
    · cases h
    · rename_i t hdecode
      split at h
      · rename_i hname
        cases h
        obtain ⟨fields, value, hread, hget, heq⟩ := nameOf_eq_ok hname
        exact ⟨content, t, fields, value, hfind, hdecode, hread, hget, heq⟩
      all_goals cases h
  · cases h

theorem gives_iff {name : RawText} : Gives disk cwd path name ↔
    ∃ t raw, Holds disk cwd path t ∧ Declares t raw ∧ raw.strip = name := by
  constructor
  · rintro ⟨content, t, fields, raw, hfind, hdecode, hread, hget, rfl⟩
    exact ⟨t, raw, ⟨content, hfind, hdecode⟩, declares_iff.2 ⟨fields, hread, hget⟩, rfl⟩
  · rintro ⟨t, raw, ⟨content, hfind, hdecode⟩, ht, rfl⟩
    obtain ⟨fields, hread, hget⟩ := declares_iff.1 ht
    exact ⟨content, t, fields, raw, hfind, hdecode, hread, hget, rfl⟩

/-- A failure is one of the manifest, or one that is passed on. -/
theorem escapes_of_readName (h : readName disk cwd directory file = .error failure) :
    (∃ fault, failure = .refused (.manifest (directory.below file) fault)) ∨
      Escapes disk cwd (directory.below file) failure := by
  cases hfind : disk.find cwd (directory.below file) with
  | error error =>
    by_cases herror : error = .nameTooLong
    · subst herror
      rw [readName_of_nameTooLong hfind] at h
      cases h
      exact .inr (.nameTooLong hfind)
    · rw [readName_of_find_error hfind herror] at h
      cases h
      exact .inl ⟨_, rfl⟩
  | ok entry =>
    cases entry with
    | directory =>
      rw [readName_of_directory hfind] at h
      cases h
      exact .inl ⟨_, rfl⟩
    | file content =>
      rw [readName_of_file hfind] at h
      split at h
      · rename_i hdecode
        cases h
        exact .inr (.undecodable hfind hdecode)
      · rename_i t hdecode
        have hholds : Holds disk cwd (directory.below file) t := ⟨content, hfind, hdecode⟩
        split at h <;> cases h
        · exact .inl ⟨_, rfl⟩
        · exact .inl ⟨_, rfl⟩
        · rename_i hname
          exact .inr (.numberTooLong hholds ((nameOf_eq_error (e := .numberTooLong) nofun).1 hname))
        · rename_i hname
          exact .inr (.tooDeep hholds ((nameOf_eq_error (e := .tooDeep) nofun).1 hname))

theorem readName_of_escapes (h : Escapes disk cwd (directory.below file) failure) :
    readName disk cwd directory file = .error failure := by
  cases h with
  | nameTooLong hfind => exact readName_of_nameTooLong hfind
  | undecodable hfind hdecode => rw [readName_of_file hfind, hdecode]
  | numberTooLong hholds hoverruns =>
    rw [readName_of_holds hholds, (nameOf_eq_error (e := .numberTooLong) nofun).2 hoverruns]
  | tooDeep hholds hoverruns =>
    rw [readName_of_holds hholds, (nameOf_eq_error (e := .tooDeep) nofun).2 hoverruns]

theorem not_escapes_of_holds (ht : Holds disk cwd path t) (hnumber : ¬ Json.HasLongNumber t)
    (hdeep : t.countP Json.isOpening ≤ dialect.depth) : ¬ Escapes disk cwd path failure := by
  intro h
  obtain ⟨content, hfind, hdecode⟩ := id ht
  cases h with
  | nameTooLong hfind' => cases hfind.symm.trans hfind'
  | undecodable hfind' hdecode' =>
    cases hfind.symm.trans hfind'
    cases hdecode.symm.trans hdecode'
  | numberTooLong hu hoverruns =>
    cases ht.eq hu
    exact hnumber hoverruns.hasLongNumber
  | tooDeep hu hoverruns =>
    cases ht.eq hu
    exact Nat.not_lt.2 hdeep hoverruns.lt_countP

/-- Of the failures that are passed on, those of the system are for paths that it never takes. -/
theorem not_escapes_system (hlength : Disk.byteCount path.toText ≤ Disk.pathLimit)
    (hnames : ∀ name, .into name ∈ path.steps → Disk.checkName name = .ok ()) :
    ¬ Escapes disk cwd path (.system error) := by
  rintro ⟨hfind⟩
  obtain ⟨there, hthere⟩ := @Disk.present_of_short disk cwd path hlength hnames
  rw [Disk.present, Disk.leadsTo, hfind] at hthere
  cases hthere

theorem readName_eq_ok_iff : readName disk cwd directory file = .ok name ↔
    ∃ t raw, Holds disk cwd (directory.below file) t ∧ Declares t raw ∧ raw.strip = name.val := by
  constructor
  · exact fun h => gives_iff.1 (readName_eq_ok h)
  · rintro ⟨t, raw, hholds, ht, hraw⟩
    rw [readName_of_holds hholds, nameOf_of_declares ht hraw]

theorem escapes_iff : Escapes disk cwd (directory.below file) failure ↔
    readName disk cwd directory file = .error failure ∧
      ∀ fault, failure ≠ .refused (.manifest (directory.below file) fault) := by
  constructor
  · intro h
    exact ⟨readName_of_escapes h, by cases h <;> exact nofun⟩
  · rintro ⟨h, hrefused⟩
    exact (escapes_of_readName h).resolve_left fun ⟨fault, heq⟩ => hrefused fault heq

theorem readName_of_bounded (hholds : Holds disk cwd (directory.below file) t)
    (hnumber : ¬ Json.HasLongNumber t) (hdeep : t.countP Json.isOpening ≤ dialect.depth) :
    (∃ name, readName disk cwd directory file = .ok name) ∨
      ∃ fault, readName disk cwd directory file =
        .error (.refused (.manifest (directory.below file) fault)) := by
  cases h : readName disk cwd directory file with
  | ok name => exact .inl ⟨name, rfl⟩
  | error failure =>
    rcases escapes_of_readName h with ⟨fault, rfl⟩ | hescapes
    · exact .inr ⟨fault, rfl⟩
    · exact absurd hescapes (not_escapes_of_holds hholds hnumber hdeep)

theorem readName_of_no_file
    (hnone : ∀ content, disk.find cwd (directory.below file) ≠ .ok (.file content))
    (hlength : Disk.byteCount (directory.below file).toText ≤ Disk.pathLimit)
    (hnames : ∀ name, .into name ∈ (directory.below file).steps → Disk.checkName name = .ok ()) :
    readName disk cwd directory file =
      .error (.refused (.manifest (directory.below file) .missing)) := by
  cases hfind : disk.find cwd (directory.below file) with
  | error error =>
    apply readName_of_find_error hfind
    rintro rfl
    exact not_escapes_system hlength hnames (.nameTooLong hfind)
  | ok entry =>
    cases entry with
    | directory => exact readName_of_directory hfind
    | file content => exact absurd hfind (hnone content)

/--
The name of a project is found just where a file holds a JSON object whose last field `name` is a
text that is not blank, and it is that text without blanks at its ends. Every other outcome is a
refusal that names the manifest, except for those of `Escapes`: the system does not take the path,
the file is not UTF-8, or the text goes beyond a bound of the reader, with more digits in a row
than are read or with more brackets than may be nested.
-/
theorem readName_exact (disk : Disk) (cwd : Location) (directory : Path) (file : Text) :
    let path := directory.below file
    let outcome := readName disk cwd directory file
    (∀ name : RawText.Filled, outcome = .ok name ↔
      ∃ t raw, Holds disk cwd path t ∧ Declares t raw ∧ raw.strip = name.val) ∧
    (∀ name : RawText.Filled, outcome = .ok name → name.val ≠ [] ∧ name.val.Trimmed) ∧
    (∀ failure, Escapes disk cwd path failure ↔
      outcome = .error failure ∧ ∀ fault, failure ≠ .refused (.manifest path fault)) ∧
    (∀ t, Holds disk cwd path t → ¬ Json.HasLongNumber t →
      t.countP Json.isOpening ≤ dialect.depth →
      (∃ name, outcome = .ok name) ∨ ∃ fault, outcome = .error (.refused (.manifest path fault))) ∧
    ((∀ content, disk.find cwd path ≠ .ok (.file content)) →
      Disk.byteCount path.toText ≤ Disk.pathLimit →
      (∀ name, .into name ∈ path.steps → Disk.checkName name = .ok ()) →
      outcome = .error (.refused (.manifest path .missing))) := by
  refine ⟨fun name => readName_eq_ok_iff, ?_, fun failure => escapes_iff,
    fun t => readName_of_bounded, readName_of_no_file⟩
  intro name h
  obtain ⟨t, raw, -, -, hraw⟩ := readName_eq_ok_iff.1 h
  exact ⟨name.ne_nil, hraw ▸ raw.trimmed_strip⟩

theorem free_manifest :
    Disk.empty.lookup ([] ++ [⟨"package.json", isName_manifest⟩]) ≠ some .directory := by
  decide

def diskWith (content : ByteArray) : Disk :=
  Disk.empty.put [] ⟨"package.json", isName_manifest⟩ (.file content) (Disk.lookup_root _)
    free_manifest

theorem find_diskWith (content : ByteArray) :
    (diskWith content).find [] (Path.below (.ofText ".") "package.json") = .ok (.file content) := by
  rfl

theorem readName_exact_twice :
    let text : Text := "\x7b\"name\": \"shop\", \"name\": \" blog\\t\"\x7d\r\n"
    let disk := diskWith (Disk.encode text)
    let path := Path.below (.ofText ".") "package.json"
    readName disk [] (.ofText ".") "package.json" = .ok ⟨"blog", by decide⟩ ∧
      (∃ t raw, Holds disk [] path t ∧ Declares t raw ∧ raw.strip = Text.raw "blog") ∧
      (∃ t, Holds disk [] path t ∧ ¬ Json.HasLongNumber t ∧
        t.countP Json.isOpening ≤ dialect.depth ∧
        ((∃ name, readName disk [] (.ofText ".") "package.json" = .ok name) ∨
          ∃ fault, readName disk [] (.ofText ".") "package.json" =
            .error (.refused (.manifest path fault)))) ∧
      readName .empty [] (.ofText ".") "package.json" =
        .error (.refused (.manifest path .missing)) := by
  intro text disk path
  have hholds : Holds disk [] path (Disk.unifyNewlines text) :=
    ⟨_, find_diskWith _, Disk.decode?_encode text⟩
  have hname : nameOf (Disk.unifyNewlines text) = .ok (.ok ⟨"blog", by decide⟩) := by
    decide +kernel
  have hok : readName disk [] (.ofText ".") "package.json" = .ok ⟨"blog", by decide⟩ := by
    rw [readName_of_holds hholds, hname]
  have hnumber : ¬ Json.HasLongNumber (Disk.unifyNewlines text) := by
    intro hlong
    exact absurd hlong.lt_length (by decide)
  have hdeep : (Disk.unifyNewlines text).countP Json.isOpening ≤ dialect.depth := by decide
  have hmissing : ∀ content, Disk.empty.find [] path ≠ .ok (.file content) := by
    intro content h
    cases h
  have hnames : ∀ name, .into name ∈ path.steps → Disk.checkName name = .ok () := by
    intro name h
    cases List.mem_singleton.1 h
    rfl
  obtain ⟨hfound, -, -, hsafe, -⟩ := readName_exact disk [] (.ofText ".") "package.json"
  obtain ⟨-, -, -, -, hnone⟩ := readName_exact .empty [] (.ofText ".") "package.json"
  exact ⟨hok, (hfound _).1 hok, ⟨_, hholds, hnumber, hdeep, hsafe _ hholds hnumber hdeep⟩,
    hnone hmissing (by decide) hnames⟩

theorem whole_replicate (n : Nat) : Json.Number.Whole (List.replicate (n + 1) '1') := by
  refine .digits (by decide) fun d hd => ?_
  rw [List.eq_of_mem_replicate (n := n + 1) hd]
  rfl

/-- A file that is not UTF-8, and a number that is too long. -/
theorem readName_passes_on :
    readName (diskWith ⟨#[0xFF]⟩) [] (.ofText ".") "package.json" = .error .undecodable ∧
      readName (diskWith (Disk.encode (List.replicate 4301 '1'))) [] (.ofText ".") "package.json" =
        .error .numberTooLong := by
  constructor
  · exact readName_of_escapes (.undecodable (find_diskWith _) (by decide +kernel))
  · have hdecode := Disk.decode?_encode_of_notMem (t := List.replicate 4301 '1')
      fun h => absurd (List.eq_of_mem_replicate h) (by decide)
    have hlong : Text.digitLimit < (List.replicate 4301 '1').length := by
      rw [List.length_replicate]
      decide
    have hscan := Json.Number.scan_of_long dialect.boundsDecimals (whole_replicate 4300) hlong
    have hoverruns : Json.Overruns dialect .numberTooLong (List.replicate 4301 '1') :=
      .mk (fun c hc => absurd hc List.not_mem_nil) (.number hscan)
    exact readName_of_escapes (.numberTooLong ⟨_, find_diskWith _, hdecode⟩ hoverruns)

end Scaffold.Manifest
