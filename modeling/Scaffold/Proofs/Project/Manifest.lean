import Scaffold.Manifest
import Scaffold.Project.Artifacts
import Scaffold.Proofs.Disk.Text
import Scaffold.Proofs.Json.Printer
import Scaffold.Proofs.Template.Members
import Scaffold.Proofs.Template.Names

namespace Scaffold

namespace ProjectSpec

open Template

/-- The fields of the manifest besides the project's name. -/
def fixedFields : Entries Json :=
  [("version", .string "0.0.1"), ("private", .bool true), ("scripts", .textFields scripts),
    ("babel", .object [("presets", .texts babelPresets), ("plugins", .texts babelPlugins)]),
    ("dependencies", .textFields dependencies)]

def manifestValue (spec : ProjectSpec) : Json :=
  .object (("name", .string spec.name) :: fixedFields)

/-- What the manifest is filled in with besides the project's name. -/
def fixedContext : Context :=
  [("scripts", .textFields scripts), ("babel_presets", .texts babelPresets),
    ("babel_plugins", .texts babelPlugins), ("dependencies", .textFields dependencies)]

def manifestContext (spec : ProjectSpec) : Context :=
  ("project_name", .string spec.name) :: fixedContext

def manifestSupply : Supply where
  texts := ["project_name"]
  lists := ["babel_presets", "babel_plugins"]
  mappings := ["scripts", "dependencies"]

theorem manifestSupply_meets (spec : ProjectSpec) : manifestSupply.Meets spec.manifestContext where
  text := by
    intro name hname
    cases List.mem_singleton.1 hname
    exact ⟨_, rfl⟩
  list := by
    intro name hname
    simp only [manifestSupply, List.mem_cons, List.not_mem_nil, or_false] at hname
    rcases hname with rfl | rfl <;> exact ⟨_, rfl⟩
  mapping := by
    intro name hname
    simp only [manifestSupply, List.mem_cons, List.not_mem_nil, or_false] at hname
    rcases hname with rfl | rfl <;> exact ⟨_, rfl⟩

def label (name : Text) : Text :=
  Json.literal Json.isAsciiPrintable name ++ ": "

def margin (indent : Nat) : Text :=
  List.replicate (2 * indent) ' '

def fieldLine : List ItemFragment :=
  memberLine 2 [.key .json, .text ": ", .value .json]

def itemLine : List ItemFragment :=
  memberLine 3 [.value .json]

/-- What stands in the manifest behind the project's name. -/
def manifestRest : List Segment :=
  [.text (',' :: Json.newline 1 ++ label "version" ++ Json.literal Json.isAsciiPrintable "0.0.1" ++
      ',' :: Json.newline 1 ++ label "private" ++ "true" ++
      ',' :: Json.newline 1 ++ label "scripts" ++ '\x7b' :: ['\n']),
    .block (.eachEntry "scripts" fieldLine),
    .text (margin 1 ++ '\x7d' :: ',' :: Json.newline 1 ++ label "babel" ++
      '\x7b' :: Json.newline 2 ++ label "presets" ++ '[' :: ['\n']),
    .block (.each "babel_presets" itemLine),
    .text (margin 2 ++ ']' :: ',' :: Json.newline 2 ++ label "plugins" ++ '[' :: ['\n']),
    .block (.each "babel_plugins" itemLine),
    .text (margin 2 ++ ']' :: Json.newline 1 ++ '\x7d' :: ',' :: Json.newline 1 ++
      label "dependencies" ++ '\x7b' :: ['\n']),
    .block (.eachEntry "dependencies" fieldLine),
    .text (margin 1 ++ '\x7d' :: '\n' :: '\x7d' :: ['\n'])]

theorem template_manifest : fits manifestSupply Template.manifest = true ∧
    segments Template.manifest =
      .text "\x7b\n  \"name\": " :: .slot "project_name" .json :: manifestRest ∧
    ∀ s ∈ manifestRest, "project_name".toList ∉ s.freeNames := by
  decide +kernel

theorem manifest_eq_filled (spec : ProjectSpec) : spec.manifest =
    .ok ("\x7b\n  \"name\": " ++ (Json.literal Json.isAsciiPrintable spec.name ++
      manifestRest.flatMap (Segment.value fixedContext))) := by
  obtain ⟨hfits, hsegments, hfree⟩ := template_manifest
  have hmanifest : spec.manifest = .ok (Template.manifest.filled spec.manifestContext) :=
    render_eq_filled rfl spec.manifestSupply_meets hfits
  rw [hmanifest, filled, hsegments, List.flatMap_cons, List.flatMap_cons, manifestContext,
    Segment.flatMap_value_cons _ hfree]
  rfl

def printedFields (entries : Entries Text) : List Text :=
  Json.indentedFields Json.isAsciiPrintable 2 (entries.map fun (key, value) =>
    (key, .string value))

def printedItems (ts : List Text) : List Text :=
  Json.indentedItems Json.isAsciiPrintable 3 (ts.map .string)

theorem indentedFields_fixedFields : Json.indentedFields Json.isAsciiPrintable 1 fixedFields =
    [label "version" ++ Json.literal Json.isAsciiPrintable "0.0.1", label "private" ++ "true",
      label "scripts" ++ Json.block 1 '\x7b' '\x7d' (printedFields scripts),
      label "babel" ++ Json.block 1 '\x7b' '\x7d'
        [label "presets" ++ Json.block 2 '[' ']' (printedItems babelPresets),
          label "plugins" ++ Json.block 2 '[' ']' (printedItems babelPlugins)],
      label "dependencies" ++ Json.block 1 '\x7b' '\x7d' (printedFields dependencies)] :=
  rfl

theorem block_printedFields {entries : Entries Text} (hne : entries ≠ []) :
    Json.block 1 '\x7b' '\x7d' (printedFields entries) =
      '\x7b' :: (Json.newline 2 ++ (Text.join (',' :: Json.newline 2) (printedFields entries) ++
        (Json.newline 1 ++ ['\x7d']))) := by
  cases entries with
  | nil => exact absurd rfl hne
  | cons e rest => exact Json.block_eq 1 _ _ (List.cons_ne_nil _ _)

theorem block_printedItems {ts : List Text} (hne : ts ≠ []) :
    Json.block 2 '[' ']' (printedItems ts) =
      '[' :: (Json.newline 3 ++ (Text.join (',' :: Json.newline 3) (printedItems ts) ++
        (Json.newline 2 ++ [']']))) := by
  cases ts with
  | nil => exact absurd rfl hne
  | cons t rest => exact Json.block_eq 2 _ _ (List.cons_ne_nil _ _)

theorem manifestRest_eq : manifestRest.flatMap (Segment.value fixedContext) =
    ',' :: (Json.newline 1 ++ Text.join (',' :: Json.newline 1)
      (Json.indentedFields Json.isAsciiPrintable 1 fixedFields)) ++ "\n\x7d\n" := by
  have hscripts : scripts ≠ [] := List.cons_ne_nil _ _
  have hpresets : babelPresets ≠ [] := List.cons_ne_nil _ _
  have hplugins : babelPlugins ≠ [] := List.cons_ne_nil _ _
  have hdependencies : dependencies ≠ [] := List.cons_ne_nil _ _
  have htext (t : Text) : (Segment.text t).value fixedContext = t := rfl
  rw [indentedFields_fixedFields, block_printedFields hscripts, block_printedItems hpresets,
    block_printedItems hplugins, block_printedFields hdependencies,
    Json.block_eq 1 _ _ (List.cons_ne_nil _ [_])]
  simp only [manifestRest, List.flatMap_cons, List.flatMap_nil, htext, fieldLine, itemLine,
    List.append_assoc, List.cons_append, List.nil_append, List.append_nil,
    @value_entries fixedContext 2 "scripts" scripts rfl hscripts,
    @value_texts fixedContext 3 "babel_presets" babelPresets rfl hpresets,
    @value_texts fixedContext 3 "babel_plugins" babelPlugins rfl hplugins,
    @value_entries fixedContext 2 "dependencies" dependencies rfl hdependencies,
    margin, Json.newline, Text.join]
  rfl

/-- The manifest is what a printer for JSON makes of its fields, in ASCII. -/
theorem manifest_eq (spec : ProjectSpec) : spec.manifest =
    .ok (Json.indented Json.isAsciiPrintable 0 spec.manifestValue ++ ['\n']) := by
  have hfields : Json.indentedFields Json.isAsciiPrintable 1
      (("name", .string spec.name) :: fixedFields) =
        (Json.literal Json.isAsciiPrintable "name" ++ ": " ++
          Json.literal Json.isAsciiPrintable spec.name) ::
            Json.indentedFields Json.isAsciiPrintable 1 fixedFields := rfl
  have hmore : Json.indentedFields Json.isAsciiPrintable 1 fixedFields ≠ [] :=
    List.cons_ne_nil _ _
  have hprinted : Json.indented Json.isAsciiPrintable 0 spec.manifestValue =
      Json.block 0 '\x7b' '\x7d' (Json.indentedFields Json.isAsciiPrintable 1
        (("name", .string spec.name) :: fixedFields)) := rfl
  rw [manifest_eq_filled, manifestRest_eq, hprinted, hfields,
    Json.block_eq 0 '\x7b' '\x7d' (List.cons_ne_nil _ _), Text.join_cons _ hmore]
  simp only [List.append_assoc, List.cons_append]
  rfl

theorem read_manifest {spec : ProjectSpec} {t : Text} (h : spec.manifest = .ok t) :
    Json.read Manifest.dialect t = .ok spec.manifestValue.raw := by
  have hprintable : Json.printable Manifest.dialect.depth spec.manifestValue = true := rfl
  rw [manifest_eq] at h
  cases h
  exact Json.read_indented (g := []) (Json.embeds_raw ..) Json.safe_isAsciiPrintable hprintable
    (List.forall_mem_nil _) (Json.gap_newline 0) 0

theorem decode?_manifest {spec : ProjectSpec} {t : Text} (h : spec.manifest = .ok t) :
    Disk.decode? (Disk.encode t) = some t := by
  apply Disk.decode?_encode_of_notMem
  rw [manifest_eq] at h
  cases h
  apply Text.notMem_append _ (by decide)
  intro hreturn
  rcases Json.written_indented _ _ _ hreturn with h | h | h <;> cases h

end ProjectSpec

end Scaffold
