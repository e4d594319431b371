import Scaffold.Proofs.CommandLine.Report

namespace Scaffold.CommandLine

open Text Console Markup

variable {console : Console} {request : Request} {invocation : Invocation} {report : Report}

/-- The lines of a report have room on the console: those that show the root, and all others. -/
structure Invocation.HasRoom (invocation : Invocation) (console : Console) (root : Text) :
    Prop where
  fixed : 40 ≤ console.lineWidth
  row : Text.width root + 15 ≤ console.lineWidth
  success : invocation.dryRun = false → Text.width
    ("Created " ++ invocation.request.kind.lower ++ " at " ++ root) ≤ console.lineWidth

theorem Request.Reports.exists_toText (h : request.Reports report) :
    ∃ before, report.root.toText = before ++ '/' :: report.root.name := by
  obtain ⟨above, name, hroot⟩ := h.root
  rw [hroot]
  exact exists_toText_name (by simp)

theorem Request.Reports.name_infix (h : request.Reports report) :
    report.root.name <:+: report.root.toText := by
  obtain ⟨above, name, hroot⟩ := h.root
  rw [hroot]
  exact name_infix_toText (by simp)

theorem items_fit (request : Request) :
    ∀ t ∈ [⟨"Item", []⟩, ⟨request.kind, []⟩, ⟨"Location", []⟩, (⟨"Files", []⟩ : Styled)],
      Legible t.text ∧ Text.width t.text ≤ 8 := by
  have hlabels :
      ∀ t ∈ [⟨"Item", []⟩, ⟨request.kind, []⟩, ⟨"Location", []⟩, (⟨"Files", []⟩ : Styled)],
        IsLabel 8 t.text :=
    List.forall_mem_cons.2 ⟨by decide, List.forall_mem_cons.2 ⟨request.isLabel_kind, by decide⟩⟩
  exact fun t ht => ⟨(hlabels t ht).legible, (hlabels t ht).width_le⟩

theorem values_fit (h : request.Reports report) (hlegible : Legible report.root.toText) :
    ∀ t ∈ [⟨"Value", []⟩, ⟨report.root.name, []⟩, ⟨report.root.toText, []⟩,
        (⟨Text.ofNat report.files.length, []⟩ : Styled)],
      Legible t.text ∧ Text.width t.text ≤ max 5 (Text.width report.root.toText) := by
  have hsub : report.root.name.Sublist report.root.toText := h.name_infix.sublist
  have hshown {t : Text} (ht : t.Sublist report.root.toText) :
      Legible t ∧ Text.width t ≤ max 5 (Text.width report.root.toText) :=
    ⟨hlegible.of_sublist ht,
      (width_le_of_sublist hlegible.joiner_notMem ht).trans (Nat.le_max_right _ _)⟩
  have hlabel {t : Text} (ht : IsLabel 5 t) :
      Legible t ∧ Text.width t ≤ max 5 (Text.width report.root.toText) :=
    ⟨ht.legible, ht.width_le.trans (Nat.le_max_left _ _)⟩
  refine List.forall_mem_cons.2 ⟨hlabel (by decide), ?_⟩
  refine List.forall_mem_cons.2 ⟨hshown hsub, ?_⟩
  refine List.forall_mem_cons.2 ⟨hshown (.refl _), ?_⟩
  exact List.forall_mem_singleton.2 (hlabel (isLabel_count h.count))

theorem roomy_facts (h : request.Reports report) (hlegible : Legible report.root.toText)
    (hroom : invocation.HasRoom console report.root.toText) :
    Roomy console (shownFacts request.kind ⟨report.root.name, []⟩ ⟨report.root.toText, []⟩
      (Text.ofNat report.files.length)) 3 := by
  have hitems := items_fit request
  have hvalues := values_fit h hlegible
  constructor
  · exact List.forall_mem_cons.2 ⟨fun t ht => (hitems t ht).1,
      List.forall_mem_singleton.2 fun t ht => (hvalues t ht).1⟩
  · exact List.forall_mem_cons.2 ⟨rfl, List.forall_mem_singleton.2 rfl⟩
  · exact List.cons_ne_nil _ _
  · have hfirst : Column.requestedWidth ⟨⟨"Item", []⟩, false, [⟨request.kind, []⟩,
        ⟨"Location", []⟩, ⟨"Files", []⟩]⟩ ≤ 8 := requestedWidth_le hitems
    have hsecond : Column.requestedWidth ⟨⟨"Value", []⟩, true, [⟨report.root.name, []⟩,
        ⟨report.root.toText, []⟩, ⟨Text.ofNat report.files.length, []⟩]⟩ ≤
          max 5 (Text.width report.root.toText) :=
      requestedWidth_le hvalues
    have htwenty : max 5 (Text.width report.root.toText) + 15 ≤ console.lineWidth := by
      rw [← Nat.add_max_add_right]
      exact Nat.max_le.2 ⟨(by decide : 5 + 15 ≤ 40).trans hroom.fixed, hroom.row⟩
    rw [tableWidth_eq, shownFacts, List.map_cons, List.map_singleton, List.sum_cons,
      List.sum_singleton, List.length_cons, List.length_singleton]
    omega

theorem isTitle_mural : IsTitle "mural" :=
  (by decide : IsLabel 5 "mural").isTitle (by decide) (by decide)

theorem isTitle_fileTitle : IsTitle fileTitle :=
  (by decide : IsLabel 9 fileTitle).isTitle (by decide) (by decide)

theorem shownRoot_of_verbatim (h : request.Reports report)
    (hroot : Verbatim console report.root.toText) :
    shownRoot console report.root = .ok (⟨report.root.name, []⟩, ⟨report.root.toText, []⟩) :=
  shownRoot_eq_ok.2 ⟨(hroot.of_infix h.name_infix).render_eq, hroot.render_eq⟩

/-- The table of facts shows the root in a row of its own. -/
theorem exists_location_row (h : request.Reports report)
    (hverbatim : Verbatim console report.root.toText)
    (hroom : invocation.HasRoom console report.root.toText) :
    ∃ before k after, table console "mural" (factColumns request.kind report.root.name
        report.root.toText (Text.ofNat report.files.length)) =
      .ok (before ++ "│ Location │ " ++ report.root.toText ++ List.replicate k ' ' ++ " │\n" ++
        after) := by
  let named : Styled := ⟨report.root.name, []⟩
  let root : Styled := ⟨report.root.toText, []⟩
  have hfacts := mapM_render_facts console request h.count
  rw [shownRoot_of_verbatim h hverbatim] at hfacts
  have hroomy := roomy_facts h hverbatim.legible hroom
  have htitle : Text.width "mural" ≤ tableWidth ((shownFacts request.kind named root
      (Text.ofNat report.files.length)).map Column.requestedWidth) := by
    have hfive : Text.width "mural" = 5 := Basic.width_eq (by decide)
    rw [tableWidth_eq, List.length_map, hfive]
    exact (by decide : 5 ≤ 3 * 2 + 1).trans (Nat.add_le_add_right (Nat.le_add_left _ _) 1)
  obtain ⟨before, after, hline⟩ := exists_line (shownRow_mem_tableLines "mural"
    (shownFacts request.kind named root (Text.ofNat report.files.length)) (by decide : 1 < 3))
  have hitems := items_fit request
  have hvalues := values_fit h hverbatim.legible
  let items : Column Styled :=
    ⟨⟨"Item", []⟩, false, [⟨request.kind, []⟩, ⟨"Location", []⟩, ⟨"Files", []⟩]⟩
  let values : Column Styled :=
    ⟨⟨"Value", []⟩, true, [named, root, ⟨Text.ofNat report.files.length, []⟩]⟩
  have hmem : (⟨"Location", []⟩ : Styled) ∈ items.head :: items.cells :=
    List.mem_cons_of_mem _ (List.mem_cons_of_mem _ List.mem_cons_self)
  have hmem' : root ∈ values.head :: values.cells :=
    List.mem_cons_of_mem _ (List.mem_cons_of_mem _ List.mem_cons_self)
  have height : items.requestedWidth = 8 := by
    have hwidth : Text.width "Location" = 8 := Basic.width_eq (by decide)
    exact Nat.le_antisymm (requestedWidth_le hitems) (hwidth.ge.trans
      (width_le_requestedWidth (t := ⟨"Location", []⟩) hmem (hitems _ hmem).1))
  have hlabel : IsLabel 8 "Location" := by decide
  have hlocation : (cellLine false items.requestedWidth ⟨"Location", []⟩).flatten =
      " Location ".toList := by
    rw [height, cellText_of_plain (t := ⟨"Location", []⟩) hlabel.legible false hlabel.width_le rfl,
      padEnd, hlabel.basic.width_eq]
    rfl
  have hcell := cellText_of_plain (t := root) hverbatim.legible true
    (width_le_requestedWidth hmem' hverbatim.legible) rfl
  have hrow : (shownRow '│' [items, values] fun column => column.cells[1]?.getD ⟨[], []⟩).flatten =
      "│ Location │ " ++ report.root.toText ++
        List.replicate (values.requestedWidth - Text.width report.root.toText) ' ' ++ " │" := by
    have hcells : [items, values].map (fun column => cellLine column.wraps column.requestedWidth
        (column.cells[1]?.getD ⟨[], []⟩)) = [cellLine false items.requestedWidth ⟨"Location", []⟩,
          cellLine true values.requestedWidth root] := rfl
    rw [shownRow, flatten_rowLine, hcells, List.flatMap_cons, List.flatMap_singleton, hlocation,
      hcell, padEnd]
    simp [root]
  refine ⟨before, values.requestedWidth - Text.width report.root.toText, after, ?_⟩
  rw [table_of_fits hfacts hroomy isTitle_mural htitle, hline, shownFacts, hrow]
  simp

theorem named_root_fits (h : request.Reports report)
    (hverbatim : Verbatim console report.root.toText) :
    Verbatim console (report.root.name ++ ['/']) ∧
      Text.width (report.root.name ++ ['/']) ≤ Text.width report.root.toText := by
  obtain ⟨hinert, hlegible, hcode⟩ := hverbatim
  obtain ⟨before, hbefore⟩ := h.exists_toText
  rw [hbefore] at hlegible hcode hinert ⊢
  have hslash : charWidth '/' = 1 ∧ Legible ['/'] :=
    ⟨by decide +kernel, Basic.legible (by decide)⟩
  have hsplit : before ++ '/' :: report.root.name = before ++ ['/'] ++ report.root.name := by
    rw [List.append_assoc, List.singleton_append]
  have hinfix : report.root.name <:+: before ++ '/' :: report.root.name :=
    hsplit ▸ (List.suffix_append _ _).isInfix
  rw [hsplit, legible_append, legible_append] at hlegible
  obtain ⟨⟨hbefore', -⟩, hname'⟩ := hlegible
  refine ⟨⟨(hinert.of_infix hinfix).concat (by decide) (by decide),
    legible_append.2 ⟨hname', hslash.2⟩, (hcode.of_infix hinfix).concat (by decide)⟩, ?_⟩
  have hpieces := width_add_le
    (legible_append.2 ⟨hbefore', hslash.2⟩).joiner_notMem report.root.name
  rw [width_concat hbefore'.joiner_notMem (by decide) (by decide), hslash.1] at hpieces
  rw [width_concat hname'.joiner_notMem (by decide) (by decide), hslash.1, hsplit]
  omega

theorem exists_path_rows (h : request.Reports report)
    (hverbatim : Verbatim console report.root.toText)
    (hroom : invocation.HasRoom console report.root.toText) :
    ∃ before cells, table console fileTitle [pathColumn report.root.name request.created] =
      .ok (before ++ ((report.root.name ++ ['/']) :: request.created).flatMap (listRow cells) ++
        rule '└' '─' '┴' '┘' [cells] ++ "\n\n") := by
  obtain ⟨hname, hwidth⟩ := named_root_fits h hverbatim
  have htwenty : max 20 (Text.width report.root.toText) + 4 ≤ console.lineWidth := by
    rw [← Nat.add_max_add_right]
    exact Nat.max_le.2 ⟨(by decide : 20 + 4 ≤ 40).trans hroom.fixed,
      (Nat.add_le_add_left (by decide) _).trans hroom.row⟩
  have hpath : IsLabel 20 "Path" := by decide
  refine exists_list (List.forall_mem_cons.2 ⟨?_, List.forall_mem_cons.2 ⟨?_, ?_⟩⟩)
    isTitle_fileTitle htwenty ⟨"index.js", ?_, ?_⟩
  · exact ⟨hpath.verbatim console, hpath.width_le.trans (Nat.le_max_left _ _)⟩
  · exact ⟨hname, hwidth.trans (Nat.le_max_right _ _)⟩
  · intro t ht
    obtain ⟨hlabel, -⟩ := request.isLabel_created t ht
    exact ⟨hlabel.verbatim console, hlabel.width_le.trans (Nat.le_max_left _ _)⟩
  · refine List.mem_cons_of_mem _ (List.mem_cons_of_mem _ ?_)
    cases request with
    | newProject argument => exact List.mem_of_getElem? (i := 4) rfl
    | newApp name tokens directory => exact List.mem_of_getElem? (i := 10) rfl
  · have htitle : IsLabel 12 fileTitle := by decide
    have hindex : Basic "index.js" := by decide
    rw [hindex.width_eq]
    exact htitle.width_le

variable {arguments : List Text} {environment : Entries Text} {config : Config} {disk : Disk}
  {cwd : Location} {w : Workspace}

/-- The last lines of a report on a root that prints as it is. -/
theorem exists_last_pieces (h : invocation.request.Reports report)
    (hverbatim : Verbatim console report.root.toText)
    (hroom : invocation.HasRoom console report.root.toText) :
    ∃ texts : List Text,
      (if invocation.dryRun then [warning console "Dry run: nothing was written."]
      else [success console
          ("Created " ++ invocation.request.kind.lower ++ " at " ++ report.root.toText),
        nextSteps console nextTitle report.message]) = texts.map .ok ∧
      (invocation.dryRun = true → texts.flatten = "Dry run: nothing was written.\n") ∧
      (invocation.dryRun = false → report.root.toText.getLast? ≠ some '\\' →
        ∃ panel, nextSteps console nextTitle report.message = .ok panel ∧ texts.flatten =
          trimExcess console.lineWidth
            ("Created " ++ invocation.request.kind.lower ++ " at " ++ report.root.toText) ++
              "\n" ++ panel) := by
  cases hdry : invocation.dryRun with
  | true =>
    have hwarning : warning console "Dry run: nothing was written." =
        .ok "Dry run: nothing was written.\n" := by
      have hlabel : IsLabel 29 "Dry run: nothing was written." := by decide
      have hlength : "Dry run: nothing was written.".toList.length ≤ console.lineWidth :=
        (by decide : 29 ≤ 40).trans hroom.fixed
      rw [warning, styled_of_verbatim (isStyle_of_mem (by decide)) (hlabel.verbatim console)
        (by decide) (hlabel.width_le.trans ((by decide : 29 ≤ 40).trans hroom.fixed)),
        trimExcess_eq_self_iff.2 (.inl hlength)]
      rfl
    refine ⟨["Dry run: nothing was written.\n"], ?_, fun _ => rfl, nofun⟩
    rw [if_pos rfl, hwarning]
    rfl
  | false =>
    obtain ⟨hbackslash, hcolon, hlabel⟩ := invocation.request.isLabel_created_at
    obtain ⟨before, hbefore⟩ := h.exists_toText
    obtain ⟨printed, hprinted⟩ := success_succeeds console invocation.request
      ⟨_, hverbatim.render_eq⟩
    obtain ⟨panel, hpanel⟩ := nextSteps_succeeds console report.message
    refine ⟨[printed, panel], ?_, nofun, fun _ hlast => ⟨panel, hpanel, ?_⟩⟩
    · rw [if_neg Bool.false_ne_true, hprinted, hpanel]
      rfl
    · have hlast' : ("Created " ++ invocation.request.kind.lower ++ " at " ++
          report.root.toText).getLast? ≠ some '\\' := by
        have hne : report.root.toText ≠ [] := by simp [hbefore]
        rwa [List.getLast?_append_of_ne_nil _ hne]
      have hline : Verbatim console ("Created " ++ invocation.request.kind.lower ++ " at " ++
          report.root.toText) :=
        ⟨hverbatim.inert.append_plain hbackslash hlabel.bracket,
          legible_append.2 ⟨hlabel.legible, hverbatim.legible⟩,
          hverbatim.codeFree.append_plain hcolon⟩
      rw [success, styled_of_verbatim (isStyle_of_mem (by decide)) hline hlast'
        (hroom.success hdry)] at hprinted
      cases hprinted
      simp

theorem Invocation.hasRoom_of_basic {invocation : Invocation} {root : Text} (hbasic : Basic root)
    (hlength : root.length + 20 ≤ console.lineWidth) (hfixed : 40 ≤ console.lineWidth) :
    invocation.HasRoom console root where
  fixed := hfixed
  row := by
    rw [hbasic.width_eq]
    omega
  success := by
    intro _
    obtain ⟨-, -, hlabel⟩ := invocation.request.isLabel_created_at
    have hall := Basic.width_eq (List.forall_mem_append.2 ⟨hlabel.basic, hbasic⟩)
    have hfits := hlabel.fits
    rw [hall, List.length_append]
    omega

theorem exists_report (argument root : Text) (h : ((scaffold .default ⟨.newProject argument, false⟩
      .empty []).toOption.bind fun result => result.2.toOption.map (·.root.toText)) = some root) :
    ∃ w report, scaffold .default ⟨.newProject argument, false⟩ .empty [] = .ok (w, .ok report) ∧
      report.root.toText = root := by
  obtain ⟨⟨w, result⟩, hs, hresult⟩ := Option.bind_eq_some_iff.1 h
  obtain ⟨report, hreport, hroot⟩ := Option.map_eq_some_iff.1 hresult
  cases Scaffold.Outcome.eq_ok_of_toOption hreport
  exact ⟨w, report, Scaffold.Outcome.eq_ok_of_toOption hs, hroot⟩

end Scaffold.CommandLine
