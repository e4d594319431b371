import Scaffold.Console.Message
import Scaffold.Proofs.Console.Line
import Scaffold.Proofs.Console.Rendering

namespace Scaffold.Console

open Markup Text

variable {console : Console} {style markup message : Text} {s : Styled} {ps : List Part}

/-- What is the name of a style that the console knows. -/
structure IsStyle (console : Console) (style : Text) : Prop where
  body : IsBody style
  closing : IsBody ('/' :: style)
  opening : style.head? ≠ some '/'
  plain : '=' ∉ style
  stripped : style.strip = style
  known : ∃ name, console.styleName style = .ok name ∧ name.head? ≠ some '@'

theorem isStyle_of_mem (h : style ∈ (["bold green", "bold yellow", "bold red"] : List Text)) :
    IsStyle console style := by
  have hall : ∀ style ∈ (["bold green", "bold yellow", "bold red"] : List Text),
      IsBody style ∧ IsBody ('/' :: style) ∧ style.head? ≠ some '/' ∧ '=' ∉ style ∧
        style.strip = style := by
    decide
  obtain ⟨hbody, hclosing, hopening, hplain, hstripped⟩ := hall style h
  exact ⟨hbody, hclosing, hopening, hplain, hstripped, console.styleName_eq style h⟩

def framed (style markup : Text) : Text :=
  "[" ++ style ++ "]" ++ markup ++ "[/" ++ style ++ "]"

theorem tagName_of_notMem (h : '=' ∉ style) : tagName style = style := by
  have happend := takeWhile_append_of_notMem h []
  rwa [List.append_nil, List.takeWhile_nil, List.append_nil] at happend

theorem IsStyle.exists_tag (h : IsStyle console style) : ∃ tag : Tag, tag.name.head? ≠ some '@' ∧
    ∀ tags, tagsAfterTag? console tags style = some (tag :: tags) ∧
      tagsAfterTag? console tags ('/' :: style) = closeTag? console (some tag.name) tags := by
  obtain ⟨name, hname, hhandler⟩ := h.known
  have hopening : closingName? style = none := by
    rw [closingName?, tagName_of_notMem h.plain]
    split
    · exact absurd rfl h.opening
    · rfl
  have hclosing : closingName? ('/' :: style) = some style := by
    rw [closingName?, tagName_of_notMem (List.not_mem_cons_of_ne_of_not_mem (by decide) h.plain)]
    rfl
  have hne : style.strip ≠ [] := by
    rw [h.stripped]
    rintro rfl
    exact absurd h.body (by decide)
  refine ⟨⟨name, tagParameters style⟩, hhandler, fun tags => ⟨?_, ?_⟩⟩
  · rw [tagsAfterTag?, hopening, tagName_of_notMem h.plain, readStyle, hname]
    rfl
  · rw [tagsAfterTag?, hclosing]
    dsimp only
    rw [closedName, if_neg hne, h.stripped, readStyle, hname]
    rfl

theorem framed_eq (style markup : Text) :
    framed style markup = writtenTag 0 style ++ (markup ++ writtenTag 0 ('/' :: style)) := by
  simp [framed, writtenTag]

theorem shownText_cons_opening (style : Text) (ps : List Part) :
    shownText console [] (.tag 0 style :: ps) = shownText console [] ps := by
  rw [shownText, plain_nil]
  rfl

theorem shownText_cons_closing (style : Text) :
    shownText console [] [.tag 0 ('/' :: style)] = [] := by
  rw [shownText, shownText, plain_nil]
  rfl

theorem exists_render_framed (hstyle : IsStyle console style) (h : Reads markup ps)
    (hopened : (opened? console [] ps).isSome = true) (n : Nat) :
    ∃ qs i s, ps = qs ++ List.replicate i (.char '\\') ∧
      render console (framed style (markup ++ List.replicate n '\\')) = .ok s ∧
      s.text = shownText console [] qs ++
        shownText console [] [.tag (i + n) ('/' :: style)] := by
  obtain ⟨qs, i, rfl, hreads⟩ := h.append_writtenTag hstyle.closing n
  obtain ⟨tags, htags⟩ := Option.isSome_iff_exists.1 hopened
  obtain ⟨tag, hhandler, htag⟩ := hstyle.exists_tag
  have hqs : opened? console [] qs = some tags := by
    rw [opened?_append, ← List.map_replicate] at htags
    obtain ⟨before, hbefore, hafter⟩ := Option.bind_eq_some_iff.1 htags
    rw [opened?_map_char] at hafter
    rw [hbefore, hafter]
  have hall : Reads (framed style (markup ++ List.replicate n '\\'))
      (.tag 0 style :: (qs ++ [.tag (i + n) ('/' :: style)])) := by
    rw [framed_eq, List.append_assoc]
    exact .tag hstyle.body hreads
  have hrender : ∃ s, render console (framed style (markup ++ List.replicate n '\\')) = .ok s := by
    obtain ⟨after, hafter⟩ : ∃ after,
        opened? console [tag] (qs ++ [.tag (i + n) ('/' :: style)]) = some after := by
      have hbelow := opened?_append_tags hqs [tag]
      rw [List.nil_append] at hbelow
      rw [opened?_append, hbelow, Option.bind_some, opened?_singleton, tagsAfterPart?,
        (htag _).2]
      split
      · exact ⟨_, rfl⟩
      · exact exists_closeTag?
          ⟨tag, List.mem_append_right tags (List.mem_singleton_self tag), rfl⟩ hhandler
    refine exists_render_iff.2 ⟨after, ?_⟩
    rw [hall.parts_eq, opened?_cons, tagsAfterPart?, if_neg (by decide), (htag _).1,
      Option.bind_some, hafter]
  obtain ⟨s, hs⟩ := hrender
  refine ⟨qs, i, s, rfl, hs, ?_⟩
  rw [text_of_render hs, hall.parts_eq, shownText_cons_opening, shownText_append_tag]

theorem styled_eq (h : render console (framed style markup) = .ok s) :
    styled console style markup =
    .ok (ended console ((flow ⟨true, .fold⟩ console.lineWidth s).map Styled.runs)) := by
  rw [styled, ← framed, h]
  rfl

theorem ended_flow_of_fits (h : Legible s.text) (hfits : Text.width s.text ≤ console.lineWidth) :
    ended console ((flow ⟨true, .fold⟩ console.lineWidth s).map Styled.runs) =
      trimExcess console.lineWidth s.text ++ ['\n'] := by
  let line := s.withText (trimExcess console.lineWidth s.text)
  have htext : line.text = trimExcess console.lineWidth s.text := Styled.text_withText s _
  have hflow : flow ⟨true, .fold⟩ console.lineWidth s = [line] := flow_of_fits ⟨true, .fold⟩ h hfits
  have hkept : (trimExcess console.lineWidth s.text).Sublist s.text := List.take_sublist _ _
  have hwidth : Line.width line.runs ≤ console.lineWidth := by
    have hline : Legible line.text := htext ▸ h.of_sublist hkept
    refine (width_runs_le hline).trans ?_
    rw [htext]
    exact (width_le_of_sublist h.joiner_notMem hkept).trans hfits
  rw [hflow, List.map_singleton, ended_of_fits (List.forall_mem_singleton.2 hwidth),
    List.map_singleton, List.flatten_singleton, Styled.flatten_runs, htext]

theorem styled_succeeds (hstyle : IsStyle console style)
    (h : ∃ s, render console markup = .ok s) :
    ∃ printed, styled console style markup = .ok printed := by
  obtain ⟨tags, htags⟩ := exists_render_iff.1 h
  obtain ⟨qs, i, s, -, hs, -⟩ := exists_render_framed hstyle (reads_parts markup)
    (Option.isSome_iff_exists.2 ⟨tags, htags⟩) 0
  rw [List.replicate_zero, List.append_nil] at hs
  exact ⟨_, styled_eq hs⟩

theorem styled_of_verbatim (hstyle : IsStyle console style) (h : Verbatim console markup)
    (hlast : markup.getLast? ≠ some '\\') (hfits : width markup ≤ console.lineWidth) :
    styled console style markup = .ok (trimExcess console.lineWidth markup ++ ['\n']) := by
  obtain ⟨qs, i, s, hparts, hs, htext⟩ := exists_render_framed hstyle h.inert.reads
    (by rw [opened?_map_char]; rfl) 0
  have hnone : i = 0 := by
    cases i with
    | zero => rfl
    | succ i =>
      have hchars := congrArg List.getLast? hparts
      rw [List.replicate_succ', ← List.append_assoc, List.getLast?_concat,
        List.getLast?_map] at hchars
      obtain ⟨c, hc, heq⟩ := Option.map_eq_some_iff.1 hchars
      cases heq
      exact absurd hc hlast
  subst hnone
  rw [List.replicate_zero, List.append_nil] at hparts hs
  have hshown : s.text = markup := by
    rw [htext, ← hparts, shownText_map_char, List.nil_append, h.plain_eq, shownText_cons_closing,
      List.append_nil]
  rw [styled_eq hs, ended_flow_of_fits (hshown ▸ h.legible) (hshown ▸ hfits), hshown]

theorem nextSteps_succeeds (console : Console) (message : Text) :
    ∃ printed, nextSteps console nextTitle message = .ok printed := by
  have hrender : render console nextTitle = .ok ⟨nextTitle, []⟩ :=
    Verbatim.render_eq
      ⟨inert_of_notMem (by decide), Basic.legible (by decide), .of_count (by decide)⟩
  rw [nextSteps, panel, panelTitle, if_neg (by decide), hrender]
  exact ⟨_, rfl⟩

/-- An escaped message may have one more backslash behind it. -/
theorem exists_escape (message : Text) : ∃ n,
    escape message = (parts message).flatMap Part.escaped ++ List.replicate n '\\' := by
  rw [escape]
  split
  · exact ⟨1, rfl⟩
  · exact ⟨0, (List.append_nil _).symm⟩

theorem getLast?_of_endsInOneBackslash (h : endsInOneBackslash message = true) :
    message.getLast? = some '\\' := by
  rw [endsInOneBackslash] at h
  rw [List.getLast?_eq_head?_reverse]
  split at h
  · cases h
  · rename_i heq
    rw [heq]
    rfl
  · cases h

theorem getLast?_escaped (h : .char '\\' ∉ ps) :
    (ps.flatMap Part.escaped).getLast? ≠ some '\\' := by
  rcases List.eq_nil_or_concat ps with rfl | ⟨before, p, rfl⟩
  · intro hlast
    cases hlast
  · rw [List.concat_eq_append, List.flatMap_append, List.flatMap_singleton]
    cases p with
    | char c =>
      rw [Part.escaped, List.getLast?_concat]
      rintro ⟨⟩
      exact h (by simp)
    | tag n body =>
      rw [Part.escaped, ← List.append_assoc, List.getLast?_concat]
      decide

theorem char_notMem_parts (h : '\\' ∉ message) : .char '\\' ∉ parts message := by
  intro hmem
  have hwritten := (reads_parts message).written
  exact h (hwritten ▸ List.mem_flatMap.2 ⟨_, hmem, List.mem_singleton_self _⟩)

theorem opening_notMem_body (message : Text) (n : Nat) (body : Text)
    (h : .tag n body ∈ parts message) : '[' ∉ body :=
  ((reads_parts message).isBody h).opening

theorem escape_of_notMem (h : '\\' ∉ message) :
    escape message = (parts message).flatMap Part.escaped := by
  rw [escape, if_neg]
  exact fun hends => getLast?_escaped (char_notMem_parts h) (getLast?_of_endsInOneBackslash hends)

theorem isStyle_error (console : Console) : IsStyle console "bold red" :=
  isStyle_of_mem (by decide)

theorem exists_error (console : Console) (message : Text) :
    ∃ printed, error console message = .ok printed := by
  obtain ⟨n, hn⟩ := exists_escape message
  obtain ⟨qs, i, s, -, hs, -⟩ := exists_render_framed (isStyle_error console)
    (reads_parts message).escaped (by rw [opened?_map_guarded]; rfl) n
  rw [← hn] at hs
  exact ⟨_, styled_eq hs⟩

/-- Without a backslash the closing tag stays one, and the message is printed as it is. -/
theorem exists_render_error (h : '\\' ∉ message) (hcode : console.CodeFree message) :
    ∃ s, render console (framed "bold red" (escape message)) = .ok s ∧
      s.text = printed message := by
  have hchar : .char '\\' ∉ (parts message).map Part.guarded := by
    intro hmem
    obtain ⟨p, hp, hguarded⟩ := List.mem_map.1 hmem
    cases p with
    | char c => exact char_notMem_parts h (hguarded ▸ hp)
    | tag n body => cases hguarded
  obtain ⟨qs, i, s, hparts, hs, htext⟩ := exists_render_framed (isStyle_error console)
    (reads_parts message).escaped (by rw [opened?_map_guarded]; rfl) 0
  have hnone : i = 0 := by
    by_contra hne
    exact hchar (hparts ▸ List.mem_append_right qs (List.mem_replicate.2 ⟨hne, rfl⟩))
  subst hnone
  rw [List.replicate_zero, List.append_nil] at hparts hs
  rw [← escape_of_notMem h] at hs
  refine ⟨s, hs, ?_⟩
  have hwritten := (reads_parts message).written
  have hcode' : console.CodeFree ([] ++ (parts message).flatMap Part.written) := by
    rwa [List.nil_append, hwritten]
  have hguarded := shownText_map_guarded List.not_mem_nil (char_notMem_parts h)
    (opening_notMem_body message) hcode'
  rw [htext, ← hparts, hguarded, List.nil_append, hwritten, shownText_cons_closing,
    List.append_nil]

theorem error_eq (hlegible : Legible message) (hbackslash : '\\' ∉ message)
    (hcode : console.CodeFree message) (hfits : width message ≤ console.lineWidth) :
    error console message = .ok (trimExcess console.lineWidth message ++ ['\n']) := by
  obtain ⟨s, hs, htext⟩ := exists_render_error hbackslash hcode
  rw [hlegible.printed_eq] at htext
  rw [error, styled_eq hs, ended_flow_of_fits (htext ▸ hlegible) (htext ▸ hfits), htext]

/-- A legible message that has room is printed as it is, except for the spaces at its end that stand
beyond as many characters as a line has cells. -/
theorem error_verbatim (hlegible : Legible message) (hbackslash : '\\' ∉ message)
    (hcode : console.CodeFree message) (hfits : width message ≤ console.lineWidth) :
    error console message = .ok (trimExcess console.lineWidth message ++ ['\n']) ∧
    (∃ n, message = trimExcess console.lineWidth message ++ List.replicate n ' ') ∧
    (error console message = .ok (message ++ ['\n']) ↔
      message.length ≤ console.lineWidth ∨ message.getLast? ≠ some ' ') := by
  refine ⟨error_eq hlegible hbackslash hcode hfits,
    exists_trimExcess hlegible console.lineWidth, ?_⟩
  rw [error_eq hlegible hbackslash hcode hfits, Except.ok.injEq, List.append_left_inj,
    trimExcess_eq_self_iff, hlegible.isBlank_getLast?_iff]

theorem error_verbatim_brackets : error (.ofWidth 80) "bad [title] [/x] [a[b] [/bold red" =
    .ok "bad [title] [/x] [a[b] [/bold red\n" := by
  have hbasic : Basic "bad [title] [/x] [a[b] [/bold red" := by decide
  have hfits : width "bad [title] [/x] [a[b] [/bold red" ≤ (Console.ofWidth 80).lineWidth := by
    rw [hbasic.width_eq]
    decide
  exact (error_verbatim hbasic.legible (by decide) (.of_count (by decide)) hfits).2.2.2
    (.inl (by decide))

/-- A letter under many accents has room, and the space behind it is not printed. -/
theorem error_drops_space : ¬ ∀ (console : Console) (message : Text), Legible message →
    '\\' ∉ message → console.CodeFree message → width message ≤ console.lineWidth →
      error console message = .ok (message ++ ['\n']) := by
  intro h
  let message : Text := 'a' :: List.replicate 200 '\u0301' ++ [' ']
  have hlegible : Legible message := by decide +kernel
  have hbackslash : '\\' ∉ message := by decide +kernel
  have hcode : (Console.ofWidth 200).CodeFree message := .of_count (by decide +kernel)
  have hfits : width message ≤ (Console.ofWidth 200).lineWidth := by decide +kernel
  have hkept := h (.ofWidth 200) message hlegible hbackslash hcode hfits
  rw [error_eq hlegible hbackslash hcode hfits, Except.ok.injEq, List.append_left_inj] at hkept
  exact absurd (congrArg List.length hkept) (by decide +kernel)

end Scaffold.Console
