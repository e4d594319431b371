import Scaffold.Json.StringLiteral
import Scaffold.Proofs.Outcome

namespace Scaffold

namespace Text

theorem hex_succ {k : Nat} (hk : 0 < k) (n : Nat) :
    hex (k + 1) n = hex k (n / 16) ++ [(n % 16).digitChar] := by
  by_cases hn : n < 16
  · cases k with
    | zero => cases hk
    | succ k =>
      have hpad : List.replicate (k + 1) '0' = List.replicate k '0' ++ ['0'] :=
        List.replicate_succ'
      rw [Nat.div_eq_of_lt hn, Nat.mod_eq_of_lt hn, hex, hex, Nat.toDigits_of_lt_base hn,
        Nat.toDigits_zero]
      exact congrArg (· ++ [n.digitChar]) hpad
  · rw [hex, hex, Nat.toDigits_of_base_le (by decide) (Nat.le_of_not_lt hn), List.length_append,
      List.length_singleton, Nat.add_sub_add_right, List.append_assoc]

theorem hex_one {n : Nat} (h : n < 16) : hex 1 n = [n.digitChar] := by
  rw [hex, Nat.toDigits_of_lt_base h]
  rfl

end Text

namespace Json

theorem hexValue?_digitChar {d : Nat} (h : d < 16) : hexValue? d.digitChar = some d := by
  have hall : ∀ d : Fin 16, hexValue? d.val.digitChar = some d.val := by decide
  exact hall ⟨d, h⟩

theorem isAsciiPrintable_digitChar {d : Nat} (h : d < 16) :
    isAsciiPrintable d.digitChar = true := by
  have hall : ∀ d : Fin 16, isAsciiPrintable d.val.digitChar = true := by decide
  exact hall ⟨d, h⟩

theorem hex_four {n : Nat} (h : n < 0x10000) : Text.hex 4 n =
    [(n / 16 / 16 / 16).digitChar, (n / 16 / 16 % 16).digitChar, (n / 16 % 16).digitChar,
      (n % 16).digitChar] := by
  rw [Text.hex_succ (by decide), Text.hex_succ (by decide), Text.hex_succ (by decide),
    Text.hex_one (by omega)]
  rfl

theorem hex_eq {n : Nat} (h : n < 0x10000) :
    ∃ a b c d, Text.hex 4 n = [a, b, c, d] ∧ hex4? a b c d = some n := by
  have hdigits : ((n / 16 / 16 / 16 * 16 + n / 16 / 16 % 16) * 16 + n / 16 % 16) * 16 + n % 16 =
      n := by omega
  refine ⟨_, _, _, _, hex_four h, ?_⟩
  rw [hex4?, hexValue?_digitChar (by omega), hexValue?_digitChar (Nat.mod_lt _ (by decide)),
    hexValue?_digitChar (Nat.mod_lt _ (by decide)), hexValue?_digitChar (Nat.mod_lt _ (by decide))]
  exact congrArg some hdigits

theorem isAsciiPrintable_of_mem_hex {n : Nat} {c : Char} (h : n < 0x10000)
    (hc : c ∈ Text.hex 4 n) : isAsciiPrintable c = true := by
  rw [hex_four h] at hc
  simp only [List.mem_cons, List.not_mem_nil, or_false] at hc
  rcases hc with rfl | rfl | rfl | rfl
  · exact isAsciiPrintable_digitChar (by omega)
  all_goals exact isAsciiPrintable_digitChar (Nat.mod_lt _ (by decide))

/-- A character or an escape that stands for a piece of a text. -/
inductive Piece.Spells : Piece → Text → Prop where
  | plain {c} : c ≠ '"' → c ≠ '\\' → isUnrestricted c = true → Spells (.char c) [c]
  | named {c e} : namedEscape? c = some e → Spells (.char e) ['\\', c]
  | unit {a b c d n} : hex4? a b c d = some n → Spells (.unit n) ['\\', 'u', a, b, c, d]

inductive SpellsPieces : List Piece → Text → Prop where
  | nil : SpellsPieces [] []
  | cons {piece pieces t u} : piece.Spells t → SpellsPieces pieces u →
      SpellsPieces (piece :: pieces) (t ++ u)

/-- A literal with its quotes, and the raw text that it spells. -/
inductive SpellsString : RawText → Text → Prop where
  | mk {pieces u} : SpellsPieces pieces u → SpellsString (ofPieces pieces) ('"' :: (u ++ ['"']))

variable {plain : Char → Bool} {c : Char} {t rest : Text} {raw : RawText} {piece : Piece}
  {ps : List Piece}

/-- Reading the rest of a literal, with the pieces that come before. -/
def readAfter (before : List Piece) (rest : Text) : Except Fault (List Piece × Text) :=
  (readPieces rest).map fun (pieces, rest) => (before ++ pieces, rest)

theorem map_readAfter (before more : List Piece) (rest : Text) :
    (readAfter more rest).map (fun (pieces, rest) => (before ++ pieces, rest)) =
      readAfter (before ++ more) rest := by
  rw [readAfter, readAfter]
  cases readPieces rest with
  | error fault => rfl
  | ok result =>
    have happend := List.append_assoc before more result.1
    exact congrArg (fun pieces => Except.ok (pieces, result.2)) happend.symm

theorem readPieces_plain (hquote : c ≠ '"') (hbackslash : c ≠ '\\')
    (hplain : isUnrestricted c = true) (rest : Text) :
    readPieces (c :: rest) = readAfter [.char c] rest := by
  rw [readPieces, if_pos hplain]
  · rfl
  · exact hquote
  · exact fun h _ => hbackslash h
  · exact fun _ _ _ _ _ h _ => hbackslash h
  · exact fun _ _ h _ => hbackslash h

theorem readPieces_escape {e : Char} (h : namedEscape? c = some e) (rest : Text) :
    readPieces ('\\' :: c :: rest) = readAfter [.char e] rest := by
  unfold namedEscape? at h
  split at h <;> cases h <;> rfl

theorem readPieces_hex {a b c d : Char} {n : Nat} (h : hex4? a b c d = some n) (hrest : rest ≠ []) :
    readPieces ('\\' :: 'u' :: a :: b :: c :: d :: rest) = readAfter [.unit n] rest := by
  obtain ⟨e, rest, rfl⟩ := List.exists_cons_of_ne_nil hrest
  rw [readPieces]
  · rfl
  · exact h

theorem readPieces_piece (hpiece : piece.Spells t) (hrest : rest ≠ []) :
    readPieces (t ++ rest) = readAfter [piece] rest := by
  cases hpiece with
  | plain hquote hbackslash hplain => exact readPieces_plain hquote hbackslash hplain rest
  | named h => exact readPieces_escape h rest
  | unit h => exact readPieces_hex h hrest

theorem readPieces_of_spells (h : SpellsPieces ps t) (rest : Text) :
    readPieces (t ++ '"' :: rest) = .ok (ps, rest) := by
  induction h with
  | nil => rfl
  | cons hpiece hps ih =>
    rw [List.append_assoc, readPieces_piece hpiece (by simp), readAfter, ih]
    rfl

theorem spells_of_readPieces (h : readPieces t = .ok (ps, rest)) :
    ∃ u, t = u ++ '"' :: rest ∧ SpellsPieces ps u := by
  fun_induction readPieces t generalizing ps with
  | case2 =>
    cases h
    exact ⟨[], rfl, .nil⟩
  | case4 a b c d e more n hn ih =>
    obtain ⟨⟨pieces, after⟩, hread, hpieces⟩ := Outcome.bind_eq_ok.1 h
    cases hpieces
    obtain ⟨u, heq, hu⟩ := ih hread
    have htext := congrArg (['\\', 'u', a, b, c, d] ++ ·) heq
    exact ⟨['\\', 'u', a, b, c, d] ++ u, htext, .cons (.unit hn) hu⟩
  | case8 c more _ _ e he ih =>
    obtain ⟨⟨pieces, after⟩, hread, hpieces⟩ := Outcome.bind_eq_ok.1 h
    cases hpieces
    obtain ⟨u, heq, hu⟩ := ih hread
    exact ⟨['\\', c] ++ u, congrArg (['\\', c] ++ ·) heq, .cons (.named he) hu⟩
  | case9 c more hquote hlast _ hescape hplain ih =>
    obtain ⟨⟨pieces, after⟩, hread, hpieces⟩ := Outcome.bind_eq_ok.1 h
    cases hpieces
    obtain ⟨u, heq, hu⟩ := ih hread
    have hbackslash : c ≠ '\\' := by
      intro hc
      cases more with
      | nil => exact hlast hc rfl
      | cons d more => exact hescape d more hc rfl
    exact ⟨[c] ++ u, congrArg ([c] ++ ·) heq, .cons (.plain hquote hbackslash hplain) hu⟩
  | case1 | case3 | case5 | case6 | case7 | case10 => cases h

theorem readLiteral_of_spells (h : SpellsString raw t) :
    ∃ u, t = '"' :: u ∧ ∀ rest, readLiteral (u ++ rest) = .ok (raw, rest) := by
  obtain ⟨hpieces⟩ := h
  refine ⟨_, rfl, fun rest => ?_⟩
  rw [List.append_assoc, readLiteral]
  exact Outcome.bind_eq_ok.2 ⟨_, readPieces_of_spells hpieces rest, rfl⟩

theorem spells_of_readLiteral (h : readLiteral t = .ok (raw, rest)) :
    ∃ u, '"' :: t = u ++ rest ∧ SpellsString raw u := by
  obtain ⟨⟨ps, after⟩, hread, hs⟩ := Outcome.bind_eq_ok.1 h
  cases hs
  obtain ⟨u, rfl, hu⟩ := spells_of_readPieces hread
  exact ⟨'"' :: (u ++ ['"']), by simp, .mk hu⟩

/-- The characters that are always escaped, by one letter each. -/
def named : List Char := ['"', '\\', '\n', '\r', '\t', '\x08', '\x0c']

/-- What reading makes of a character in a literal. -/
def pieces (plain : Char → Bool) (c : Char) : List Piece :=
  if c ∈ named ∨ plain c = true then [.char c] else (units c).map .unit

theorem readPieces_named (hc : c ∈ named) (plain : Char → Bool) (rest : Text) :
    readPieces (escapeChar plain c ++ rest) = readAfter [.char c] rest := by
  simp only [named, List.mem_cons, List.not_mem_nil, or_false] at hc
  rcases hc with rfl | rfl | rfl | rfl | rfl | rfl | rfl
  all_goals rfl

/-- A code unit inside a literal. -/
def escapeUnit (n : Nat) : Text :=
  "\\u" ++ Text.hex 4 n

theorem readPieces_unit {n : Nat} (hn : n < 0x10000) (hrest : rest ≠ []) :
    readPieces (escapeUnit n ++ rest) = readAfter [.unit n] rest := by
  obtain ⟨a, b, c, d, hhex, hvalue⟩ := hex_eq hn
  rw [escapeUnit, hhex]
  exact readPieces_hex hvalue hrest

theorem readPieces_units {us : List Nat} (hus : ∀ u ∈ us, u < 0x10000) (hrest : rest ≠ []) :
    readPieces (us.flatMap escapeUnit ++ rest) = readAfter (us.map .unit) rest := by
  induction us with
  | nil =>
    rw [List.flatMap_nil, List.nil_append, readAfter]
    cases readPieces rest <;> rfl
  | cons u us ih =>
    obtain ⟨hu, hus⟩ := List.forall_mem_cons.1 hus
    have hmore : us.flatMap escapeUnit ++ rest ≠ [] :=
      List.append_ne_nil_of_right_ne_nil _ hrest
    rw [List.flatMap_cons, List.append_assoc, readPieces_unit hu hmore, readAfter, ih hus]
    exact map_readAfter [.unit u] _ rest

theorem toNat_valid (c : Char) : c.toNat < 0xD800 ∨ 0xDFFF < c.toNat ∧ c.toNat < 0x110000 :=
  c.valid

theorem units_lt (c : Char) : ∀ u ∈ units c, u < 0x10000 := by
  intro u hu
  have hc := toNat_valid c
  rw [units] at hu
  split at hu
  · rename_i hsmall
    cases List.mem_singleton.1 hu
    exact hsmall
  · simp only [List.mem_cons, List.not_mem_nil, or_false] at hu
    rcases hu with hu | hu
    · omega
    · omega

theorem escapeChar_of_notMem (hc : c ∉ named) :
    escapeChar plain c = if plain c then [c] else (units c).flatMap escapeUnit := by
  simp only [named, List.mem_cons, List.not_mem_nil, or_false, not_or] at hc
  obtain ⟨hquote, hbackslash, hn, hr, ht, hb, hf⟩ := hc
  rw [escapeChar, if_neg hquote, if_neg hbackslash, if_neg hn, if_neg hr, if_neg ht, if_neg hb,
    if_neg hf]
  rfl

theorem readPieces_escapeChar (hplain : ∀ c, plain c = true → isUnrestricted c = true) (c : Char)
    (hrest : rest ≠ []) :
    readPieces (escapeChar plain c ++ rest) = readAfter (pieces plain c) rest := by
  by_cases hnamed : c ∈ named
  · rw [readPieces_named hnamed, pieces, if_pos (.inl hnamed)]
  · rw [escapeChar_of_notMem hnamed, pieces]
    by_cases hc : plain c = true
    · rw [if_pos hc, if_pos (.inr hc)]
      have hquote : c ≠ '"' := fun h => hnamed (h ▸ List.mem_cons_self)
      have hbackslash : c ≠ '\\' := fun h => hnamed (h ▸ .tail _ List.mem_cons_self)
      exact readPieces_plain hquote hbackslash (hplain c hc) rest
    · rw [if_neg hc, if_neg (not_or.2 ⟨hnamed, hc⟩)]
      exact readPieces_units (units_lt c) hrest

theorem ofPieces_unit {n : Nat} (hn : n < 0xD800 ∨ 0xDFFF < n) (rest : List Piece) :
    ofPieces (.unit n :: rest) = .char (Char.ofNat n) :: ofPieces rest := by
  have hunit : RawChar.ofUnit n = .char (Char.ofNat n) := dif_neg (by omega)
  have hhigh : isHighSurrogate n = false := by
    simp only [isHighSurrogate, Bool.and_eq_false_iff, decide_eq_false_iff_not]
    omega
  cases rest with
  | nil => exact congrArg ([·]) hunit
  | cons piece rest =>
    cases piece with
    | char c => exact congrArg (· :: ofPieces (.char c :: rest)) hunit
    | unit m =>
      rw [ofPieces, hhigh, hunit]
      rfl

theorem ofPieces_pair {high low : Nat} (hhigh : isHighSurrogate high = true)
    (hlow : isLowSurrogate low = true) (rest : List Piece) :
    ofPieces (.unit high :: .unit low :: rest) =
      .char (ofSurrogates high low) :: ofPieces rest := by
  rw [ofPieces, hhigh, hlow]
  rfl

/-- The surrogates of a character beyond the basic plane give it back. -/
theorem ofSurrogates_units {c : Char} (h : 0x10000 ≤ c.toNat) :
    ofSurrogates (0xD800 + (c.toNat - 0x10000) / 0x400) (0xDC00 + (c.toNat - 0x10000) % 0x400) =
      c := by
  have hnat : 0x10000 + (0xD800 + (c.toNat - 0x10000) / 0x400 - 0xD800) * 0x400 +
      (0xDC00 + (c.toNat - 0x10000) % 0x400 - 0xDC00) = c.toNat := by omega
  rw [ofSurrogates, hnat, Char.ofNat_toNat]

theorem ofPieces_pieces (c : Char) (rest : List Piece) :
    ofPieces (pieces plain c ++ rest) = .char c :: ofPieces rest := by
  have hvalid := toNat_valid c
  rw [pieces]
  split
  · rfl
  · rw [units]
    split
    -- A single unit is no surrogate, since no character is one.
    · have hunit := ofPieces_unit (hvalid.imp_right And.left) rest
      rw [Char.ofNat_toNat] at hunit
      exact hunit
    · rename_i hlarge
      have hhigh : isHighSurrogate (0xD800 + (c.toNat - 0x10000) / 0x400) = true := by
        simp only [isHighSurrogate, Bool.and_eq_true, decide_eq_true_eq]
        omega
      have hlow : isLowSurrogate (0xDC00 + (c.toNat - 0x10000) % 0x400) = true := by
        simp only [isLowSurrogate, Bool.and_eq_true, decide_eq_true_eq]
        omega
      have hpair := ofPieces_pair hhigh hlow rest
      rw [ofSurrogates_units (Nat.le_of_not_lt hlarge)] at hpair
      exact hpair

theorem readPieces_literal (hplain : ∀ c, plain c = true → isUnrestricted c = true)
    (t rest : Text) : readPieces (t.flatMap (escapeChar plain) ++ '"' :: rest) =
      .ok (t.flatMap (pieces plain), rest) := by
  induction t with
  | nil => rfl
  | cons c t ih =>
    rw [List.flatMap_cons, List.append_assoc, readPieces_escapeChar hplain c (by simp), readAfter,
      ih]
    rfl

theorem ofPieces_literal (plain : Char → Bool) (t : Text) :
    ofPieces (t.flatMap (pieces plain)) = t := by
  induction t with
  | nil => rfl
  | cons c t ih =>
    rw [List.flatMap_cons, ofPieces_pieces, ih]
    rfl

/-- A literal is read as the text it was made of. -/
theorem readLiteral_append (hplain : ∀ c, plain c = true → isUnrestricted c = true)
    (t rest : Text) :
    readLiteral (t.flatMap (escapeChar plain) ++ '"' :: rest) = .ok (t.raw, rest) := by
  rw [readLiteral, readPieces_literal hplain]
  exact congrArg (fun raw => Except.ok (raw, rest)) (ofPieces_literal plain t)

theorem spells_literal (hplain : ∀ c, plain c = true → isUnrestricted c = true)
    (t : Text) : SpellsString t (literal plain t) := by
  obtain ⟨u, heq, hu⟩ := spells_of_readLiteral (readLiteral_append hplain t [])
  rw [List.append_nil] at heq
  rw [← heq] at hu
  simpa [literal] using hu

theorem isAsciiPrintable_of_mem_named {d : Char} (hc : c ∈ named) (h : d ∈ escapeChar plain c) :
    isAsciiPrintable d = true := by
  simp only [named, List.mem_cons, List.not_mem_nil, or_false] at hc
  rcases hc with rfl | rfl | rfl | rfl | rfl | rfl | rfl
  all_goals
    obtain rfl | hd := List.mem_cons.1 h
    · rfl
    · cases List.mem_singleton.1 hd
      rfl

theorem isAsciiPrintable_of_mem_units {us : List Nat} {d : Char} (hus : ∀ u ∈ us, u < 0x10000)
    (h : d ∈ us.flatMap escapeUnit) : isAsciiPrintable d = true := by
  obtain ⟨u, hu, hd⟩ := List.mem_flatMap.1 h
  rcases List.mem_append.1 hd with hd | hd
  · obtain rfl | hd := List.mem_cons.1 hd
    · rfl
    · cases List.mem_singleton.1 hd
      rfl
  · exact isAsciiPrintable_of_mem_hex (hus u hu) hd

theorem mem_escapeChar {d : Char} (h : d ∈ escapeChar plain c) :
    isAsciiPrintable d = true ∨ plain d = true := by
  by_cases hnamed : c ∈ named
  · exact .inl (isAsciiPrintable_of_mem_named hnamed h)
  · rw [escapeChar_of_notMem hnamed] at h
    split at h
    · rename_i hc
      cases List.mem_singleton.1 h
      exact .inr hc
    · exact .inl (isAsciiPrintable_of_mem_units (units_lt c) h)

theorem mem_literal {d : Char} (h : d ∈ literal plain t) :
    isAsciiPrintable d = true ∨ plain d = true := by
  rcases List.mem_append.1 h with h | h
  · rcases List.mem_append.1 h with h | h
    · cases List.mem_singleton.1 h
      exact .inl rfl
    · obtain ⟨c, -, hd⟩ := List.mem_flatMap.1 h
      exact mem_escapeChar hd
  · cases List.mem_singleton.1 h
    exact .inl rfl

end Json

end Scaffold
