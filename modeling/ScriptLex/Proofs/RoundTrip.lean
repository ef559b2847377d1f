import ScriptLex.Proofs.Tiling
import ScriptLex.Proofs.Transcript

/-!
# Lexing undoes spelling

Tokens are spelled out as lexemes with blanks between them. Behind each lexeme
stands a blank or the end, so the piece that fits is the lexeme itself and
`reads_of_renders` follows the text from its end to its start. In return,
strict mode finds only tokens that can be spelled.
-/

namespace ScriptLex

-- ---------------------------------------------------------------------------
-- Spelling
-- ---------------------------------------------------------------------------

/-- Tokens that some source spells. `!=` and the end of input have no lexeme, and neither has a
reserved word as an identifier. -/
def Token.IsSpellable : Token → Prop
  | .fixed f => f ≠ .notEqual ∧ f ≠ .endOfInput
  | .ident word =>
    word ≠ "" ∧ (∀ c ∈ word.toList, c.isAlpha = true) ∧ word ∉ ["let", "function", "return"]
  | .number _ => True
  | .string text => '\"' ∉ text.toList

/-- A token as it stands in a source. A number may have zeros in front. -/
def Token.lexeme (zeros : Nat) : Token → List Char
  | .fixed f => f.symbol.toList
  | .ident word => word.toList
  | .number n => List.replicate zeros '0' ++ Nat.toDigits 10 n.toNat
  | .string text => '\"' :: (text.toList ++ ['\"'])

/-- The text holds the lexemes of the tokens in order, and blanks. A blank stands behind every
lexeme but the last, where the text may end. -/
inductive Renders : List Token → List Char → Prop where
  | nil : Renders [] []
  | blank (hc : isBlank c = true) (later : Renders tokens text) : Renders tokens (c :: text)
  | token (zeros : Nat) (hsep : ∀ c ∈ text.head?, isBlank c = true) (later : Renders tokens text) :
      Renders (t :: tokens) (t.lexeme zeros ++ text)

/-- In lenient mode a string starts with a letter. -/
def Token.OpensOnLetter : Token → Prop
  | .string text => startsWithLetter text.toList = true
  | .fixed _ | .ident _ | .number _ => True

-- ---------------------------------------------------------------------------
-- Lexemes are pieces
-- ---------------------------------------------------------------------------

theorem ofKeyword?_eq_none (h : word ∉ ["let", "function", "return"]) :
    Fixed.ofKeyword? word = none := by
  rw [Fixed.ofKeyword?, List.find?_eq_none]
  intro f hf he
  obtain rfl : f.symbol = word := beq_iff_eq.mp he
  refine h ?_
  have hall : ∀ f ∈ Fixed.keywords, f.symbol ∈ ["let", "function", "return"] := by decide
  exact hall f hf

theorem Numeral.denoted_padded (zeros n : Nat) :
    denoted (List.replicate zeros '0' ++ Nat.toDigits 10 n) = n := by
  have hzeros : Nat.ofDigitChars 10 (List.replicate zeros '0') 0 = 0 := by
    induction zeros with
    | zero => rfl
    | succ zeros ih => exact ih
  change Nat.ofDigitChars 10 _ 0 = n
  rw [Nat.ofDigitChars_append, hzeros]
  exact Nat.ofDigitChars_toDigits (by decide) (by decide)

namespace Token

variable {t : Token}

def piece (zeros : Nat) : Token → Piece
  | .fixed f =>
    if f.isKeyword then .word f.symbol.toList else if f = .equal then .equals else .symbol f
  | .ident word => .word word.toList
  | .number n => .number (List.replicate zeros '0' ++ Nat.toDigits 10 n.toNat)
  | .string text => .string text.toList

theorem text_piece (zeros : Nat) (t : Token) : (t.piece zeros).text = t.lexeme zeros := by
  cases t with
  | fixed f => cases f <;> rfl
  | _ => rfl

theorem isRun_of_blank {p : Char → Bool} (hall : ∀ c ∈ text, p c = true) (hne : text ≠ [])
    (hp : ∀ c, isBlank c = true → p c = false) (hsep : ∀ c ∈ rest.head?, isBlank c = true) :
    IsRun p text rest :=
  ⟨⟨hall, fun c hc => hp c (hsep c hc)⟩, hne⟩

theorem fits_piece (zeros : Nat) (ht : t.IsSpellable)
    (hletter : strict = false → t.OpensOnLetter) (hsep : ∀ c ∈ rest.head?, isBlank c = true) :
    (t.piece zeros).Fits strict rest := by
  have halpha (c : Char) (hc : isBlank c = true) : c.isAlpha = false :=
    (class_of_isBlank hc).2.2.2.2
  have hdigit (c : Char) (hc : isBlank c = true) : c.isDigit = false :=
    (class_of_isBlank hc).2.2.2.1
  cases t with
  | fixed f =>
    cases f with
    | notEqual => exact absurd rfl ht.1
    | endOfInput => exact absurd rfl ht.2
    | equal => trivial
    | «let» | function | «return» =>
      refine isRun_of_blank ?_ ?_ halpha hsep
      · simp [Fixed.symbol]
      · simp [Fixed.symbol]
    | leftParen => exact ⟨'(', rfl⟩
    | rightParen => exact ⟨')', rfl⟩
    | leftBrace => exact ⟨'\x7b', rfl⟩
    | rightBrace => exact ⟨'\x7d', rfl⟩
    | comma => exact ⟨',', rfl⟩
    | dot => exact ⟨'.', rfl⟩
    | semicolon => exact ⟨';', rfl⟩
    | plus => exact ⟨'+', rfl⟩
    | minus => exact ⟨'-', rfl⟩
    | star => exact ⟨'*', rfl⟩
    | slash => exact ⟨'/', rfl⟩
  | ident word =>
    obtain ⟨hne, hall, -⟩ := ht
    exact isRun_of_blank hall (by simpa using hne) halpha hsep
  | number n =>
    refine isRun_of_blank (fun c hc => ?_) (by simp [Nat.toDigits_ne_nil]) hdigit hsep
    rcases List.mem_append.mp hc with hc | hc
    · rw [List.eq_of_mem_replicate hc]
      rfl
    · exact Nat.isDigit_of_mem_toDigits (by decide) (by decide) hc
  | string text => exact ⟨ht, hletter⟩

theorem transcript_piece (zeros : Nat) (ht : t.IsSpellable) {c : Cursor}
    (hequal : t = .fixed .equal → c.passed.head? ≠ some '=') :
    (t.piece zeros).transcript strict c = ⟨[.ok t], []⟩ := by
  have hplain {p : Piece} (hw : p.remark? = none)
      (ha : p.answer strict c.passed.head? (c.spanOf p.text) = .ok (some t)) :
      p.transcript strict c = ⟨[.ok t], []⟩ := by
    simp [Piece.transcript, Piece.warning?, hw, ha, item?]
  cases t with
  | fixed f =>
    cases f with
    | notEqual => exact absurd rfl ht.1
    | endOfInput => exact absurd rfl ht.2
    | equal => exact hplain rfl (if_neg fun h => hequal rfl h.2)
    | _ => exact hplain rfl rfl
  | ident word =>
    refine hplain rfl ?_
    simp [piece, Piece.answer, Token.ofWord, ofKeyword?_eq_none ht.2.2]
  | number n =>
    have hsmall : ¬ UInt64.size ≤ n.toNat := Nat.not_le.mpr n.toNat_lt_size
    have hvalue := Numeral.denoted_padded zeros n.toNat
    refine hplain ?_ ?_
    · simp [piece, Piece.remark?, hvalue, hsmall]
    · simp [piece, Piece.answer, hvalue, hsmall]
  | string text => exact hplain rfl (by simp [piece, Piece.answer])

end Token

-- ---------------------------------------------------------------------------
-- Reading what is rendered
-- ---------------------------------------------------------------------------

/-- Only blanks come right behind a lexeme, so no `=` has another one right before it. -/
theorem reads_of_renders (h : Renders tokens text) (ht : ∀ t ∈ tokens, t.IsSpellable)
    (hletter : strict = false → ∀ t ∈ tokens, t.OpensOnLetter) {c : Cursor} (hr : c.rest = text)
    (hprevious : c.passed.head? = some '=' → ∀ ch ∈ text.head?, isBlank ch = true) :
    Reads strict c ⟨tokens.map .ok, []⟩ := by
  induction h generalizing c with
  | nil => exact .done hr
  | blank hc _ ih =>
    refine .blank hr hc (ih ht hletter (Cursor.rest_pass hr) ?_)
    intro he
    obtain rfl : _ = '=' := Option.some.inj he
    contradiction
  | @token tokens text t zeros hsep _ ih =>
    have ht := List.forall_mem_cons.mp ht
    have hfits : (t.piece zeros).Fits strict text :=
      Token.fits_piece zeros ht.1 (fun hs => hletter hs t List.mem_cons_self) hsep
    have hr : c.rest = (t.piece zeros).text ++ text := by rw [hr, Token.text_piece]
    have hequal : t = .fixed .equal → c.passed.head? ≠ some '=' := by
      rintro rfl he
      have hblank := hprevious he '=' rfl
      contradiction
    have hlater := ih ht.2 (fun hs u hu => hletter hs u (List.mem_cons_of_mem t hu))
      (c := c.pass (t.piece zeros).text) (Cursor.rest_pass hr) fun _ => hsep
    have hpiece := Reads.piece hr hfits hlater
    rwa [Token.transcript_piece zeros ht.1 hequal] at hpiece

theorem Renders.ne_nil (h : Renders tokens text) (hne : tokens ≠ [])
    (ht : ∀ t ∈ tokens, t.IsSpellable) : text ≠ [] := by
  induction h with
  | nil => exact absurd rfl hne
  | blank => simp
  | @token tokens text t zeros hsep =>
    have hfits : (t.piece zeros).Fits true text :=
      Token.fits_piece zeros (ht t List.mem_cons_self) (by simp) hsep
    rw [← Token.text_piece]
    exact List.append_ne_nil_of_left_ne_nil (Piece.text_ne_nil hfits) text

theorem transcript_of_renders (h : Renders tokens text) (ht : ∀ t ∈ tokens, t.IsSpellable)
    (hletter : options.isStrict = false → ∀ t ∈ tokens, t.OpensOnLetter) :
    (Lexer.start (String.ofList text) options).transcript = ⟨tokens.map .ok, []⟩ := by
  refine (reads_of_renders h ht hletter ?_ ?_).transcript_eq
    (Lexer.standsIn_start _ options) rfl rfl
  · exact String.toList_ofList
  · intro he
    contradiction

-- ---------------------------------------------------------------------------
-- Tokens of a source
-- ---------------------------------------------------------------------------

theorem isSpellable_of_answers (h : Answers strict span before text after (.ok (some t))) :
    t.IsSpellable := by
  cases t with
  | fixed f =>
    obtain ⟨htext, hkey | ⟨-, c, hc, -⟩⟩ := h
    · constructor <;> rintro rfl <;> exact absurd hkey.1 (by decide)
    · -- The symbols of the two tokens that no source has are not one character long.
      constructor <;> rintro rfl <;> simp [htext, Fixed.symbol] at hc
  | ident word =>
    obtain ⟨rfl, hrun, hword⟩ := h
    exact ⟨by simpa using hrun.ne_nil, hrun.all, hword⟩
  | number n => trivial
  | string text => exact h.1

theorem isSpellable_of_mem_calls {l : Lexer} (hs : l.cursor.StandsIn source) (hc : c ∈ l.calls)
    (ht : c.token? = some t) : t.IsSpellable := by
  obtain ⟨text, after, -, -, hanswers⟩ := Lexer.answers_of_mem_calls hs hc
  have hanswer : c.answer = .ok (some t) := by
    unfold Call.token? at ht
    split at ht
    · simp_all
    · contradiction
  exact isSpellable_of_answers (hanswer ▸ hanswers)

theorem isSpellable_of_lex (hne : source ≠ "") (h : lex source = .ok tokens) :
    ∀ t ∈ tokens, t.IsSpellable := by
  rw [lex_eq_calls hne] at h
  cases herror : (Lexer.start source {}).calls.findSome? Call.error? with
  | some e => simp [herror] at h
  | none =>
    obtain rfl : (Lexer.start source {}).calls.filterMap Call.token? = tokens := by
      simpa [herror] using h
    intro t ht
    obtain ⟨c, hc, htoken⟩ := List.mem_filterMap.mp ht
    exact isSpellable_of_mem_calls (Lexer.standsIn_start source {}) hc htoken

theorem exists_renders (tokens : List Token) : ∃ text, Renders tokens text := by
  induction tokens with
  | nil => exact ⟨[], .nil⟩
  | cons t tokens ih =>
    obtain ⟨text, h⟩ := ih
    refine ⟨t.lexeme 0 ++ ' ' :: text, .token 0 ?_ (.blank rfl h)⟩
    simp [isBlank]

-- ---------------------------------------------------------------------------
-- Round trip
-- ---------------------------------------------------------------------------

/-- Tokens that can be spelled come back from each of their spellings, and in lenient mode too if
their strings start with letters. What strict mode finds in a source are such tokens. -/
theorem lex_renders :
    (∀ tokens text, tokens ≠ [] → (∀ t ∈ tokens, t.IsSpellable) → Renders tokens text →
      lex (String.ofList text) = .ok tokens ∧
        ((∀ t ∈ tokens, t.OpensOnLetter) → ∀ emitEnd,
          lexWith (String.ofList text) ⟨.lenient, emitEnd⟩ =
            .ok ⟨tokens ++ if emitEnd then [Token.endOfInput] else [], []⟩)) ∧
      ∀ source tokens, lex source = .ok tokens → tokens ≠ [] →
        (∀ t ∈ tokens, t.IsSpellable) ∧ (∃ text, Renders tokens text) ∧
          ∀ text, Renders tokens text → lex (String.ofList text) = .ok tokens := by
  have hlex {tokens : List Token} {text : List Char} (hne : tokens ≠ [])
      (ht : ∀ t ∈ tokens, t.IsSpellable) (h : Renders tokens text) :
      lex (String.ofList text) = .ok tokens :=
    lex_of_transcript (by simpa using h.ne_nil hne ht)
      (transcript_of_renders h ht fun hs => nomatch hs)
  constructor
  · intro tokens text hne ht h
    refine ⟨hlex hne ht h, fun hletter emitEnd => ?_⟩
    exact lexWith_of_transcript (fun hs => nomatch hs) (transcript_of_renders h ht fun _ => hletter)
  · intro source tokens h hne
    have hsource : source ≠ "" := by
      rintro rfl
      contradiction
    have ht := isSpellable_of_lex hsource h
    exact ⟨ht, exists_renders tokens, fun text => hlex hne ht⟩

theorem lex_renders_zeros_and_blanks :
    let tokens := [.fixed .«let», .ident "lets", .fixed .equal, .number 7, .string "a="]
    (∀ t ∈ tokens, t.IsSpellable) ∧ (∀ t ∈ tokens, t.OpensOnLetter) ∧
      Renders tokens "\tlet lets\n= 007 \"a=\" ".toList ∧
      lex "\tlet lets\n= 007 \"a=\" " = .ok tokens ∧
      lexWith "\tlet lets\n= 007 \"a=\" " ⟨.lenient, false⟩ = .ok ⟨tokens, []⟩ ∧
      ∃ text, Renders tokens text := by
  intro tokens
  have ht : ∀ t ∈ tokens, t.IsSpellable := by
    simp [tokens, Token.IsSpellable]
  have hletter : ∀ t ∈ tokens, t.OpensOnLetter := by
    simp [tokens, Token.OpensOnLetter, startsWithLetter]
  have hspace : ∀ (rest : List Char), ∀ c ∈ (' ' :: rest).head?, isBlank c = true := by
    rintro rest c ⟨⟩
    rfl
  have hnewline : ∀ (rest : List Char), ∀ c ∈ ('\n' :: rest).head?, isBlank c = true := by
    rintro rest c ⟨⟩
    rfl
  have hrenders : Renders tokens "\tlet lets\n= 007 \"a=\" ".toList :=
    .blank rfl (.token 0 (hspace _) (.blank rfl (.token 0 (hnewline _) (.blank rfl (.token 0
      (hspace _) (.blank rfl (.token 2 (hspace _) (.blank rfl (.token 0 (hspace _)
        (.blank rfl .nil))))))))))
  have hlex := lex_renders.1 tokens _ (by simp [tokens]) ht hrenders
  rw [String.ofList_toList] at hlex
  exact ⟨ht, hletter, hrenders, hlex.1, hlex.2 hletter false,
    (lex_renders.2 _ tokens hlex.1 (by simp [tokens])).2.1⟩

end ScriptLex
