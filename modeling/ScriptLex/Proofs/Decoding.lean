import ScriptLex.Output.Format
import ScriptLex.Proofs.JsonReader
import ScriptLex.Proofs.Rendering

/-!
# Token output can be decoded

In text, every token stands on one line of its own and no two tokens share a
line. In JSON, every token is an object that names its category and holds its
literal, a number as a number. Either way the tokens are determined.
-/

namespace ScriptLex

-- ---------------------------------------------------------------------------
-- Lines of text
-- ---------------------------------------------------------------------------

namespace Text

theorem toList_unlines (ls : List String) :
    (unlines ls).toList = ls.flatMap fun line => line.toList ++ ['\n'] := by
  simp [unlines, String.toList_join, List.flatMap_map]

theorem isLongest_line (hline : OneLine line) (rest : List Char) :
    IsLongest (· != '\n') line.toList ('\n' :: rest) := by
  refine ⟨fun c hc => ?_, ?_⟩
  · rw [bne_iff_ne]
    rintro rfl
    exact hline hc
  · rintro c ⟨⟩
    rfl

theorem unlines_inj {ls ms : List String} (hls : ∀ line ∈ ls, OneLine line)
    (hms : ∀ line ∈ ms, OneLine line) (h : unlines ls = unlines ms) : ls = ms := by
  induction ls generalizing ms with
  | nil =>
    cases ms with
    | nil => rfl
    | cons m ms => simp [unlines] at h
  | cons l ls ih =>
    cases ms with
    | nil => simp [unlines] at h
    | cons m ms =>
      obtain ⟨hl, hls⟩ := List.forall_mem_cons.mp hls
      obtain ⟨hm, hms⟩ := List.forall_mem_cons.mp hms
      have htext : l.toList ++ '\n' :: (unlines ls).toList =
          m.toList ++ '\n' :: (unlines ms).toList := by
        simpa [unlines] using congrArg String.toList h
      have hline := (isLongest_line hl _).unique (isLongest_line hm _) htext
      rw [hline, List.append_cancel_left_eq, List.cons.injEq] at htext
      rw [String.toList_inj.mp hline, ih hls hms (String.toList_inj.mp htext.2)]

theorem count_unlines {ls : List String} (hls : ∀ line ∈ ls, OneLine line) :
    (unlines ls).toList.count '\n' = ls.length := by
  rw [toList_unlines]
  induction ls with
  | nil => rfl
  | cons l ls ih =>
    obtain ⟨hl, hls⟩ := List.forall_mem_cons.mp hls
    rw [List.flatMap_cons, List.count_append, ih hls, List.count_append,
      List.count_eq_zero.mpr hl]
    simp [Nat.add_comm]

end Text

-- ---------------------------------------------------------------------------
-- Tokens on lines
-- ---------------------------------------------------------------------------

namespace Token

theorem oneLine_label (f : Fixed) : OneLine f.label := by
  cases f <;> simp [Fixed.label]

theorem oneLine_quoted (s : String) : OneLine (Text.quoted s) := by
  apply oneLine_ofList
  simpa using fun c _ => (controlFree_escape (by decide) c).newline_notMem

theorem IsSpellable.oneLine_display {t : Token} (h : t.IsSpellable) : OneLine t.display := by
  cases t with
  | fixed f => exact oneLine_label f
  | ident word =>
    have hword : OneLine word := fun hmem => absurd (h.2.1 _ hmem) (by decide)
    exact .append (.append (by simp) hword) (by simp)
  | number n => exact .append (.append (by simp) (oneLine_toString _)) (by simp)
  | string text => exact .append (.append (by simp) (oneLine_quoted text)) (by simp)

theorem ofLabel?_label (k : Kind) : Kind.ofLabel? k.label = some k := by
  cases k with
  | fixed f => cases f <;> rfl
  | ident | number | string => rfl

theorem kind_eq_of_label {s t : Token} (h : s.kind.label = t.kind.label) : s.kind = t.kind := by
  rw [← Option.some_inj, ← ofLabel?_label, h, ofLabel?_label]

theorem cases_of_kind {s t : Token} (h : s.kind = t.kind) :
    s = t ∨ (∃ x y, s = .ident x ∧ t = .ident y) ∨ (∃ m n, s = .number m ∧ t = .number n) ∨
      ∃ x y, s = .string x ∧ t = .string y := by
  cases s <;> cases t <;> simp_all [kind]

theorem toString_inj {m n : Nat} (h : toString m = toString n) : m = n := by
  have hvalue (n : Nat) : Numeral.denoted (toString n).toList = n := by
    simpa using Numeral.denoted_padded 0 n
  rw [← hvalue m, h, hvalue n]

def payload : Token → String
  | .fixed _ => ""
  | .ident text => "(" ++ text ++ ")"
  | .number value => "(" ++ toString value.toNat ++ ")"
  | .string text => "(" ++ Text.quoted text ++ ")"

theorem display_eq (t : Token) : t.display = t.kind.label ++ t.payload := by
  cases t <;> simp [display, payload, kind, Kind.label, ← String.append_assoc]

/-- No category has a bracket in its name, so the first one opens the payload. -/
theorem isLongest_label (t : Token) :
    IsLongest (· != '(') t.kind.label.toList t.payload.toList := by
  constructor
  · intro c hc
    rw [bne_iff_ne]
    rintro rfl
    cases t with
    | fixed f => cases f <;> simp [kind, Kind.label, Fixed.label] at hc
    | _ => simp [kind, Kind.label] at hc
  · intro c hc
    cases t with
    | fixed f => contradiction
    | _ =>
      obtain rfl : '(' = c := by simpa [payload] using hc
      rfl

theorem display_injective : Function.Injective Token.display := by
  intro s t h
  have htext : s.kind.label.toList ++ s.payload.toList =
      t.kind.label.toList ++ t.payload.toList := by
    rw [← String.toList_append, ← String.toList_append, ← display_eq, ← display_eq, h]
  have hlabel := (isLongest_label s).unique (isLongest_label t) htext
  rw [hlabel, List.append_cancel_left_eq, String.toList_inj] at htext
  rcases cases_of_kind (kind_eq_of_label (String.toList_inj.mp hlabel)) with
    rfl | ⟨x, y, rfl, rfl⟩ | ⟨m, n, rfl, rfl⟩ | ⟨x, y, rfl, rfl⟩
  · rfl
  · simpa [payload] using htext
  · have hvalue : toString m.toNat = toString n.toNat := by simpa [payload] using htext
    rw [UInt64.toNat_inj.mp (toString_inj hvalue)]
  · have hquoted : Text.quoted x = Text.quoted y := by simpa [payload] using htext
    rw [Text.quoted_injective hquoted]

-- ---------------------------------------------------------------------------
-- Tokens as objects
-- ---------------------------------------------------------------------------

/-- The object of a token. Text and integers are different literals. -/
def record : Token → Json.Datum
  | .fixed f => .object [("type", .string f.label), ("literal", .string f.symbol)]
  | .ident text => .object [("type", .string "IDENT"), ("literal", .string text)]
  | .number value => .object [("type", .string "NUMBER"), ("literal", .integer value.toNat)]
  | .string text => .object [("type", .string "STRING"), ("literal", .string text)]

theorem datum_toJson (t : Token) : t.toJson.datum = t.record := by
  cases t <;> rfl

theorem depth_toJson (t : Token) : t.toJson.depth = 1 := by
  cases t <;> rfl

theorem exists_record_eq (t : Token) : ∃ literal,
    t.record = .object [("type", .string t.kind.label), ("literal", literal)] := by
  cases t <;> exact ⟨_, rfl⟩

theorem record_injective : Function.Injective record := by
  intro s t h
  have hlabel : s.kind.label = t.kind.label := by
    obtain ⟨_, hs⟩ := exists_record_eq s
    obtain ⟨_, ht⟩ := exists_record_eq t
    rw [hs, ht] at h
    simp_all
  rcases cases_of_kind (kind_eq_of_label hlabel) with
    rfl | ⟨x, y, rfl, rfl⟩ | ⟨m, n, rfl, rfl⟩ | ⟨x, y, rfl, rfl⟩
  · rfl
  · simpa [record] using h
  · have hvalue : (m.toNat : Int) = n.toNat := by simpa [record] using h
    rw [UInt64.toNat_inj.mp (Int.ofNat.inj hvalue)]
  · simpa [record] using h

theorem itemData_map (ts : List Token) : Json.itemData (ts.map toJson) = ts.map record := by
  induction ts with
  | nil => rfl
  | cons t ts ih => rw [List.map_cons, Json.itemData, datum_toJson, ih, List.map_cons]

theorem itemDepth_map_le (ts : List Token) : Json.itemDepth (ts.map toJson) ≤ 1 := by
  induction ts with
  | nil => exact Nat.zero_le 1
  | cons t ts ih =>
    rw [List.map_cons, Json.itemDepth, depth_toJson]
    exact Nat.max_le.mpr ⟨Nat.le_refl 1, ih⟩

theorem read?_writeJson (ts : List Token) :
    Json.read? (writeJson ts) = some (.array (ts.map record)) := by
  rw [writeJson, Json.read?_print, Json.Value.datum, itemData_map]
  exact Nat.le_trans (Nat.succ_le_succ (itemDepth_map_le ts)) (by decide)

end Token

-- ---------------------------------------------------------------------------
-- Whole runs
-- ---------------------------------------------------------------------------

/-- Strict mode refuses an empty source, so a run that ends well starts on one that it may. -/
theorem nonempty_of_lexWith {options : Options} (h : lexWith source options = .ok lexed) :
    options.isStrict = true → source ≠ "" := by
  cases hl : Lexer.start? source options with
  | error e => simp [lexWith, hl, bind, Except.bind] at h
  | ok l => exact (Lexer.eq_start_of_start? hl).2

theorem oneLine_of_lexWith {options : Options} (h : lexWith source options = .ok lexed) :
    ∀ line ∈ lexed.tokens.map Token.display, OneLine line := by
  rw [lexWith_eq_calls (nonempty_of_lexWith h)] at h
  split at h
  · contradiction
  · cases h
    intro line hline
    obtain ⟨t, ht, rfl⟩ := List.mem_map.mp hline
    rcases List.mem_append.mp ht with ht | ht
    · obtain ⟨c, hc, htoken⟩ := List.mem_filterMap.mp ht
      exact (isSpellable_of_mem_calls (Lexer.standsIn_start source options) hc
        htoken).oneLine_display
    · split at ht
      · obtain rfl := List.mem_singleton.mp ht
        exact Token.oneLine_label .endOfInput
      · contradiction

/-- Text output has a line for every token and no other line, and only one run of tokens has this
output. JSON output, read as any JSON text, has an object for every token, and only one list of
tokens has these objects. -/
theorem write_decodes :
    (∀ source options lexed, lexWith source options = .ok lexed →
      (Token.write lexed.tokens .text).toList =
          (lexed.tokens.map Token.display).flatMap (fun line => line.toList ++ ['\n']) ∧
        (∀ line ∈ lexed.tokens.map Token.display, '\n' ∉ line.toList) ∧
        (Token.write lexed.tokens .text).toList.count '\n' = lexed.tokens.length ∧
        ∀ source' options' lexed', lexWith source' options' = .ok lexed' →
          Token.write lexed.tokens .text = Token.write lexed'.tokens .text →
            lexed.tokens = lexed'.tokens) ∧
      (∀ ts, Json.read? (Token.write ts .json) = some (.array (ts.map Token.record))) ∧
      ∀ ts us : List Token, ts.map Token.record = us.map Token.record → ts = us := by
  refine ⟨fun source options lexed h => ?_, Token.read?_writeJson,
    fun ts us h => Token.record_injective.list_map h⟩
  have hlines := oneLine_of_lexWith h
  refine ⟨Text.toList_unlines _, hlines, ?_, fun source' options' lexed' h' heq => ?_⟩
  · rw [Token.write, Token.writeText, Text.count_unlines hlines, List.length_map]
  · exact Token.display_injective.list_map
      (Text.unlines_inj hlines (oneLine_of_lexWith h') heq)

theorem write_decodes_text_over_two_lines :
    let tokens := [.string "a\nb", .number 18446744073709551615]
    lexWith "\"a\nb\" 18446744073709551615" {} = .ok ⟨tokens, []⟩ ∧
      (∃ lexed, lexWith "\"a\nb\"\n0018446744073709551615" ⟨.lenient, false⟩ = .ok lexed ∧
        tokens = lexed.tokens) ∧
      Token.write tokens .text = "STRING(\"a\\nb\")\nNUMBER(18446744073709551615)\n" ∧
      (Token.write tokens .text).toList.count '\n' = 2 ∧
      tokens.map Token.record =
        [.object [("type", .string "STRING"), ("literal", .string "a\nb")],
          .object [("type", .string "NUMBER"), ("literal", .integer 18446744073709551615)]] := by
  intro tokens
  have h : lexWith "\"a\nb\" 18446744073709551615" {} = .ok ⟨tokens, []⟩ := by
    decide +kernel
  have h' : lexWith "\"a\nb\"\n0018446744073709551615" ⟨.lenient, false⟩ = .ok ⟨tokens, []⟩ := by
    decide +kernel
  obtain ⟨-, -, hcount, hunique⟩ := write_decodes.1 _ _ _ h
  exact ⟨h, ⟨_, h', hunique _ _ _ h' rfl⟩, by decide +kernel, hcount, rfl⟩

end ScriptLex
